import FormRules.Proofs.Agreement
import FormRules.Proofs.ConditionReads
import FormRules.Proofs.EscapedText
import FormRules.Proofs.NumberText
import Mathlib.Data.List.Forall2
import Mathlib.Data.List.Perm.Basic

/-! Values with the same canonical text are the same document: they differ in the order of their names at most, and
where other data is written as text, in whether it is text. -/

namespace FormRules

/-- What each item comes to in a list of results without a fault. -/
theorem Fault.forall₂_of_mapM_ok {α β : Type} {f : α → Except Fault β} {items : List α} {results : List β}
    (ended : items.mapM f = .ok results) : List.Forall₂ (fun item result => f item = .ok result) items results := by
  induction items generalizing results with
  | nil =>
    cases ended
    exact .nil
  | cons first rest ih =>
    rw [List.mapM_cons] at ended
    obtain ⟨here, found, ended⟩ := of_bind_ok ended
    obtain ⟨others, later, ended⟩ := of_bind_ok ended
    cases ended
    exact .cons found (ih later)

namespace Json

/-- The text that a value is written as between quotes; data that is no text only where that is allowed. -/
def textOf? (asText : Bool) : Value → Option String
  | .text text => some text
  | .date date => if asText then some (Scalar.date date).shown else none
  | .moment moment => if asText then some (Scalar.moment moment).shown else none
  | .handle name => if asText then some (Value.handle name).shown else none
  | _ => none

theorem eq_text_of_textOf? {value : Value} {text : String} (shown : textOf? false value = some text) :
    value = .text text := by
  unfold textOf? at shown
  split at shown <;> cases shown
  rfl

mutual

/-- Values that are the same document, whatever the order of their names. -/
inductive SameDocument (asText : Bool) : Value → Value → Prop
  | scalar (scalar : Scalar) : SameDocument asText (.scalar scalar) (.scalar scalar)
  | handle (name : String) : SameDocument asText (.handle name) (.handle name)
  | text {value other : Value} {text : String} : textOf? asText value = some text → textOf? asText other = some text →
      SameDocument asText value other
  | list {items others : List Value} : List.Forall₂ (SameDocument asText) items others →
      SameDocument asText (.list items) (.list others)
  | object {fields others arranged : Fields} : arranged.Perm others → List.Forall₂ (SameField asText) fields arranged →
      SameDocument asText (.object fields) (.object others)

inductive SameField (asText : Bool) : Scalar × Value → Scalar × Value → Prop
  | keyed {key : Scalar} {value value' : Value} : SameDocument asText value value' →
      SameField asText (key, value) (key, value')
  | named {key other : Scalar} {name : String} {value value' : Value} : nameOf key = .ok name → nameOf other = .ok name →
      SameDocument asText value value' → SameField asText (key, value) (other, value')

end

theorem SameDocument.refl (asText : Bool) (value : Value) : SameDocument asText value value := by
  induction value using Value.nested_induction with
  | scalar s => exact .scalar s
  | list items ih => exact .list (List.forall₂_same.mpr ih)
  | object fields ih => exact .object (.refl fields) (List.forall₂_same.mpr fun field member => .keyed (ih field member))
  | handle name => exact .handle name

theorem SameDocument.of_text {asText : Bool} {text : String} {other : Value}
    (same : SameDocument asText (.text text) other) : textOf? asText other = some text := by
  cases same with
  | scalar _ => rfl
  | text shown shown' =>
    cases shown
    exact shown'

/-- Whether a scalar is data that JSON knows, and not a date or a moment. -/
def isPlainScalar : Scalar → Bool
  | .date _ | .moment _ => false
  | _ => true

/-- Values that JSON knows, which hold neither dates nor functions. -/
inductive IsPlain : Value → Prop
  | scalar {scalar : Scalar} : isPlainScalar scalar = true → IsPlain (.scalar scalar)
  | list {items : List Value} : (∀ item ∈ items, IsPlain item) → IsPlain (.list items)
  | object {fields : Fields} : (∀ field ∈ fields, IsPlain field.2) → IsPlain (.object fields)

theorem IsPlain.textOf? {value : Value} (plain : IsPlain value) (asText : Bool) :
    Json.textOf? asText value = Json.textOf? false value := by
  cases plain with
  | @scalar scalar known =>
    cases scalar with
    | date date | moment moment => cases known
    | _ => rfl
  | list _ => rfl
  | object _ => rfl

theorem forall₂_of_mem {α β : Type} {before after : α → β → Prop} {items : List α} {others : List β}
    (related : List.Forall₂ before items others)
    (step : ∀ item ∈ items, ∀ other ∈ others, before item other → after item other) : List.Forall₂ after items others := by
  induction related with
  | nil => exact .nil
  | cons here _ ih =>
    refine .cons (step _ List.mem_cons_self _ List.mem_cons_self here) (ih fun item member other member' => ?_)
    exact step item (List.mem_cons_of_mem _ member) other (List.mem_cons_of_mem _ member')

/-- Plain values that are the same document differ in the order of names only. -/
theorem SameDocument.of_plain {value : Value} : ∀ {other : Value}, SameDocument true value other → IsPlain value →
    IsPlain other → SameDocument false value other := by
  induction value using Value.nested_induction with
  | scalar s =>
    intro other same plain plain'
    cases same with
    | scalar _ => exact .scalar s
    | text shown shown' => exact .text (plain.textOf? true ▸ shown) (plain'.textOf? true ▸ shown')
  | handle name => exact nofun
  | list items ih =>
    intro other same plain plain'
    cases same with
    | text shown _ => cases shown
    | list related =>
      cases plain with
      | list each =>
        cases plain' with
        | list each' =>
          exact .list (forall₂_of_mem related fun item member other member' same =>
            ih item member same (each item member) (each' other member'))
  | object fields ih =>
    intro other same plain plain'
    cases same with
    | text shown _ => cases shown
    | object perm related =>
      cases plain with
      | object each =>
        cases plain' with
        | object each' =>
          refine .object perm (forall₂_of_mem related fun field member other member' same => ?_)
          have plain := each field member
          have plain' := each' other (perm.subset member')
          cases same with
          | keyed same => exact .keyed (ih _ member same plain plain')
          | named found found' same => exact .named found found' (ih _ member same plain plain')

/-! What is written of plain data ends where its characters end. -/

/-- What follows a value in a document does not go on with it. -/
def Ended (rest : List Char) : Prop := ∀ c, rest.head? = some c → Number.isPlainChar c = false

theorem ended_cons {c : Char} (mark : Number.isPlainChar c = false) (rest : List Char) : Ended (c :: rest) := by
  rintro _ ⟨⟩
  exact mark

theorem plain_append_inj {first second x y : List Char} (left : ∀ c ∈ first, Number.isPlainChar c = true)
    (right : ∀ c ∈ second, Number.isPlainChar c = true) (ended : Ended x) (ended' : Ended y)
    (same : first ++ x = second ++ y) : first = second ∧ x = y := by
  obtain ⟨taken, dropped⟩ := Number.span_append left ended
  obtain ⟨taken', dropped'⟩ := Number.span_append right ended'
  exact ⟨by rw [← taken, ← taken', same], by rw [← dropped, ← dropped', same]⟩

/-- The word of a value that is written without quotes or brackets. -/
def wordOf? : Scalar → Option String
  | .null => some "null"
  | .bool b => some (writeBool b)
  | .number n => some (writeNumber n)
  | _ => none

theorem wordOf?_plain {scalar : Scalar} {word : String} (written : wordOf? scalar = some word) :
    word.toList ≠ [] ∧ ∀ c ∈ word.toList, Number.isPlainChar c = true := by
  cases scalar with
  | null =>
    cases written
    exact ⟨by decide, List.all_eq_true.mp (by decide)⟩
  | bool b =>
    cases written
    cases b <;> exact ⟨by decide, List.all_eq_true.mp (by decide)⟩
  | number n =>
    cases written
    refine ⟨?_, Number.writeNumber_plain n⟩
    obtain ⟨c, rest, shape, _⟩ := n.unsigned_head
    rw [Number.writeNumber_eq, String.toList_ofList, shape]
    simp
  | text s => cases written
  | date d => cases written
  | moment m => cases written

/-- Whether a word starts as no number does. -/
def isOtherWord (word : String) : Bool :=
  word.toList.head?.any fun c => c != '-' && !c.isDigit && c != 'N' && c != 'I'

theorem writeNumber_ne (n : Number) {word : String} (other : isOtherWord word = true) : writeNumber n ≠ word := by
  rintro rfl
  obtain ⟨c, rest, shape, kind⟩ := n.unsigned_head
  rw [isOtherWord, Number.writeNumber_eq, String.toList_ofList, shape] at other
  cases sign : n.hasSign with
  | true =>
    rw [sign] at other
    cases other
  | false =>
    rw [sign] at other
    replace other : (c != '-' && !c.isDigit && c != 'N' && c != 'I') = true := other
    split at kind <;> simp [kind] at other

theorem wordOf?_inj {first second : Scalar} {word : String} (left : wordOf? first = some word)
    (right : wordOf? second = some word) : first = second := by
  have unnamed {n : Number} : writeNumber n ≠ "null" := writeNumber_ne n rfl
  have untrue {n : Number} {b : Bool} : writeNumber n ≠ writeBool b := by
    cases b <;> exact writeNumber_ne n rfl
  have truth {b : Bool} : writeBool b ≠ "null" := by cases b <;> decide
  cases first <;> cases second <;> simp only [wordOf?, Option.some.injEq, reduceCtorEq] at left right <;> subst left
  case null.null => rfl
  case null.bool => exact absurd right truth
  case null.number => exact absurd right unnamed
  case bool.null => exact absurd right.symm truth
  case bool.bool b b' => cases b <;> cases b' <;> first | rfl | exact absurd right (by decide)
  case bool.number => exact absurd right untrue
  case number.null => exact absurd right.symm unnamed
  case number.bool => exact absurd right.symm untrue
  case number.number => rw [Number.writeNumber_inj right]

/-! Entries between brackets are told apart by what separates them. -/

section Entries

variable {α : Type} {written : α → String → Prop} {same : α → α → Prop} {close : Char}

/-- The entries after the first one, and what ends them. -/
def furtherEntries (texts : List String) (close : Char) (rest : List Char) : List Char :=
  texts.flatMap (fun text => ',' :: ' ' :: text.toList) ++ close :: rest

theorem ended_furtherEntries (texts : List String) (mark : Number.isPlainChar close = false) (rest : List Char) :
    Ended (furtherEntries texts close rest) := by
  cases texts with
  | nil => exact ended_cons mark rest
  | cons text texts => exact ended_cons rfl _

theorem intercalate_cons (text : String) (texts : List String) (close : Char) (rest : List Char) :
    (String.intercalate ", " (text :: texts)).toList ++ close :: rest =
      text.toList ++ furtherEntries texts close rest := by
  rw [String.toList_intercalate, furtherEntries, ← List.append_assoc]
  congr 1
  induction texts generalizing text with
  | nil => simp
  | cons next texts ih =>
    rw [List.map_cons, List.map_cons, List.intercalate_cons_cons, ← List.map_cons, ih next, List.flatMap_cons]
    simp

/-- Whether each of some entries can be told apart from others, wherever it ends. -/
def ToldApart (written : α → String → Prop) (same : α → α → Prop) (entry : α) : Prop :=
  ∀ ⦃other text text' x y⦄, written entry text → written other text' → Ended x → Ended y →
    text.toList ++ x = text'.toList ++ y → same entry other ∧ x = y

theorem furtherEntries_inj {entries others : List α} {texts texts' : List String} {x y : List Char}
    (mark : Number.isPlainChar close = false) (apart : close ≠ ',')
    (each : ∀ entry ∈ entries, ToldApart written same entry) (left : List.Forall₂ written entries texts)
    (right : List.Forall₂ written others texts')
    (equal : furtherEntries texts close x = furtherEntries texts' close y) :
    List.Forall₂ same entries others ∧ x = y := by
  induction left generalizing others texts' with
  | nil =>
    cases right with
    | nil => exact ⟨.nil, (List.cons.inj equal).2⟩
    | cons _ _ => exact absurd (List.cons.inj equal).1 apart
  | cons here _ ih =>
    cases right with
    | nil => exact absurd (List.cons.inj equal).1.symm apart
    | cons here' later' =>
      obtain ⟨first, rest⟩ := List.forall_mem_cons.mp each
      simp only [furtherEntries, List.flatMap_cons, List.append_assoc, List.cons_append, List.cons.injEq, true_and] at equal
      obtain ⟨one, equal⟩ := first here here' (ended_furtherEntries _ mark x) (ended_furtherEntries _ mark y) equal
      obtain ⟨more, ends⟩ := ih rest later' equal
      exact ⟨.cons one more, ends⟩

theorem intercalate_inj {entries others : List α} {texts texts' : List String} {x y : List Char}
    (mark : Number.isPlainChar close = false) (apart : close ≠ ',')
    (each : ∀ entry ∈ entries, ToldApart written same entry)
    (starts : ∀ entry text, written entry text → ∃ c rest, text.toList = c :: rest ∧ c ≠ close)
    (left : List.Forall₂ written entries texts) (right : List.Forall₂ written others texts')
    (equal : (String.intercalate ", " texts).toList ++ close :: x = (String.intercalate ", " texts').toList ++ close :: y) :
    List.Forall₂ same entries others ∧ x = y := by
  cases left with
  | nil =>
    cases right with
    | nil => exact ⟨.nil, (List.cons.inj equal).2⟩
    | cons here later =>
      obtain ⟨c, rest, shape, other⟩ := starts _ _ here
      rw [intercalate_cons, shape] at equal
      exact absurd (List.cons.inj equal).1.symm other
  | cons here later =>
    cases right with
    | nil =>
      obtain ⟨c, rest, shape, other⟩ := starts _ _ here
      rw [intercalate_cons, shape] at equal
      exact absurd (List.cons.inj equal).1 other
    | cons here' later' =>
      obtain ⟨first, rest⟩ := List.forall_mem_cons.mp each
      rw [intercalate_cons, intercalate_cons] at equal
      obtain ⟨one, equal⟩ := first here here' (ended_furtherEntries _ mark x) (ended_furtherEntries _ mark y) equal
      obtain ⟨more, ends⟩ := furtherEntries_inj mark apart rest later later' equal
      exact ⟨.cons one more, ends⟩

end Entries

/-! Sorting only reorders. -/

theorem insertByKey_perm {α : Type} {key : Scalar} {entry : α} {entries sorted : List (Scalar × α)}
    (ended : insertByKey key entry entries = .ok sorted) : sorted.Perm ((key, entry) :: entries) := by
  induction entries generalizing sorted with
  | nil =>
    cases ended
    exact .refl _
  | cons first rest ih =>
    obtain ⟨other, old⟩ := first
    unfold insertByKey at ended
    obtain ⟨less, _, ended⟩ := Fault.of_bind_ok ended
    cases less with
    | true =>
      cases ended
      exact .refl _
    | false =>
      obtain ⟨later, found, ended⟩ := Fault.of_bind_ok ended
      cases ended
      exact ((ih found).cons _).trans (.swap _ _ _)

theorem sortByKey_perm {α : Type} {entries sorted : List (Scalar × α)} (ended : sortByKey entries = .ok sorted) :
    sorted.Perm entries := by
  have step {entries before sorted : List (Scalar × α)}
      (ended : entries.foldlM (fun sorted entry => insertByKey entry.1 entry.2 sorted) before = .ok sorted) :
      sorted.Perm (entries ++ before) := by
    induction entries generalizing before with
    | nil =>
      cases ended
      exact .refl _
    | cons entry entries ih =>
      obtain ⟨next, inserted, ended⟩ := Fault.of_bind_ok ended
      exact (ih ended).trans ((insertByKey_perm inserted).append_left entries |>.trans List.perm_middle)
  have all : sorted.Perm (entries ++ []) := step ended
  rwa [List.append_nil] at all

/-! How the canonical text of a value looks. -/

/-- The text of a field: its name, and what is written of its value. -/
inductive FieldWritten (asText : Bool) : Scalar × Value → String → Prop
  | intro {key : Scalar} {name : String} {value : Value} {text : String} : nameOf key = .ok name →
      canonical asText value = .ok text → FieldWritten asText (key, value) (writeText .ascii name ++ ": " ++ text)

inductive Looks (asText : Bool) : Value → List Char → Prop
  | text {value : Value} {text : String} : textOf? asText value = some text →
      Looks asText value (writeText .ascii text).toList
  | word {scalar : Scalar} {word : String} : wordOf? scalar = some word → Looks asText (.scalar scalar) word.toList
  | list {items : List Value} {texts : List String} :
      List.Forall₂ (fun item text => canonical asText item = .ok text) items texts →
      Looks asText (.list items) ('[' :: ((String.intercalate ", " texts).toList ++ [']']))
  | object {fields arranged : Fields} {texts : List String} : arranged.Perm fields →
      List.Forall₂ (FieldWritten asText) arranged texts →
      Looks asText (.object fields) ('\x7b' :: ((String.intercalate ", " texts).toList ++ ['\x7d']))

theorem canonicalItems_eq_mapM (asText : Bool) (items : List Value) :
    canonicalItems asText items = items.mapM (canonical asText) := by
  induction items with
  | nil => rfl
  | cons item items ih => rw [canonicalItems, List.mapM_cons, ih]

theorem canonicalFields_eq_map (asText : Bool) (fields : Fields) :
    canonicalFields asText fields = fields.map fun field => (field.1, canonical asText field.2) := by
  induction fields with
  | nil => rfl
  | cons field fields ih => rw [canonicalFields, ih, List.map_cons]

/-- A reordered image is the image of a reordering. -/
theorem exists_perm_of_perm_map {α β : Type} {f : α → β} {items : List α} {images : List β}
    (perm : images.Perm (items.map f)) : ∃ arranged : List α, arranged.Perm items ∧ images = arranged.map f := by
  have pairs : List.Forall₂ (fun image item => image = f item) (items.map f) items := by
    rw [List.forall₂_map_left_iff]
    exact List.forall₂_same.mpr fun _ _ => rfl
  obtain ⟨arranged, related, perm⟩ := List.perm_comp_forall₂ perm pairs
  refine ⟨arranged, perm, ?_⟩
  rw [← List.forall₂_eq_eq_eq, List.forall₂_map_right_iff]
  exact related

theorem canonical_looks {asText : Bool} {value : Value} {text : String} (ended : canonical asText value = .ok text) :
    Looks asText value text.toList := by
  cases value with
  | scalar scalar =>
    have ended : writeScalar .ascii asText scalar = .ok text := ended
    cases scalar with
    | null | bool b | number n =>
      cases ended
      exact .word rfl
    | text s =>
      cases ended
      exact .text rfl
    | date d | moment m =>
      cases asText with
      | true =>
        rw [← Except.ok.inj ended]
        exact .text (by simp only [textOf?, if_true])
      | false => cases ended
  | list items =>
    unfold canonical at ended
    obtain ⟨texts, inner, ended⟩ := Fault.of_bind_ok ended
    cases ended
    rw [canonicalItems_eq_mapM] at inner
    simpa using Looks.list (Fault.forall₂_of_mapM_ok inner)
  | object fields =>
    unfold canonical at ended
    obtain ⟨sorted, arranging, ended⟩ := Fault.of_bind_ok ended
    obtain ⟨texts, inner, ended⟩ := Fault.of_bind_ok ended
    cases ended
    have perm := sortByKey_perm arranging
    rw [canonicalFields_eq_map] at perm
    obtain ⟨arranged, reordered, rfl⟩ := exists_perm_of_perm_map perm
    have written := Fault.forall₂_of_mapM_ok inner
    rw [List.forall₂_map_left_iff] at written
    have fields : List.Forall₂ (FieldWritten asText) arranged texts := by
      refine written.imp fun field line found => ?_
      obtain ⟨name, named, found⟩ := Fault.of_bind_ok found
      obtain ⟨text, inner, found⟩ := Fault.of_bind_ok found
      cases found
      exact .intro named inner
    simpa using Looks.object reordered fields
  | handle name =>
    cases asText with
    | true =>
      rw [← Except.ok.inj ended]
      exact .text (by simp only [textOf?, if_true])
    | false => cases ended

/-- What the text of a value starts with; for all words the same letter stands. -/
def openingOf (asText : Bool) (value : Value) : Char :=
  if (textOf? asText value).isSome then quote
  else
    match value with
    | .list _ => '['
    | .object _ => '\x7b'
    | _ => 'a'

theorem textOf?_of_word {asText : Bool} {scalar : Scalar} {word : String} (written : wordOf? scalar = some word) :
    textOf? asText (.scalar scalar) = none := by
  cases scalar with
  | null | bool b | number n => rfl
  | text s | date d | moment m => cases written

theorem openingOf_text {asText : Bool} {value : Value} {text : String} (shown : textOf? asText value = some text) :
    openingOf asText value = quote := by
  unfold openingOf
  rw [shown]
  rfl

theorem openingOf_word {asText : Bool} {scalar : Scalar} {word : String} (written : wordOf? scalar = some word) :
    openingOf asText (.scalar scalar) = 'a' := by
  unfold openingOf
  rw [textOf?_of_word written]
  rfl

theorem openingOf_list (asText : Bool) (items : List Value) : openingOf asText (.list items) = '[' := rfl

theorem openingOf_object (asText : Bool) (fields : Fields) : openingOf asText (.object fields) = '\x7b' := rfl

theorem Looks.opening {asText : Bool} {value : Value} {chars : List Char} (looks : Looks asText value chars) :
    ∃ c rest, chars = c :: rest ∧ openingOf asText value = if Number.isPlainChar c then 'a' else c := by
  cases looks with
  | text shown => exact ⟨quote, _, by rw [writeText, String.toList_ofList]; rfl, openingOf_text shown⟩
  | word written =>
    obtain ⟨some, plain⟩ := wordOf?_plain written
    obtain ⟨c, rest, shape⟩ := List.exists_cons_of_ne_nil some
    rw [shape] at plain
    exact ⟨c, rest, shape, by rw [openingOf_word written, if_pos (plain c List.mem_cons_self)]⟩
  | list _ => exact ⟨'[', _, rfl, rfl⟩
  | object _ _ => exact ⟨'\x7b', _, rfl, rfl⟩

theorem Looks.starts {asText : Bool} {value : Value} {chars : List Char} (looks : Looks asText value chars) {close : Char}
    (closing : close = ']' ∨ close = '\x7d') : ∃ c rest, chars = c :: rest ∧ c ≠ close := by
  obtain ⟨c, rest, shape, opens⟩ := looks.opening
  refine ⟨c, rest, shape, ?_⟩
  rintro rfl
  have open' : openingOf asText value ≠ ']' ∧ openingOf asText value ≠ '\x7d' := by
    unfold openingOf
    split
    · decide
    · split <;> decide
  obtain rfl | rfl := closing
  · exact open'.1 opens
  · exact open'.2 opens

/-- Of each field the text tells where it ends, and which field it is, if that holds of its value. -/
theorem fieldWritten_toldApart {asText : Bool} {field : Scalar × Value}
    (inner : ToldApart (canonical asText · = .ok ·) (SameDocument asText) field.2) :
    ToldApart (FieldWritten asText) (SameField asText) field := by
  rintro _ _ _ x y ⟨named, written⟩ ⟨named', written'⟩ ended ended' equal
  simp only [String.toList_append, List.append_assoc] at equal
  obtain ⟨rfl, rest⟩ := writeText_append_inj equal
  obtain ⟨same, ends⟩ := inner written written' ended ended' (List.append_cancel_left rest)
  exact ⟨.named named named' same, ends⟩

theorem looks_inj {asText : Bool} {value other : Value} {chars chars' x y : List Char}
    (items : ∀ items, value = .list items → ∀ item ∈ items, ToldApart (canonical asText · = .ok ·) (SameDocument asText) item)
    (fields : ∀ fields : Fields, value = .object fields →
      ∀ field ∈ fields, ToldApart (canonical asText · = .ok ·) (SameDocument asText) field.2)
    (left : Looks asText value chars) (right : Looks asText other chars') (ended : Ended x) (ended' : Ended y)
    (equal : chars ++ x = chars' ++ y) : SameDocument asText value other ∧ x = y := by
  have opens : openingOf asText value = openingOf asText other := by
    obtain ⟨c, _, shape, opens⟩ := left.opening
    obtain ⟨d, _, shape', opens'⟩ := right.opening
    rw [shape, shape'] at equal
    obtain ⟨rfl, _⟩ := List.cons.inj equal
    rw [opens, opens']
  cases left with
  | text shown =>
    rw [openingOf_text shown] at opens
    cases right with
    | text shown' =>
      obtain ⟨rfl, ends⟩ := writeText_append_inj equal
      exact ⟨.text shown shown', ends⟩
    | word written => exact absurd (opens.trans (openingOf_word written)) (by decide)
    | list _ => exact absurd (opens.trans (openingOf_list ..)) (by decide)
    | object _ _ => exact absurd (opens.trans (openingOf_object ..)) (by decide)
  | word written =>
    rw [openingOf_word written] at opens
    cases right with
    | text shown => exact absurd (opens.trans (openingOf_text shown)) (by decide)
    | word written' =>
      obtain ⟨same, ends⟩ := plain_append_inj (wordOf?_plain written).2 (wordOf?_plain written').2 ended ended' equal
      obtain rfl := String.toList_injective same
      obtain rfl := wordOf?_inj written written'
      exact ⟨.scalar _, ends⟩
    | list _ => exact absurd (opens.trans (openingOf_list ..)) (by decide)
    | object _ _ => exact absurd (opens.trans (openingOf_object ..)) (by decide)
  | list texts =>
    rw [openingOf_list] at opens
    cases right with
    | text shown => exact absurd (opens.trans (openingOf_text shown)) (by decide)
    | word written => exact absurd (opens.trans (openingOf_word written)) (by decide)
    | list texts' =>
      simp only [List.cons_append, List.append_assoc, List.nil_append, List.cons.injEq, true_and] at equal
      obtain ⟨same, ends⟩ := intercalate_inj rfl (by decide) (items _ rfl)
        (fun _ _ written => (canonical_looks written).starts (.inl rfl)) texts texts' equal
      exact ⟨.list same, ends⟩
    | object _ _ => exact absurd (opens.trans (openingOf_object ..)) (by decide)
  | object perm texts =>
    rw [openingOf_object] at opens
    cases right with
    | text shown => exact absurd (opens.trans (openingOf_text shown)) (by decide)
    | word written => exact absurd (opens.trans (openingOf_word written)) (by decide)
    | list _ => exact absurd (opens.trans (openingOf_list ..)) (by decide)
    | object perm' texts' =>
      simp only [List.cons_append, List.append_assoc, List.nil_append, List.cons.injEq, true_and] at equal
      obtain ⟨same, ends⟩ := intercalate_inj rfl (by decide)
        (fun field member => fieldWritten_toldApart (fields _ rfl field (perm.subset member)))
        (fun _ _ written => by
          cases written
          exact ⟨quote, _, by rw [String.toList_append, String.toList_append, writeText, String.toList_ofList]; rfl, by decide⟩)
        texts texts' equal
      obtain ⟨arranged, related, reordered⟩ := List.perm_comp_forall₂ perm.symm same
      exact ⟨.object (reordered.trans perm') related, ends⟩

/-- Of each value the canonical text tells where it ends, and which document it is. -/
theorem canonical_toldApart (asText : Bool) (value : Value) :
    ToldApart (canonical asText · = .ok ·) (SameDocument asText) value := by
  induction value using Value.nested_induction with
  | scalar s =>
    exact fun _ _ _ _ _ written written' => looks_inj nofun nofun (canonical_looks written) (canonical_looks written')
  | list items ih =>
    refine fun _ _ _ _ _ written written' => looks_inj ?_ nofun (canonical_looks written) (canonical_looks written')
    rintro _ ⟨⟩
    exact ih
  | object fields ih =>
    refine fun _ _ _ _ _ written written' => looks_inj nofun ?_ (canonical_looks written) (canonical_looks written')
    rintro _ ⟨⟩
    exact ih
  | handle name =>
    exact fun _ _ _ _ _ written written' => looks_inj nofun nofun (canonical_looks written) (canonical_looks written')

/-- Values with the same canonical text are the same document. -/
theorem sameDocument_of_canonical {asText : Bool} {value other : Value} {text : String}
    (written : canonical asText value = .ok text) (written' : canonical asText other = .ok text) :
    SameDocument asText value other :=
  (canonical_toldApart asText value written written' (x := []) (y := []) nofun nofun rfl).1

end Json

end FormRules
