import FormRules.Condition.Names
import FormRules.Proofs.Agreement
import FormRules.Proofs.PathLookup

/-! The fields that a condition reads when it is evaluated, and how far they are covered by the names that
are found in it beforehand. An object with the one key "field" is evaluated as the test of a field of
that name, but searched as one that spells out its field: then the name "field" is missed. -/

namespace FormRules

/-- What holds of plain data and handles, and of lists and objects if it holds of all in them, holds of
every value. -/
@[elab_as_elim]
theorem Value.nested_induction {property : Value → Prop} (scalar : ∀ s, property (.scalar s))
    (list : ∀ items, (∀ item ∈ items, property item) → property (.list items))
    (object : ∀ fields : Fields, (∀ field ∈ fields, property field.2) → property (.object fields))
    (handle : ∀ name, property (.handle name)) (value : Value) : property value := by
  refine @Value.rec property (fun items => ∀ item ∈ items, property item)
    (fun fields => ∀ field ∈ fields, property field.2) (fun field => property field.2)
    scalar list object handle (List.forall_mem_nil _) ?items (List.forall_mem_nil _) ?fields ?field value
  case items => exact fun _ _ first rest => List.forall_mem_cons.mpr ⟨first, rest⟩
  case fields => exact fun _ _ first rest => List.forall_mem_cons.mpr ⟨first, rest⟩
  case field => exact fun _ _ inner => inner

namespace Condition

mutual

/-- The fields that evaluating a condition may read. -/
def reads : Condition → List Value
  | .always => []
  | .all members | .any members => readsOfAll members
  | .negation inner => reads inner
  | .test field _ _ | .oneOf field _ | .equals field _ => [field]

def readsOfAll : List Condition → List Value
  | [] => []
  | member :: members => reads member ++ readsOfAll members

end

section Sources

variable {first second : Source}

mutual

/-- Sources that are alike on what a condition reads make it come out alike. -/
theorem evaluate_alike : (condition : Condition) →
    (∀ field ∈ reads condition, Alike (first field) (second field)) →
    Alike (evaluate first condition) (evaluate second condition)
  | .always, _ => .refl _
  | .all members, agree => evaluateAll_alike members agree
  | .any members, agree => evaluateAny_alike members agree
  | .negation inner, agree => (evaluate_alike inner agree).map not
  | .test field operator operand, agree =>
    (agree field List.mem_cons_self).bind fun value => .refl (Compare.holdsBy operator value operand)
  | .oneOf field options, agree =>
    (agree field List.mem_cons_self).bind fun value => .refl (.ok (Compare.listed options value))
  | .equals field expected, agree =>
    (agree field List.mem_cons_self).bind fun value => .refl (Compare.looselyEqual value expected)

theorem evaluateAll_alike : (members : List Condition) →
    (∀ field ∈ readsOfAll members, Alike (first field) (second field)) →
    Alike (evaluateAll first members) (evaluateAll second members)
  | [], _ => .refl _
  | member :: members, agree => by
    rw [readsOfAll, List.forall_mem_append] at agree
    refine (evaluate_alike member agree.1).bind fun answer => ?_
    cases answer with
    | true => exact evaluateAll_alike members agree.2
    | false => exact .refl _

theorem evaluateAny_alike : (members : List Condition) →
    (∀ field ∈ readsOfAll members, Alike (first field) (second field)) →
    Alike (evaluateAny first members) (evaluateAny second members)
  | [], _ => .refl _
  | member :: members, agree => by
    rw [readsOfAll, List.forall_mem_append] at agree
    refine (evaluate_alike member agree.1).bind fun answer => ?_
    cases answer with
    | true => exact .refl _
    | false => exact evaluateAny_alike members agree.2

end

end Sources

/-! An object is evaluated by the first combining word whose member is there, and as a test without one. -/

def decidingWord? (fields : Fields) : Option String :=
  ["and", "or", "not"].find? fun word => isPresent (Fields.get fields word)

/-- Whether an object is taken for the test of a field named "field". -/
def isBareField : Fields → Bool
  | [(key, _)] => key.coincides (.text "field")
  | _ => false

/-- Whether an object is, or holds where it is evaluated, such a test, given which members do. -/
def holdsBareField (fields : Fields) (members : Keyed Bool) : Bool :=
  match decidingWord? fields with
  | some word => (Keyed.find? members (.text word)).getD false
  | none => isBareField fields

mutual

/-- Whether an object with the one key "field" is evaluated within a condition. -/
def hasBareField : Value → Bool
  | .list items => anyBareField items
  | .object fields => holdsBareField fields (memberBareFields fields)
  | _ => false

def anyBareField : List Value → Bool
  | [] => false
  | item :: items => hasBareField item || anyBareField items

def memberBareFields : List (Scalar × Value) → List (Scalar × Bool)
  | [] => []
  | (key, value) :: fields => (key, hasBareField value) :: memberBareFields fields

end

theorem find?_memberBareFields (fields : Fields) (key : Scalar) :
    Keyed.find? (memberBareFields fields) key = (Keyed.find? fields key).map hasBareField := by
  induction fields with
  | nil => rfl
  | cons field fields ih =>
    obtain ⟨other, value⟩ := field
    by_cases here : other.coincides key <;> simp [memberBareFields, Keyed.find?, here, ih]

theorem find?_memberMentions (fields : Fields) (key : Scalar) :
    Keyed.find? (memberMentions fields) key = (Keyed.find? fields key).map mentions := by
  induction fields with
  | nil => rfl
  | cons field fields ih =>
    obtain ⟨other, value⟩ := field
    by_cases here : other.coincides key <;> simp [memberMentions, Keyed.find?, here, ih]

theorem of_decidingWord? {fields : Fields} {word : String} (decides : decidingWord? fields = some word) :
    word ∈ ["and", "or", "not"] ∧ ∃ inner, Keyed.find? fields (.text word) = some inner := by
  refine ⟨List.mem_of_find?_eq_some decides, ?_⟩
  unfold decidingWord? at decides
  have present := List.find?_some decides
  unfold Fields.get at present
  cases found : Keyed.find? fields (.text word) with
  | some inner => exact ⟨inner, rfl⟩
  | none =>
    rw [found] at present
    cases present

theorem readsOfAll_clauses (condition : Condition) : readsOfAll (clauses condition) = reads condition := by
  cases condition with
  | all members => rfl
  | always | any | negation | test | oneOf | equals => exact List.append_nil _

private theorem readsOfAll_member (value : Value) (member : Condition) :
    readsOfAll (match value with | .list _ => clauses member | _ => [member]) = reads member := by
  split
  · exact readsOfAll_clauses member
  · exact List.append_nil _

/-- What an object reads is what its deciding member reads, or its test. -/
theorem reads_ofFields (fields : Fields) (members : Keyed Condition) :
    reads (ofFields fields members) =
      match decidingWord? fields with
      | some word => reads ((Keyed.find? members (.text word)).getD .always)
      | none => reads (ofTest fields) := by
  unfold ofFields decidingWord?
  cases conjunction : isPresent (Fields.get fields "and") with
  | true =>
    simp only [List.find?, conjunction, if_true, reads]
    exact readsOfAll_member (Fields.get fields "and") _
  | false =>
    cases disjunction : isPresent (Fields.get fields "or") with
    | true =>
      simp only [List.find?, conjunction, disjunction, if_true, Bool.false_eq_true, if_false, reads]
      exact readsOfAll_member (Fields.get fields "or") _
    | false =>
      cases negation : isPresent (Fields.get fields "not") <;>
        simp [conjunction, disjunction, negation, reads]

theorem reads_shorthand (field : Scalar) (expected : Value) : reads (shorthand field expected) = [.scalar field] := by
  unfold shorthand
  split
  · split <;> rfl
  · rfl
  · rfl

theorem mem_reads_ofTest {fields : Fields} {name : String} (read : .text name ∈ reads (ofTest fields))
    (members : Keyed (List String)) :
    name ∈ mentionsOf fields members ∨ name = "field" ∧ isBareField fields = true := by
  unfold ofTest at read
  split at read
  next spelled =>
    simp only [Bool.and_eq_true] at spelled
    refine .inl ?_
    unfold mentionsOf
    rw [if_pos spelled.1.1, ← List.mem_singleton.mp read]
    exact List.mem_append_left _ List.mem_cons_self
  next unspelled =>
    split at read
    next key expected =>
      split at read
      next => cases read
      next ordinary =>
        rw [reads_shorthand, List.mem_singleton] at read
        obtain rfl := Value.scalar.inj read
        by_cases bare : name = "field"
        · exact .inr ⟨bare, by rw [bare]; rfl⟩
        · have named : Fields.has [(.text name, expected)] "field" = false := by
            simp [Fields.has, Keyed.has, Keyed.find?, Scalar.coincides_text, bare]
          refine .inl ?_
          unfold mentionsOf
          rw [if_neg (Bool.eq_false_iff.mp named)]
          refine List.mem_append_right _ ?_
          simp [keyNames, Keyed.keys, ordinary, nameOf]
    next => cases read

/-- A name that a condition reads is one that it mentions, or that of a bare field. -/
theorem mem_mentions_of_mem_reads {value : Value} {name : String} (read : .text name ∈ reads (ofValue value)) :
    name ∈ mentions value ∨ name = "field" ∧ hasBareField value = true := by
  induction value using Value.nested_induction with
  | scalar s => cases read
  | handle name => cases read
  | list items ih =>
    replace read : .text name ∈ readsOfAll (ofItems items) := read
    show name ∈ itemMentions items ∨ name = "field" ∧ anyBareField items = true
    induction items with
    | nil => cases read
    | cons item items rest =>
      rw [List.forall_mem_cons] at ih
      rw [itemMentions, anyBareField, List.mem_append, Bool.or_eq_true]
      rw [ofItems, readsOfAll, List.mem_append] at read
      cases read with
      | inl first => exact (ih.1 first).imp .inl (.imp_right .inl)
      | inr later => exact (rest ih.2 later).imp .inr (.imp_right .inr)
  | object fields ih =>
    rw [ofValue, reads_ofFields] at read
    rw [mentions, hasBareField, holdsBareField]
    cases decides : decidingWord? fields with
    | none =>
      rw [decides] at read
      exact mem_reads_ofTest read _
    | some word =>
      rw [decides] at read
      obtain ⟨listed, inner, found⟩ := of_decidingWord? decides
      obtain ⟨key, member, _⟩ := Keyed.exists_mem_of_find? found
      simp only [find?_ofMembers, find?_memberBareFields, found, Option.map_some, Option.getD_some] at read ⊢
      refine (ih _ member read).imp_left fun mentioned => ?_
      have inside : name ∈ ["and", "or", "not"].flatMap fun word =>
          (Keyed.find? (memberMentions fields) (.text word)).getD [] :=
        List.mem_flatMap.mpr ⟨word, listed, by rwa [find?_memberMentions, found]⟩
      unfold mentionsOf
      split
      · exact List.mem_append_right _ inside
      · exact List.mem_append_left _ inside

theorem field_mem_reads {value : Value} (bare : hasBareField value = true) :
    .text "field" ∈ reads (ofValue value) := by
  induction value using Value.nested_induction with
  | scalar s => cases bare
  | handle name => cases bare
  | list items ih =>
    replace bare : anyBareField items = true := bare
    show .text "field" ∈ readsOfAll (ofItems items)
    induction items with
    | nil => cases bare
    | cons item items rest =>
      rw [List.forall_mem_cons] at ih
      rw [anyBareField, Bool.or_eq_true] at bare
      rw [ofItems, readsOfAll, List.mem_append]
      exact bare.imp ih.1 (rest ih.2)
  | object fields ih =>
    rw [ofValue, reads_ofFields]
    rw [hasBareField, holdsBareField] at bare
    cases decides : decidingWord? fields with
    | some word =>
      rw [decides] at bare
      obtain ⟨_, inner, found⟩ := of_decidingWord? decides
      obtain ⟨key, member, _⟩ := Keyed.exists_mem_of_find? found
      simp only [find?_ofMembers, find?_memberBareFields, found, Option.map_some, Option.getD_some] at bare ⊢
      exact ih _ member bare
    | none =>
      rw [decides] at bare
      cases fields with
      | nil => cases bare
      | cons first rest =>
        cases rest with
        | cons second rest => cases bare
        | nil =>
          obtain ⟨key, expected⟩ := first
          obtain rfl := Keyed.eq_of_coincides_text bare
          have test : ofTest [(.text "field", expected)] = shorthand (.text "field") expected := rfl
          rw [test, reads_shorthand]
          exact List.mem_cons_self

theorem mem_addNames {names more : List String} {name : String} :
    name ∈ addNames names more ↔ name ∈ names ∨ name ∈ more := by
  induction more generalizing names with
  | nil => simp [addNames]
  | cons first more ih =>
    have added : name ∈ addName names first ↔ name ∈ names ∨ name = first := by
      unfold addName
      split
      next listed =>
        rw [List.contains_iff_mem] at listed
        exact ⟨.inl, fun either => either.elim id fun same => same ▸ listed⟩
      next => rw [List.mem_append, List.mem_singleton]
    rw [addNames, List.foldl_cons, List.mem_cons, ← or_assoc, ← added]
    exact ih

theorem mem_names {value : Value} {name : String} : name ∈ names value ↔ name ∈ mentions value := by
  simp [names, mem_addNames]

/-- Contexts that agree on the names of a condition, and on a bare field in it, are alike for it. -/
theorem evaluate_alike_of_names {expression : Value} {first second : Context}
    (agree : ∀ name ∈ names expression, Alike (first.value (.text name)) (second.value (.text name)))
    (bare : hasBareField expression = true → Alike (first.value (.text "field")) (second.value (.text "field"))) :
    Alike (evaluate first.source (ofValue expression)) (evaluate second.source (ofValue expression)) := by
  apply evaluate_alike
  intro field read
  by_cases named : field.isText = true
  · obtain ⟨name, rfl⟩ := Value.isText_iff.mp named
    obtain mentioned | ⟨rfl, holds⟩ := mem_mentions_of_mem_reads read
    · exact agree name (mem_names.mpr mentioned)
    · exact bare holds
  · exact .of_eq (Context.value_eq_of_not_text first second (Bool.eq_false_iff.mpr named))

/-- A bare field that is compared with another name shows: the data that have this name there differ from
empty data, though not on the name. -/
theorem bare_field_shows {name : String} (apart : name ≠ "field") :
    let expression : Value := .object [(.text "field", .text name)]
    let first := Context.ofData expression
    let second := Context.ofData (.object [])
    (∀ mentioned ∈ names expression, first.value (.text mentioned) = second.value (.text mentioned)) ∧
      evaluate first.source (ofValue expression) = .ok true ∧
      evaluate second.source (ofValue expression) = .ok false := by
  intro expression first second
  refine ⟨fun mentioned member => ?_, ?_, rfl⟩
  · obtain rfl : mentioned = name := List.mem_singleton.mp (mem_names.mp member)
    have nowhere : first.find? (.text mentioned) = second.find? (.text mentioned) :=
      (Path.walk?_absent apart).trans (Path.walk?_empty mentioned).symm
    rw [Context.value_eq_find?, Context.value_eq_find?, nowhere]
  · have answer : Compare.looselyEqual (.text name) (.text name) = .ok true := by
      unfold Compare.looselyEqual
      simp [Value.isNull, Value.same_text]
    exact answer

/-- The names of a condition cover what it reads just if they cover a bare field in it. Then contexts that
agree on the names are alike for the condition; otherwise they need to agree on "field" as well, and a bare
field that is compared with another name does tell contexts apart. -/
theorem names_cover_reads (expression : Value) :
    ((∀ name, .text name ∈ reads (ofValue expression) → name ∈ names expression) ↔
      (hasBareField expression = true → "field" ∈ names expression)) ∧
    (∀ first second : Context,
      (∀ name ∈ names expression, Alike (first.value (.text name)) (second.value (.text name))) →
      (hasBareField expression = true → Alike (first.value (.text "field")) (second.value (.text "field"))) →
      Alike (evaluate first.source (ofValue expression)) (evaluate second.source (ofValue expression))) ∧
    (∀ name : String, name ≠ "field" → expression = .object [(.text "field", .text name)] →
      ∃ first second : Context,
        (∀ name ∈ names expression, first.value (.text name) = second.value (.text name)) ∧
        ¬Alike (evaluate first.source (ofValue expression)) (evaluate second.source (ofValue expression))) := by
  refine ⟨⟨fun covered bare => covered "field" (field_mem_reads bare), fun covered name read => ?_⟩,
    fun first second agree bare => evaluate_alike_of_names agree bare, fun name apart same => ?_⟩
  · obtain mentioned | ⟨rfl, bare⟩ := mem_mentions_of_mem_reads read
    · exact mem_names.mpr mentioned
    · exact covered bare
  · obtain ⟨agree, holds, fails⟩ := bare_field_shows apart
    refine ⟨_, _, same ▸ agree, ?_⟩
    rw [same, holds, fails]
    exact nofun

/-- Data that differ only in the postal code, which the condition does not mention. -/
theorem names_cover_reads_address :
    let data (code : Int) : Value :=
      .ofFields [("country", .text "US"), ("state", .text "NY"), ("code", .int code)]
    let expression : Value := .ofFields [("and", .list [
      .ofFields [("field", .text "country"), ("operator", .text "=="), ("value", .text "US")],
      .ofFields [("state", .list [.text "NY", .text "NJ"])]])]
    Alike (evaluate (Context.ofData (data 10001)).source (ofValue expression))
      (evaluate (Context.ofData (data 10002)).source (ofValue expression)) := by
  intro data expression
  refine (names_cover_reads expression).2.1 _ _ ?_ nofun
  intro name mentioned
  have listed : names expression = ["country", "state"] := rfl
  rw [listed, List.mem_cons, List.mem_singleton] at mentioned
  obtain rfl | rfl := mentioned
  · rfl
  · rfl

/-- A country under the name "field" is read, though only the name "US" is mentioned. -/
theorem bare_field_unmentioned :
    let expression : Value := .ofFields [("field", .text "US")]
    let first := Context.ofData expression
    let second := Context.ofData (.object [])
    names expression = ["US"] ∧ first.value (.text "US") = second.value (.text "US") ∧
      evaluate first.source (ofValue expression) = .ok true ∧
      evaluate second.source (ofValue expression) = .ok false :=
  ⟨rfl, rfl, rfl, rfl⟩

end Condition

end FormRules
