import FormRules.Condition.Evaluate
import FormRules.Proofs.KeyedOrder

/-! Rewriting conditions. A negation can be moved inwards to the tests, and a test that is given in short can be spelled
out: neither changes what a condition comes to, be it an answer or a fault. -/

namespace FormRules

namespace Compare

/-- Each operator that has an opposite, and that one. -/
def opposites : List (String × String) := [("==", "!="), ("!=", "=="), ("in", "notIn"), ("notIn", "in")]

def opposite? : Value → Option String
  | .text name => opposites.lookup name
  | _ => none

/-- An operator and its opposite answer the opposite, whatever they are asked of. -/
theorem holdsBy_opposite {operator : Value} {other : String} (found : opposite? operator = some other)
    (left right : Value) : holdsBy (.text other) left right = (holdsBy operator left right).map not := by
  have swapped (name : String) (listed : opposites.lookup name = some other) :
      (name, other) ∈ opposites := by
    obtain ⟨_, _, same⟩ := List.lookup_eq_some_iff.mp listed
    rw [same.1]
    exact List.mem_append_right _ List.mem_cons_self
  unfold opposite? at found
  split at found
  next name =>
    have listed := swapped name found
    simp only [opposites, List.mem_cons, Prod.mk.injEq, List.not_mem_nil, or_false] at listed
    obtain ⟨rfl, rfl⟩ | ⟨rfl, rfl⟩ | ⟨rfl, rfl⟩ | ⟨rfl, rfl⟩ := listed
    · rfl
    · show looselyEqual left right = ((looselyEqual left right).map not).map not
      cases looselyEqual left right <;> simp [Except.map]
    · cases right <;> rfl
    · cases right with
      | list items => exact congrArg Except.ok (Bool.not_not (listed items left)).symm
      | _ => rfl
  next => cases found

end Compare

namespace Condition

/-! What a condition comes to, read off the document that it is given as. -/

/-- The clauses that a member of a combining word holds. -/
def clausesIn : Value → List Value
  | .list items => items
  | clause => [clause]

section Evaluation

variable (source : Source)

theorem evaluateAll_singleton (condition : Condition) : evaluateAll source [condition] = evaluate source condition := by
  unfold evaluateAll evaluateAll
  cases evaluate source condition with
  | error fault => rfl
  | ok answer => cases answer <;> rfl

theorem evaluateAny_singleton (condition : Condition) : evaluateAny source [condition] = evaluate source condition := by
  unfold evaluateAny evaluateAny
  cases evaluate source condition with
  | error fault => rfl
  | ok answer => cases answer <;> rfl

theorem evaluate_list (items : List Value) :
    evaluate source (ofValue (.list items)) = evaluateAll source (items.map ofValue) := by
  rw [ofValue, evaluate, ofItems_eq_map]

theorem clauses_ofValue_list (items : List Value) : clauses (ofValue (.list items)) = items.map ofValue := by
  rw [ofValue, ofItems_eq_map]
  rfl

/-- What is present is there. -/
theorem exists_find?_of_present {fields : Fields} {word : String} (present : isPresent (Fields.get fields word) = true) :
    ∃ value, Keyed.find? fields (.text word) = some value := by
  unfold Fields.get at present
  cases found : Keyed.find? fields (.text word) with
  | some value => exact ⟨value, rfl⟩
  | none =>
    rw [found] at present
    cases present

private theorem listed_eq_map {fields : Fields} {word : String} (present : isPresent (Fields.get fields word) = true) :
    (match Fields.get fields word with
      | .list _ => clauses ((Keyed.find? (ofMembers fields) (.text word)).getD .always)
      | _ => [(Keyed.find? (ofMembers fields) (.text word)).getD .always]) =
      (clausesIn (Fields.get fields word)).map ofValue := by
  obtain ⟨value, found⟩ := exists_find?_of_present present
  rw [find?_ofMembers, Fields.get, found]
  cases value with
  | list items => exact clauses_ofValue_list items
  | scalar | object | handle => rfl

/-- An object comes to what the first combining word with a member comes to, or its test. -/
theorem evaluate_object (fields : Fields) : evaluate source (ofValue (.object fields)) =
    if isPresent (Fields.get fields "and") then
      evaluateAll source ((clausesIn (Fields.get fields "and")).map ofValue)
    else if isPresent (Fields.get fields "or") then
      evaluateAny source ((clausesIn (Fields.get fields "or")).map ofValue)
    else if isPresent (Fields.get fields "not") then (evaluate source (ofValue (Fields.get fields "not"))).map not
    else evaluate source (ofTest fields) := by
  rw [ofValue, ofFields]
  split
  next present => exact congrArg (evaluateAll source) (listed_eq_map present)
  split
  next present => exact congrArg (evaluateAny source) (listed_eq_map present)
  split
  next present =>
    obtain ⟨value, found⟩ := exists_find?_of_present present
    simp only [evaluate, find?_ofMembers, Fields.get, found]
    rfl
  next => rfl

end Evaluation

/-- An object with one name. -/
def ofWord (word : String) (operand : Value) : Value := .object [(.text word, operand)]

/-- An object that spells out a test of a field, and has no member of a combining word. -/
structure SpellsTest (fields : Fields) (field operator operand : Value) : Prop where
  plain : ∀ word ∈ ["and", "or", "not"], Keyed.find? fields (.text word) = none
  field : Keyed.find? fields (.text "field") = some field
  operator : Keyed.find? fields (.text "operator") = some operator
  operand : Keyed.find? fields (.text "value") = some operand

/-- The fields of a test, spelled out. -/
def testFields (field operator operand : Value) : Fields :=
  [(.text "field", field), (.text "operator", operator), (.text "value", operand)]

theorem distinct_testFields (field operator operand : Value) : (testFields field operator operand).Distinct := by
  simp [testFields, Keyed.Distinct, Scalar.coincides_text]

namespace SpellsTest

variable {fields : Fields} {field operator operand : Value}

theorem of_testFields (field operator operand : Value) :
    SpellsTest (testFields field operator operand) field operator operand := by
  refine ⟨fun word member => ?_, rfl, rfl, rfl⟩
  simp only [List.mem_cons, List.not_mem_nil, or_false] at member
  obtain rfl | rfl | rfl := member <;> rfl

theorem perm {others : Fields} (spells : SpellsTest fields field operator operand) (distinct : Keyed.Distinct fields)
    (perm : fields.Perm others) : SpellsTest others field operator operand := by
  have found := Keyed.find?_perm perm distinct
  exact ⟨fun word member => found _ ▸ spells.plain word member, found _ ▸ spells.field, found _ ▸ spells.operator,
    found _ ▸ spells.operand⟩

theorem insert_operator (spells : SpellsTest fields field operator operand) (other : Value) :
    SpellsTest (Keyed.insert fields (.text "operator") other) field other operand where
  plain word member := by
    have apart : "operator" ≠ word := by
      rintro rfl
      exact absurd member (by decide)
    rw [Keyed.find?_insert_text_other _ apart, spells.plain word member]
  field := by rw [Keyed.find?_insert_text_other _ (by decide), spells.field]
  operator := Keyed.find?_insert_text_self ..
  operand := by rw [Keyed.find?_insert_text_other _ (by decide), spells.operand]

theorem get_word (spells : SpellsTest fields field operator operand) {word : String} (member : word ∈ ["and", "or", "not"]) :
    Fields.get fields word = .null := by
  rw [Fields.get, spells.plain word member]
  rfl

theorem evaluate (spells : SpellsTest fields field operator operand) (source : Source) :
    evaluate source (ofValue (.object fields)) = source field >>= fun value => Compare.holdsBy operator value operand := by
  have test : ofTest fields = .test field operator operand := by
    simp [ofTest, Fields.has, Keyed.has, Fields.get, spells.field, spells.operator, spells.operand]
  rw [evaluate_object, spells.get_word (by decide), spells.get_word (by decide), spells.get_word (by decide), test]
  rfl

end SpellsTest

/-! Moving a negation inwards. -/

/-- Conditions made of lists, of objects with one combining word, and of tests that are spelled out. -/
inductive IsCore : Value → Prop
  | list {items : List Value} : (∀ item ∈ items, IsCore item) → IsCore (.list items)
  | combined {word : String} {operand : Value} : word ∈ ["and", "or", "not"] → IsCore operand → IsCore (ofWord word operand)
  | test {fields : Fields} {field operator operand : Value} : (testFields field operator operand).Perm fields →
      IsCore (.object fields)

/-- The negation of a test: the opposite test, or the test under a "not". -/
def negatedTest (fields : Fields) : Value :=
  match Compare.opposite? (Fields.get fields "operator") with
  | some other => .object (Keyed.insert fields (.text "operator") (.text other))
  | none => ofWord "not" (.object fields)

/-- The negation of an object, given the negated clauses of its members. -/
def negatedObject (fields : Fields) (negated : Keyed (List Value)) : Value :=
  let clauses (word : String) : Value := .list ((Keyed.find? negated (.text word)).getD [])
  if Fields.has fields "and" then ofWord "or" (clauses "and")
  else if Fields.has fields "or" then ofWord "and" (clauses "or")
  else if Fields.has fields "not" then Fields.get fields "not"
  else negatedTest fields

mutual

/-- The negation of a condition, moved inwards. -/
def negated : Value → Value
  | .list items => ofWord "or" (.list (negatedItems items))
  | .object fields => negatedObject fields (negatedClauses fields)
  | value => ofWord "not" value

def negatedItems : List Value → List Value
  | [] => []
  | item :: items => negated item :: negatedItems items

def negatedClauses : List (Scalar × Value) → List (Scalar × List Value)
  | [] => []
  | (key, .list items) :: fields => (key, negatedItems items) :: negatedClauses fields
  | (key, value) :: fields => (key, [negated value]) :: negatedClauses fields

end

theorem negatedItems_eq_map (items : List Value) : negatedItems items = items.map negated := by
  induction items with
  | nil => rfl
  | cons item items ih => rw [negatedItems, ih, List.map_cons]

theorem negated_list (items : List Value) : negated (.list items) = ofWord "or" (.list (items.map negated)) := by
  rw [negated, negatedItems_eq_map]

theorem find?_negatedClauses (word : String) (operand : Value) :
    Keyed.find? (negatedClauses [(.text word, operand)]) (.text word) = some ((clausesIn operand).map negated) := by
  cases operand with
  | list items => simp [negatedClauses, Keyed.find?, Scalar.coincides_text, negatedItems_eq_map, clausesIn]
  | scalar | object | handle => simp [negatedClauses, Keyed.find?, Scalar.coincides_text, clausesIn]

theorem negated_and (operand : Value) :
    negated (ofWord "and" operand) = ofWord "or" (.list ((clausesIn operand).map negated)) := by
  rw [ofWord, negated, negatedObject]
  simp only [find?_negatedClauses]
  rfl

theorem negated_or (operand : Value) :
    negated (ofWord "or" operand) = ofWord "and" (.list ((clausesIn operand).map negated)) := by
  rw [ofWord, negated, negatedObject]
  simp only [find?_negatedClauses]
  rfl

theorem negated_not (operand : Value) : negated (ofWord "not" operand) = operand := by
  rw [ofWord, negated, negatedObject]
  rfl

theorem SpellsTest.negated {fields : Fields} {field operator operand : Value}
    (spells : SpellsTest fields field operator operand) : negated (.object fields) = negatedTest fields := by
  have absent {word : String} (member : word ∈ ["and", "or", "not"]) : Fields.has fields word = false := by
    rw [Fields.has, Keyed.has, spells.plain word member]
    rfl
  rw [Condition.negated, negatedObject, absent (by decide), absent (by decide), absent (by decide)]
  rfl

section Negation

variable (source : Source)

/-- A condition whose negation, moved inwards, comes to the opposite, or to the same fault. -/
def Negates (expression : Value) : Prop :=
  evaluate source (ofValue (negated expression)) = (evaluate source (ofValue expression)).map not

variable {source}

theorem evaluateAny_negated {clauses : List Value} (each : ∀ clause ∈ clauses, Negates source clause) :
    evaluateAny source ((clauses.map negated).map ofValue) = (evaluateAll source (clauses.map ofValue)).map not := by
  induction clauses with
  | nil => rfl
  | cons clause clauses ih =>
    obtain ⟨here, later⟩ := List.forall_mem_cons.mp each
    simp only [List.map_cons, evaluateAny, evaluateAll]
    rw [here, ih later]
    cases evaluate source (ofValue clause) with
    | error fault => rfl
    | ok answer => cases answer <;> rfl

theorem evaluateAll_negated {clauses : List Value} (each : ∀ clause ∈ clauses, Negates source clause) :
    evaluateAll source ((clauses.map negated).map ofValue) = (evaluateAny source (clauses.map ofValue)).map not := by
  induction clauses with
  | nil => rfl
  | cons clause clauses ih =>
    obtain ⟨here, later⟩ := List.forall_mem_cons.mp each
    simp only [List.map_cons, evaluateAny, evaluateAll]
    rw [here, ih later]
    cases evaluate source (ofValue clause) with
    | error fault => rfl
    | ok answer => cases answer <;> rfl

theorem evaluate_and {operand : Value} (present : isPresent operand = true) :
    evaluate source (ofValue (ofWord "and" operand)) = evaluateAll source ((clausesIn operand).map ofValue) := by
  rw [ofWord, evaluate_object]
  exact if_pos present

theorem evaluate_or {operand : Value} (present : isPresent operand = true) :
    evaluate source (ofValue (ofWord "or" operand)) = evaluateAny source ((clausesIn operand).map ofValue) := by
  rw [ofWord, evaluate_object]
  exact (if_neg Bool.false_ne_true).trans (if_pos present)

theorem evaluate_not {operand : Value} (present : isPresent operand = true) :
    evaluate source (ofValue (ofWord "not" operand)) = (evaluate source (ofValue operand)).map not := by
  rw [ofWord, evaluate_object]
  exact (if_neg Bool.false_ne_true).trans ((if_neg Bool.false_ne_true).trans (if_pos present))

theorem map_not_not (result : Except Fault Bool) : (result.map not).map not = result := by
  cases result with
  | error fault => rfl
  | ok answer => exact congrArg Except.ok (Bool.not_not answer)

theorem IsCore.isPresent {expression : Value} (core : IsCore expression) : isPresent expression = true := by
  cases core <;> rfl

/-- A list is negated through its items. -/
theorem Negates.of_clauses {expression : Value} (each : ∀ clause ∈ clausesIn expression, Negates source clause) :
    Negates source expression := by
  cases expression with
  | list items =>
    rw [Negates, negated_list, evaluate_or rfl, evaluate_list]
    exact evaluateAny_negated each
  | scalar | object | handle => exact each _ List.mem_cons_self

theorem SpellsTest.negates {fields : Fields} {field operator operand : Value}
    (spells : SpellsTest fields field operator operand) : Negates source (.object fields) := by
  rw [Negates, spells.negated, negatedTest, Fields.get, spells.operator]
  split
  next other opposite =>
    rw [(spells.insert_operator _).evaluate, spells.evaluate]
    cases source field with
    | error fault => rfl
    | ok value => exact Compare.holdsBy_opposite opposite value operand
  next => exact evaluate_not rfl

/-- In a core condition every clause is negated right: those of a list, or the condition itself. -/
theorem IsCore.negates_clauses {expression : Value} (core : IsCore expression) :
    ∀ clause ∈ clausesIn expression, Negates source clause := by
  induction core with
  | list _ ih => exact fun item member => .of_clauses (ih item member)
  | @combined word operand member inner ih =>
    refine List.forall_mem_singleton.mpr ?_
    simp only [List.mem_cons, List.not_mem_nil, or_false] at member
    obtain rfl | rfl | rfl := member
    · rw [Negates, negated_and, evaluate_or rfl, evaluate_and inner.isPresent]
      exact evaluateAny_negated ih
    · rw [Negates, negated_or, evaluate_and rfl, evaluate_or inner.isPresent]
      exact evaluateAll_negated ih
    · rw [Negates, negated_not, evaluate_not inner.isPresent, map_not_not]
  | test perm =>
    refine List.forall_mem_singleton.mpr ?_
    exact ((SpellsTest.of_testFields _ _ _).perm (distinct_testFields _ _ _) perm).negates

end Negation

/-! Spelling tests out. -/

/-- The operator and the operand that stand under the name of a field: a list is a pair of them, or else a choice. -/
def longForm : Value → Value × Value
  | .list [operator, operand] =>
    if (Operator.ofValue? operator).isSome then (operator, operand) else (.text "in", .list [operator, operand])
  | .list options => (.text "in", .list options)
  | expected => (.text "==", expected)

/-- The test that an object with one key is short for, spelled out. -/
def spelledOut (name : Scalar) (expected : Value) : Value :=
  .object (testFields (.scalar name) (longForm expected).1 (longForm expected).2)

/-- A condition with one test in it spelled out: the test itself, or one in an item of a list or under a combining
word. -/
inductive Respelled : Value → Value → Prop
  | test {name : Scalar} {expected : Value} : isLogical name = false →
      Respelled (.object [(name, expected)]) (spelledOut name expected)
  | item {before after : List Value} {item other : Value} : Respelled item other →
      Respelled (.list (before ++ item :: after)) (.list (before ++ other :: after))
  | member {before after : Fields} {key : Scalar} {value other : Value} : isLogical key = true → Respelled value other →
      Respelled (.object (before ++ (key, value) :: after)) (.object (before ++ (key, other) :: after))

section Spelling

variable (source : Source)

/-- Conditions of which one can stand for the other, also under a combining word. -/
structure Interchangeable (value other : Value) : Prop where
  present : isPresent value = isPresent other
  whole : evaluate source (ofValue value) = evaluate source (ofValue other)
  all : evaluateAll source ((clausesIn value).map ofValue) = evaluateAll source ((clausesIn other).map ofValue)
  any : evaluateAny source ((clausesIn value).map ofValue) = evaluateAny source ((clausesIn other).map ofValue)

namespace Interchangeable

variable {source}

theorem refl (value : Value) : Interchangeable source value value := ⟨rfl, rfl, rfl, rfl⟩

/-- Under a combining word an object stands for itself. -/
theorem objects {fields others : Fields}
    (same : evaluate source (ofValue (.object fields)) = evaluate source (ofValue (.object others))) :
    Interchangeable source (.object fields) (.object others) where
  present := rfl
  whole := same
  all := (evaluateAll_singleton ..).trans (same.trans (evaluateAll_singleton ..).symm)
  any := (evaluateAny_singleton ..).trans (same.trans (evaluateAny_singleton ..).symm)

theorem lists (before after : List Value) {item other : Value} (inner : Interchangeable source item other) :
    Interchangeable source (.list (before ++ item :: after)) (.list (before ++ other :: after)) := by
  have all : evaluateAll source ((before ++ item :: after).map ofValue) =
      evaluateAll source ((before ++ other :: after).map ofValue) := by
    induction before with
    | nil => simp only [List.nil_append, List.map_cons, evaluateAll, inner.whole]
    | cons first before ih => simp only [List.cons_append, List.map_cons, evaluateAll, ih]
  have any : evaluateAny source ((before ++ item :: after).map ofValue) =
      evaluateAny source ((before ++ other :: after).map ofValue) := by
    clear all
    induction before with
    | nil => simp only [List.nil_append, List.map_cons, evaluateAny, inner.whole]
    | cons first before ih => simp only [List.cons_append, List.map_cons, evaluateAny, ih]
  exact ⟨rfl, by rw [evaluate_list, evaluate_list, all], all, any⟩

end Interchangeable

/-- A shorthand asks for the value of the field, and of that what its long form asks. -/
theorem evaluate_shorthand (name : Scalar) (expected : Value) : evaluate source (shorthand name expected) =
    source (.scalar name) >>= fun value => Compare.holdsBy (longForm expected).1 value (longForm expected).2 := by
  match expected with
  | .list [operator, operand] =>
    simp only [shorthand, longForm]
    split <;> rfl
  | .list [] | .list [_] | .list (_ :: _ :: _ :: _) => rfl
  | .scalar _ | .object _ | .handle _ => rfl

theorem evaluate_spelledOut {name : Scalar} (plain : isLogical name = false) (expected : Value) :
    evaluate source (ofValue (.object [(name, expected)])) = evaluate source (ofValue (spelledOut name expected)) := by
  have absent (word : String) (logical : isLogical (.text word) = true) :
      Keyed.find? [(name, expected)] (.text word) = none := by
    rw [Keyed.find?_cons, if_neg]
    · rfl
    intro same
    rw [Keyed.eq_of_coincides_text same, logical] at plain
    cases plain
  have short : ofTest [(name, expected)] = shorthand name expected := by
    have apart : (Fields.has [(name, expected)] "field" && Fields.has [(name, expected)] "operator") = false := by
      by_cases first : name.coincides (.text "field") = true
      · rw [Keyed.eq_of_coincides_text first]
        rfl
      · simp [Fields.has, Keyed.has, Keyed.find?, first]
    simp [ofTest, apart, plain]
  calc evaluate source (ofValue (.object [(name, expected)]))
      = evaluate source (shorthand name expected) := by
        rw [evaluate_object, Fields.get, Fields.get, Fields.get, absent "and" rfl, absent "or" rfl, absent "not" rfl, short]
        rfl
    _ = evaluate source (ofValue (spelledOut name expected)) :=
        (evaluate_shorthand source name expected).trans ((SpellsTest.of_testFields ..).evaluate source).symm

/-- A combining word makes no shorthand of an object. -/
theorem ofTest_of_logical {fields : Fields} {key : Scalar} {value : Value} (logical : isLogical key = true)
    (member : (key, value) ∈ fields) : ofTest fields =
      if Fields.has fields "field" && Fields.has fields "operator" && Fields.has fields "value" then
        .test (Fields.get fields "field") (Fields.get fields "operator") (Fields.get fields "value")
      else .always := by
  unfold ofTest
  split
  · rfl
  split
  next other expected =>
    cases List.mem_singleton.mp member
    exact if_pos logical
  next => rfl

/-- What is found when a value is put in the place of another. -/
theorem find?_replaced (before after : Fields) (key : Scalar) (value other : Value) (name : Scalar) :
    Keyed.find? (before ++ (key, value) :: after) name = Keyed.find? (before ++ (key, other) :: after) name ∨
      key.coincides name = true ∧ Keyed.find? (before ++ (key, value) :: after) name = some value ∧
        Keyed.find? (before ++ (key, other) :: after) name = some other := by
  induction before with
  | nil =>
    by_cases here : key.coincides name = true
    · exact .inr ⟨here, by simp [Keyed.find?, here], by simp [Keyed.find?, here]⟩
    · exact .inl (by simp [Keyed.find?, here])
  | cons first before ih =>
    rw [List.cons_append, List.cons_append, Keyed.find?_cons, Keyed.find?_cons]
    split
    · exact .inl rfl
    · exact ih

theorem Interchangeable.members (before after : Fields) {key : Scalar} (logical : isLogical key = true) {value other : Value}
    (inner : Interchangeable source value other) :
    evaluate source (ofValue (.object (before ++ (key, value) :: after))) =
      evaluate source (ofValue (.object (before ++ (key, other) :: after))) := by
  have under (word : String) : Interchangeable source (Fields.get (before ++ (key, value) :: after) word)
      (Fields.get (before ++ (key, other) :: after) word) := by
    unfold Fields.get
    obtain same | ⟨_, found, found'⟩ := find?_replaced before after key value other (.text word)
    · rw [same]
      exact .refl _
    · rw [found, found']
      exact inner
  have aside (name : String) (plain : isLogical (.text name) = false) :
      Keyed.find? (before ++ (key, value) :: after) (.text name) = Keyed.find? (before ++ (key, other) :: after) (.text name) := by
    obtain same | ⟨same, _⟩ := find?_replaced before after key value other (.text name)
    · exact same
    · rw [Keyed.eq_of_coincides_text same, plain] at logical
      cases logical
  have test : ofTest (before ++ (key, value) :: after) = ofTest (before ++ (key, other) :: after) := by
    have inside (inner : Value) : (key, inner) ∈ before ++ (key, inner) :: after := List.mem_append_right _ List.mem_cons_self
    rw [ofTest_of_logical logical (inside value), ofTest_of_logical logical (inside other)]
    simp only [Fields.has, Keyed.has, Fields.get, aside "field" rfl, aside "operator" rfl, aside "value" rfl]
    rfl
  rw [evaluate_object, evaluate_object, (under "and").present, (under "and").all, (under "or").present, (under "or").any,
    (under "not").present, (under "not").whole, test]

theorem Respelled.interchangeable {expression other : Value} (respelled : Respelled expression other) :
    Interchangeable source expression other := by
  induction respelled with
  | test plain => exact .objects (evaluate_spelledOut source plain _)
  | item _ ih => exact .lists _ _ ih
  | member logical _ ih => exact .objects (ih.members _ _ _ logical)

end Spelling

/-- The negation of a core condition comes to the same as the negation moved inwards, and a condition to the same as
with a test in it spelled out: to the same answer, or to the same fault. -/
theorem evaluate_rewritten (source : Source) :
    (∀ expression, IsCore expression →
      evaluate source (ofValue (ofWord "not" expression)) = evaluate source (ofValue (negated expression))) ∧
    ∀ expression other, Respelled expression other →
      evaluate source (ofValue expression) = evaluate source (ofValue other) := by
  refine ⟨fun expression core => ?_, fun _ _ respelled => (respelled.interchangeable source).whole⟩
  have opposite : Negates source expression := .of_clauses core.negates_clauses
  rw [evaluate_not core.isPresent, opposite]

namespace Guest

def source : Source := Source.flat [(.text "country", .text "HU"), (.text "role", .text "guest")]

def asked (field operator : String) (operand : Value) : Value := .object (testFields (.text field) (.text operator) operand)

def countries : Value := .list [.text "HU", .text "AT"]

/-- Someone from one of two countries who is not a guest. -/
def condition : Value := .list [
  ofWord "or" (.list [asked "country" "==" (.text "AT"), asked "country" "in" countries]),
  ofWord "not" (asked "role" "startswith" (.text "g"))]

/-- The countries, given in short or spelled out. -/
def choice (country : Value) : Value := ofWord "and" (.list [country, asked "role" "!=" (.text "guest")])

end Guest

open Guest in
theorem evaluate_rewritten_guest : IsCore condition ∧
    evaluate source (ofValue (ofWord "not" condition)) = evaluate source (ofValue (negated condition)) ∧
    evaluate source (ofValue condition) = .ok false ∧
    evaluate source (ofValue (choice (ofWord "country" countries))) =
      evaluate source (ofValue (choice (asked "country" "in" countries))) := by
  have tested (field operator : String) (operand : Value) : IsCore (asked field operator operand) := .test (.refl _)
  have core : IsCore condition := by
    refine .list (List.forall_mem_cons.mpr ⟨.combined (by decide) (.list ?_), List.forall_mem_singleton.mpr ?_⟩)
    · exact List.forall_mem_cons.mpr ⟨tested .., List.forall_mem_singleton.mpr (tested ..)⟩
    · exact .combined (by decide) (tested ..)
  have respelled : Respelled (choice (ofWord "country" countries)) (choice (asked "country" "in" countries)) :=
    @Respelled.member [] [] _ _ _ rfl (@Respelled.item [] _ _ _ (.test rfl))
  exact ⟨core, (evaluate_rewritten source).1 _ core, rfl, (evaluate_rewritten source).2 _ _ respelled⟩

end Condition

end FormRules
