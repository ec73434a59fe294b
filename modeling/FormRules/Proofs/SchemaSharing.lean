import FormRules.Proofs.Agreement
import FormRules.Proofs.CallHistory
import FormRules.Proofs.SchemaAgreement
import FormRules.Proofs.SchemaStore

/-! What is left of the store of schemas in the outcomes of rules: whether a value is accepted never depends on
earlier calls, and what is said of it only where a schema was made ready with its names in another order. -/

namespace FormRules.Rule

open Schema Json

/-! The schemas of rules name their demands in one order. -/

/-- The names in the schemas of rules. -/
def schemaNames : List String := ["not", "anyOf", "type", "pattern", "minLength", "maxLength", "minItems", "maxItems",
  "minimum", "maximum"]

/-- The part of a schema of a rule that is made of schemas, the same for all rules. -/
def nestedPart (name : String) : Value :=
  if name = "not" then .ofFields [("anyOf", .list [
    .ofFields [typed "null"], .ofFields [typed "string", ("pattern", .text blankPattern)]])]
  else .list [.ofFields [typed "null"], .ofFields [("const", .text "")],
    .ofFields [typed "string", ("pattern", .text emailPattern)]]

/-- The fields of a schema of a rule: their names in order, and what stands under those with schemas. -/
structure IsOwnSchema (fields : List (String × Value)) : Prop where
  ordered : (fields.map (·.1)).Sublist schemaNames
  nested : ∀ field ∈ fields, isNested field.1 = true → field.2 = nestedPart field.1

theorem bounds_isOwnSchema (type : String) (rule : Fields) {low high : String}
    (ordered : ["type", low, high].Sublist schemaNames) (plain : isNested low = false ∧ isNested high = false) :
    IsOwnSchema (typed type :: bounds rule low high) := by
  have among : (bounds rule low high).Sublist [(low, Fields.get rule "min"), (high, Fields.get rule "max")] :=
    List.filter_sublist
  have names : ((typed type :: bounds rule low high).map (·.1)).Sublist ["type", low, high] :=
    List.Sublist.cons_cons "type" (List.Sublist.map Prod.fst among)
  refine ⟨names.trans ordered, fun field member inner => ?_⟩
  obtain rfl | member := List.mem_cons.mp member
  · cases inner
  · have listed := among.subset member
    simp only [List.mem_cons, List.not_mem_nil, or_false] at listed
    obtain rfl | rfl := listed
    · exact absurd (plain.1.symm.trans inner) Bool.false_ne_true
    · exact absurd (plain.2.symm.trans inner) Bool.false_ne_true

theorem schema?_isOwnSchema {kind : RuleKind} {rule : Fields} {schema : Value} (made : schema? kind rule = some schema) :
    ∃ fields, schema = .ofFields fields ∧ IsOwnSchema fields := by
  have matching (pattern : Value) : IsOwnSchema [typed "string", ("pattern", pattern)] :=
    ⟨show ["type", "pattern"].Sublist schemaNames by decide, by simp [typed, isNested]⟩
  cases kind with
  | required =>
    cases made
    exact ⟨_, rfl, by decide, by simp [isNested, nestedPart]⟩
  | email =>
    cases made
    exact ⟨_, rfl, by decide, by simp [isNested, nestedPart]⟩
  | numeric =>
    cases made
    exact ⟨_, rfl, by decide, by simp [typed, isNested]⟩
  | stringLength | arrayLength | range =>
    cases made
    exact ⟨_, rfl, bounds_isOwnSchema _ rule (by decide) (by decide)⟩
  | pattern =>
    simp only [schema?] at made
    split at made
    · cases made
      exact ⟨_, rfl, matching _⟩
    · cases made
  | _ => cases made

theorem hasSimpleConstants_ofFields {fields : List (String × Value)}
    (constant : ∀ value, ("const", value) ∈ fields → ∃ scalar, value = .scalar scalar)
    (nested : ∀ name value, isNested name = true → (name, value) ∈ fields → HasSimpleConstants value) :
    HasSimpleConstants (.ofFields fields) := by
  refine .object (fun value member => ?_) (fun name value inner member => ?_) <;>
    obtain ⟨⟨name, value⟩, member, same⟩ := List.mem_map.mp member <;> cases same
  · exact constant value member
  · exact nested name value inner member

theorem hasSimpleConstants_nestedPart (name : String) : HasSimpleConstants (nestedPart name) := by
  have flat {fields : List (String × Value)} (scalars : ∀ field ∈ fields, ∃ scalar, field.2 = .scalar scalar) :
      HasSimpleConstants (.ofFields fields) := by
    refine hasSimpleConstants_ofFields (fun value member => scalars _ member) fun name value _ member => ?_
    obtain ⟨scalar, rfl⟩ : ∃ scalar, value = .scalar scalar := scalars _ member
    exact .scalar scalar
  unfold nestedPart
  split
  · refine hasSimpleConstants_ofFields (by simp) fun name value _ member => ?_
    cases List.mem_singleton.mp member
    refine .list fun option member => ?_
    simp only [List.mem_cons, List.not_mem_nil, or_false] at member
    obtain rfl | rfl := member <;> exact flat (by simp [typed])
  · refine .list fun option member => ?_
    simp only [List.mem_cons, List.not_mem_nil, or_false] at member
    obtain rfl | rfl | rfl := member <;> exact flat (by simp [typed])

/-- The schema of a rule has simple constants. -/
theorem IsOwnSchema.hasSimpleConstants {fields : List (String × Value)} (own : IsOwnSchema fields) :
    HasSimpleConstants (.ofFields fields) := by
  refine hasSimpleConstants_ofFields (fun value member => ?_) (fun name value inner member => ?_)
  · have listed : "const" ∈ schemaNames := own.ordered.subset (List.mem_map_of_mem (f := (·.1)) member)
    exact absurd listed (by decide)
  · obtain rfl : value = nestedPart name := own.nested _ member inner
    exact hasSimpleConstants_nestedPart name

/-- Where a name stands in the schemas of rules. -/
def placeOf : Scalar → Nat
  | .text name => schemaNames.idxOf name
  | _ => 0

/-- The fields of a document of named values. -/
def namedFields (fields : List (String × Value)) : Fields := fields.map fun (name, value) => (.text name, value)

theorem mem_namedFields {fields : List (String × Value)} {key : Scalar} {value : Value}
    (member : (key, value) ∈ namedFields fields) : ∃ name, key = .text name ∧ (name, value) ∈ fields := by
  obtain ⟨⟨name, value⟩, member, same⟩ := List.mem_map.mp member
  cases same
  exact ⟨name, rfl, member⟩

theorem IsOwnSchema.pairwise {fields : List (String × Value)} (own : IsOwnSchema fields) :
    ((namedFields fields).map (·.1)).Pairwise fun key other => placeOf key < placeOf other := by
  have places : schemaNames.Pairwise fun name other => placeOf (.text name) < placeOf (.text other) := by decide
  have ordered := places.sublist own.ordered
  rw [List.pairwise_map] at ordered
  rw [namedFields, List.map_map, List.pairwise_map]
  exact ordered

/-- Of two schemas of rules that are the same document the fields correspond in order. -/
theorem IsOwnSchema.related {fields others : List (String × Value)} {arranged : Fields} (own : IsOwnSchema fields)
    (own' : IsOwnSchema others) (perm : arranged.Perm (namedFields others))
    (related : List.Forall₂ (SameField false) (namedFields fields) arranged) :
    List.Forall₂ (fun field other => field.1 = other.1 ∧ SameDocument false field.2 other.2) (namedFields fields)
      (namedFields others) := by
  have pairs : List.Forall₂ (fun field other => field.1 = other.1 ∧ SameDocument false field.2 other.2)
      (namedFields fields) arranged := by
    refine forall₂_of_mem related fun field member other member' same => ?_
    cases same with
    | keyed same => exact ⟨rfl, same⟩
    | named found found' same =>
      obtain ⟨name, rfl, _⟩ := mem_namedFields member
      obtain ⟨name', rfl, _⟩ := mem_namedFields (perm.subset member')
      cases found
      cases found'
      exact ⟨rfl, same⟩
  have keys : (namedFields fields).map (·.1) = arranged.map (·.1) := by
    rw [← List.forall₂_eq_eq_eq, List.forall₂_map_left_iff, List.forall₂_map_right_iff]
    exact pairs.imp fun _ _ both => both.1
  have ordered := own.pairwise
  rw [keys, List.pairwise_map] at ordered
  have ordered' := own'.pairwise
  rw [List.pairwise_map] at ordered'
  exact perm.eq_of_pairwise (fun _ _ _ _ first second => absurd first (Nat.lt_asymm second)) ordered ordered' ▸ pairs

/-- Two schemas of rules that are the same document are told apart by no value, not even by what it fails. -/
theorem violated?_of_ownSchemas {fields others : List (String × Value)} (own : IsOwnSchema fields)
    (own' : IsOwnSchema others) (same : SameDocument false (.ofFields fields) (.ofFields others)) (value : Value) :
    violated? value (ofValue (.ofFields fields)) = violated? value (ofValue (.ofFields others)) := by
  have related : List.Forall₂ (fun field other => field.1 = other.1 ∧ SameDocument false field.2 other.2)
      (namedFields fields) (namedFields others) := by
    cases same with
    | text shown _ => cases shown
    | object perm related => exact own.related own' perm related
  show violated? value (ofValue (.object (namedFields fields))) = violated? value (ofValue (.object (namedFields others)))
  rw [ofValue_object, ofValue_object]
  refine violated?_same (List.rel_filterMap (fun _ _ same => same)
    (forall₂_of_mem related fun field member other member' both => ?_)) value
  obtain ⟨key, part⟩ := field
  obtain ⟨other, part'⟩ := other
  obtain ⟨rfl, same⟩ := both
  obtain ⟨name, rfl, here⟩ := mem_namedFields member
  obtain ⟨_, called, there⟩ := mem_namedFields member'
  cases called
  cases inner : isNested name with
  | false => exact demand?_same inner same
  | true =>
    obtain rfl : part = nestedPart name := own.nested (name, part) here inner
    obtain rfl : part' = nestedPart name := own'.nested (name, part') there inner
    cases demandOf? (.text name, nestedPart name) with
    | none => exact .none
    | some demand => exact .some (.refl demand)

/-! The store in the course of some calls. -/

/-- The schema that a call asks for. -/
def Call.schema? : Call → Option Value
  | .check _ rule _ => ownSchema? rule
  | .fetch schema => some schema
  | .clear => none

/-- What a call can do to the store. -/
inductive Call.Stores (call : Call) (before : Store) : Store → Prop
  | cleared : call = .clear → call.Stores before before.clear
  | left : call.schema? = none → call.Stores before before
  | fetched {schema : Value} : call.schema? = some schema → call.Stores before (before.fetch schema).2

theorem Call.run_stores (means : Means) (session : Session) (call : Call) :
    call.Stores session.schemas (call.run means session).schemas := by
  cases call with
  | clear => exact .cleared rfl
  | fetch schema => exact .fetched rfl
  | check value rule context =>
    rw [Call.run, check_schemas]
    cases own : ownSchema? rule with
    | none => exact .left own
    | some schema => exact .fetched own

section History

variable {means : Means} {start : Session}

theorem Call.Stores.sound {call : Call} {before after : Store} (stores : call.Stores before after)
    (sound : before.Sound) : after.Sound ∧ after.limit = before.limit ∧ Store.Follows before after := by
  cases stores with
  | cleared _ => exact ⟨sound.clear, rfl, Store.follows_clear _⟩
  | left _ => exact ⟨sound, rfl, .refl _⟩
  | fetched _ => exact ⟨sound.fetch _, Store.limit_fetch sound.roomy _, Store.follows_fetch sound.roomy _⟩

/-- After any calls the store is sound, it has its limit, and old entries in it were there all the time. -/
theorem sound_after (means : Means) {session : Session} (sound : session.schemas.Sound) (calls : List Call) :
    (session.after means calls).schemas.Sound ∧
      (session.after means calls).schemas.limit = session.schemas.limit ∧
      Store.Follows session.schemas (session.after means calls).schemas := by
  induction calls using List.reverseRecOn with
  | nil => exact ⟨sound, rfl, .refl _⟩
  | append_singleton calls call ih =>
    obtain ⟨sound, limit, follows⟩ := ih
    obtain ⟨sound', limit', follows'⟩ := (call.run_stores means (session.after means calls)).sound sound
    rw [Session.after_concat]
    exact ⟨sound', limit'.trans limit, follows.trans follows'⟩

/-- What is in the store was asked for by one of the calls. -/
theorem mem_after (nothing : start.schemas.entries = []) (sound : start.schemas.Sound) {calls : List Call} {entry : Entry}
    (member : entry ∈ (start.after means calls).schemas.entries) : ∃ call ∈ calls, call.schema? = some entry.schema := by
  induction calls using List.reverseRecOn with
  | nil =>
    rw [Session.after_nil, nothing] at member
    cases member
  | append_singleton calls call ih =>
    have before (member : entry ∈ (start.after means calls).schemas.entries) :
        ∃ other ∈ calls ++ [call], other.schema? = some entry.schema := by
      obtain ⟨other, among, asked⟩ := ih member
      exact ⟨other, List.mem_append_left _ among, asked⟩
    rw [Session.after_concat] at member
    have stores := call.run_stores means (start.after means calls)
    generalize (call.run means (start.after means calls)).schemas = after at stores member
    cases stores with
    | cleared _ => cases member
    | left _ => exact before member
    | fetched asked =>
      obtain held | rfl := Store.mem_fetch (sound_after means sound calls).1.roomy member
      · exact before held
      · exact ⟨call, List.mem_append_right _ List.mem_cons_self, asked⟩

end History

/-! The outcomes of rules on the value alone. -/

/-- The rules on the value alone, which are checked by way of a schema. -/
def IsStatic (rule : Fields) : Prop :=
  ∃ kind ∈ [RuleKind.required, .email, .numeric, .stringLength, .arrayLength, .range, .pattern],
    RuleKind.ofValue? (Fields.get rule "type") = some kind

section Outcomes

variable {means : Means} {value : Value} {rule : Fields} {context : Context}

/-- What becomes of a rule on the value alone follows from the schema of the entry that it is given. -/
theorem check_of_static {kind : RuleKind}
    (among : kind ∈ [RuleKind.required, .email, .numeric, .stringLength, .arrayLength, .range, .pattern])
    (called : RuleKind.ofValue? (Fields.get rule "type") = some kind) (session : Session) :
    (check means value rule context session).1 =
      match schema? kind rule with
      | none => .ok .pass
      | some schema => (session.schemas.fetch schema).1.bind fun entry => checkBySchema kind rule entry.schema value := by
  have static : (checkStatic kind rule value session.schemas).1 =
      match schema? kind rule with
      | none => .ok .pass
      | some schema => (session.schemas.fetch schema).1.bind fun entry => checkBySchema kind rule entry.schema value := by
    unfold checkStatic
    cases schema? kind rule with
    | none => rfl
    | some schema =>
      simp only
      generalize session.schemas.fetch schema = fetched
      obtain ⟨made, store⟩ := fetched
      cases made <;> rfl
  rw [← static]
  unfold check
  rw [called]
  simp only [List.mem_cons, List.not_mem_nil, or_false] at among
  obtain rfl | rfl | rfl | rfl | rfl | rfl | rfl := among <;> rfl

theorem violated?_isNone (value : Value) (demands : List Demand) :
    (violated? value demands).map (·.isNone) = meetsAll value demands := by
  induction demands with
  | nil => rfl
  | cons demand demands ih =>
    rw [violated?, meetsAll, ← ih]
    cases meets value demand with
    | error fault => rfl
    | ok met =>
      cases violated? value demands with
      | error fault => rfl
      | ok later? => cases met <;> rfl

/-- A value is accepted by a schema if it meets all of its demands. -/
theorem checkBySchema_valid (kind : RuleKind) (rule : Fields) (schema value : Value) :
    (checkBySchema kind rule schema value).map (·.valid) = meetsAll (subject kind value) (ofValue schema) := by
  rw [← violated?_isNone, checkBySchema]
  cases violated? (subject kind value) (ofValue schema) with
  | error fault => rfl
  | ok keyword? => cases keyword? <;> rfl

/-- A schema that is the same document as that of a rule accepts the same values. -/
theorem checkBySchema_alike {kind : RuleKind} {schema other : Value} (own : schema? kind rule = some schema)
    (same : SameDocument false schema other) (value : Value) :
    Alike ((checkBySchema kind rule other value).map (·.valid)) ((checkBySchema kind rule schema value).map (·.valid)) := by
  obtain ⟨fields, rfl, shape⟩ := schema?_isOwnSchema own
  rw [checkBySchema_valid, checkBySchema_valid]
  exact ((partsAgree_of_same same shape.hasSimpleConstants).single _).symm

/-- The schemas of two rules that are the same document have the same outcomes. -/
theorem checkBySchema_eq {kind kind' : RuleKind} {rule' : Fields} {schema other : Value}
    (own : schema? kind rule = some schema) (own' : schema? kind' rule' = some other)
    (same : SameDocument false schema other) (value : Value) :
    checkBySchema kind rule other value = checkBySchema kind rule schema value := by
  obtain ⟨fields, rfl, shape⟩ := schema?_isOwnSchema own
  obtain ⟨fields', rfl, shape'⟩ := schema?_isOwnSchema own'
  rw [checkBySchema, checkBySchema, violated?_of_ownSchemas shape shape' same]

end Outcomes

/-! What holds of the store after any calls. -/

/-- The entry that a call is given. -/
def Call.entry? (session : Session) (call : Call) : Option Entry :=
  call.schema?.bind fun schema => (session.schemas.fetch schema).1.toOption

/-- What holds of the store after some calls on a backend, and of what the next one is given by it. -/
structure StoreLaws (means : Means) (start : Session) (calls : List Call) : Prop where
  bounded : ((start.after means calls).schemas.entries.length : Int) ≤ start.schemas.limit
  distinct : ((start.after means calls).schemas.entries.map (·.key)).Nodup
  /-- An entry is dropped only when all are, or as the oldest one when a new one needs its room. -/
  dropped : ∀ (call : Call) (entry : Entry), entry ∈ (start.after means calls).schemas.entries →
    entry ∉ (call.run means (start.after means calls)).schemas.entries →
    call = .clear ∨ ∃ schema, call.schema? = some schema ∧
      Store.MakesRoom (start.after means calls).schemas schema entry (call.run means (start.after means calls)).schemas
  /-- Calls are given one entry only if they ask for one document. -/
  shared : ∀ (earlier later : List Call) (call last : Call) (first second : Entry), calls = earlier ++ call :: later →
    call.entry? (start.after means earlier) = some first → last.entry? (start.after means calls) = some second →
    first.number = second.number →
    ∃ schema other, call.schema? = some schema ∧ last.schema? = some other ∧ SameDocument false schema other
  /-- Whether a value is accepted does not depend on the calls before. -/
  verdict : ∀ value rule context, IsStatic rule →
    Alike ((check means value rule context (start.after means calls)).1.map (·.valid))
      ((check means value rule context start).1.map (·.valid))
  /-- Nor does the outcome, unless the schema was made ready with its names in another order. -/
  outcome : ∀ value rule context, IsStatic rule →
    (∀ schema other, ownSchema? rule = some schema → .fetch other ∈ calls → SameDocument false schema other →
      other = schema) →
    (check means value rule context (start.after means calls)).1 = (check means value rule context start).1

section Laws

variable {means : Means} {start : Session} {calls : List Call} {value : Value} {rule : Fields} {context : Context}

theorem dropped_of_sound {session : Session} (sound : session.schemas.Sound) {call : Call} {entry : Entry}
    (before : entry ∈ session.schemas.entries) (after : entry ∉ (call.run means session).schemas.entries) :
    call = .clear ∨ ∃ schema, call.schema? = some schema ∧
      Store.MakesRoom session.schemas schema entry (call.run means session).schemas := by
  have stores := call.run_stores means session
  generalize (call.run means session).schemas = store at stores after ⊢
  cases stores with
  | cleared all => exact .inl all
  | left _ => exact absurd before after
  | @fetched schema asked => exact .inr ⟨schema, asked, sound.makesRoom_of_dropped before after⟩

theorem shared_of_sound (sound : start.schemas.Sound) {earlier later : List Call} {call last : Call} {first second : Entry}
    (given : call.entry? (start.after means earlier) = some first)
    (given' : last.entry? (start.after means (earlier ++ call :: later)) = some second)
    (same : first.number = second.number) :
    ∃ schema other, call.schema? = some schema ∧ last.schema? = some other ∧ SameDocument false schema other := by
  obtain ⟨schema, asked, found⟩ := Option.bind_eq_some_iff.mp given
  obtain ⟨other, asked', found'⟩ := Option.bind_eq_some_iff.mp given'
  have before := (sound_after means sound earlier).1
  have run := call.run_stores means (start.after means earlier)
  have stored : (call.run means (start.after means earlier)).schemas =
      ((start.after means earlier).schemas.fetch schema).2 := by
    generalize (call.run means (start.after means earlier)).schemas = store at run
    cases run with
    | cleared all =>
      rw [all] at asked
      cases asked
    | left none =>
      rw [none] at asked
      cases asked
    | fetched asked'' => rw [Option.some.inj (asked.symm.trans asked'')]
  have after := ((call.run_stores means (start.after means earlier)).sound before).1
  obtain ⟨sound', _, follows⟩ := sound_after means after later
  have parts : start.after means (earlier ++ call :: later) =
      (call.run means (start.after means earlier)).after means later := by
    rw [Session.after_append]
    rfl
  rw [parts] at found'
  rw [stored] at follows
  exact ⟨schema, other, asked, asked',
    (before.shared (ok_of_toOption found) follows sound' (ok_of_toOption found') same).2⟩

/-- What becomes of a rule on the value alone after some calls: what becomes of it without them, unless the schema
that it is given is one that another call asked for. -/
theorem check_after_cases (nothing : start.schemas.entries = []) (roomy : 1 ≤ start.schemas.limit) (calls : List Call)
    (static : IsStatic rule) :
    (check means value rule context (start.after means calls)).1 = (check means value rule context start).1 ∨
      ∃ kind schema other, schema? kind rule = some schema ∧ ownSchema? rule = some schema ∧
        SameDocument false schema other ∧ (∃ call ∈ calls, call.schema? = some other) ∧
        (check means value rule context (start.after means calls)).1 = checkBySchema kind rule other value ∧
        (check means value rule context start).1 = checkBySchema kind rule schema value := by
  have empty : start.schemas.Sound := Store.sound_empty nothing roomy
  have sound := (sound_after means empty calls).1
  obtain ⟨kind, among, called⟩ := static
  rw [check_of_static among called, check_of_static among called]
  cases own : schema? kind rule with
  | none => exact .inl rfl
  | some schema =>
    simp only
    cases fetched : ((start.after means calls).schemas.fetch schema).1 with
    | error fault =>
      have unwritten := (Store.fetch_error_iff sound.roomy).mp fetched
      rw [(Store.fetch_error_iff roomy).mpr unwritten]
      exact .inl rfl
    | ok entry =>
      obtain ⟨written, written', member⟩ := sound.entry_of_fetch fetched
      cases fresh : (start.schemas.fetch schema).1 with
      | error fault =>
        rw [(Store.fetch_error_iff roomy).mp fresh] at written
        cases written
      | ok entry' =>
        have first : entry'.schema = schema := by
          obtain ⟨_, _, member⟩ := empty.entry_of_fetch fresh
          refine (Store.mem_fetch roomy member).resolve_left ?_
          rw [nothing]
          exact List.not_mem_nil
        obtain held | same := Store.mem_fetch sound.roomy member
        · refine .inr ⟨kind, schema, entry.schema, own, ?_, sameDocument_of_canonical written written',
            mem_after nothing empty held, rfl, ?_⟩
          · rw [ownSchema?, called]
            exact own
          · rw [← first]
            rfl
        · left
          show checkBySchema kind rule entry.schema value = checkBySchema kind rule entry'.schema value
          rw [same, first]

/-- Nothing is left of the store in whether values are accepted: it is bounded, its entries are dropped in the
order in which they came, and they are shared only by schemas that are the same document. -/
theorem storeLaws (nothing : start.schemas.entries = []) (roomy : 1 ≤ start.schemas.limit) (calls : List Call) :
    StoreLaws means start calls := by
  have empty : start.schemas.Sound := Store.sound_empty nothing roomy
  obtain ⟨sound, limit, _⟩ := sound_after means empty calls
  exact {
    bounded := limit ▸ sound.bounded
    distinct := sound.distinct
    dropped := fun call entry => dropped_of_sound sound
    shared := fun earlier later call last first second parts => parts ▸ shared_of_sound empty
    verdict := fun value rule context static => by
      obtain same | ⟨kind, schema, other, own, _, same, _, warm, fresh⟩ := check_after_cases nothing roomy calls static
      · exact .of_eq (by rw [same])
      · rw [warm, fresh]
        exact checkBySchema_alike own same value
    outcome := fun value rule context static readied => by
      obtain same | ⟨kind, schema, other, own, asks, same, ⟨call, among, asked⟩, warm, fresh⟩ :=
        check_after_cases nothing roomy calls static
      · exact same
      · rw [warm, fresh]
        cases call with
        | clear => cases asked
        | fetch _ =>
          cases asked
          rw [readied schema other asks among same]
        | check _ rule' _ =>
          obtain ⟨kind', _, own'⟩ := Option.bind_eq_some_iff.mp asked
          exact checkBySchema_eq own own' same value }

end Laws

namespace Readied

/-- A schema of a length, its names in another order than that of rules. -/
def schema : Value := .ofFields [("maxLength", .int 3), ("minLength", .int 5), typed "string"]

def rule : Fields := [(.text "type", .text "stringLength"), (.text "min", .int 5), (.text "max", .int 3)]

def means : Means := { callbacks := { registry := .standard } }

def outcome (calls : List Call) : Except Fault Outcome :=
  (check means (.text "abcd") rule (Context.ofData (.object [])) (({} : Session).after means calls)).1

end Readied

open Readied in
theorem storeLaws_readied : ({} : Session).schemas.entries = [] ∧ 1 ≤ ({} : Session).schemas.limit ∧
    StoreLaws means {} [.fetch schema] :=
  ⟨rfl, by decide, storeLaws rfl (by decide) [.fetch schema]⟩

open Readied in
/-- A text that is both too short and too long is said to be the one or the other. -/
theorem outcome_readied : IsStatic rule ∧ outcome [.fetch schema] ≠ outcome [] ∧
    ((outcome [.fetch schema]).map (·.error.shown)).toOption = some "String length must be at most 3" ∧
    ((outcome []).map (·.error.shown)).toOption = some "String length must be at least 5" := by
  have after : ((outcome [.fetch schema]).map (·.error.shown)).toOption = some "String length must be at most 3" := by
    decide +kernel
  have fresh : ((outcome []).map (·.error.shown)).toOption = some "String length must be at least 5" := by
    decide +kernel
  refine ⟨⟨.stringLength, by decide, rfl⟩, fun same => ?_, after, fresh⟩
  rw [same, fresh] at after
  exact absurd after (by decide)

end FormRules.Rule
