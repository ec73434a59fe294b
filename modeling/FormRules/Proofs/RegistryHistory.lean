import FormRules.Callback.Registry
import FormRules.Proofs.KeyedJoins
import Mathlib.Data.List.Induction

/-! Calls on a registry that has the predefined callbacks, one after another. As long as none of them asks for a
predefined callback to be replaced, these stay as they are and come first. After them come the names that have been
registered and not removed since, each at the place where it came in and with its latest callback. -/

namespace FormRules

namespace Registry

open Callback (Entry predefined)

/-- The predefined callbacks under their names, in their order. -/
def protectedEntries : Keyed Entry := predefined.map fun item => (.text item.name, item.entry)

/-- Whether a name is that of a predefined callback. -/
def isReserved (name : Scalar) : Bool := protectedEntries.has name

theorem protectedEntries_distinct : protectedEntries.Distinct := by
  unfold Keyed.Distinct
  decide +kernel

theorem protectedEntries_flagged : ∀ member ∈ protectedEntries, member.2.isPredefined = true := by
  intro member inside
  obtain ⟨item, _, rfl⟩ := List.mem_map.mp inside
  rfl

theorem find?_protectedEntries {member : Scalar × Entry} (inside : member ∈ protectedEntries) :
    protectedEntries.find? member.1 = some member.2 := by
  refine protectedEntries_distinct.find?_of_mem inside ?_
  obtain ⟨item, _, rfl⟩ := List.mem_map.mp inside
  exact (Scalar.coincides_text _ _).trans (beq_self_eq_true item.name)

theorem isReserved_coincides {name other : Scalar} (same : name.coincides other = true) : isReserved name = isReserved other := by
  rw [isReserved, isReserved, Keyed.has, Keyed.has, Keyed.find?_congr protectedEntries same]

theorem withPredefined_eq (registry : Registry) :
    registry.withPredefined = ⟨registry.entries.merge protectedEntries⟩ := by
  rw [withPredefined, protectedEntries, Keyed.merge, List.foldl_map]

theorem standard_eq : standard = ⟨protectedEntries⟩ := by
  have distinct : Keyed.Distinct ([] ++ protectedEntries) := protectedEntries_distinct
  rw [standard, withPredefined_eq]
  exact congrArg _ (Keyed.merge_of_distinct distinct)

/-! What becomes of a registry in which others follow the predefined callbacks. -/

/-- A registry in which some callbacks follow the predefined ones. -/
def followed (customs : Keyed Entry) : Registry := ⟨protectedEntries ++ customs⟩

/-- Whether callbacks have names of their own, and are not predefined. -/
def AreCustom (customs : Keyed Entry) : Prop :=
  ∀ member ∈ customs, isReserved member.1 = false ∧ member.2.isPredefined = false

section Followed

variable {customs : Keyed Entry} {name : Scalar} (entry : Entry) (overwrite : Bool)

theorem absent_of_free (free : isReserved name = false) : protectedEntries.find? name = none :=
  Option.isNone_iff_eq_none.mp (Option.isSome_eq_false_iff.mp free)

theorem find?_followed_of_free (free : isReserved name = false) :
    (followed customs).entries.find? name = customs.find? name := by
  rw [followed, Keyed.find?_append, absent_of_free free, Option.none_or]

theorem find?_followed_of_reserved (customs : Keyed Entry) (reserved : isReserved name = true) :
    ∃ entry, (followed customs).entries.find? name = some entry ∧ entry.isPredefined = true := by
  obtain ⟨entry, found⟩ := Option.isSome_iff_exists.mp reserved
  obtain ⟨_, inside, _⟩ := Keyed.exists_mem_of_find? found
  exact ⟨entry, by rw [followed, Keyed.find?_append, found, Option.some_or], protectedEntries_flagged _ inside⟩

theorem AreCustom.flag_of_find? (custom : AreCustom customs) {entry : Entry} (found : customs.find? name = some entry) :
    entry.isPredefined = false := by
  obtain ⟨_, inside, _⟩ := Keyed.exists_mem_of_find? found
  exact (custom _ inside).2

theorem register_reserved (reserved : isReserved name = true) :
    (followed customs).register name entry false = (followed customs, false) := by
  obtain ⟨held, found, flag⟩ := find?_followed_of_reserved customs reserved
  simp only [register, isProtected, found, Option.any_some, flag, Bool.not_false, Bool.and_true, if_true]

theorem register_free (custom : AreCustom customs) (free : isReserved name = false) :
    (followed customs).register name entry overwrite =
      (followed (customs.insert name { entry with isPredefined := false }), true) := by
  have unprotected : (followed customs).isProtected name = false := by
    rw [isProtected, find?_followed_of_free free]
    cases found : customs.find? name with
    | none => rfl
    | some held => exact custom.flag_of_find? found
  rw [register, unprotected, Bool.false_and, if_neg Bool.false_ne_true, followed,
    Keyed.insert_append (absent_of_free free)]
  rfl

theorem unregister_reserved (reserved : isReserved name = true) :
    (followed customs).unregister name = (followed customs, false) := by
  obtain ⟨held, found, flag⟩ := find?_followed_of_reserved customs reserved
  simp only [unregister, found, flag, if_true]

theorem unregister_free (custom : AreCustom customs) (free : isReserved name = false) :
    (followed customs).unregister name = (followed (customs.erase name), customs.has name) := by
  rw [unregister, find?_followed_of_free free, Keyed.has]
  cases found : customs.find? name with
  | none => rw [Keyed.erase_of_absent found]; rfl
  | some held =>
    have erased : (followed customs).entries.erase name = protectedEntries ++ customs.erase name :=
      Keyed.erase_append (absent_of_free free) customs
    simp only [custom.flag_of_find? found, erased, Bool.false_eq_true, if_false, Option.isSome_some]
    rfl

theorem clearCustom_followed (custom : AreCustom customs) : (followed customs).clearCustom = followed [] := by
  have first : protectedEntries.filter (fun member => member.2.isPredefined) = protectedEntries :=
    List.filter_eq_self.mpr protectedEntries_flagged
  have rest : customs.filter (fun member => member.2.isPredefined) = [] := by
    refine List.filter_eq_nil_iff.mpr fun member inside => ?_
    rw [(custom member inside).2]
    exact Bool.false_ne_true
  show Registry.mk ((protectedEntries ++ customs).filter _) = _
  rw [List.filter_append, first, rest]
  rfl

theorem withPredefined_followed : (followed customs).withPredefined = followed customs := by
  rw [withPredefined_eq, Keyed.merge_of_found]
  intro member inside
  rw [followed, Keyed.find?_append, find?_protectedEntries inside, Option.some_or]

end Followed

/-- What can be asked of a registry that may change it. -/
inductive Call where
  | register (name : Scalar) (entry : Entry) (overwrite : Bool)
  | unregister (name : Scalar)
  | clearCustom
  | registerPredefined

namespace Call

/-- What a call leaves behind, and what it says if it says anything. -/
def run (registry : Registry) : Call → Registry × Option Bool
  | .register name entry overwrite => (registry.register name entry overwrite).map id some
  | .unregister name => (registry.unregister name).map id some
  | .clearCustom => (registry.clearCustom, none)
  | .registerPredefined => (registry.withPredefined, none)

/-- Whether a call does not ask for a predefined callback to be replaced. -/
def Spares : Call → Prop
  | .register name _ overwrite => overwrite = true → isReserved name = false
  | _ => True

instance : (call : Call) → Decidable call.Spares
  | .register name _ overwrite => inferInstanceAs (Decidable (overwrite = true → isReserved name = false))
  | .unregister _ | .clearCustom | .registerPredefined => .isTrue trivial

/-- What a call registers under a name. -/
def given? (name : Scalar) : Call → Option Entry
  | .register other entry _ => if other.coincides name then some entry else none
  | _ => none

/-- Whether a call removes what has been registered under a name. -/
def removes (name : Scalar) : Call → Bool
  | .unregister other => other.coincides name
  | .clearCustom => true
  | _ => false

end Call

/-- What calls leave behind, one after another. -/
def after (registry : Registry) (calls : List Call) : Registry :=
  calls.foldl (fun registry call => (call.run registry).1) registry

theorem after_concat (registry : Registry) (calls : List Call) (call : Call) :
    registry.after (calls ++ [call]) = (call.run (registry.after calls)).1 := List.foldl_concat ..

/-! What calls amount to, told from the calls alone. -/

/-- Whether the call at a place was an event, given the calls before it, and all calls since have kept what came of
it. -/
def Since (event : List Call → Call → Prop) (keeps : Call → Prop) (calls : List Call) (place : Nat) : Prop :=
  ∃ before call later, calls = before ++ call :: later ∧ before.length = place ∧ event before call ∧
    ∀ other ∈ later, keeps other

/-- Whether a name has been registered and not removed since. -/
def Known (calls : List Call) (name : Scalar) : Prop :=
  ∃ place, Since (fun _ call => (call.given? name).isSome = true) (·.removes name = false) calls place

/-- Whether a callback is that of the latest registration of a name that has not been removed since. -/
def Latest (calls : List Call) (name : Scalar) (entry : Entry) : Prop :=
  ∃ place, Since (fun _ call => call.given? name = some entry)
    (fun call => call.removes name = false ∧ call.given? name = none) calls place

/-- Whether the call at a place has brought in a name that has not been removed since: the name was not known then. -/
def BringsIn (calls : List Call) (place : Nat) (name : Scalar) : Prop :=
  Since (fun before call => (∃ entry overwrite, call = .register name entry overwrite) ∧ ¬Known before name)
    (·.removes name = false) calls place

section History

variable {calls : List Call} {last : Call} {name : Scalar} {entry : Entry} {place : Nat}

theorem since_concat {event : List Call → Call → Prop} {keeps : Call → Prop} :
    Since event keeps (calls ++ [last]) place ↔
      (Since event keeps calls place ∧ keeps last) ∨ (place = calls.length ∧ event calls last) := by
  constructor
  · rintro ⟨before, call, later, same, rfl, happened, kept⟩
    rcases List.eq_nil_or_concat later with rfl | ⟨rest, other, rfl⟩
    · obtain ⟨rfl, only⟩ := List.append_inj' same rfl
      cases only
      exact .inr ⟨rfl, happened⟩
    · rw [List.concat_eq_append] at same kept
      rw [← List.cons_append, ← List.append_assoc] at same
      obtain ⟨rfl, only⟩ := List.append_inj' same rfl
      cases only
      obtain ⟨kept, here⟩ := List.forall_mem_append.mp kept
      exact .inl ⟨⟨before, call, rest, rfl, rfl, happened, kept⟩, here _ List.mem_cons_self⟩
  · rintro (⟨⟨before, call, later, rfl, rfl, happened, kept⟩, here⟩ | ⟨rfl, happened⟩)
    · refine ⟨before, call, later ++ [last], ?_, rfl, happened, ?_⟩
      · rw [List.append_assoc, List.cons_append]
      · exact List.forall_mem_append.mpr ⟨kept, List.forall_mem_singleton.mpr here⟩
    · exact ⟨calls, last, [], rfl, rfl, happened, List.forall_mem_nil _⟩

theorem not_since_nil {event : List Call → Call → Prop} {keeps : Call → Prop} : ¬Since event keeps [] place := by
  rintro ⟨before, call, later, same, _⟩
  simp at same

theorem known_concat : Known (calls ++ [last]) name ↔
    (Known calls name ∧ last.removes name = false) ∨ (last.given? name).isSome = true := by
  simp only [Known, since_concat, exists_or, exists_and_right, exists_eq, true_and]

theorem latest_concat : Latest (calls ++ [last]) name entry ↔
    (Latest calls name entry ∧ last.removes name = false ∧ last.given? name = none) ∨ last.given? name = some entry := by
  simp only [Latest, since_concat, exists_or, exists_and_right, exists_eq, true_and]

theorem bringsIn_concat : BringsIn (calls ++ [last]) place name ↔
    (BringsIn calls place name ∧ last.removes name = false) ∨
      (place = calls.length ∧ (∃ entry overwrite, last = .register name entry overwrite) ∧ ¬Known calls name) :=
  since_concat

theorem BringsIn.lt_length (brings : BringsIn calls place name) : place < calls.length := by
  obtain ⟨before, call, later, rfl, rfl, _⟩ := brings
  simp

theorem known_iff_latest : Known calls name ↔ ∃ entry, Latest calls name entry := by
  induction calls using List.reverseRecOn with
  | nil => simp only [Known, Latest, not_since_nil, exists_false]
  | append_singleton calls last ih =>
    simp only [known_concat, latest_concat, ih]
    cases last.given? name <;> simp

end History

namespace Call

/-- Whether a call has nothing to do with names other than those of predefined callbacks. -/
def IsIdle : Call → Prop
  | .register name _ _ | .unregister name => isReserved name = true
  | .clearCustom => False
  | .registerPredefined => True

variable {call : Call} {name : Scalar}

theorem IsIdle.apart (idle : call.IsIdle) (free : isReserved name = false) : call.removes name = false ∧
    call.given? name = none ∧ ∀ entry overwrite, call ≠ .register name entry overwrite := by
  have other {held : Scalar} (reserved : isReserved held = true) : held.coincides name = false := by
    refine Bool.eq_false_iff.mpr fun same => ?_
    rw [isReserved_coincides same, free] at reserved
    cases reserved
  cases call with
  | register held entry overwrite =>
    refine ⟨rfl, if_neg (Bool.eq_false_iff.mp (other idle)), ?_⟩
    rintro _ _ ⟨⟩
    rw [show isReserved name = true from idle] at free
    cases free
  | unregister held => exact ⟨other idle, rfl, nofun⟩
  | clearCustom => cases idle
  | registerPredefined => exact ⟨rfl, rfl, nofun⟩

/-- Whether a call comes to nothing after some others: a name that it would register is that of a predefined callback,
or one that it would remove is that or not known. -/
def IsRefused (calls : List Call) : Call → Prop
  | .register name _ _ => isReserved name = true
  | .unregister name => isReserved name = true ∨ ¬Known calls name
  | .clearCustom | .registerPredefined => False

end Call

/-- The names that calls have brought in, but for those of predefined callbacks, in the order in which they came in. -/
def Listed (calls : List Call) (places : List (Nat × Scalar)) : Prop :=
  places.Pairwise (·.1 < ·.1) ∧
    ∀ place name, (place, name) ∈ places ↔ isReserved name = false ∧ BringsIn calls place name

namespace Listed

variable {calls : List Call} {call : Call} {places : List (Nat × Scalar)} {name : Scalar} {entry : Entry}
  {overwrite : Bool}

theorem idle (listed : Listed calls places) (idle : call.IsIdle) : Listed (calls ++ [call]) places := by
  refine ⟨listed.1, fun place name => (listed.2 place name).trans (and_congr_right fun free => ?_)⟩
  obtain ⟨kept, _, other⟩ := idle.apart free
  simp [bringsIn_concat, kept, other]

/-- A name that is known keeps its place. -/
theorem register_known (listed : Listed calls places) (known : Known calls name) :
    Listed (calls ++ [.register name entry overwrite]) places := by
  refine ⟨listed.1, fun place other => (listed.2 place other).trans (and_congr_right fun _ => ?_)⟩
  rw [bringsIn_concat]
  constructor
  · exact fun brings => .inl ⟨brings, rfl⟩
  · rintro (⟨brings, _⟩ | ⟨_, ⟨_, _, ⟨⟩⟩, unknown⟩)
    · exact brings
    · exact absurd known unknown

/-- A name that is not known comes last. -/
theorem register_unknown (listed : Listed calls places) (free : isReserved name = false) (unknown : ¬Known calls name) :
    Listed (calls ++ [.register name entry overwrite]) (places ++ [(calls.length, name)]) := by
  constructor
  · refine List.pairwise_append.mpr ⟨listed.1, List.pairwise_singleton _ _, ?_⟩
    intro earlier among later only
    rw [List.mem_singleton.mp only]
    exact ((listed.2 earlier.1 earlier.2).mp among).2.lt_length
  · intro place other
    rw [List.mem_append, List.mem_singleton, Prod.mk.injEq, listed.2, bringsIn_concat]
    constructor
    · rintro (⟨free', brings⟩ | ⟨rfl, rfl⟩)
      · exact ⟨free', .inl ⟨brings, rfl⟩⟩
      · exact ⟨free, .inr ⟨rfl, ⟨entry, overwrite, rfl⟩, unknown⟩⟩
    · rintro ⟨free', ⟨brings, _⟩ | ⟨rfl, ⟨_, _, ⟨⟩⟩, _⟩⟩
      · exact .inl ⟨free', brings⟩
      · exact .inr ⟨rfl, rfl⟩

theorem unregister (listed : Listed calls places) (name : Scalar) :
    Listed (calls ++ [.unregister name]) (places.filter (!·.2.coincides name)) := by
  refine ⟨listed.1.filter _, fun place other => ?_⟩
  simp [List.mem_filter, listed.2, bringsIn_concat, Call.removes, Scalar.coincides_comm name, and_assoc]

end Listed

/-- Callbacks that are what calls have registered and not removed. -/
structure Tracks (calls : List Call) (customs : Keyed Entry) : Prop where
  custom : AreCustom customs
  listed : ∃ places, Listed calls places ∧ customs.keys = places.map (·.2)
  found : ∀ name entry, isReserved name = false → (customs.find? name = some entry ↔
    ∃ given, Latest calls name given ∧ { given with isPredefined := false } = entry)

namespace Tracks

variable {calls : List Call} {customs : Keyed Entry} {call : Call} {name : Scalar}

theorem has_iff (tracks : Tracks calls customs) (free : isReserved name = false) :
    customs.has name = true ↔ Known calls name := by
  simp only [Keyed.has, Option.isSome_iff_exists, tracks.found name _ free, known_iff_latest]
  constructor
  · rintro ⟨_, given, latest, _⟩
    exact ⟨given, latest⟩
  · rintro ⟨given, latest⟩
    exact ⟨_, given, latest, rfl⟩

theorem nil : Tracks [] [] where
  custom := List.forall_mem_nil _
  listed := ⟨[], ⟨.nil, fun place name => by simp [BringsIn, not_since_nil]⟩, rfl⟩
  found := by simp [Latest, not_since_nil, Keyed.find?]

theorem idle (tracks : Tracks calls customs) (idle : call.IsIdle) : Tracks (calls ++ [call]) customs where
  custom := tracks.custom
  listed := by
    obtain ⟨places, listed, keys⟩ := tracks.listed
    exact ⟨places, listed.idle idle, keys⟩
  found := by
    intro name entry free
    obtain ⟨kept, other, _⟩ := idle.apart free
    simp [latest_concat, kept, other, tracks.found name entry free]

theorem register (tracks : Tracks calls customs) (free : isReserved name = false) (entry : Entry) (overwrite : Bool) :
    Tracks (calls ++ [.register name entry overwrite]) (customs.insert name { entry with isPredefined := false }) where
  custom := by
    intro member inside
    constructor
    · rcases Keyed.key_of_mem_insert inside with ⟨held, among, same⟩ | same
      · exact same ▸ (tracks.custom held among).1
      · exact same ▸ free
    · rcases Keyed.mem_insert inside with before | same
      · exact (tracks.custom member before).2
      · rw [same]
  listed := by
    obtain ⟨places, listed, keys⟩ := tracks.listed
    have known := tracks.has_iff free
    rw [Keyed.keys_insert]
    split
    next here => exact ⟨places, listed.register_known (known.mp here), keys⟩
    next absent =>
      refine ⟨_, listed.register_unknown free (absent ∘ known.mpr), ?_⟩
      rw [keys, List.map_append]
      rfl
  found := by
    intro other held free'
    rw [Keyed.find?_insert]
    by_cases same : name.coincides other = true
    · simp [latest_concat, Call.given?, same]
    · simp [latest_concat, Call.given?, Call.removes, same, tracks.found other held free']

theorem unregister (tracks : Tracks calls customs) (name : Scalar) :
    Tracks (calls ++ [.unregister name]) (customs.erase name) where
  custom := fun member inside => tracks.custom member (List.mem_of_mem_filter inside)
  listed := by
    obtain ⟨places, listed, keys⟩ := tracks.listed
    refine ⟨_, listed.unregister name, ?_⟩
    rw [Keyed.keys_erase, keys, List.filter_map]
    rfl
  found := by
    intro other entry free
    rw [Keyed.find?_erase, Scalar.coincides_comm]
    by_cases same : name.coincides other = true
    · simp [latest_concat, Call.removes, Call.given?, same]
    · simp [latest_concat, Call.removes, Call.given?, same, tracks.found other entry free]

theorem clearCustom (calls : List Call) : Tracks (calls ++ [.clearCustom]) [] where
  custom := List.forall_mem_nil _
  listed := ⟨[], ⟨.nil, fun place name => by simp [bringsIn_concat, Call.removes]⟩, rfl⟩
  found := by simp [latest_concat, Call.removes, Call.given?, Keyed.find?]

/-- What one call makes of the registry, and what it says. -/
theorem next (tracks : Tracks calls customs) (spares : call.Spares) :
    ∃ later said, call.run (followed customs) = (followed later, said) ∧ Tracks (calls ++ [call]) later ∧
      (said = some false ↔ call.IsRefused calls) ∧ (said = some false → followed later = followed customs) := by
  have silent : (none : Option Bool) ≠ some false := by decide
  cases call with
  | register name entry overwrite =>
    cases reserved : isReserved name with
    | true =>
      have plain : overwrite = false := by
        refine Bool.eq_false_iff.mpr fun forced => ?_
        have free : isReserved name = false := spares forced
        rw [reserved] at free
        cases free
      refine ⟨customs, some false, ?_, tracks.idle reserved, iff_of_true rfl reserved, fun _ => rfl⟩
      rw [plain, Call.run, register_reserved entry reserved]
      rfl
    | false =>
      have accepted : some true ≠ some false := by decide
      refine ⟨_, some true, ?_, tracks.register reserved entry overwrite, iff_of_false accepted ?_, (absurd · accepted)⟩
      · rw [Call.run, register_free entry overwrite tracks.custom reserved]
        rfl
      · exact fun refused => Bool.false_ne_true (reserved.symm.trans refused)
  | unregister name =>
    cases reserved : isReserved name with
    | true =>
      refine ⟨customs, some false, ?_, tracks.idle reserved, iff_of_true rfl (.inl reserved), fun _ => rfl⟩
      rw [Call.run, unregister_reserved reserved]
      rfl
    | false =>
      refine ⟨customs.erase name, some (customs.has name), ?_, tracks.unregister name, ?_, ?_⟩
      · rw [Call.run, unregister_free tracks.custom reserved]
        rfl
      · rw [Option.some.injEq, Bool.eq_false_iff, Ne, tracks.has_iff reserved, Call.IsRefused, reserved]
        simp
      · intro unknown
        rw [Keyed.erase_of_absent (by simpa [Keyed.has] using unknown)]
  | clearCustom =>
    have run : Call.run (followed customs) .clearCustom = (followed [], none) := by
      rw [Call.run, clearCustom_followed tracks.custom]
    exact ⟨[], none, run, clearCustom calls, iff_of_false silent id, (absurd · silent)⟩
  | registerPredefined =>
    have run : Call.run (followed customs) .registerPredefined = (followed customs, none) := by
      rw [Call.run, withPredefined_followed]
    exact ⟨customs, none, run, tracks.idle trivial, iff_of_false silent id, (absurd · silent)⟩

end Tracks

/-- Calls that leave the predefined callbacks alone are kept track of by what follows these. -/
theorem after_tracks {calls : List Call} (spared : ∀ call ∈ calls, call.Spares) :
    ∃ customs, standard.after calls = followed customs ∧ Tracks calls customs := by
  induction calls using List.reverseRecOn with
  | nil => exact ⟨[], standard_eq.trans (congrArg _ (List.append_nil protectedEntries).symm), .nil⟩
  | append_singleton calls last ih =>
    obtain ⟨before, here⟩ := List.forall_mem_append.mp spared
    obtain ⟨customs, same, tracks⟩ := ih before
    obtain ⟨later, said, run, tracks', _⟩ := tracks.next (here last List.mem_cons_self)
    exact ⟨later, by rw [after_concat, same, run], tracks'⟩

/-- As long as no call asks for a predefined callback to be replaced, these stay as they were and come first. After them
come the other names that have been registered and not removed since, in the order in which they came in, each with the
callback of its latest registration. A name that is predefined cannot be registered, one that is predefined or unknown
cannot be removed, and asking for it changes nothing. -/
theorem after_protects (calls : List Call) (spared : ∀ call ∈ calls, call.Spares) :
    let registry := standard.after calls
    (∃ customs, registry.entries = predefined.map (fun item => (.text item.name, item.entry)) ++ customs) ∧
    (∃ places, Listed calls places ∧
      registry.names = predefined.map (.text ·.name) ++ places.map (·.2)) ∧
    (∀ item ∈ predefined, registry.find? (.text item.name) = some item.callback) ∧
    (∀ name, registry.has name = true ↔ isReserved name = true ∨ Known calls name) ∧
    (∀ name, isReserved name = false → Known calls name →
      ∃ entry, Latest calls name entry ∧ registry.find? name = entry.callback?) ∧
    ∀ call : Call, call.Spares →
      ((call.run registry).2 = some false ↔ call.IsRefused calls) ∧
      ((call.run registry).2 = some false → (call.run registry).1 = registry) := by
  intro registry
  obtain ⟨customs, same, tracks⟩ := after_tracks spared
  obtain ⟨places, listed, keys⟩ := tracks.listed
  have same : registry = followed customs := same
  rw [same]
  refine ⟨⟨customs, rfl⟩, ⟨places, listed, ?_⟩, ?_, ?_, ?_, ?_⟩
  · rw [names, followed, Keyed.keys, List.map_append, ← Keyed.keys.eq_1 customs, keys, protectedEntries, List.map_map]
    rfl
  · intro item inside
    have held : (followed customs).entries.find? (.text item.name) = some item.entry := by
      rw [followed, Keyed.find?_append, find?_protectedEntries (List.mem_map_of_mem inside), Option.some_or]
    rw [find?, held]
    rfl
  · intro name
    rw [has, Keyed.has]
    cases reserved : isReserved name with
    | true =>
      obtain ⟨entry, found, _⟩ := find?_followed_of_reserved customs reserved
      simp [found]
    | false =>
      rw [find?_followed_of_free reserved, ← Keyed.has, tracks.has_iff reserved]
      simp
  · intro name free known
    obtain ⟨entry, latest⟩ := known_iff_latest.mp known
    refine ⟨entry, latest, ?_⟩
    rw [find?, find?_followed_of_free free, (tracks.found name _ free).mpr ⟨entry, latest, rfl⟩]
    rfl
  · intro call spares
    obtain ⟨later, said, run, _, refused, idle⟩ := tracks.next spares
    rw [run]
    exact ⟨refused, idle⟩

namespace Replaced

def entry (callback : Callback) : Entry := { callback? := some callback }

/-- Of two names the first one is removed and registered again, the other one only registered again. What is asked for
about a predefined callback comes to nothing. -/
def calls : List Call := [
  .register (.text "isOpen") (entry Callback.allEqual) false,
  .register (.text "isAdult") (entry Callback.allEqual) false,
  .register (.text "isTrue") (entry Callback.allEqual) false,
  .unregister (.text "isTrue"),
  .unregister (.text "isOpen"),
  .registerPredefined,
  .register (.text "isOpen") (entry Callback.notEmpty) false,
  .register (.text "isAdult") (entry Callback.notEmpty) true]

end Replaced

open Replaced in
theorem after_protects_replaced :
    let registry := standard.after calls
    (∀ call ∈ calls, call.Spares) ∧ (∃ places, Listed calls places ∧
      places.map (·.2) = [.text "isAdult", .text "isOpen"] ∧
      registry.names = predefined.map (.text ·.name) ++ places.map (·.2)) ∧
    ((Call.unregister (.text "isTrue")).run registry).1 = registry := by
  intro registry
  have spared : ∀ call ∈ calls, call.Spares := by decide +kernel
  have last : registry.names = predefined.map (.text ·.name) ++ [.text "isAdult", .text "isOpen"] := by decide +kernel
  obtain ⟨_, ⟨places, listed, names⟩, _, _, _, answers⟩ := after_protects calls spared
  have refused : (Call.unregister (.text "isTrue")).IsRefused calls := .inl (by decide +kernel)
  obtain ⟨said, same⟩ := answers (.unregister (.text "isTrue")) trivial
  exact ⟨spared, ⟨places, listed, List.append_cancel_left (names.symm.trans last), names⟩, same (said.mpr refused)⟩

end Registry

end FormRules
