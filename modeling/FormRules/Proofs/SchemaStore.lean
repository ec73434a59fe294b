import FormRules.Proofs.CanonicalText
import FormRules.Schema.Store

/-! A store of schemas through any number of fetches: what it holds, what it drops, and who shares an entry. -/

namespace FormRules.Schema.Store

/-- What a fetch can do: fail to write the key, find an entry, or make one, for which the oldest one may make room. -/
inductive Fetched (store : Store) (schema : Value) : Except Fault Entry × Store → Prop
  | unwritten {fault : Fault} : Json.canonical false schema = .error fault → Fetched store schema (.error fault, store)
  | found {entry : Entry} : Json.canonical false schema = .ok entry.key → entry ∈ store.entries →
      Fetched store schema (.ok entry, store)
  | added {key : String} : Json.canonical false schema = .ok key → (∀ entry ∈ store.entries, entry.key ≠ key) →
      store.isFull = false → Fetched store schema (.ok ⟨key, store.made, schema⟩,
        { store with made := store.made + 1, entries := store.entries ++ [⟨key, store.made, schema⟩] })
  | replaced {key : String} {oldest : Entry} {newer : List Entry} : Json.canonical false schema = .ok key →
      (∀ entry ∈ store.entries, entry.key ≠ key) → store.isFull = true → store.entries = oldest :: newer →
      Fetched store schema (.ok ⟨key, store.made, schema⟩,
        { store with made := store.made + 1, entries := newer ++ [⟨key, store.made, schema⟩] })

theorem fetch_fetched {store : Store} (roomy : 1 ≤ store.limit) (schema : Value) :
    Fetched store schema (store.fetch schema) := by
  unfold fetch
  cases written : Json.canonical false schema with
  | error fault => exact .unwritten written
  | ok key =>
    simp only
    cases search : store.find? key with
    | some entry =>
      have same : entry.key = key := by simpa using List.find?_some search
      exact .found (same ▸ written) (List.mem_of_find?_eq_some search)
    | none =>
      have absent : ∀ entry ∈ store.entries, entry.key ≠ key := by simpa [find?] using search
      unfold add
      cases full : store.isFull with
      | false => exact .added written absent full
      | true =>
        cases held : store.entries with
        | nil =>
          have : store.limit ≤ 0 := by simpa [isFull, held] using full
          omega
        | cons oldest newer => exact .replaced written absent full held

/-- A store whose entries are written and numbered as they were made, and which keeps to its limit. -/
structure Sound (store : Store) : Prop where
  roomy : 1 ≤ store.limit
  bounded : store.Bounded
  keyed : ∀ entry ∈ store.entries, Json.canonical false entry.schema = .ok entry.key
  distinct : (store.entries.map (·.key)).Nodup
  ordered : store.entries.Pairwise (·.number < ·.number)
  below : ∀ entry ∈ store.entries, entry.number < store.made

theorem sound_empty {store : Store} (nothing : store.entries = []) (roomy : 1 ≤ store.limit) : store.Sound where
  roomy := roomy
  bounded := by
    rw [Bounded, nothing, List.length_nil]
    omega
  keyed := by simp [nothing]
  distinct := by simp [nothing]
  ordered := by simp [nothing]
  below := by simp [nothing]

/-- A store goes on being sound when a new entry comes after some of its entries. -/
theorem Sound.grown {store : Store} (sound : store.Sound) {kept : List Entry} (sublist : kept.Sublist store.entries)
    {key : String} {schema : Value} (written : Json.canonical false schema = .ok key)
    (absent : ∀ entry ∈ store.entries, entry.key ≠ key)
    (bounded : Bounded { store with made := store.made + 1, entries := kept ++ [⟨key, store.made, schema⟩] }) :
    Sound { store with made := store.made + 1, entries := kept ++ [⟨key, store.made, schema⟩] } where
  roomy := sound.roomy
  bounded := bounded
  keyed := by
    rw [List.forall_mem_append]
    exact ⟨fun entry member => sound.keyed entry (sublist.subset member), List.forall_mem_singleton.mpr written⟩
  distinct := by
    rw [List.map_append, List.map_singleton, List.nodup_append]
    refine ⟨(sublist.map _).nodup sound.distinct, by simp, fun other member last here => ?_⟩
    obtain ⟨held, inside, rfl⟩ := List.mem_map.mp member
    exact List.mem_singleton.mp here ▸ absent held (sublist.subset inside)
  ordered := by
    refine List.pairwise_append.mpr ⟨sound.ordered.sublist sublist, List.pairwise_singleton _ _, ?_⟩
    intro entry member other last
    rw [List.mem_singleton.mp last]
    exact sound.below entry (sublist.subset member)
  below := by
    rw [List.forall_mem_append]
    exact ⟨fun entry member => Nat.lt_succ_of_lt (sound.below entry (sublist.subset member)),
      List.forall_mem_singleton.mpr (Nat.lt_succ_self store.made)⟩

theorem Sound.fetch {store : Store} (sound : store.Sound) (schema : Value) : (store.fetch schema).2.Sound := by
  have bounded := bounded_fetch sound.bounded schema
  generalize shape : store.fetch schema = fetched at bounded ⊢
  have fetched := shape ▸ fetch_fetched sound.roomy schema
  cases fetched with
  | unwritten _ => exact sound
  | found _ _ => exact sound
  | added written absent _ => exact sound.grown (.refl _) written absent bounded
  | replaced written absent _ held => exact sound.grown (held ▸ List.sublist_cons_self _ _) written absent bounded

theorem Sound.clear {store : Store} (sound : store.Sound) : store.clear.Sound := sound_empty rfl sound.roomy

theorem limit_fetch {store : Store} (roomy : 1 ≤ store.limit) (schema : Value) :
    (store.fetch schema).2.limit = store.limit := by
  generalize shape : store.fetch schema = fetched
  have fetched := shape ▸ fetch_fetched roomy schema
  cases fetched <;> rfl

/-- What is in a store after a fetch was there before, or is the schema of the fetch. -/
theorem mem_fetch {store : Store} (roomy : 1 ≤ store.limit) {schema : Value} {entry : Entry}
    (member : entry ∈ (store.fetch schema).2.entries) : entry ∈ store.entries ∨ entry.schema = schema := by
  generalize shape : store.fetch schema = fetched at member
  have fetched := shape ▸ fetch_fetched roomy schema
  cases fetched with
  | unwritten _ => exact .inl member
  | found _ _ => exact .inl member
  | added _ _ _ => exact (List.mem_append.mp member).imp_right fun last => by rw [List.mem_singleton.mp last]
  | replaced _ _ _ held =>
    refine (List.mem_append.mp member).imp (fun newer => ?_) fun last => by rw [List.mem_singleton.mp last]
    exact held ▸ List.mem_cons_of_mem _ newer

/-- What a fetch gives is an entry for the same document, and it is in the store afterwards. -/
theorem Sound.entry_of_fetch {store : Store} (sound : store.Sound) {schema : Value} {entry : Entry}
    (found : (store.fetch schema).1 = .ok entry) :
    Json.canonical false schema = .ok entry.key ∧ Json.canonical false entry.schema = .ok entry.key ∧
      entry ∈ (store.fetch schema).2.entries := by
  generalize shape : store.fetch schema = fetched at found ⊢
  have fetched := shape ▸ fetch_fetched sound.roomy schema
  cases fetched with
  | unwritten _ => cases found
  | found written member =>
    cases found
    exact ⟨written, sound.keyed _ member, member⟩
  | added written _ _ =>
    cases found
    exact ⟨written, written, by simp⟩
  | replaced written _ _ _ =>
    cases found
    exact ⟨written, written, by simp⟩

/-- A fetch fails only if the schema cannot be written. -/
theorem fetch_error_iff {store : Store} (roomy : 1 ≤ store.limit) {schema : Value} {fault : Fault} :
    (store.fetch schema).1 = .error fault ↔ Json.canonical false schema = .error fault := by
  generalize shape : store.fetch schema = fetched
  have fetched := shape ▸ fetch_fetched roomy schema
  cases fetched with
  | unwritten written => simp [written]
  | found written _ => simp [written]
  | added written _ _ => simp [written]
  | replaced written _ _ _ => simp [written]

/-- A later state of a store holds an old entry only if it was there all the time. -/
structure Follows (before after : Store) : Prop where
  made : before.made ≤ after.made
  held : ∀ entry ∈ after.entries, entry.number < before.made → entry ∈ before.entries

theorem Follows.refl (store : Store) : Follows store store := ⟨Nat.le_refl _, fun _ member _ => member⟩

theorem Follows.trans {first second third : Store} (early : Follows first second) (late : Follows second third) :
    Follows first third :=
  ⟨Nat.le_trans early.made late.made, fun entry member old =>
    early.held entry (late.held entry member (Nat.lt_of_lt_of_le old early.made)) old⟩

theorem follows_grown {store : Store} {kept : List Entry} (sublist : kept.Sublist store.entries) (key : String)
    (schema : Value) :
    Follows store { store with made := store.made + 1, entries := kept ++ [⟨key, store.made, schema⟩] } := by
  refine ⟨Nat.le_succ _, fun entry member old => ?_⟩
  obtain inside | last := List.mem_append.mp member
  · exact sublist.subset inside
  · rw [List.mem_singleton.mp last] at old
    exact absurd old (Nat.lt_irrefl _)

theorem follows_fetch {store : Store} (roomy : 1 ≤ store.limit) (schema : Value) :
    Follows store (store.fetch schema).2 := by
  generalize shape : store.fetch schema = fetched
  have fetched := shape ▸ fetch_fetched roomy schema
  cases fetched with
  | unwritten _ => exact .refl store
  | found _ _ => exact .refl store
  | added _ _ _ => exact follows_grown (.refl _) _ schema
  | replaced _ _ _ held => exact follows_grown (held ▸ List.sublist_cons_self _ _) _ schema

theorem follows_clear (store : Store) : Follows store store.clear := ⟨Nat.le_refl _, nofun⟩

/-- Two entries of one number are the same one. -/
theorem Sound.eq_of_number {store : Store} (sound : store.Sound) {first second : Entry} (left : first ∈ store.entries)
    (right : second ∈ store.entries) (same : first.number = second.number) : first = second := by
  have numbers : (store.entries.map (·.number)).Nodup :=
    (List.pairwise_map.mpr sound.ordered).imp Nat.ne_of_lt
  exact List.inj_on_of_nodup_map numbers left right same

/-- Whoever is given an entry with the number of one that was given before is given the same entry, which
stands for one document. -/
theorem Sound.shared {store later : Store} (sound : store.Sound) {schema other : Value} {first second : Entry}
    (given : (store.fetch schema).1 = .ok first) (follows : Follows (store.fetch schema).2 later)
    (sound' : later.Sound) (given' : (later.fetch other).1 = .ok second) (same : first.number = second.number) :
    first = second ∧ Json.SameDocument false schema other := by
  obtain ⟨written, _, member⟩ := sound.entry_of_fetch given
  obtain ⟨written', _, member'⟩ := sound'.entry_of_fetch given'
  have fetched := sound.fetch schema
  have old : second.number < (store.fetch schema).2.made := same ▸ fetched.below first member
  have held := (follows.trans (follows_fetch sound'.roomy other)).held second member' old
  obtain rfl := fetched.eq_of_number member held same
  exact ⟨rfl, Json.sameDocument_of_canonical written written'⟩

/-- Whether an entry is the oldest one of a full store and a new one takes its place. -/
structure MakesRoom (before : Store) (schema : Value) (entry : Entry) (after : Store) : Prop where
  full : (before.entries.length : Int) = before.limit
  oldest : ∀ other ∈ before.entries, other ≠ entry → entry.number < other.number
  replaced : ∃ newer new, before.entries = entry :: newer ∧ after.entries = newer ++ [new] ∧ new.schema = schema ∧
    ∀ other ∈ before.entries, other.key ≠ new.key

/-- A fetch drops an entry only to make room for a new schema, and then the oldest one. -/
theorem Sound.makesRoom_of_dropped {store : Store} (sound : store.Sound) {schema : Value} {entry : Entry}
    (before : entry ∈ store.entries) (after : entry ∉ (store.fetch schema).2.entries) :
    MakesRoom store schema entry (store.fetch schema).2 := by
  generalize shape : store.fetch schema = fetched at after ⊢
  have fetched := shape ▸ fetch_fetched sound.roomy schema
  cases fetched with
  | unwritten _ => exact absurd before after
  | found _ _ => exact absurd before after
  | added _ _ _ => exact absurd (List.mem_append_left _ before) after
  | @replaced key oldest newer written absent full held =>
    have first : entry = oldest := by
      rw [held] at before
      exact (List.mem_cons.mp before).resolve_right fun later => after (List.mem_append_left _ later)
    subst first
    have ordered := sound.ordered
    rw [held, List.pairwise_cons] at ordered
    have bounded : (store.entries.length : Int) ≤ store.limit := sound.bounded
    have filled : store.limit ≤ store.entries.length := by simpa [isFull] using full
    refine ⟨by omega, fun other member apart => ?_, newer, _, held, rfl, rfl, absent⟩
    rw [held] at member
    exact ordered.1 other ((List.mem_cons.mp member).resolve_left apart)

end FormRules.Schema.Store
