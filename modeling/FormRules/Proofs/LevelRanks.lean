import FormRules.Digraph.Levels
import FormRules.Proofs.DependencyLinks

/-! The level of a vertex is the length of the longest way along arrows from it, and the vertices from which a
cycle can be reached have none. Giving out levels keeps an invariant: a vertex waits for as many vertices as
it has targets without a level, and one that has no level after some rounds has a target that had none before
the last round. -/

namespace FormRules.Digraph

variable {α : Type} [BEq α]

private theorem countP_flatMap_eq [EquivBEq α] {β : Type} (rows : List β) (cells : β → List α) (name : α)
    (distinct : ∀ row ∈ rows, Distinct (cells row)) :
    (rows.flatMap cells).countP (· == name) = rows.countP fun row => (cells row).contains name := by
  induction rows with
  | nil => rfl
  | cons row rows ih =>
    rw [List.flatMap_cons, List.countP_append, List.countP_cons,
      (distinct row List.mem_cons_self).countP_beq, ih fun other member => distinct other (.tail _ member)]
    exact Nat.add_comm _ _

private theorem countP_eq_add {β : Type} (items : List β) (whole one other : β → Bool)
    (split : ∀ item ∈ items, (whole item = true ↔ one item = true ∨ other item = true) ∧
      ¬(one item = true ∧ other item = true)) :
    items.countP whole = items.countP one + items.countP other := by
  induction items with
  | nil => rfl
  | cons item items ih =>
    obtain ⟨either, apart⟩ := split item List.mem_cons_self
    rw [List.countP_cons, List.countP_cons, List.countP_cons, ih fun next member => split next (.tail _ member)]
    cases first : one item <;> cases second : other item <;> simp_all <;> omega

namespace Standing

/-- A vertex after a round, in which the sources of the new level have been told of it. -/
def settle (level : Nat) (told : List α) (standing : Standing α) : Standing α :=
  { standing.take level with pending := standing.pending - told.countP (· == standing.vertex.name) }

variable (level : Nat) (told : List α) (standing : Standing α)

@[simp] theorem vertex_settle : (standing.settle level told).vertex = standing.vertex := by
  unfold settle take
  split <;> rfl

theorem level?_settle :
    (standing.settle level told).level? = if standing.isReady then some level else standing.level? := by
  unfold settle take
  split <;> rfl

variable {standing}

end Standing

namespace Leveling

theorem releaseAll_eq_map [EquivBEq α] (standings : List (Standing α)) (told : List α) :
    releaseAll standings told = standings.map fun standing =>
      { standing with pending := standing.pending - told.countP (· == standing.vertex.name) } := by
  induction told generalizing standings with
  | nil => simp [releaseAll]
  | cons name told ih =>
    refine (ih _).trans ?_
    rw [List.map_map]
    refine List.map_congr_left fun standing _ => ?_
    rw [Function.comp_apply, List.countP_cons, BEq.comm (a := name)]
    unfold Standing.release
    split
    · simp only [Standing.mk.injEq, true_and, and_true]
      omega
    · simp

theorem standings_advance [EquivBEq α] (leveling : Leveling α) :
    leveling.advance.standings = leveling.standings.map
      (Standing.settle leveling.levels.length (leveling.ready.flatMap (·.vertex.sources))) := by
  unfold advance
  rw [releaseAll_eq_map, List.map_map]
  refine List.map_congr_left fun standing _ => ?_
  unfold Standing.settle Standing.take
  rw [Function.comp_apply]
  split <;> rfl

theorem levelOf?_advance [EquivBEq α] (leveling : Leveling α) (name : α) :
    leveling.advance.levelOf? name = (leveling.standings.find? (·.vertex.name == name)).bind fun standing =>
      if standing.isReady then some leveling.levels.length else standing.level? := by
  unfold levelOf?
  rw [standings_advance, List.find?_map]
  simp only [Function.comp_def, Standing.vertex_settle]
  cases leveling.standings.find? (·.vertex.name == name) with
  | none => rfl
  | some standing => exact standing.level?_settle ..

/-- What is true of the vertices of a graph whenever levels are given out. -/
structure Ranked (graph : Digraph α) (leveling : Leveling α) : Prop where
  vertices : leveling.standings.map (·.vertex) = graph
  pending : ∀ standing ∈ leveling.standings,
    standing.pending = standing.vertex.targets.countP fun target => (leveling.levelOf? target).isNone
  given : ∀ standing ∈ leveling.standings, ∀ level, standing.level? = some level →
    level < leveling.levels.length
  above : ∀ standing ∈ leveling.standings, ∀ level, standing.level? = some level →
    ∀ target ∈ standing.vertex.targets, ∃ lower < level, leveling.levelOf? target = some lower
  next : ∀ standing ∈ leveling.standings, ∀ level, standing.level? = some (level + 1) →
    ∃ target ∈ standing.vertex.targets, leveling.levelOf? target = some level
  behind : ∀ standing ∈ leveling.standings, standing.level? = none →
    ∀ level, leveling.levels.length = level + 1 → ∃ target ∈ standing.vertex.targets,
      leveling.levelOf? target = none ∨ leveling.levelOf? target = some level
  rows : leveling.levels = (List.range leveling.levels.length).map fun level =>
    (leveling.standings.filter (·.level? == some level)).map (·.vertex.name)
  filled : ∀ names ∈ leveling.levels, names ≠ []

theorem ranked_ofGraph (graph : Digraph α) : (ofGraph graph).Ranked graph := by
  have fresh : ∀ standing ∈ (ofGraph graph).standings, standing.level? = none := by
    intro standing member
    obtain ⟨vertex, _, rfl⟩ := List.mem_map.mp member
    rfl
  have unknown : ∀ name, (ofGraph graph).levelOf? name = none := by
    intro name
    unfold levelOf?
    cases found : (ofGraph graph).standings.find? (·.vertex.name == name) with
    | none => rfl
    | some standing => exact fresh standing (List.mem_of_find?_eq_some found)
  have absurd {standing : Standing α} (member : standing ∈ (ofGraph graph).standings) {level : Nat}
      (levelled : standing.level? = some level) : False := by
    rw [fresh standing member] at levelled
    cases levelled
  constructor
  · exact (List.map_map ..).trans (List.map_id' graph)
  · intro standing member
    obtain ⟨vertex, _, rfl⟩ := List.mem_map.mp member
    simp [unknown, Standing.ofVertex]
  · exact fun _ member _ levelled => (absurd member levelled).elim
  · exact fun _ member _ levelled => (absurd member levelled).elim
  · exact fun _ member _ levelled => (absurd member levelled).elim
  · exact fun _ _ _ _ round => nomatch round
  · rfl
  · exact fun _ member => nomatch member

namespace Ranked

variable {graph : Digraph α} {leveling : Leveling α} (ranked : leveling.Ranked graph)

include ranked

theorem mem_graph {standing : Standing α} (member : standing ∈ leveling.standings) : standing.vertex ∈ graph :=
  ranked.vertices ▸ List.mem_map_of_mem member

theorem names_eq : graph.names = leveling.standings.map (·.vertex.name) := by
  rw [← ranked.vertices, names, List.map_map]
  rfl

variable [EquivBEq α]

/-- Every name of a vertex finds its standing. -/
theorem find?_of_mem (linked : graph.Linked) {standing : Standing α} (member : standing ∈ leveling.standings)
    {name : α} (equal : (standing.vertex.name == name) = true) :
    leveling.standings.find? (·.vertex.name == name) = some standing := by
  have distinct := linked.distinct
  rw [ranked.names_eq] at distinct
  exact distinct.find?_eq member equal

theorem levelOf?_of_mem (linked : graph.Linked) {standing : Standing α} (member : standing ∈ leveling.standings)
    {name : α} (equal : (standing.vertex.name == name) = true) : leveling.levelOf? name = standing.level? := by
  rw [levelOf?, ranked.find?_of_mem linked member equal]
  rfl

theorem exists_standing {name : α} (known : graph.names.contains name = true) :
    ∃ standing ∈ leveling.standings, (standing.vertex.name == name) = true := by
  obtain ⟨vertex, member, equal⟩ := Linked.exists_of_contains known
  rw [← ranked.vertices] at member
  obtain ⟨standing, inside, rfl⟩ := List.mem_map.mp member
  exact ⟨standing, inside, equal⟩

/-- The names of the next level are those of the vertices that are ready. -/
theorem contains_ready (linked : graph.Linked) {standing : Standing α} (member : standing ∈ leveling.standings)
    {name : α} (equal : (standing.vertex.name == name) = true) :
    (leveling.ready.map (·.vertex.name)).contains name = standing.isReady := by
  apply Bool.eq_iff_iff.mpr
  rw [List.contains_iff_exists_mem_beq]
  constructor
  · rintro ⟨other, listed, same⟩
    obtain ⟨found, ready, rfl⟩ := List.mem_map.mp listed
    obtain ⟨inside, ready⟩ := List.mem_filter.mp ready
    have one := ranked.find?_of_mem linked inside (BEq.symm same)
    rw [ranked.find?_of_mem linked member equal, Option.some.injEq] at one
    exact one ▸ ready
  · intro ready
    exact ⟨_, List.mem_map_of_mem (List.mem_filter.mpr ⟨member, ready⟩), BEq.symm equal⟩

/-- What a round does to a vertex, by its name. -/
theorem exists_advance (linked : graph.Linked) {name : α} (known : graph.names.contains name = true) :
    ∃ standing : Standing α, leveling.levelOf? name = standing.level? ∧
      (leveling.ready.map (·.vertex.name)).contains name = standing.isReady ∧
      leveling.advance.levelOf? name =
        if standing.isReady then some leveling.levels.length else standing.level? := by
  obtain ⟨standing, member, equal⟩ := ranked.exists_standing known
  refine ⟨standing, ranked.levelOf?_of_mem linked member equal, ranked.contains_ready linked member equal, ?_⟩
  rw [levelOf?_advance, ranked.find?_of_mem linked member equal]
  rfl

/-- A vertex is told of each of its targets that makes the next level. -/
theorem told_eq (linked : graph.Linked) {standing : Standing α} (member : standing ∈ leveling.standings) :
    (leveling.ready.flatMap (·.vertex.sources)).countP (· == standing.vertex.name) =
      standing.vertex.targets.countP (leveling.ready.map (·.vertex.name)).contains := by
  have inside {next : Standing α} (ready : next ∈ leveling.ready) : next.vertex ∈ graph :=
    ranked.mem_graph (List.mem_filter.mp ready).1
  have apart : Distinct (leveling.ready.map (·.vertex.name)) := by
    have distinct := linked.distinct
    rw [ranked.names_eq] at distinct
    exact distinct.sublist (List.filter_sublist.map _)
  have own := ranked.mem_graph member
  rw [countP_flatMap_eq _ _ _ fun next ready => linked.sources _ (inside ready),
    ← apart.countP_contains_comm (linked.targets _ own), List.countP_map]
  refine List.countP_congr fun next ready => ?_
  exact (linked.transposed _ own _ (inside ready)).symm

/-- The targets that a vertex no longer waits for are those that have got a level. -/
theorem pending_advance (linked : graph.Linked) {standing : Standing α} (member : standing ∈ leveling.standings) :
    standing.pending - (leveling.ready.flatMap (·.vertex.sources)).countP (· == standing.vertex.name) =
      standing.vertex.targets.countP fun target => (leveling.advance.levelOf? target).isNone := by
  have split : standing.vertex.targets.countP (fun target => (leveling.levelOf? target).isNone) =
      standing.vertex.targets.countP (leveling.ready.map (·.vertex.name)).contains +
        standing.vertex.targets.countP fun target => (leveling.advance.levelOf? target).isNone := by
    refine countP_eq_add _ _ _ _ fun target listed => ?_
    obtain ⟨next, before, taken, after⟩ :=
      ranked.exists_advance linked (linked.known _ (ranked.mem_graph member) target listed)
    rw [before, taken, after]
    cases ready : next.isReady with
    | false => simp
    | true => simp [Standing.level?_of_isReady ready]
  rw [ranked.pending standing member, ranked.told_eq linked member, split]
  omega

/-- A vertex that has a level keeps it. -/
theorem levelOf?_advance_of_some (linked : graph.Linked) {name : α} {level : Nat}
    (known : graph.names.contains name = true) (kept : leveling.levelOf? name = some level) :
    leveling.advance.levelOf? name = some level := by
  obtain ⟨standing, before, _, after⟩ := ranked.exists_advance linked known
  rw [before] at kept
  rw [after, if_neg, kept]
  intro ready
  rw [Standing.level?_of_isReady ready] at kept
  cases kept

omit [EquivBEq α] in
/-- A round gives a vertex no level or the next one, and the next one only if it waits for none. -/
theorem level?_settle_eq_some {told : List α} {standing : Standing α} {level : Nat}
    (member : standing ∈ leveling.standings)
    (levelled : (standing.settle leveling.levels.length told).level? = some level) :
    standing.level? = some level ∨ level = leveling.levels.length ∧ standing.level? = none ∧
      ∀ target ∈ standing.vertex.targets, leveling.levelOf? target ≠ none := by
  rw [Standing.level?_settle] at levelled
  split at levelled
  next ready =>
    refine .inr ⟨(Option.some.inj levelled).symm, Standing.level?_of_isReady ready, ?_⟩
    have waiting := ranked.pending standing member
    rw [Standing.pending_of_isReady ready, eq_comm, Int.natCast_eq_zero, List.countP_eq_zero] at waiting
    intro target listed none
    exact waiting target listed (Option.isNone_iff_eq_none.mpr none)
  next => exact .inl levelled

/-- The rows of a round are the old ones and the one of the vertices that were ready. -/
theorem rows_advance :
    leveling.advance.levels = (List.range leveling.advance.levels.length).map fun level =>
      (leveling.advance.standings.filter (·.level? == some level)).map (·.vertex.name) := by
  have row (level : Nat) : (leveling.advance.standings.filter (·.level? == some level)).map (·.vertex.name) =
      (leveling.standings.filter fun standing =>
        (if standing.isReady then some leveling.levels.length else standing.level?) == some level).map
        (·.vertex.name) := by
    rw [standings_advance, List.filter_map, List.map_map]
    simp only [Function.comp_def, Standing.vertex_settle, Standing.level?_settle]
  have length : leveling.advance.levels.length = leveling.levels.length + 1 := List.length_append
  rw [length, List.range_succ, List.map_append]
  refine congrArg₂ (· ++ ·) (ranked.rows.trans (List.map_congr_left fun level low => ?_)) ?_
  · rw [row]
    refine congrArg _ (List.filter_congr fun standing member => ?_)
    split
    next ready =>
      have other := Nat.ne_of_gt (List.mem_range.mp low)
      simp [Standing.level?_of_isReady ready, other]
    next => rfl
  · rw [List.map_singleton, row]
    refine congrArg (fun standings : List (Standing α) => [standings.map (·.vertex.name)]) ?_
    refine List.filter_congr fun standing member => ?_
    split
    next ready => simp [ready]
    next waits =>
      have other : standing.level? ≠ some leveling.levels.length := fun levelled =>
        Nat.lt_irrefl _ (ranked.given standing member _ levelled)
      simp [waits, other]

/-- A round keeps the invariant. -/
theorem advance (linked : graph.Linked) (ready : leveling.ready ≠ []) : leveling.advance.Ranked graph := by
  have length : leveling.advance.levels.length = leveling.levels.length + 1 := List.length_append
  have known {standing : Standing α} (member : standing ∈ leveling.standings) {target : α}
      (listed : target ∈ standing.vertex.targets) : graph.names.contains target = true :=
    linked.known _ (ranked.mem_graph member) target listed
  have origin {standing : Standing α} (member : standing ∈ leveling.advance.standings) :=
    List.mem_map.mp (standings_advance leveling ▸ member)
  constructor
  case vertices =>
    rw [standings_advance, List.map_map, ← ranked.vertices]
    exact List.map_congr_left fun standing _ => standing.vertex_settle ..
  case pending =>
    intro standing member
    obtain ⟨standing, inside, rfl⟩ := origin member
    rw [Standing.vertex_settle]
    exact ranked.pending_advance linked inside
  case given =>
    intro standing member level levelled
    obtain ⟨standing, inside, rfl⟩ := origin member
    obtain kept | ⟨last, _⟩ := ranked.level?_settle_eq_some inside levelled
    · exact length ▸ Nat.lt_succ_of_lt (ranked.given standing inside level kept)
    · exact length ▸ last ▸ Nat.lt_succ_self _
  case above =>
    intro standing member level levelled target listed
    obtain ⟨standing, inside, rfl⟩ := origin member
    rw [Standing.vertex_settle] at listed
    obtain kept | ⟨last, _, none⟩ := ranked.level?_settle_eq_some inside levelled
    · obtain ⟨lower, less, found⟩ := ranked.above standing inside level kept target listed
      exact ⟨lower, less, ranked.levelOf?_advance_of_some linked (known inside listed) found⟩
    · obtain ⟨lower, found⟩ := Option.ne_none_iff_exists'.mp (none target listed)
      obtain ⟨other, among, equal⟩ := ranked.exists_standing (known inside listed)
      have less := ranked.given other among lower (by rw [← ranked.levelOf?_of_mem linked among equal, found])
      exact ⟨lower, last ▸ less, ranked.levelOf?_advance_of_some linked (known inside listed) found⟩
  case next =>
    intro standing member level levelled
    obtain ⟨standing, inside, rfl⟩ := origin member
    rw [Standing.vertex_settle]
    obtain kept | ⟨last, free, none⟩ := ranked.level?_settle_eq_some inside levelled
    · obtain ⟨target, listed, found⟩ := ranked.next standing inside level kept
      exact ⟨target, listed, ranked.levelOf?_advance_of_some linked (known inside listed) found⟩
    · obtain ⟨target, listed, found⟩ := ranked.behind standing inside free level last.symm
      have found := found.resolve_left (none target listed)
      exact ⟨target, listed, ranked.levelOf?_advance_of_some linked (known inside listed) found⟩
  case behind =>
    intro standing member free level round
    obtain ⟨standing, inside, rfl⟩ := origin member
    rw [Standing.vertex_settle]
    obtain rfl : leveling.levels.length = level := Nat.succ.inj (length.symm.trans round)
    rw [Standing.level?_settle] at free
    have waits : standing.isReady = false := by
      cases ready : standing.isReady with
      | false => rfl
      | true => simp [ready] at free
    rw [waits, if_neg Bool.false_ne_true] at free
    have pending : standing.pending ≠ 0 := by
      intro zero
      have ready : standing.isReady = true := by simp [Standing.isReady, zero, free]
      exact Bool.false_ne_true (waits.symm.trans ready)
    rw [ranked.pending standing inside, Int.natCast_ne_zero, ← Nat.pos_iff_ne_zero, List.countP_pos_iff] at pending
    obtain ⟨target, listed, unlevelled⟩ := pending
    obtain ⟨next, before, _, after⟩ := ranked.exists_advance linked (known inside listed)
    refine ⟨target, listed, ?_⟩
    rw [after]
    split
    · exact .inr rfl
    · exact .inl (before ▸ Option.isNone_iff_eq_none.mp unlevelled)
  case rows => exact ranked.rows_advance
  case filled =>
    intro names member
    obtain old | new := List.mem_append.mp member
    · exact ranked.filled names old
    · rw [List.mem_singleton.mp new]
      exact fun empty => ready (List.map_eq_nil_iff.mp empty)

theorem run (linked : graph.Linked) : leveling.run.Ranked graph := by
  induction leveling using Leveling.run.induct with
  | case1 leveling idle =>
    rw [Leveling.run, if_pos idle]
    exact ranked
  | case2 leveling more ih =>
    rw [Leveling.run, if_neg more]
    exact ih (ranked.advance linked fun empty => more (List.isEmpty_iff.mpr empty))

end Ranked

/-- Rounds go on until no vertex is ready. -/
theorem ready_run (leveling : Leveling α) : leveling.run.ready = [] := by
  induction leveling using Leveling.run.induct with
  | case1 leveling idle =>
    rw [run, if_pos idle]
    exact List.isEmpty_iff.mp idle
  | case2 leveling more ih =>
    rw [run, if_neg more]
    exact ih

/-- Each round makes one level. -/
theorem run_eq_iterate (leveling : Leveling α) :
    ∃ rounds, leveling.run = advance^[rounds] leveling ∧ leveling.run.levels.length = leveling.levels.length + rounds := by
  induction leveling using Leveling.run.induct with
  | case1 leveling idle =>
    rw [run, if_pos idle]
    exact ⟨0, rfl, rfl⟩
  | case2 leveling more ih =>
    rw [run, if_neg more]
    obtain ⟨rounds, same, length⟩ := ih
    refine ⟨rounds + 1, same, length.trans ?_⟩
    simp only [advance, List.length_append, List.length_singleton]
    omega

end Leveling

theorem levelOf?_congr [EquivBEq α] (leveling : Leveling α) {first second : α} (equal : (first == second) = true) :
    leveling.levelOf? first = leveling.levelOf? second := by
  unfold Leveling.levelOf?
  rw [funext fun standing : Standing α => (BEq.congr_right equal : (standing.vertex.name == first) = _)]

/-- The level of a vertex by those of its targets. -/
def levelAbove (levels : List Nat) : Nat :=
  match levels.max? with
  | none => 0
  | some highest => highest + 1

theorem levelAbove_eq {levels : List Nat} {level : Nat} (above : ∀ lower ∈ levels, lower < level)
    (next : ∀ lower, level = lower + 1 → lower ∈ levels) : levelAbove levels = level := by
  unfold levelAbove
  cases largest : levels.max? with
  | none =>
    rw [List.max?_eq_none_iff] at largest
    subst largest
    cases level with
    | zero => rfl
    | succ lower => cases next lower rfl
  | some highest =>
    obtain ⟨member, bound⟩ := List.max?_eq_some_iff.mp largest
    cases level with
    | zero => cases above highest member
    | succ lower =>
      have least := bound lower (next lower rfl)
      have most := above highest member
      simp only
      omega

section Lookups

variable {β γ : Type} {find : β → Option γ}

private theorem mapM_eq_none {items : List β} {item : β} (member : item ∈ items) (missing : find item = none) :
    items.mapM find = none := by
  induction items with
  | nil => cases member
  | cons first rest ih =>
    rw [List.mapM_cons]
    cases member with
    | head => rw [missing, Option.bind_eq_bind, Option.bind_none]
    | tail _ member => cases here : find first <;> simp [ih member]

private theorem mapM_of_forall {items : List β} (found : ∀ item ∈ items, (find item).isSome) :
    ∃ results, items.mapM find = some results ∧
      ∀ result, result ∈ results ↔ ∃ item ∈ items, find item = some result := by
  induction items with
  | nil => exact ⟨[], rfl, by simp⟩
  | cons item items ih =>
    obtain ⟨result, here⟩ := Option.isSome_iff_exists.mp (found item List.mem_cons_self)
    obtain ⟨results, rest, listed⟩ := ih fun other member => found other (.tail _ member)
    refine ⟨result :: results, by simp [here, rest], fun other => ?_⟩
    simp [listed, here, eq_comm]

end Lookups

section Levels

variable [EquivBEq α] {graph : Digraph α} (linked : graph.Linked)

include linked

theorem ranked_leveling : graph.leveling.Ranked graph := (Leveling.ranked_ofGraph graph).run linked

/-- Levels go down along arrows. -/
theorem exists_lower_of_arrow {first second : α} (arrow : graph.Arrow first second) {level : Nat}
    (levelled : graph.leveling.levelOf? first = some level) :
    ∃ lower < level, graph.leveling.levelOf? second = some lower := by
  have ranked := ranked_leveling linked
  obtain ⟨⟨vertex, member, equal⟩, _⟩ := linked.ends_of_arrow arrow
  obtain ⟨target, listed, same⟩ :=
    List.contains_iff_exists_mem_beq.mp ((linked.arrow_iff member).mp (arrow.congr_left (BEq.symm equal)))
  obtain ⟨standing, inside, rfl⟩ := List.mem_map.mp (ranked.vertices ▸ member)
  rw [ranked.levelOf?_of_mem linked inside equal] at levelled
  obtain ⟨lower, less, found⟩ := ranked.above standing inside level levelled target listed
  exact ⟨lower, less, (levelOf?_congr _ same).trans found⟩

theorem exists_lower_of_reaches {first second : α} (reaches : graph.Reaches first second) {level : Nat}
    (levelled : graph.leveling.levelOf? first = some level) :
    ∃ lower < level, graph.leveling.levelOf? second = some lower := by
  induction reaches with
  | single arrow => exact exists_lower_of_arrow linked arrow levelled
  | tail _ arrow ih =>
    obtain ⟨middle, high, found⟩ := ih
    obtain ⟨lower, low, last⟩ := exists_lower_of_arrow linked arrow found
    exact ⟨lower, Nat.lt_trans low high, last⟩

/-- What has no level has a target that has none. -/
theorem exists_target_of_levelOf?_eq_none {vertex : Vertex α} (member : vertex ∈ graph)
    (free : graph.leveling.levelOf? vertex.name = none) :
    ∃ target ∈ vertex.targets, graph.leveling.levelOf? target = none := by
  have ranked := ranked_leveling linked
  obtain ⟨standing, inside, rfl⟩ := List.mem_map.mp (ranked.vertices ▸ member)
  rw [ranked.levelOf?_of_mem linked inside BEq.rfl] at free
  have pending : standing.pending ≠ 0 := by
    intro zero
    have ready : standing ∈ graph.leveling.ready :=
      List.mem_filter.mpr ⟨inside, by simp [Standing.isReady, zero, free]⟩
    rw [leveling, Leveling.ready_run] at ready
    cases ready
  rw [ranked.pending standing inside, Int.natCast_ne_zero, ← Nat.pos_iff_ne_zero, List.countP_pos_iff] at pending
  obtain ⟨target, listed, unlevelled⟩ := pending
  exact ⟨target, listed, Option.isNone_iff_eq_none.mp unlevelled⟩

/-- The levels of all vertices follow from those of their targets. -/
theorem levelOf?_eq {vertex : Vertex α} (member : vertex ∈ graph) :
    graph.leveling.levelOf? vertex.name = (vertex.targets.mapM graph.leveling.levelOf?).map levelAbove := by
  have ranked := ranked_leveling linked
  cases levelled : graph.leveling.levelOf? vertex.name with
  | none =>
    obtain ⟨target, listed, free⟩ := exists_target_of_levelOf?_eq_none linked member levelled
    rw [mapM_eq_none listed free, Option.map_none]
  | some level =>
    obtain ⟨standing, inside, rfl⟩ := List.mem_map.mp (ranked.vertices ▸ member)
    rw [ranked.levelOf?_of_mem linked inside BEq.rfl] at levelled
    have above := ranked.above standing inside level levelled
    obtain ⟨levels, found, listed⟩ := mapM_of_forall fun target listed =>
      Option.isSome_iff_exists.mpr ((above target listed).imp fun _ found => found.2)
    rw [found, Option.map_some, levelAbove_eq]
    · intro lower member
      obtain ⟨target, inside, found⟩ := (listed lower).mp member
      obtain ⟨other, less, again⟩ := above target inside
      exact Option.some.inj (found.symm.trans again) ▸ less
    · intro lower last
      exact (listed lower).mpr (ranked.next standing inside lower (last ▸ levelled))

/-- The vertices with a level are those from which no cycle can be reached. -/
theorem isSome_levelOf?_iff {vertex : Vertex α} (member : vertex ∈ graph) :
    (graph.leveling.levelOf? vertex.name).isSome ↔ ¬graph.CycleAhead vertex.name := by
  constructor
  · rintro levelled ⟨other, ahead, round⟩
    obtain ⟨level, levelled⟩ := Option.isSome_iff_exists.mp levelled
    obtain ⟨level, levelled⟩ : ∃ level, graph.leveling.levelOf? other = some level := by
      obtain rfl | reaches := Relation.reflTransGen_iff_eq_or_transGen.mp ahead
      · exact ⟨level, levelled⟩
      · exact (exists_lower_of_reaches linked reaches levelled).imp fun _ found => found.2
    obtain ⟨lower, less, again⟩ := exists_lower_of_reaches linked round levelled
    exact Nat.lt_irrefl _ (Option.some.inj (levelled.symm.trans again) ▸ less)
  · suffices step : ∀ vertex ∈ graph, (∀ target ∈ graph, graph.Arrow vertex.name target.name →
        (graph.leveling.levelOf? target.name).isSome) → (graph.leveling.levelOf? vertex.name).isSome from
      induction_of_no_cycle step vertex member
    intro vertex member levelled
    refine Option.isSome_iff_ne_none.mpr fun free => ?_
    obtain ⟨target, listed, unlevelled⟩ := exists_target_of_levelOf?_eq_none linked member free
    obtain ⟨next, inside, equal⟩ := Linked.exists_of_contains (linked.known vertex member target listed)
    have arrow : graph.Arrow vertex.name next.name :=
      (linked.arrow_iff member).mpr (List.contains_iff_exists_mem_beq.mpr ⟨target, listed, equal⟩)
    have found := levelled next inside arrow
    rw [levelOf?_congr _ equal, unlevelled] at found
    cases found

theorem levels_eq :
    graph.leveling.levels = (List.range graph.leveling.levels.length).map fun level =>
      graph.names.filter (graph.leveling.levelOf? · == some level) := by
  have ranked := ranked_leveling linked
  refine ranked.rows.trans (List.map_congr_left fun level _ => ?_)
  rw [ranked.names_eq, List.filter_map]
  refine congrArg _ (List.filter_congr fun standing member => ?_)
  rw [Function.comp_apply, ranked.levelOf?_of_mem linked member BEq.rfl]

theorem lt_length_levels {vertex : Vertex α} (member : vertex ∈ graph) {level : Nat}
    (levelled : graph.leveling.levelOf? vertex.name = some level) : level < graph.leveling.levels.length := by
  have ranked := ranked_leveling linked
  obtain ⟨standing, inside, rfl⟩ := List.mem_map.mp (ranked.vertices ▸ member)
  rw [ranked.levelOf?_of_mem linked inside BEq.rfl] at levelled
  exact ranked.given standing inside level levelled

/-- The vertices that stand in some level are those that have one. -/
theorem exists_row_iff {vertex : Vertex α} (member : vertex ∈ graph) :
    (∃ names ∈ graph.leveling.levels, vertex.name ∈ names) ↔ (graph.leveling.levelOf? vertex.name).isSome := by
  constructor
  · rintro ⟨names, row, listed⟩
    rw [levels_eq linked] at row
    obtain ⟨level, _, rfl⟩ := List.mem_map.mp row
    rw [beq_iff_eq.mp (List.mem_filter.mp listed).2]
    rfl
  · intro levelled
    obtain ⟨level, levelled⟩ := Option.isSome_iff_exists.mp levelled
    refine ⟨graph.names.filter (graph.leveling.levelOf? · == some level), ?_, ?_⟩
    · rw [levels_eq linked]
      exact List.mem_map_of_mem (List.mem_range.mpr (lt_length_levels linked member levelled))
    · exact List.mem_filter.mpr ⟨List.mem_map_of_mem member, beq_iff_eq.mpr levelled⟩

end Levels

end FormRules.Digraph

namespace FormRules.Dependency.Graph

/-- The levels of the fields of a form: giving them out ends, just the fields that no cycle can be reached from
get one, it is the one above those of the fields that they read, and each level lists its fields in order. -/
theorem ofForm_levels {form : Value} {graph : Graph} (built : ofForm form = .ok graph) :
    (graph.leveling = Digraph.Leveling.advance^[graph.levels.length] (.ofGraph graph.arrows) ∧
        graph.leveling.ready = []) ∧
      (∀ node ∈ graph.nodes, (graph.leveling.levelOf? node.id).isSome ↔ ¬graph.arrows.CycleAhead node.id) ∧
      (∀ node ∈ graph.nodes, graph.leveling.levelOf? node.id =
        (node.dependencies.mapM graph.leveling.levelOf?).map Digraph.levelAbove) ∧
      Distinct graph.ids ∧
      (∀ node ∈ graph.nodes, ∀ level, graph.leveling.levelOf? node.id = some level → level < graph.levels.length) ∧
      (graph.levels = (List.range graph.levels.length).map fun level =>
        graph.ids.filter (graph.leveling.levelOf? · == some level)) ∧
      ∀ names ∈ graph.levels, names ≠ [] := by
  have linked := linked_of_ofForm built
  have vertex {node : Node} (member : node ∈ graph.nodes) : node.vertex ∈ graph.arrows := List.mem_map_of_mem member
  refine ⟨⟨?_, Digraph.Leveling.ready_run _⟩, ?_, ?_, ?_, ?_, ?_, ?_⟩
  · obtain ⟨rounds, same, length⟩ := Digraph.Leveling.run_eq_iterate (.ofGraph graph.arrows)
    have rounds : graph.levels.length = rounds := length.trans (Nat.zero_add rounds)
    exact rounds ▸ same
  · exact fun node member => Digraph.isSome_levelOf?_iff linked (vertex member)
  · exact fun node member => Digraph.levelOf?_eq linked (vertex member)
  · exact graph.ids_eq_names ▸ linked.distinct
  · exact fun node member level levelled => Digraph.lt_length_levels linked (vertex member) levelled
  · exact graph.ids_eq_names ▸ Digraph.levels_eq linked
  · exact (Digraph.ranked_leveling linked).filled

/-- A gross sum reads a net sum, which reads a rate; that the rate reads itself does not count. -/
theorem ofForm_levels_net :
    let field (name read : String) : Value := .ofFields [("name", .text name),
      ("visibleIf", .ofFields [("field", .text read), ("operator", .text "==")])]
    let form : Value := .ofFields [("items", .list [field "gross" "net", field "net" "rate", field "rate" "rate"])]
    let gross : Name := ⟨.text "gross"⟩
    let net : Name := ⟨.text "net"⟩
    let rate : Name := ⟨.text "rate"⟩
    let graph : Graph := ⟨[⟨gross, .text "gross", [net], [], [], []⟩, ⟨net, .text "net", [rate], [gross], [], []⟩,
      ⟨rate, .text "rate", [], [net], [], []⟩]⟩
    ofForm form = .ok graph ∧ graph.leveling.levelOf? rate = some 0 ∧ graph.leveling.levelOf? net = some 1 ∧
      ¬graph.arrows.CycleAhead net := by
  intro field form gross net rate graph
  have built : ofForm form = .ok graph := rfl
  obtain ⟨_, free, above, _⟩ := ofForm_levels built
  have last : ⟨rate, .text "rate", [], [net], [], []⟩ ∈ graph.nodes := .tail _ (.tail _ (.head _))
  have middle : ⟨net, .text "net", [rate], [gross], [], []⟩ ∈ graph.nodes := .tail _ (.head _)
  have first : graph.leveling.levelOf? rate = some 0 := above _ last
  have second : graph.leveling.levelOf? net = some 1 := by
    refine (above _ middle).trans ?_
    rw [List.mapM_cons, first]
    rfl
  exact ⟨built, first, second, (free _ middle).mp (Option.isSome_of_eq_some second)⟩

end FormRules.Dependency.Graph
