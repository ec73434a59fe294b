import FormRules.Digraph.Cycles
import FormRules.Proofs.LevelRanks
import Mathlib.Data.List.Chain
import Mathlib.Data.List.Rotate

/-! A search for cycles leaves a vertex at the first arrow back to its path, so it does not follow all arrows.
Still every vertex that it has left is cleared: it is on a cycle that was noted, or all its arrows lead to
cleared vertices. So no vertex of a cycle is left without a cycle noted among those that it reaches and that
reach it. Each noted cycle has a vertex that is never on the path again, so no cycle is noted twice. -/

namespace FormRules.Digraph

variable {α : Type} [BEq α]

/-- A way along arrows back to the vertex that it starts from, which meets no other vertex twice. -/
def IsCycle (graph : Digraph α) (cycle : List α) : Prop :=
  ∃ first rest last, cycle = first :: rest ++ [last] ∧ (first == last) = true ∧ Distinct (first :: rest) ∧
    cycle.IsChain graph.Arrow

/-- Whether two cycles meet the same vertices in the same order, from whichever they start. -/
def SameCycle (cycle other : List α) : Prop :=
  ∃ places, List.Forall₂ (fun first second => (first == second) = true) (cycle.dropLast.rotate places) other.dropLast

/-- What a search makes of the vertices that it leaves. -/
inductive Cleared (graph : Digraph α) (cycles : List (List α)) : α → Prop
  | listed {name : α} (cycle : List α) (member : cycle ∈ cycles) (on : cycle.contains name = true) :
    Cleared graph cycles name
  | passed {name : α} (ahead : ∀ target, graph.Arrow name target → Cleared graph cycles target) :
    Cleared graph cycles name

section Cycles

variable {graph : Digraph α}

theorem reaches_of_isChain {first last : α} {rest : List α} (chain : (first :: rest ++ [last]).IsChain graph.Arrow) :
    graph.Reaches first last := by
  induction rest generalizing first with
  | nil => exact .single (List.isChain_cons_cons.mp chain).1
  | cons next rest ih =>
    obtain ⟨arrow, chain⟩ := List.isChain_cons_cons.mp chain
    exact .head arrow (ih chain)

variable [EquivBEq α]

/-- All vertices of a cycle reach each other. -/
theorem IsCycle.reaches {cycle : List α} (circle : graph.IsCycle cycle) {name other : α} (member : name ∈ cycle)
    (among : other ∈ cycle) : graph.Reaches name other := by
  obtain ⟨first, rest, last, rfl, equal, _, chain⟩ := circle
  have turn : graph.Reaches first last := reaches_of_isChain chain
  have through : ∀ vertex ∈ first :: rest ++ [last], graph.Reaches vertex first ∧ graph.Reaches first vertex := by
    intro vertex on
    obtain inside | final := List.mem_append.mp on
    · obtain ⟨before, after, split⟩ := List.append_of_mem inside
      rw [split, List.append_assoc] at chain
      have ahead : graph.Reaches vertex last := reaches_of_isChain (List.isChain_append.mp chain).2.1
      refine ⟨ahead.congr_right (BEq.symm equal), ?_⟩
      cases before with
      | nil =>
        obtain rfl : first = vertex := (List.cons.inj split).1
        exact turn.congr_right (BEq.symm equal)
      | cons start before =>
        obtain rfl : first = start := (List.cons.inj split).1
        have whole : first :: before ++ (vertex :: after ++ [last]) = first :: before ++ [vertex] ++ (after ++ [last]) := by
          simp
        rw [whole] at chain
        exact reaches_of_isChain (List.isChain_append.mp chain).1
    · obtain rfl := List.mem_singleton.mp final
      exact ⟨(turn.congr_left equal).congr_right (BEq.symm equal), turn⟩
  exact (through name member).1.trans (through other among).2

theorem Cleared.congr {cycles : List (List α)} {name other : α} (cleared : Cleared graph cycles name)
    (equal : (name == other) = true) : Cleared graph cycles other := by
  cases cleared with
  | listed cycle member on => exact .listed cycle member (by rwa [← List.contains_congr equal])
  | passed ahead => exact .passed fun target arrow => ahead target (arrow.congr_left (BEq.symm equal))

omit [EquivBEq α] in
theorem Cleared.mono {cycles others : List (List α)} (more : ∀ cycle ∈ cycles, cycle ∈ others) {name : α}
    (cleared : Cleared graph cycles name) : Cleared graph others name := by
  induction cleared with
  | listed cycle member on => exact .listed cycle (more cycle member) on
  | passed _ ih => exact .passed ih

/-- Around a cleared vertex that is on a cycle, a cycle has been noted. -/
theorem Cleared.exists_cycle {cycles : List (List α)} (circles : ∀ cycle ∈ cycles, graph.IsCycle cycle) {name : α}
    (cleared : Cleared graph cycles name) (round : graph.OnCycle name) :
    ∃ cycle ∈ cycles, ∀ other ∈ cycle, graph.Reaches name other ∧ graph.Reaches other name := by
  induction cleared with
  | listed cycle member on =>
    obtain ⟨vertex, inside, equal⟩ := List.contains_iff_exists_mem_beq.mp on
    refine ⟨cycle, member, fun other among => ?_⟩
    have ahead := (circles cycle member).reaches inside among
    have back := (circles cycle member).reaches among inside
    exact ⟨ahead.congr_left (BEq.symm equal), back.congr_right (BEq.symm equal)⟩
  | @passed name _ ih =>
    obtain ⟨target, arrow, rest⟩ := Relation.TransGen.head'_iff.mp round
    obtain ⟨cycle, member, around⟩ := ih target arrow (.tail' rest arrow)
    refine ⟨cycle, member, fun other inside => ?_⟩
    obtain ⟨ahead, back⟩ := around other inside
    exact ⟨.head arrow ahead, back.trans_left rest⟩

end Cycles

/-- The vertices on the path of a search. -/
structure Trail (graph : Digraph α) (path : List α) : Prop where
  distinct : Distinct path
  arrows : path.IsChain graph.Arrow
  known : ∀ name ∈ path, graph.names.contains name = true

namespace Search

/-- What is true of a search that follows a path. -/
structure Sound (graph : Digraph α) (path : List α) (search : Search α) : Prop where
  circles : ∀ cycle ∈ search.cycles, graph.IsCycle cycle
  cleared : ∀ name, search.visited.contains name = true →
    path.contains name = true ∨ Cleared graph search.cycles name
  left : ∀ cycle ∈ search.cycles, ∃ name, cycle.contains name = true ∧ search.visited.contains name = true ∧
    path.contains name = false
  apart : search.cycles.Pairwise fun earlier later =>
    ∃ name, earlier.contains name = true ∧ later.contains name = false

/-- A search that goes on forgets nothing. -/
structure Extends (before after : Search α) : Prop where
  visited : ∀ name, before.visited.contains name = true → after.visited.contains name = true
  cycles : ∀ cycle ∈ before.cycles, cycle ∈ after.cycles

theorem Extends.refl (search : Search α) : search.Extends search := ⟨fun _ => id, fun _ => id⟩

theorem Extends.trans {first second third : Search α} (left : first.Extends second) (right : second.Extends third) :
    first.Extends third :=
  ⟨fun name seen => right.visited name (left.visited name seen), fun cycle noted => right.cycles cycle (left.cycles cycle noted)⟩

/-- What a search has done when it comes back from a vertex to the path before it. -/
structure Leaves (graph : Digraph α) (path : List α) (name : α) (before after : Search α) : Prop where
  sound : after.Sound graph path
  grown : before.Extends after
  visited : after.visited.contains name = true
  cleared : Cleared graph after.cycles name

end Search

section Follow

variable [EquivBEq α] {graph : Digraph α} {path : List α} {vertex : α}

theorem contains_concat_eq_false {name : α} :
    (path ++ [vertex]).contains name = false ↔ path.contains name = false ∧ (vertex == name) = false := by
  simp [BEq.comm]

theorem contains_concat {name : α} :
    (path ++ [vertex]).contains name = true ↔ path.contains name = true ∨ (vertex == name) = true := by
  simp [BEq.comm]

theorem exists_cycleAt {target : α} (on : path.contains target = true) :
    ∃ before first rest, path = before ++ first :: rest ∧ (first == target) = true ∧
      cycleAt path target = first :: rest ++ [target] := by
  induction path with
  | nil => cases on
  | cons first rest ih =>
    unfold cycleAt at ih ⊢
    rw [List.dropWhile_cons]
    cases here : first == target with
    | true => exact ⟨[], first, rest, rfl, here, by simp [bne, here]⟩
    | false =>
      rw [List.contains_cons, BEq.comm, here, Bool.false_or] at on
      obtain ⟨before, start, after, rfl, equal, cycle⟩ := ih on
      exact ⟨first :: before, start, after, rfl, equal, by simpa [bne, here] using cycle⟩

/-- The way back to a vertex of the path is a cycle on it, which has its end. -/
theorem isCycle_cycleAt (trail : graph.Trail (path ++ [vertex])) {target : α}
    (on : (path ++ [vertex]).contains target = true) (arrow : graph.Arrow vertex target) :
    graph.IsCycle (cycleAt (path ++ [vertex]) target) ∧ vertex ∈ cycleAt (path ++ [vertex]) target ∧
      ∀ name ∈ cycleAt (path ++ [vertex]) target, (path ++ [vertex]).contains name = true := by
  obtain ⟨before, first, rest, split, equal, cycle⟩ := exists_cycleAt on
  have suffix : first :: rest <:+ path ++ [vertex] := ⟨before, split.symm⟩
  have ends : (first :: rest).getLast? = some vertex := by
    have last := congrArg List.getLast? split
    rw [List.getLast?_concat, List.getLast?_append_cons] at last
    exact last.symm
  rw [cycle]
  refine ⟨⟨first, rest, target, rfl, equal, trail.distinct.sublist suffix.sublist, ?_⟩, ?_, ?_⟩
  · refine List.isChain_append.mpr ⟨trail.arrows.suffix suffix, List.isChain_singleton _, ?_⟩
    intro last final next start
    rw [ends] at final
    cases final
    cases start
    exact arrow
  · exact List.mem_append_left _ (List.mem_of_getLast? ends)
  · intro name member
    obtain inside | final := List.mem_append.mp member
    · exact List.contains_iff_exists_mem_beq.mpr ⟨name, suffix.subset inside, BEq.rfl⟩
    · rwa [List.mem_singleton.mp final]

/-- An arrow back to the path is noted. -/
theorem leaves_noted (trail : graph.Trail (path ++ [vertex])) {search : Search α}
    (sound : search.Sound graph (path ++ [vertex])) (entered : search.visited.contains vertex = true) {target : α}
    (on : (path ++ [vertex]).contains target = true) (arrow : graph.Arrow vertex target) :
    Search.Leaves graph path vertex search
      { search with cycles := search.cycles ++ [cycleAt (path ++ [vertex]) target] } := by
  obtain ⟨circle, ends, within⟩ := isCycle_cycleAt trail on arrow
  have listed {name : α} (equal : (vertex == name) = true) :
      (cycleAt (path ++ [vertex]) target).contains name = true :=
    List.contains_iff_exists_mem_beq.mpr ⟨vertex, ends, BEq.symm equal⟩
  have off : path.contains vertex = false := by
    refine Bool.eq_false_iff.mpr fun on => ?_
    obtain ⟨other, member, equal⟩ := List.contains_iff_exists_mem_beq.mp on
    have apart := (List.pairwise_append.mp trail.distinct).2.2 other member vertex List.mem_cons_self
    exact Bool.false_ne_true (apart.symm.trans (BEq.symm equal))
  have noted := List.mem_append_right search.cycles (List.mem_singleton_self (cycleAt (path ++ [vertex]) target))
  have kept : ∀ cycle ∈ search.cycles, cycle ∈ search.cycles ++ [cycleAt (path ++ [vertex]) target] :=
    fun _ => List.mem_append_left _
  refine ⟨⟨?_, ?_, ?_, ?_⟩, ⟨fun _ => id, kept⟩, entered, .listed _ noted (listed BEq.rfl)⟩
  · intro cycle member
    obtain old | new := List.mem_append.mp member
    · exact sound.circles cycle old
    · rwa [List.mem_singleton.mp new]
  · intro name seen
    obtain on | cleared := sound.cleared name seen
    · exact (contains_concat.mp on).imp_right fun equal => .listed _ noted (listed equal)
    · exact .inr (cleared.mono kept)
  · intro cycle member
    obtain old | new := List.mem_append.mp member
    · obtain ⟨name, listed, seen, off⟩ := sound.left cycle old
      exact ⟨name, listed, seen, (contains_concat_eq_false.mp off).1⟩
    · rw [List.mem_singleton.mp new]
      exact ⟨vertex, listed BEq.rfl, entered, off⟩
  · refine List.pairwise_append.mpr ⟨sound.apart, List.pairwise_singleton _ _, ?_⟩
    intro earlier old later new
    obtain ⟨name, listed, _, off⟩ := sound.left earlier old
    refine ⟨name, listed, Bool.eq_false_iff.mpr fun again => ?_⟩
    rw [List.mem_singleton.mp new] at again
    obtain ⟨other, member, equal⟩ := List.contains_iff_exists_mem_beq.mp again
    have on := within other member
    rw [← List.contains_congr equal, off] at on
    cases on

/-- A vertex all of whose targets are cleared is left. -/
theorem leaves_passed {search : Search α} (sound : search.Sound graph (path ++ [vertex]))
    (entered : search.visited.contains vertex = true)
    (ahead : ∀ target, graph.Arrow vertex target → Cleared graph search.cycles target) :
    Search.Leaves graph path vertex search search := by
  have cleared : Cleared graph search.cycles vertex := .passed ahead
  refine ⟨⟨sound.circles, ?_, ?_, sound.apart⟩, .refl search, entered, cleared⟩
  · intro name seen
    obtain on | done := sound.cleared name seen
    · exact (contains_concat.mp on).imp_right fun equal => cleared.congr equal
    · exact .inr done
  · intro cycle member
    obtain ⟨name, listed, seen, off⟩ := sound.left cycle member
    exact ⟨name, listed, seen, (contains_concat_eq_false.mp off).1⟩

/-- Following the arrows of the vertex at the end of a path, given what following a longer path does. -/
theorem leaves_follow (trail : graph.Trail (path ++ [vertex])) {visit : List α → α → Search α → Search α}
    (visits : ∀ target search, graph.Arrow vertex target → (path ++ [vertex]).contains target = false →
      search.visited.contains target = false → search.Sound graph (path ++ [vertex]) →
      Search.Leaves graph (path ++ [vertex]) target search (visit (path ++ [vertex]) target search))
    (targets : List α) {search : Search α} (arrows : ∀ target ∈ targets, graph.Arrow vertex target)
    (sound : search.Sound graph (path ++ [vertex])) (entered : search.visited.contains vertex = true)
    (done : ∀ target, graph.Arrow vertex target → targets.contains target = true ∨ Cleared graph search.cycles target) :
    Search.Leaves graph path vertex search (follow visit (path ++ [vertex]) targets search) := by
  induction targets generalizing search with
  | nil => exact leaves_passed sound entered fun target arrow => (done target arrow).resolve_left nofun
  | cons target targets ih =>
    have arrow := arrows target List.mem_cons_self
    have later := fun other member => arrows other (List.mem_cons_of_mem target member)
    unfold follow
    split
    next on => exact leaves_noted trail sound entered on arrow
    next off =>
      rw [Bool.not_eq_true] at off
      -- Either way the target is cleared when the others are followed.
      have proceed {after : Search α} (cleared : Cleared graph after.cycles target) (grown : search.Extends after) :
          ∀ other, graph.Arrow vertex other → targets.contains other = true ∨ Cleared graph after.cycles other := by
        intro other leads
        obtain listed | before := done other leads
        · rw [List.contains_cons, Bool.or_eq_true] at listed
          exact listed.symm.imp_right fun equal => cleared.congr (BEq.symm equal)
        · exact .inr (before.mono grown.cycles)
      split
      next seen =>
        have cleared := (sound.cleared target seen).resolve_left fun on => Bool.false_ne_true (off.symm.trans on)
        exact ih later sound entered (proceed cleared (.refl search))
      next new =>
        have visited := visits target search arrow off (Bool.not_eq_true _ ▸ new) sound
        have last := ih later visited.sound (visited.grown.visited vertex entered) (proceed visited.cleared visited.grown)
        exact ⟨last.sound, visited.grown.trans last.grown, last.visited, last.cleared⟩

/-- A path has no more vertices than the graph, so the fuel does not run out. -/
theorem leaves_visit (linked : graph.Linked) (fuel : Nat) {path : List α} {vertex : α} {search : Search α}
    (enough : graph.length ≤ path.length + fuel) (trail : graph.Trail (path ++ [vertex]))
    (new : search.visited.contains vertex = false) (sound : search.Sound graph path) :
    Search.Leaves graph path vertex search (visit graph fuel path vertex search) := by
  induction fuel generalizing path vertex search with
  | zero =>
    have short := trail.distinct.length_le linked.distinct trail.known
    rw [List.length_append, List.length_singleton, names, List.length_map] at short
    omega
  | succ fuel ih =>
    have entered : search.Extends { search with visited := search.visited ++ [vertex] } :=
      ⟨fun name seen => contains_concat.mpr (.inl seen), fun _ => id⟩
    have within : Search.Sound graph (path ++ [vertex]) { search with visited := search.visited ++ [vertex] } := by
      refine ⟨sound.circles, ?_, ?_, sound.apart⟩
      · intro name seen
        obtain before | equal := contains_concat.mp seen
        · exact (sound.cleared name before).imp_left fun on => contains_concat.mpr (.inl on)
        · exact .inl (contains_concat.mpr (.inr equal))
      · intro cycle member
        obtain ⟨name, listed, seen, off⟩ := sound.left cycle member
        refine ⟨name, listed, entered.visited name seen, contains_concat_eq_false.mpr ⟨off, ?_⟩⟩
        refine Bool.eq_false_iff.mpr fun equal => ?_
        rw [← List.contains_congr equal, new] at seen
        cases seen
    have left : Search.Leaves graph path vertex { search with visited := search.visited ++ [vertex] }
        (visit graph (fuel + 1) path vertex search) := by
      refine leaves_follow trail ?_ (graph.targets vertex) ?_ within (contains_concat.mpr (.inr BEq.rfl)) ?_
      · intro target search arrow off unseen sound
        refine ih ?_ ⟨trail.distinct.append_singleton off, ?_, ?_⟩ unseen sound
        · rw [List.length_append, List.length_singleton]
          omega
        · refine List.isChain_append.mpr ⟨trail.arrows, List.isChain_singleton _, ?_⟩
          intro last final next start
          rw [List.getLast?_concat] at final
          cases final
          cases start
          exact arrow
        · intro name member
          obtain old | last := List.mem_append.mp member
          · exact trail.known name old
          · obtain ⟨_, other, inside, equal⟩ := linked.ends_of_arrow arrow
            rw [List.mem_singleton.mp last]
            exact List.contains_iff_exists_mem_beq.mpr ⟨_, List.mem_map_of_mem inside, BEq.symm equal⟩
      · exact fun target member => List.contains_iff_exists_mem_beq.mpr ⟨target, member, BEq.rfl⟩
      · exact fun target arrow => .inl arrow
    exact ⟨left.sound, entered.trans left.grown, left.visited, left.cleared⟩

/-- Searching from some vertices, each of them is visited. -/
theorem sound_searchFrom (linked : graph.Linked) (names : List α)
    (known : ∀ name ∈ names, graph.names.contains name = true) {search : Search α} (sound : search.Sound graph []) :
    (searchFrom graph search names).Sound graph [] ∧ search.Extends (searchFrom graph search names) ∧
      ∀ name ∈ names, (searchFrom graph search names).visited.contains name = true := by
  induction names generalizing search with
  | nil => exact ⟨sound, .refl search, nofun⟩
  | cons name names ih =>
    obtain ⟨after, step, sound, grown, visited⟩ : ∃ after, searchFrom graph search (name :: names) = searchFrom graph after names ∧
        after.Sound graph [] ∧ search.Extends after ∧ after.visited.contains name = true := by
      unfold searchFrom
      rw [List.foldl_cons]
      split
      next seen => exact ⟨search, rfl, sound, .refl search, seen⟩
      next new =>
        have trail : graph.Trail ([] ++ [name]) := by
          refine ⟨List.pairwise_singleton _ _, List.isChain_singleton _, fun other member => ?_⟩
          rw [List.mem_singleton.mp member]
          exact known name List.mem_cons_self
        have left := leaves_visit linked graph.length (Nat.le_add_left _ _) trail (Bool.not_eq_true _ ▸ new) sound
        exact ⟨_, rfl, left.sound, left.grown, left.visited⟩
    obtain ⟨last, more, rest⟩ := ih (fun other member => known other (.tail _ member)) sound
    rw [step]
    refine ⟨last, grown.trans more, fun other member => ?_⟩
    cases member with
    | head => exact more.visited name visited
    | tail _ member => exact rest other member

end Follow

section Found

private theorem exists_of_forall₂ {β γ : Type} {related : β → γ → Prop} {items : List β} {others : List γ}
    (all : List.Forall₂ related items others) {item : β} (member : item ∈ items) :
    ∃ other ∈ others, related item other := by
  induction all with
  | nil => cases member
  | cons first _ ih =>
    cases member with
    | head => exact ⟨_, List.mem_cons_self, first⟩
    | tail _ member =>
      obtain ⟨other, listed, found⟩ := ih member
      exact ⟨other, List.mem_cons_of_mem _ listed, found⟩

/-- A vertex that only one of two cycles meets keeps them apart. -/
theorem not_sameCycle [EquivBEq α] {graph : Digraph α} {cycle other : List α} (circle : graph.IsCycle cycle) {name : α}
    (on : cycle.contains name = true) (off : other.contains name = false) : ¬SameCycle cycle other := by
  rintro ⟨places, same⟩
  obtain ⟨first, rest, last, rfl, equal, _, _⟩ := circle
  obtain ⟨vertex, inside, alike⟩ : ∃ vertex ∈ first :: rest, (name == vertex) = true := by
    obtain ⟨vertex, member, alike⟩ := List.contains_iff_exists_mem_beq.mp on
    obtain inside | final := List.mem_append.mp member
    · exact ⟨vertex, inside, alike⟩
    · rw [List.mem_singleton.mp final] at alike
      exact ⟨first, List.mem_cons_self, BEq.trans alike (BEq.symm equal)⟩
  rw [List.dropLast_concat] at same
  obtain ⟨met, listed, equal⟩ := exists_of_forall₂ same (List.mem_rotate.mpr inside)
  have on := List.contains_iff_exists_mem_beq.mpr ⟨met, List.mem_of_mem_dropLast listed, BEq.trans alike equal⟩
  exact Bool.false_ne_true (off.symm.trans on)

variable [EquivBEq α] {graph : Digraph α} (linked : graph.Linked)

include linked

theorem sound_cycles : (searchFrom graph {} graph.names).Sound graph [] ∧
    ∀ name, graph.names.contains name = true → Cleared graph graph.cycles name := by
  have start : Search.Sound graph [] {} := ⟨nofun, nofun, nofun, .nil⟩
  obtain ⟨sound, _, visited⟩ := sound_searchFrom linked graph.names
    (fun name member => List.contains_iff_exists_mem_beq.mpr ⟨name, member, BEq.rfl⟩) start
  refine ⟨sound, fun name known => ?_⟩
  obtain ⟨other, member, equal⟩ := List.contains_iff_exists_mem_beq.mp known
  have cleared := (sound.cleared other (visited other member)).resolve_left nofun
  exact cleared.congr (BEq.symm equal)

/-- Among the vertices that reach a vertex of a cycle and are reached from it, some make up a cycle that was found. -/
theorem exists_cycle_of_onCycle {name : α} (round : graph.OnCycle name) :
    ∃ cycle ∈ graph.cycles, ∀ other ∈ cycle, graph.Reaches name other ∧ graph.Reaches other name := by
  obtain ⟨sound, cleared⟩ := sound_cycles linked
  obtain ⟨_, arrow, _⟩ := Relation.TransGen.head'_iff.mp round
  obtain ⟨⟨vertex, member, equal⟩, _⟩ := linked.ends_of_arrow arrow
  have known : graph.names.contains name = true :=
    List.contains_iff_exists_mem_beq.mpr ⟨_, List.mem_map_of_mem member, BEq.symm equal⟩
  exact (cleared name known).exists_cycle sound.circles round

/-- No cycle is found twice. -/
theorem pairwise_not_sameCycle : graph.cycles.Pairwise fun earlier later => ¬SameCycle earlier later := by
  obtain ⟨sound, _⟩ := sound_cycles linked
  refine sound.apart.imp_of_mem fun member _ apart => ?_
  obtain ⟨name, on, off⟩ := apart
  exact not_sameCycle (sound.circles _ member) on off

theorem cycles_eq_nil_iff : graph.cycles = [] ↔ ∀ vertex ∈ graph, ¬graph.CycleAhead vertex.name := by
  constructor
  · rintro none vertex _ ⟨other, _, round⟩
    obtain ⟨cycle, found, _⟩ := exists_cycle_of_onCycle linked round
    rw [none] at found
    cases found
  · intro free
    refine List.eq_nil_iff_forall_not_mem.mpr fun cycle found => ?_
    have circle := (sound_cycles linked).1.circles cycle found
    have ⟨first, rest, last, shape, _⟩ := circle
    have member : first ∈ cycle := shape ▸ List.mem_cons_self
    have round : graph.OnCycle first := circle.reaches member member
    obtain ⟨_, arrow, _⟩ := Relation.TransGen.head'_iff.mp round
    obtain ⟨⟨vertex, inside, equal⟩, _⟩ := linked.ends_of_arrow arrow
    exact free vertex inside ⟨_, .refl, round.congr (BEq.symm equal)⟩

end Found

end FormRules.Digraph

namespace FormRules.Dependency.Graph

/-- The cycles found among the fields of a form are cycles, around each field that is on one some cycle is found,
none is found twice, and none is found just if each field has a level. -/
theorem ofForm_cycles {form : Value} {graph : Graph} (built : ofForm form = .ok graph) :
    (∀ cycle ∈ graph.cycles, graph.arrows.IsCycle cycle) ∧
      (∀ first second, (first == second) = false → graph.arrows.Reaches first second →
        graph.arrows.Reaches second first → ∃ cycle ∈ graph.cycles, ∀ name ∈ cycle,
          graph.arrows.Reaches first name ∧ graph.arrows.Reaches name first) ∧
      (graph.cycles.Pairwise fun earlier later => ¬Digraph.SameCycle earlier later) ∧
      (graph.isCircular = false ↔ ∀ node ∈ graph.nodes, ∃ level ∈ graph.levels, node.id ∈ level) := by
  have linked := linked_of_ofForm built
  refine ⟨(Digraph.sound_cycles linked).1.circles, ?_, Digraph.pairwise_not_sameCycle linked, ?_⟩
  · intro first second _ ahead back
    exact Digraph.exists_cycle_of_onCycle linked (ahead.trans back)
  · have plain : graph.isCircular = false ↔ graph.arrows.cycles = [] := by
      rw [isCircular, Bool.not_eq_false', List.isEmpty_iff, cycles]
    rw [plain, Digraph.cycles_eq_nil_iff linked]
    constructor
    · intro free node member
      have inside : node.vertex ∈ graph.arrows := List.mem_map_of_mem member
      exact (Digraph.exists_row_iff linked inside).mpr
        ((Digraph.isSome_levelOf?_iff linked inside).mpr (free _ inside))
    · intro levelled vertex inside
      obtain ⟨node, member, rfl⟩ := List.mem_map.mp inside
      exact (Digraph.isSome_levelOf?_iff linked inside).mp
        ((Digraph.exists_row_iff linked inside).mp (levelled node member))

/-- The tax is left at its arrow back to the net sum, so that its arrow to the gross sum is never followed. -/
theorem ofForm_cycles_net :
    let field (name : String) (reads : List String) : Value := .ofFields [("name", .text name),
      ("visibleIf", .list (reads.map fun read => .ofFields [("field", .text read), ("operator", .text "==")]))]
    let form : Value := .ofFields [("items", .list [field "gross" ["net"], field "net" ["tax", "gross"],
      field "tax" ["net", "gross"]])]
    let gross : Name := ⟨.text "gross"⟩
    let net : Name := ⟨.text "net"⟩
    let tax : Name := ⟨.text "tax"⟩
    let graph : Graph := ⟨[⟨gross, .text "gross", [net], [net, tax], [], []⟩,
      ⟨net, .text "net", [tax, gross], [gross, tax], [], []⟩, ⟨tax, .text "tax", [net, gross], [net], [], []⟩]⟩
    ofForm form = .ok graph ∧ graph.cycles = [[net, tax, net], [gross, net, gross]] ∧
      (∀ cycle ∈ graph.cycles, graph.arrows.IsCycle cycle) ∧
      ¬∀ node ∈ graph.nodes, ∃ level ∈ graph.levels, node.id ∈ level := by
  intro field form gross net tax graph
  have built : ofForm form = .ok graph := rfl
  obtain ⟨circles, _, _, plain⟩ := ofForm_cycles built
  refine ⟨built, rfl, circles, fun levelled => ?_⟩
  cases plain.mpr levelled

end FormRules.Dependency.Graph
