import FormRules.Digraph.Basic

/-!
The levels of a directed graph. Each vertex counts the targets that have no level yet; the vertices that
count none make the next level, and each of them is then taken off the counts of its sources. A vertex from
which a cycle can be reached never comes to none and has no level. Main statement: giving out levels ends, as
each level is taken from the vertices that have none.
-/

namespace FormRules.Digraph

variable {α : Type}

/-- A vertex while levels are given out: how many of its targets it still waits for, and its level. -/
structure Standing (α : Type) where
  vertex : Vertex α
  pending : Int
  level? : Option Nat := none

namespace Standing

def ofVertex (vertex : Vertex α) : Standing α := { vertex, pending := vertex.targets.length }

def isReady (standing : Standing α) : Bool := standing.pending == 0 && standing.level?.isNone

/-- Takes a place in a level if the vertex is ready. -/
def take (level : Nat) (standing : Standing α) : Standing α :=
  if standing.isReady then { standing with level? := some level } else standing

theorem level?_of_isReady {standing : Standing α} (ready : standing.isReady = true) : standing.level? = none :=
  Option.isNone_iff_eq_none.mp (Bool.and_eq_true_iff.mp ready).2

theorem pending_of_isReady {standing : Standing α} (ready : standing.isReady = true) : standing.pending = 0 :=
  beq_iff_eq.mp (Bool.and_eq_true_iff.mp ready).1

/-- Waits for one target less, if the vertex is the one of a name. -/
def release [BEq α] (name : α) (standing : Standing α) : Standing α :=
  if standing.vertex.name == name then { standing with pending := standing.pending - 1 } else standing

end Standing

structure Leveling (α : Type) where
  standings : List (Standing α)
  levels : List (List α) := []

namespace Leveling

def ofGraph (graph : Digraph α) : Leveling α := { standings := graph.map Standing.ofVertex }

def ready (leveling : Leveling α) : List (Standing α) := leveling.standings.filter Standing.isReady

/-- How many vertices have no level. -/
def rest (leveling : Leveling α) : Nat := leveling.standings.countP (·.level?.isNone)

theorem rest_take (standings : List (Standing α)) (level : Nat) :
    (standings.map (Standing.take level)).countP (·.level?.isNone) + (standings.filter Standing.isReady).length =
      standings.countP (·.level?.isNone) := by
  induction standings with
  | nil => rfl
  | cons standing standings ih =>
    rw [List.map_cons, List.countP_cons, List.countP_cons]
    by_cases ready : standing.isReady = true
    · have free : standing.level?.isNone = true := (Bool.and_eq_true_iff.mp ready).2
      have taken : (standing.take level).level?.isNone = false := by simp [Standing.take, ready]
      rw [List.filter_cons_of_pos ready, List.length_cons, free, taken]
      simp only [Bool.false_eq_true, if_true, if_false]
      omega
    · have kept : standing.take level = standing := if_neg ready
      rw [List.filter_cons_of_neg ready, kept]
      omega

variable [BEq α]

/-- The standings after some vertices that others wait for have got their level. -/
def releaseAll (standings : List (Standing α)) (names : List α) : List (Standing α) :=
  names.foldl (fun standings name => standings.map (Standing.release name)) standings

/-- Makes a level of the vertices that are ready. -/
def advance (leveling : Leveling α) : Leveling α where
  standings := releaseAll (leveling.standings.map (Standing.take leveling.levels.length))
    (leveling.ready.flatMap (·.vertex.sources))
  levels := leveling.levels ++ [leveling.ready.map (·.vertex.name)]

theorem level?_release (name : α) (standing : Standing α) :
    (standing.release name).level? = standing.level? := by
  unfold Standing.release
  split <;> rfl

theorem rest_releaseAll (standings : List (Standing α)) (names : List α) :
    (releaseAll standings names).countP (·.level?.isNone) = standings.countP (·.level?.isNone) := by
  induction names generalizing standings with
  | nil => rfl
  | cons name names ih =>
    refine (ih _).trans ?_
    simp only [List.countP_map, Function.comp_def, level?_release]

/-- A level is taken from the vertices that have none. -/
theorem rest_advance (leveling : Leveling α) : leveling.advance.rest + leveling.ready.length = leveling.rest := by
  unfold rest advance
  rw [rest_releaseAll]
  exact rest_take leveling.standings leveling.levels.length

/-- Makes levels as long as vertices are ready. -/
def run (leveling : Leveling α) : Leveling α :=
  if leveling.ready.isEmpty then leveling else run leveling.advance
termination_by leveling.rest
decreasing_by
  have split := rest_advance leveling
  have some : leveling.ready.length ≠ 0 := by simp_all
  omega

/-- The level of a vertex, if it has one. -/
def levelOf? (leveling : Leveling α) (name : α) : Option Nat :=
  (leveling.standings.find? (·.vertex.name == name)).bind (·.level?)

end Leveling

/-- The vertices with the levels they have got. -/
def leveling [BEq α] (graph : Digraph α) : Leveling α := (Leveling.ofGraph graph).run

end FormRules.Digraph
