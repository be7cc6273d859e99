import Mathlib.Logic.Relation
import Mathlib.Data.List.Nodup

/-!
# Cycles of a relation

A cycle is a nonempty closed walk. `Walk` follows a relation in which every
vertex has at most one successor: it keeps the vertices already passed, and
either meets one of them again, which lies on a cycle, or runs out of
successors, and then its start lies on none.
-/

namespace MiniSqlite.Std

universe u
variable {Vertex : Type u}

/-- A nonempty walk along `edge` leads from `vertex` back to it. -/
def OnCycle (edge : Vertex → Vertex → Prop) (vertex : Vertex) : Prop :=
  Relation.TransGen edge vertex vertex

/-- Some vertex lies on a cycle. -/
def Cyclic (edge : Vertex → Vertex → Prop) : Prop := ∃ vertex, OnCycle edge vertex

theorem OnCycle.mono {edge wider : Vertex → Vertex → Prop}
    (included : ∀ first second, edge first second → wider first second) {vertex : Vertex}
    (cycle : OnCycle edge vertex) : OnCycle wider vertex :=
  Relation.TransGen.mono included _ _ cycle

theorem OnCycle.exists_edge {edge : Vertex → Vertex → Prop} {vertex : Vertex}
    (cycle : OnCycle edge vertex) : ∃ next, edge vertex next := by
  obtain ⟨next, step, _⟩ := Relation.TransGen.head'_iff.mp cycle
  exact ⟨next, step⟩

/-- Where successors are unique, the successor of a vertex on a cycle is on it too. -/
theorem OnCycle.next {edge : Vertex → Vertex → Prop}
    (functional : ∀ vertex first second, edge vertex first → edge vertex second → first = second)
    {vertex next : Vertex} (cycle : OnCycle edge vertex) (step : edge vertex next) :
    OnCycle edge next := by
  obtain ⟨other, otherStep, back⟩ := Relation.TransGen.head'_iff.mp cycle
  obtain rfl : other = next := functional _ _ _ otherStep step
  exact Relation.TransGen.tail' back step

/-- The walk from `start` has passed `visited` and stands at `current`. -/
structure Walk (edge : Vertex → Vertex → Prop) (start : Vertex) (visited : List Vertex)
    (current : Vertex) : Prop where
  nodup : visited.Nodup
  /-- Every vertex passed leads to the one the walk stands at. -/
  leads : ∀ vertex ∈ visited, Relation.TransGen edge vertex current
  /-- A start on a cycle has led along it. -/
  stays : OnCycle edge start → OnCycle edge current

theorem Walk.start (edge : Vertex → Vertex → Prop) (start : Vertex) : Walk edge start [] start where
  nodup := List.nodup_nil
  leads := by simp
  stays := id

theorem Walk.next {edge : Vertex → Vertex → Prop}
    (functional : ∀ vertex first second, edge vertex first → edge vertex second → first = second)
    {start current next : Vertex} {visited : List Vertex} (walk : Walk edge start visited current)
    (unseen : current ∉ visited) (step : edge current next) :
    Walk edge start (current :: visited) next where
  nodup := List.nodup_cons.mpr ⟨unseen, walk.nodup⟩
  leads := by
    intro vertex member
    rcases List.mem_cons.mp member with rfl | earlier
    · exact .single step
    · exact .tail (walk.leads vertex earlier) step
  stays := fun cycle => (walk.stays cycle).next functional step

/-- A walk that meets a vertex again stands on a cycle. -/
theorem Walk.repeats {edge : Vertex → Vertex → Prop} {start current : Vertex}
    {visited : List Vertex} (walk : Walk edge start visited current)
    (seen : current ∈ visited) : OnCycle edge current :=
  walk.leads current seen

/-- A walk that ends at a vertex without successor started on no cycle. -/
theorem Walk.ends {edge : Vertex → Vertex → Prop} {start current : Vertex}
    {visited : List Vertex} (walk : Walk edge start visited current)
    (last : ∀ next, ¬ edge current next) : ¬ OnCycle edge start := by
  intro cycle
  obtain ⟨next, step⟩ := (walk.stays cycle).exists_edge
  exact last next step

end MiniSqlite.Std
