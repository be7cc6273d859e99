import MiniSqlite.Common.Error
import MiniSqlite.Std.Ring

/-!
# Intrusive lists

`common/list.c`: a `list_t` is a sentinel and a size, its elements are nodes
embedded elsewhere, all pointers live in one `Links`. `ListHolds` relates a list
to the nodes it holds; each operation has one lemma that says which nodes it
holds afterwards and that no other pointer changes.
-/

namespace MiniSqlite.Common

open MiniSqlite.Std

variable {Node : Type} [DecidableEq Node]

/-- `list_t`. -/
structure ListT (Node : Type) where
  sentinel : Node
  size : Nat

/-- Follows a pointer. -/
def deref (pointer : Option Node) : Except Fault Node :=
  match pointer with
  | some node => .ok node
  | none => .error .nullPointer

/-- `list_init`. -/
def listInit (links : Links Node) (sentinel : Node) : Links Node × ListT Node :=
  ((links.setPrev sentinel (some sentinel)).setNext sentinel (some sentinel), ⟨sentinel, 0⟩)

/-- `list_push_front`. -/
def listPushFront (links : Links Node) (list : ListT Node) (node : Node) :
    Except Fault (Links Node × ListT Node) := do
  let links := links.setNext node (links.next list.sentinel)
  let links := links.setPrev node (some list.sentinel)
  let first ← deref (links.next list.sentinel)
  let links := links.setPrev first (some node)
  let links := links.setNext list.sentinel (some node)
  return (links, { list with size := list.size + 1 })

/-- `list_push_back`. -/
def listPushBack (links : Links Node) (list : ListT Node) (node : Node) :
    Except Fault (Links Node × ListT Node) := do
  let links := links.setPrev node (links.prev list.sentinel)
  let links := links.setNext node (some list.sentinel)
  let last ← deref (links.prev list.sentinel)
  let links := links.setNext last (some node)
  let links := links.setPrev list.sentinel (some node)
  return (links, { list with size := list.size + 1 })

/-- `list_remove`. -/
def listRemove (links : Links Node) (node : Node) : Except Fault (Links Node) := do
  let previous ← deref (links.prev node)
  let links := links.setNext previous (links.next node)
  let following ← deref (links.next node)
  let links := links.setPrev following (links.prev node)
  return (links.setPrev node none).setNext node none

/-- `list_remove_from`. -/
def listRemoveFrom (links : Links Node) (list : ListT Node) (node : Node) :
    Except Fault (Links Node × ListT Node) := do
  let links ← listRemove links node
  return (links, { list with size := list.size - 1 })

/-- `list_pop_front`, with `none` for `NULL`. -/
def listPopFront (links : Links Node) (list : ListT Node) :
    Except Fault (Links Node × ListT Node × Option Node) :=
  if list.size = 0 then .ok (links, list, none)
  else do
    let node ← deref (links.next list.sentinel)
    let (links, list) ← listRemoveFrom links list node
    return (links, list, some node)

/-- `list_pop_back`, with `none` for `NULL`. -/
def listPopBack (links : Links Node) (list : ListT Node) :
    Except Fault (Links Node × ListT Node × Option Node) :=
  if list.size = 0 then .ok (links, list, none)
  else do
    let node ← deref (links.prev list.sentinel)
    let (links, list) ← listRemoveFrom links list node
    return (links, list, some node)

/-! ## What a list holds -/

/-- The list holds `nodes`, front to back. -/
structure ListHolds (links : Links Node) (list : ListT Node) (nodes : List Node) : Prop where
  ring : Ring links list.sentinel nodes
  size : list.size = nodes.length

/-- Only pointers of `nodes` differ. -/
def SameOutside (nodes : List Node) (before after : Links Node) : Prop :=
  ∀ node, node ∉ nodes → after.next node = before.next node ∧ after.prev node = before.prev node

omit [DecidableEq Node] in
/-- A list is not affected by changes elsewhere. -/
theorem ListHolds.frame {before after : Links Node} {list : ListT Node} {nodes changed : List Node}
    (holds : ListHolds before list nodes) (same : SameOutside changed before after)
    (disjoint : ∀ node ∈ list.sentinel :: nodes, node ∉ changed) :
    ListHolds after list nodes where
  ring := holds.ring.congr (fun node member => (same node (disjoint node member)).1)
    fun node member => (same node (disjoint node member)).2
  size := holds.size

theorem listInit_holds (links : Links Node) (sentinel : Node) :
    ListHolds (listInit links sentinel).1 (listInit links sentinel).2 [] where
  ring := ⟨⟨by simp [listInit], by simp [listInit]⟩, by simp [listInit]⟩
  size := rfl

theorem listInit_sameOutside (links : Links Node) (sentinel : Node) :
    SameOutside [sentinel] links (listInit links sentinel).1 := by
  intro node absent
  have differ : node ≠ sentinel := by simpa using absent
  simp [listInit, differ]

/-- `list_push_back` appends a node that was not in the list. -/
theorem ListHolds.pushBack {links : Links Node} {list : ListT Node} {nodes : List Node}
    (holds : ListHolds links list nodes) {node : Node} (absent : node ∉ list.sentinel :: nodes) :
    ∃ after, listPushBack links list node = .ok (after, ⟨list.sentinel, list.size + 1⟩) ∧
      ListHolds after ⟨list.sentinel, list.size + 1⟩ (nodes ++ [node]) ∧
      SameOutside (node :: list.sentinel :: nodes) links after := by
  have last := holds.ring.segment.prev_last
  have lastMem := lastNode_mem list.sentinel nodes
  have notSentinel : node ≠ list.sentinel := fun same => absent (same ▸ List.mem_cons_self)
  have notLast : node ≠ lastNode list.sentinel nodes := fun same => absent (same ▸ lastMem)
  have pushed : listPushBack links list node = .ok
      ((((links.setPrev node (some (lastNode list.sentinel nodes))).setNext node
        (some list.sentinel)).setNext (lastNode list.sentinel nodes) (some node)).setPrev
        list.sentinel (some node), ⟨list.sentinel, list.size + 1⟩) := by
    simp only [listPushBack, Links.setNext_prev, Links.setPrev_prev, last,
      if_neg (Ne.symm notSentinel), deref]
    rfl
  refine ⟨_, pushed, ⟨holds.ring.pushBack absent ?_ ?_ ?_ ?_, by simp [holds.size]⟩, ?_⟩
  · simp [Linked, notSentinel]
  · simp [Linked, notLast]
  · intro other member inner
    have differ : other ≠ node := fun same => absent (same ▸ member)
    simp [inner, differ]
  · intro other member
    have differ : other ≠ node := fun same => absent (same ▸ List.mem_cons_of_mem _ member)
    have inner : other ≠ list.sentinel :=
      fun same => (List.nodup_cons.mp holds.ring.nodup).1 (same ▸ member)
    simp [differ, inner]
  · intro other outside
    have differ : other ≠ lastNode list.sentinel nodes :=
      fun same => outside (List.mem_cons_of_mem _ (same ▸ lastMem))
    simp only [List.mem_cons, not_or] at outside
    simp [differ, outside.1, outside.2.1]

/-- `list_push_front` prepends a node that was not in the list. -/
theorem ListHolds.pushFront {links : Links Node} {list : ListT Node} {nodes : List Node}
    (holds : ListHolds links list nodes) {node : Node} (absent : node ∉ list.sentinel :: nodes) :
    ∃ after, listPushFront links list node = .ok (after, ⟨list.sentinel, list.size + 1⟩) ∧
      ListHolds after ⟨list.sentinel, list.size + 1⟩ (node :: nodes) ∧
      SameOutside (node :: list.sentinel :: nodes) links after := by
  have first := holds.ring.segment.next_first
  have headMem : headNode nodes list.sentinel ∈ list.sentinel :: nodes := by
    rcases List.mem_append.mp (headNode_mem nodes list.sentinel) with inside | last
    · exact List.mem_cons_of_mem _ inside
    · rw [List.mem_singleton.mp last]
      exact List.mem_cons_self
  have notSentinel : node ≠ list.sentinel := fun same => absent (same ▸ List.mem_cons_self)
  have notHead : node ≠ headNode nodes list.sentinel := fun same => absent (same ▸ headMem)
  have pushed : listPushFront links list node = .ok
      ((((links.setNext node (some (headNode nodes list.sentinel))).setPrev node
        (some list.sentinel)).setPrev (headNode nodes list.sentinel) (some node)).setNext
        list.sentinel (some node), ⟨list.sentinel, list.size + 1⟩) := by
    simp only [listPushFront, Links.setPrev_next, Links.setNext_next, first,
      if_neg (Ne.symm notSentinel), deref]
    rfl
  refine ⟨_, pushed, ⟨holds.ring.pushFront absent ?_ ?_ ?_ ?_, by simp [holds.size]⟩, ?_⟩
  · simp [Linked, notHead]
  · simp [Linked, notSentinel]
  · intro other member
    have differ : other ≠ node := fun same => absent (same ▸ List.mem_cons_of_mem _ member)
    have inner : other ≠ list.sentinel :=
      fun same => (List.nodup_cons.mp holds.ring.nodup).1 (same ▸ member)
    simp [differ, inner]
  · intro other member inner
    have differ : other ≠ node := fun same => absent (same ▸ member)
    simp [inner, differ]
  · intro other outside
    have differ : other ≠ headNode nodes list.sentinel :=
      fun same => outside (List.mem_cons_of_mem _ (same ▸ headMem))
    simp only [List.mem_cons, not_or] at outside
    simp [differ, outside.1, outside.2.1]

/-- `list_remove_from` takes out a node of the list. -/
theorem ListHolds.removeFrom {links : Links Node} {list : ListT Node} {before after : List Node}
    {node : Node} (holds : ListHolds links list (before ++ node :: after)) :
    ∃ links', listRemoveFrom links list node = .ok (links', ⟨list.sentinel, list.size - 1⟩) ∧
      ListHolds links' ⟨list.sentinel, list.size - 1⟩ (before ++ after) ∧
      SameOutside (list.sentinel :: (before ++ node :: after)) links links' := by
  obtain ⟨start, rest⟩ := Segment.append.mp holds.ring.segment
  have prev := start.prev_last
  have next := rest.next_first
  have nodup := holds.ring.nodup
  rw [← List.cons_append, List.nodup_append] at nodup
  obtain ⟨_, nodupAfter, disjoint⟩ := nodup
  have lastMem := lastNode_mem list.sentinel before
  have notLast : node ≠ lastNode list.sentinel before :=
    fun same => disjoint _ lastMem node List.mem_cons_self same.symm
  have headMem := headNode_mem after list.sentinel
  have notHead : node ≠ headNode after list.sentinel := by
    intro same
    rcases List.mem_append.mp headMem with inside | last
    · exact (List.nodup_cons.mp nodupAfter).1 (same ▸ inside)
    · exact disjoint list.sentinel List.mem_cons_self node List.mem_cons_self
        ((List.mem_singleton.mp last).symm.trans same.symm)
  have removed : listRemoveFrom links list node = .ok
      ((((links.setNext (lastNode list.sentinel before) (some (headNode after list.sentinel))).setPrev
        (headNode after list.sentinel) (some (lastNode list.sentinel before))).setPrev node
        none).setNext node none, ⟨list.sentinel, list.size - 1⟩) := by
    simp only [listRemoveFrom, listRemove, prev, next, deref, bind, Except.bind, pure, Except.pure,
      Links.setNext_next, Links.setNext_prev, if_neg notLast]
  have others : ∀ other ∈ list.sentinel :: (before ++ after), other ≠ node := by
    intro other member same
    subst same
    rw [← List.cons_append] at member
    rcases List.mem_append.mp member with inBefore | inAfter
    · exact disjoint other inBefore other List.mem_cons_self rfl
    · exact (List.nodup_cons.mp nodupAfter).1 inAfter
  refine ⟨_, removed, ⟨holds.ring.remove ?_ ?_ ?_, ?_⟩, ?_⟩
  · simp [Linked, Ne.symm notLast, Ne.symm notHead]
  · intro other member inner
    simp [others other member, inner]
  · intro other member inner
    simp [others other member, inner]
  · rw [holds.size]
    simp
  · intro other outside
    have differLast : other ≠ lastNode list.sentinel before := by
      intro same
      rw [← List.cons_append] at outside
      exact outside (List.mem_append_left _ (same ▸ lastMem))
    have differHead : other ≠ headNode after list.sentinel := by
      intro same
      rcases List.mem_append.mp headMem with inside | last
      · exact outside (by simp [same, inside])
      · exact outside (by simp [same, List.mem_singleton.mp last])
    have differ : other ≠ node := fun same => outside (by simp [same])
    simp [differLast, differHead, differ]

/-- `list_pop_front` takes the first node. -/
theorem ListHolds.popFront {links : Links Node} {list : ListT Node} {node : Node}
    {nodes : List Node} (holds : ListHolds links list (node :: nodes)) :
    ∃ after, listPopFront links list = .ok (after, ⟨list.sentinel, list.size - 1⟩, some node) ∧
      ListHolds after ⟨list.sentinel, list.size - 1⟩ nodes ∧
      SameOutside (list.sentinel :: node :: nodes) links after := by
  have first := holds.ring.segment.next_first
  obtain ⟨after, removed, rest, same⟩ := @ListHolds.removeFrom _ _ links list [] nodes node holds
  have nonempty : list.size ≠ 0 := by simp [holds.size]
  refine ⟨after, ?_, rest, same⟩
  simp only [listPopFront, if_neg nonempty, first, headNode, List.headD_cons, deref, bind,
    Except.bind, pure, Except.pure, removed]

/-- `list_pop_back` takes the last node. -/
theorem ListHolds.popBack {links : Links Node} {list : ListT Node} {node : Node}
    {nodes : List Node} (holds : ListHolds links list (nodes ++ [node])) :
    ∃ after, listPopBack links list = .ok (after, ⟨list.sentinel, list.size - 1⟩, some node) ∧
      ListHolds after ⟨list.sentinel, list.size - 1⟩ nodes ∧
      SameOutside (list.sentinel :: (nodes ++ [node])) links after := by
  have last := holds.ring.segment.prev_last
  rw [lastNode_append] at last
  obtain ⟨after, removed, rest, same⟩ := holds.removeFrom
  have nonempty : list.size ≠ 0 := by simp [holds.size]
  rw [List.append_nil] at rest
  refine ⟨after, ?_, rest, same⟩
  simp only [listPopBack, if_neg nonempty, last, deref, bind, Except.bind, pure, Except.pure,
    removed]

theorem ListHolds.popFront_nil {links : Links Node} {list : ListT Node}
    (holds : ListHolds links list []) : listPopFront links list = .ok (links, list, none) :=
  if_pos holds.size

theorem ListHolds.popBack_nil {links : Links Node} {list : ListT Node}
    (holds : ListHolds links list []) : listPopBack links list = .ok (links, list, none) :=
  if_pos holds.size

end MiniSqlite.Common
