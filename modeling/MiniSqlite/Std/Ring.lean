import Mathlib.Data.List.Basic
import Mathlib.Data.List.Nodup

/-!
# Doubly linked rings

Nodes with a `prev` and a `next` pointer, `none` for null. `Ring links sentinel
nodes` says that following `next` from the sentinel passes through `nodes` and
comes back, with `prev` leading the other way. The lemmas say what three
rewirings do to a ring: linking a node in before or after the sentinel and
unlinking a node. Each is stated for the pointers it yields, however they were
computed, so that it applies to any code that performs the rewiring.
-/

namespace MiniSqlite.Std

universe u
variable {Node : Type u}

/-- The pointers of all nodes. -/
structure Links (Node : Type u) where
  prev : Node → Option Node
  next : Node → Option Node

namespace Links

/-- No node is linked. -/
def unlinked : Links Node := ⟨fun _ => none, fun _ => none⟩

variable [DecidableEq Node]

/-- Stores a `prev` pointer. -/
def setPrev (links : Links Node) (node : Node) (target : Option Node) : Links Node :=
  { links with prev := fun other => if other = node then target else links.prev other }

/-- Stores a `next` pointer. -/
def setNext (links : Links Node) (node : Node) (target : Option Node) : Links Node :=
  { links with next := fun other => if other = node then target else links.next other }

@[simp] theorem setPrev_prev (links : Links Node) (node other : Node) (target : Option Node) :
    (links.setPrev node target).prev other = if other = node then target else links.prev other :=
  rfl

@[simp] theorem setPrev_next (links : Links Node) (node : Node) (target : Option Node) :
    (links.setPrev node target).next = links.next := rfl

@[simp] theorem setNext_next (links : Links Node) (node other : Node) (target : Option Node) :
    (links.setNext node target).next other = if other = node then target else links.next other :=
  rfl

@[simp] theorem setNext_prev (links : Links Node) (node : Node) (target : Option Node) :
    (links.setNext node target).prev = links.prev := rfl

end Links

/-- `second` follows `first`. -/
def Linked (links : Links Node) (first second : Node) : Prop :=
  links.next first = some second ∧ links.prev second = some first

/-- From `first` through `nodes` to `last`. -/
def Segment (links : Links Node) : Node → List Node → Node → Prop
  | first, [], last => Linked links first last
  | first, node :: nodes, last => Linked links first node ∧ Segment links node nodes last

/-- A closed segment without repetitions. -/
structure Ring (links : Links Node) (sentinel : Node) (nodes : List Node) : Prop where
  segment : Segment links sentinel nodes sentinel
  nodup : (sentinel :: nodes).Nodup

variable {links links' : Links Node}

/-- The node before the end of a segment. -/
def lastNode (first : Node) (nodes : List Node) : Node := nodes.getLastD first

/-- The node after the start of a segment. -/
def headNode (nodes : List Node) (last : Node) : Node := nodes.headD last

@[simp] theorem lastNode_cons (first node : Node) (nodes : List Node) :
    lastNode first (node :: nodes) = lastNode node nodes := List.getLastD_cons

@[simp] theorem lastNode_append (first node : Node) (nodes : List Node) :
    lastNode first (nodes ++ [node]) = node := List.getLastD_concat ..

theorem lastNode_mem (first : Node) (nodes : List Node) : lastNode first nodes ∈ first :: nodes := by
  induction nodes generalizing first with
  | nil => exact List.mem_cons_self
  | cons node nodes ih =>
    rw [lastNode_cons]
    exact List.mem_cons_of_mem _ (ih node)

theorem headNode_mem (nodes : List Node) (last : Node) : headNode nodes last ∈ nodes ++ [last] := by
  cases nodes <;> simp [headNode]

theorem Segment.append {first middle last : Node} {before after : List Node} :
    Segment links first (before ++ middle :: after) last ↔
      Segment links first before middle ∧ Segment links middle after last := by
  induction before generalizing first with
  | nil => rfl
  | cons node before ih =>
    rw [List.cons_append, Segment, ih, Segment, and_assoc]

theorem Segment.prev_last {first last : Node} {nodes : List Node}
    (segment : Segment links first nodes last) : links.prev last = some (lastNode first nodes) := by
  induction nodes generalizing first with
  | nil => exact segment.2
  | cons node nodes ih =>
    rw [lastNode_cons]
    exact ih segment.2

theorem Segment.next_first {first last : Node} {nodes : List Node}
    (segment : Segment links first nodes last) : links.next first = some (headNode nodes last) := by
  cases nodes with
  | nil => exact segment.1
  | cons node nodes => exact segment.1.1

/-- A segment only depends on the pointers between its nodes. -/
theorem Segment.congr {first last : Node} {nodes : List Node}
    (segment : Segment links first nodes last)
    (next : ∀ node ∈ first :: nodes, links'.next node = links.next node)
    (prev : ∀ node ∈ nodes ++ [last], links'.prev node = links.prev node) :
    Segment links' first nodes last := by
  induction nodes generalizing first with
  | nil =>
    exact ⟨(next first List.mem_cons_self).trans segment.1,
      (prev last (by simp)).trans segment.2⟩
  | cons node nodes ih =>
    refine ⟨⟨(next first List.mem_cons_self).trans segment.1.1,
      (prev node List.mem_cons_self).trans segment.1.2⟩, ih segment.2 ?_ ?_⟩
    · exact fun other member => next other (List.mem_cons_of_mem _ member)
    · exact fun other member => prev other (List.mem_cons_of_mem _ member)

/-- The end of a segment moved to another node. -/
theorem Segment.retarget {first last target : Node} {nodes : List Node}
    (segment : Segment links first nodes last) (nodup : (first :: nodes).Nodup)
    (next : ∀ node ∈ first :: nodes, node ≠ lastNode first nodes →
      links'.next node = links.next node)
    (prev : ∀ node ∈ nodes, links'.prev node = links.prev node)
    (link : Linked links' (lastNode first nodes) target) : Segment links' first nodes target := by
  induction nodes generalizing first with
  | nil => exact link
  | cons node nodes ih =>
    rw [lastNode_cons] at link next
    obtain ⟨absent, nodupRest⟩ := List.nodup_cons.mp nodup
    have inner : first ≠ lastNode node nodes := fun same => absent (same ▸ lastNode_mem node nodes)
    refine ⟨⟨(next first List.mem_cons_self inner).trans segment.1.1,
      (prev node List.mem_cons_self).trans segment.1.2⟩, ih segment.2 nodupRest ?_ ?_ link⟩
    · exact fun other member => next other (List.mem_cons_of_mem _ member)
    · exact fun other member => prev other (List.mem_cons_of_mem _ member)

/-- A ring only depends on the pointers of its nodes. -/
theorem Ring.congr {sentinel : Node} {nodes : List Node} (ring : Ring links sentinel nodes)
    (next : ∀ node ∈ sentinel :: nodes, links'.next node = links.next node)
    (prev : ∀ node ∈ sentinel :: nodes, links'.prev node = links.prev node) :
    Ring links' sentinel nodes where
  segment := ring.segment.congr next fun node member => prev node (by
    rcases List.mem_append.mp member with inside | last
    · exact List.mem_cons_of_mem _ inside
    · exact List.mem_singleton.mp last ▸ List.mem_cons_self)
  nodup := ring.nodup

/-- Linking a node in before the sentinel. -/
theorem Ring.pushBack {sentinel node : Node} {nodes : List Node}
    (ring : Ring links sentinel nodes) (absent : node ∉ sentinel :: nodes)
    (first : Linked links' (lastNode sentinel nodes) node) (second : Linked links' node sentinel)
    (next : ∀ other ∈ sentinel :: nodes, other ≠ lastNode sentinel nodes →
      links'.next other = links.next other)
    (prev : ∀ other ∈ nodes, links'.prev other = links.prev other) :
    Ring links' sentinel (nodes ++ [node]) where
  segment := Segment.append.mpr ⟨ring.segment.retarget ring.nodup next prev first, second⟩
  nodup := by
    rw [← List.cons_append]
    refine List.nodup_append.mpr ⟨ring.nodup, by simp, ?_⟩
    intro other inside new isNew same
    rw [List.mem_singleton.mp isNew] at same
    exact absent (same ▸ inside)

/-- Linking a node in after the sentinel. -/
theorem Ring.pushFront {sentinel node : Node} {nodes : List Node}
    (ring : Ring links sentinel nodes) (absent : node ∉ sentinel :: nodes)
    (first : Linked links' sentinel node) (second : Linked links' node (headNode nodes sentinel))
    (next : ∀ other ∈ nodes, links'.next other = links.next other)
    (prev : ∀ other ∈ sentinel :: nodes, other ≠ headNode nodes sentinel →
      links'.prev other = links.prev other) :
    Ring links' sentinel (node :: nodes) where
  segment := by
    refine ⟨first, ?_⟩
    cases nodes with
    | nil => exact second
    | cons head rest =>
      refine ⟨second, ring.segment.2.congr next fun other member => ?_⟩
      have distinct := ring.nodup
      simp only [List.nodup_cons, List.mem_cons, not_or] at distinct
      rcases List.mem_append.mp member with inRest | last
      · refine prev other (by simp [inRest]) fun same => ?_
        have isHead : other = head := same
        exact distinct.2.1 (isHead ▸ inRest)
      · rw [List.mem_singleton.mp last]
        exact prev sentinel List.mem_cons_self distinct.1.1
  nodup := by
    have distinct := ring.nodup
    simp only [List.nodup_cons, List.mem_cons, not_or] at distinct absent ⊢
    exact ⟨⟨Ne.symm absent.1, distinct.1⟩, absent.2, distinct.2⟩

/-- Unlinking a node. -/
theorem Ring.remove {sentinel node : Node} {before after : List Node}
    (ring : Ring links sentinel (before ++ node :: after))
    (link : Linked links' (lastNode sentinel before) (headNode after sentinel))
    (next : ∀ other ∈ sentinel :: (before ++ after), other ≠ lastNode sentinel before →
      links'.next other = links.next other)
    (prev : ∀ other ∈ sentinel :: (before ++ after), other ≠ headNode after sentinel →
      links'.prev other = links.prev other) :
    Ring links' sentinel (before ++ after) where
  segment := by
    obtain ⟨start, rest⟩ := Segment.append.mp ring.segment
    have nodup := ring.nodup
    rw [← List.cons_append, List.nodup_append] at nodup
    obtain ⟨nodupBefore, nodupAfter, disjoint⟩ := nodup
    have beforeNext : ∀ other ∈ sentinel :: before, other ≠ lastNode sentinel before →
        links'.next other = links.next other := by
      intro other member
      refine next other ?_
      rw [← List.cons_append]
      exact List.mem_append_left _ member
    cases after with
    | nil =>
      rw [List.append_nil]
      refine start.retarget nodupBefore beforeNext (fun other member => ?_) link
      refine prev other (by simp [member]) fun same => ?_
      have isSentinel : other = sentinel := same
      exact (List.nodup_cons.mp nodupBefore).1 (isSentinel ▸ member)
    | cons head rest' =>
      refine Segment.append.mpr ⟨start.retarget nodupBefore beforeNext (fun other member => ?_) link,
        rest.2.congr (fun other member => ?_) fun other member => ?_⟩
      · refine prev other (by simp [member]) fun same => ?_
        exact disjoint other (List.mem_cons_of_mem _ member) head (by simp) same
      · refine next other (by simp [List.mem_cons.mp member]) fun same => ?_
        exact disjoint _ (lastNode_mem sentinel before) other
          (List.mem_cons_of_mem _ member) same.symm
      · rcases List.mem_append.mp member with inRest | last
        · refine prev other (by simp [inRest]) fun same => ?_
          have distinct := (List.nodup_cons.mp (List.nodup_cons.mp nodupAfter).2).1
          have isHead : other = head := same
          exact distinct (isHead ▸ inRest)
        · rw [List.mem_singleton.mp last]
          refine prev sentinel List.mem_cons_self fun same => ?_
          exact disjoint sentinel List.mem_cons_self head (by simp) same
  nodup := ring.nodup.sublist (by simp)

end MiniSqlite.Std
