import MiniSqlite.Std.Fan
import MiniSqlite.Std.SortedMap

/-!
# Trees with entries in the leaves

Search trees whose leaves stand at one height, which the type says. The nodes carry labels, and
a node that is split keeps its own for the left half. A change goes to the leaf where the key
leads and comes back as one tree or, where nodes were split on the way up, as two with a key
between them. The lemmas say what a change of the leaves does to the entries, the order, the
number of children and the labels of a tree.
-/

namespace MiniSqlite.Std

/-- A leaf of a tree. -/
structure Leaf (ι κ ν : Type) where
  label : ι
  entries : List (κ × ν)

/-- A node over subtrees. -/
structure Node (ι κ τ : Type) where
  label : ι
  fan : Fan κ τ

/-- The trees of a height. -/
@[reducible] def SearchTree (ι κ ν : Type) : Nat → Type
  | 0 => Leaf ι κ ν
  | height + 1 => Node ι κ (SearchTree ι κ ν height)

/-- How many entries a leaf and how many keys a node may have. -/
structure Capacity where
  leaf : Nat
  inner : Nat

/-- The bounds of the keys below a node, where there are any. -/
abbrev Bound (κ : Type) := WithBot (WithTop κ)

/-- A key as a bound. -/
def bound {κ : Type} (key : κ) : Bound κ := ((key : WithTop κ) : WithBot (WithTop κ))

namespace SearchTree

variable {ι κ ν : Type}

/-- A tree that is a leaf. -/
@[match_pattern] abbrev leaf (label : ι) (entries : List (κ × ν)) : SearchTree ι κ ν 0 :=
  Leaf.mk label entries

/-- A tree with a root over subtrees. -/
@[match_pattern] abbrev node {height : Nat} (label : ι) (fan : Fan κ (SearchTree ι κ ν height)) :
    SearchTree ι κ ν (height + 1) :=
  Node.mk label fan

def label : {height : Nat} → SearchTree ι κ ν height → ι
  | 0, .leaf label _ => label
  | _ + 1, .node label _ => label

/-- The leaves from left to right. -/
def leaves : {height : Nat} → SearchTree ι κ ν height → List (ι × List (κ × ν))
  | 0, .leaf label entries => [(label, entries)]
  | _ + 1, .node _ fan => fan.children.flatMap leaves

/-- The labels of all nodes. -/
def labels : {height : Nat} → SearchTree ι κ ν height → List ι
  | 0, .leaf label _ => [label]
  | _ + 1, .node label fan => label :: fan.children.flatMap labels

/-- The label of the leftmost leaf. -/
def firstLeaf : {height : Nat} → SearchTree ι κ ν height → ι
  | 0, .leaf label _ => label
  | _ + 1, .node _ fan => fan.first.firstLeaf

/-- The entries from left to right. -/
def entries {height : Nat} (tree : SearchTree ι κ ν height) : List (κ × ν) :=
  tree.leaves.flatMap Prod.snd

/-- No node has more than it may, and none but the root fewer keys than half of that. -/
def Filled (capacity : Capacity) : {height : Nat} → (least : Nat) → SearchTree ι κ ν height → Prop
  | 0, _, .leaf _ entries => entries.length ≤ capacity.leaf
  | _ + 1, least, .node _ fan =>
      least ≤ fan.rest.length ∧ fan.rest.length ≤ capacity.inner ∧
        ∀ child ∈ fan.children, child.Filled capacity (capacity.inner / 2)

/-- How many children each node has, the root first. -/
def arities : {height : Nat} → SearchTree ι κ ν height → List Nat
  | 0, .leaf _ _ => []
  | _ + 1, .node _ fan => fan.children.length :: fan.children.flatMap arities

/-! ## Changes -/

/-- A leaf, split when it is over capacity. -/
def divideLeaf (capacity : Nat) (fresh label : ι) (entries : List (κ × ν)) :
    Fan κ (SearchTree ι κ ν 0) :=
  if entries.length ≤ capacity then .single (.leaf label entries)
  else
    match entries.drop (entries.length / 2) with
    | [] => .single (.leaf label entries)
    | entry :: rest =>
        ⟨.leaf label (entries.take (entries.length / 2)),
          [(entry.1, .leaf fresh (entry :: rest))]⟩

/-- A node, split when it is over capacity; its middle key goes up. -/
def divide {height : Nat} (capacity : Nat) (fresh label : ι)
    (fan : Fan κ (SearchTree ι κ ν height)) : Fan κ (SearchTree ι κ ν (height + 1)) :=
  if fan.rest.length ≤ capacity then .single (.node label fan)
  else
    match fan.halve with
    | none => .single (.node label fan)
    | some (left, key, right) => ⟨.node label left, [(key, .node fresh right)]⟩

/-- A tree under a root, where it was split. -/
structure Rooted (ι κ ν : Type) where
  height : Nat
  tree : SearchTree ι κ ν height

/-- A new root over what was split. -/
def Rooted.over {height : Nat} (fresh : ι) (fan : Fan κ (SearchTree ι κ ν height)) :
    Rooted ι κ ν :=
  match fan.rest with
  | [] => ⟨height, fan.first⟩
  | _ :: _ => ⟨height + 1, .node fresh fan⟩

section Changes

variable [LinearOrder κ]

/-- A change of the leaf where a key leads. The new node of each height has its own label. -/
def change (capacity : Capacity) (fresh : Nat → ι) (key : κ)
    (act : ι → List (κ × ν) → Fan κ (SearchTree ι κ ν 0)) :
    {height : Nat} → SearchTree ι κ ν height → Fan κ (SearchTree ι κ ν height)
  | 0, .leaf label entries => act label entries
  | height + 1, .node label fan =>
      divide capacity.inner (fresh (height + 1)) label
        ((fan.locate key).fill (change capacity fresh key act (fan.locate key).child))

/-- The number of nodes that such a change splits. -/
def splits (capacity : Capacity) (fresh : Nat → ι) (key : κ)
    (act : ι → List (κ × ν) → Fan κ (SearchTree ι κ ν 0)) :
    {height : Nat} → SearchTree ι κ ν height → Nat
  | 0, .leaf label entries => (act label entries).rest.length
  | _ + 1, .node label fan =>
      splits capacity fresh key act (fan.locate key).child +
        (change capacity fresh key act (node label fan)).rest.length

/-- Stores a value under a key in a leaf. -/
def putLeaf (capacity : Capacity) (fresh : ι) (key : κ) (value : ν) (label : ι)
    (entries : List (κ × ν)) : Fan κ (SearchTree ι κ ν 0) :=
  divideLeaf capacity.leaf fresh label (upsert key value entries)

/-- Removes a key from a leaf. -/
def eraseLeaf (key : κ) (label : ι) (entries : List (κ × ν)) : Fan κ (SearchTree ι κ ν 0) :=
  .single (.leaf label (eraseKey key entries))

/-- The tree with a value stored under a key. -/
def Rooted.put (capacity : Capacity) (fresh : Nat → ι) (key : κ) (value : ν)
    (rooted : Rooted ι κ ν) : Rooted ι κ ν :=
  .over (fresh (rooted.height + 1))
    (rooted.tree.change capacity fresh key (putLeaf capacity (fresh 0) key value))

/-- The number of labels that this takes: one for each split, and one for a new root. -/
def Rooted.putTakes (capacity : Capacity) (fresh : Nat → ι) (key : κ) (value : ν)
    (rooted : Rooted ι κ ν) : Nat :=
  rooted.tree.splits capacity fresh key (putLeaf capacity (fresh 0) key value) +
    (rooted.tree.change capacity fresh key (putLeaf capacity (fresh 0) key value)).rest.length

/-- The tree without a key. -/
def Rooted.erase (capacity : Capacity) (fresh : Nat → ι) (key : κ) (rooted : Rooted ι κ ν) :
    Rooted ι κ ν :=
  .over (fresh (rooted.height + 1)) (rooted.tree.change capacity fresh key (eraseLeaf key))

/-- The leaf where a key leads. -/
def leafOf (key : κ) : {height : Nat} → SearchTree ι κ ν height → ι × List (κ × ν)
  | 0, .leaf label entries => (label, entries)
  | _ + 1, .node _ fan => leafOf key (fan.locate key).child

/-- The way to that leaf: the nodes and the positions of the children, the last first. -/
def pathOf (key : κ) : {height : Nat} → SearchTree ι κ ν height → List (ι × Nat)
  | 0, .leaf _ _ => []
  | _ + 1, .node label fan =>
      pathOf key (fan.locate key).child ++ [(label, (fan.locate key).before.length)]

/-- The keys of each node and leaf increase, and lie between the keys around it. -/
def Ordered : {height : Nat} → (low high : Bound κ) → SearchTree ι κ ν height → Prop
  | 0, low, high, .leaf _ entries =>
      low < high ∧ SortedKeys entries ∧
        ∀ entry ∈ entries, low ≤ bound entry.1 ∧ bound entry.1 < high
  | _ + 1, low, high, .node _ fan =>
      fan.Chained (fun entry => bound entry.1) Ordered low high

/-- The keys of each node and of each leaf increase. -/
def Sorted : {height : Nat} → SearchTree ι κ ν height → Prop
  | 0, .leaf _ entries => SortedKeys entries
  | _ + 1, .node _ fan => fan.keys.Pairwise (· < ·) ∧ ∀ child ∈ fan.children, child.Sorted

end Changes

/-! ## Splits -/

section Splits

variable {height capacity : Nat} {fresh label : ι}

/-- A node stays as it is, or its middle key is taken out. -/
theorem divide_cases (capacity : Nat) (fresh label : ι) (fan : Fan κ (SearchTree ι κ ν height)) :
    (fan.rest.length ≤ capacity ∧ divide capacity fresh label fan = .single (node label fan)) ∨
      ∃ left key right, capacity < fan.rest.length ∧
        fan = ⟨left.first, left.rest ++ (key, right.first) :: right.rest⟩ ∧
        left.rest.length = fan.rest.length / 2 ∧
        divide capacity fresh label fan = ⟨node label left, [(key, node fresh right)]⟩ := by
  by_cases fits : fan.rest.length ≤ capacity
  · exact .inl ⟨fits, if_pos fits⟩
  · obtain ⟨left, key, right, halved, shape, half⟩ := fan.halve_eq (by omega)
    refine .inr ⟨left, key, right, by omega, shape, half, ?_⟩
    rw [divide, if_neg fits, halved]

theorem divideLeaf_cases (capacity : Nat) (fresh label : ι) (entries : List (κ × ν)) :
    (entries.length ≤ capacity ∧
        divideLeaf capacity fresh label entries = .single (leaf label entries)) ∨
      ∃ left entry right, capacity < entries.length ∧ entries = left ++ entry :: right ∧
        left.length = entries.length / 2 ∧
        divideLeaf capacity fresh label entries =
          ⟨leaf label left, [(entry.1, leaf fresh (entry :: right))]⟩ := by
  by_cases fits : entries.length ≤ capacity
  · exact .inl ⟨fits, if_pos fits⟩
  · have half : entries.length / 2 < entries.length := by omega
    have dropped := List.drop_eq_getElem_cons half
    refine .inr ⟨entries.take (entries.length / 2), entries[entries.length / 2],
      entries.drop (entries.length / 2 + 1), by omega, ?_, ?_, ?_⟩
    · rw [← dropped, List.take_append_drop]
    · rw [List.length_take]
      omega
    · rw [divideLeaf, if_neg fits, dropped]

/-- The children on both sides of the middle key. -/
theorem children_halves {τ : Type} (left right : Fan κ τ) (key : κ) :
    (⟨left.first, left.rest ++ (key, right.first) :: right.rest⟩ : Fan κ τ).children =
      left.children ++ right.children := by
  simp [Fan.children]

end Splits

/-! ## Entries -/

section Entries

variable {height : Nat}

@[simp] theorem entries_leaf (label : ι) (entries : List (κ × ν)) :
    (leaf label entries).entries = entries := List.append_nil _

@[simp] theorem entries_node (label : ι) (fan : Fan κ (SearchTree ι κ ν height)) :
    (node label fan).entries = fan.children.flatMap entries := List.flatMap_assoc

theorem divide_entries (capacity : Nat) (fresh label : ι)
    (fan : Fan κ (SearchTree ι κ ν height)) :
    (divide capacity fresh label fan).children.flatMap entries =
      fan.children.flatMap entries := by
  rcases divide_cases capacity fresh label fan with
    ⟨_, whole⟩ | ⟨left, key, right, _, shape, _, halves⟩
  · rw [whole]
    simp
  · rw [halves, shape, children_halves]
    simp [Fan.children]

theorem divideLeaf_entries (capacity : Nat) (fresh label : ι) (entries : List (κ × ν)) :
    (divideLeaf capacity fresh label entries).children.flatMap SearchTree.entries = entries := by
  rcases divideLeaf_cases capacity fresh label entries with
    ⟨_, whole⟩ | ⟨left, entry, right, _, shape, _, halves⟩
  · rw [whole]
    simp
  · rw [halves]
    simp [Fan.children, shape]

/-- The entries of a fan with a child exchanged. -/
theorem fill_entries (place : Fan.Place κ (SearchTree ι κ ν height))
    (inner : Fan κ (SearchTree ι κ ν height)) :
    (place.fill inner).children.flatMap SearchTree.entries =
      (place.before.map Prod.fst).flatMap SearchTree.entries ++
        inner.children.flatMap SearchTree.entries ++
        (place.after.map Prod.snd).flatMap SearchTree.entries := by
  rw [Fan.Place.fill, Fan.children_between, List.flatMap_append, List.flatMap_append]

end Entries

/-! ## Order -/

section Order

variable [LinearOrder κ] {height : Nat} {low high : Bound κ} {key : κ}

@[simp] theorem bound_lt_bound {first second : κ} : bound first < bound second ↔ first < second := by
  rw [bound, bound, WithBot.coe_lt_coe, WithTop.coe_lt_coe]

@[simp] theorem bound_le_bound {first second : κ} : bound first ≤ bound second ↔ first ≤ second := by
  rw [bound, bound, WithBot.coe_le_coe, WithTop.coe_le_coe]

theorem Ordered.lt {tree : SearchTree ι κ ν height} (ordered : tree.Ordered low high) :
    low < high := by
  induction height generalizing low high with
  | zero => exact ordered.1
  | succ height ih =>
      have chained : tree.fan.Chained (fun entry => bound entry.1) Ordered low high := ordered
      exact (chained.sorted fun _ _ _ => ih).1

/-- The keys of a node increase, between its bounds. -/
theorem ordered_keys {fan : Fan κ (SearchTree ι κ ν height)}
    (ordered : fan.Chained (fun entry => bound entry.1) Ordered low high) :
    fan.keys.Pairwise (· < ·) ∧ ∀ key ∈ fan.keys, low < bound key ∧ bound key < high := by
  obtain ⟨_, sorted, within⟩ := ordered.sorted fun _ _ _ => Ordered.lt
  rw [List.pairwise_map] at sorted
  refine ⟨List.pairwise_map.mpr (sorted.imp bound_lt_bound.mp), fun key member => ?_⟩
  obtain ⟨entry, stored, same⟩ := List.mem_map.mp member
  exact same ▸ within _ (List.mem_map_of_mem stored)

/-- The entries of a tree lie between its bounds, and increase. -/
theorem Ordered.entries {tree : SearchTree ι κ ν height} (ordered : tree.Ordered low high) :
    SortedKeys tree.entries ∧
      ∀ entry ∈ tree.entries, low ≤ bound entry.1 ∧ bound entry.1 < high := by
  induction height generalizing low high with
  | zero =>
      obtain ⟨label, entries⟩ := tree
      rw [entries_leaf]
      exact ordered.2
  | succ height ih =>
      obtain ⟨label, first, rest⟩ := tree
      rw [entries_node]
      induction rest generalizing low first with
      | nil =>
          rw [show (⟨first, []⟩ : Fan κ (SearchTree ι κ ν height)).children = [first] from rfl,
            List.flatMap_singleton]
          exact ih ordered
      | cons entry rest inner =>
          obtain ⟨here, behind⟩ := ordered
          obtain ⟨sorted, within⟩ := ih here
          obtain ⟨sortedBehind, withinBehind⟩ := inner _ behind
          have below := here.lt
          have chained : (⟨entry.2, rest⟩ : Fan κ (SearchTree ι κ ν height)).Chained
              (fun entry => bound entry.1) Ordered (bound entry.1) high := behind
          have above := (chained.sorted fun _ _ _ => Ordered.lt).1
          rw [Fan.children, List.map_cons, List.flatMap_cons]
          refine ⟨List.pairwise_append.mpr ⟨sorted, sortedBehind, fun left inFirst right inRest => ?_⟩,
            fun other member => ?_⟩
          · exact bound_lt_bound.mp (lt_of_lt_of_le (within left inFirst).2 (withinBehind right inRest).1)
          · rcases List.mem_append.mp member with inFirst | inRest
            · exact ⟨(within other inFirst).1, lt_trans (within other inFirst).2 above⟩
            · exact ⟨le_trans (le_of_lt below) (withinBehind other inRest).1,
                (withinBehind other inRest).2⟩

theorem Ordered.sorted {tree : SearchTree ι κ ν height} (ordered : tree.Ordered low high) :
    tree.Sorted := by
  induction height generalizing low high with
  | zero => exact ordered.2.1
  | succ height ih =>
      obtain ⟨label, fan⟩ := tree
      have chained : fan.Chained (fun entry => bound entry.1) Ordered low high := ordered
      refine ⟨(ordered_keys chained).1, fun child member => ?_⟩
      obtain ⟨_, _, below⟩ := chained.of_mem child member
      exact ih below

/-- The child where a key leads has bounds around the key, anything in order between these may
stand there, and the entries beside it have smaller and larger keys. -/
theorem ordered_locate {fan : Fan κ (SearchTree ι κ ν height)}
    (ordered : fan.Chained (fun entry => bound entry.1) Ordered low high)
    (above : low ≤ bound key) (below : bound key < high) :
    ∃ first second, (fan.locate key).child.Ordered first second ∧
      first ≤ bound key ∧ bound key < second ∧
      (∀ inner : Fan κ (SearchTree ι κ ν height),
        inner.Chained (fun entry => bound entry.1) Ordered first second →
          ((fan.locate key).fill inner).Chained (fun entry => bound entry.1) Ordered low high) ∧
      (∀ entry ∈ ((fan.locate key).before.map Prod.fst).flatMap SearchTree.entries,
        entry.1 < key) ∧
      ∀ entry ∈ ((fan.locate key).after.map Prod.snd).flatMap SearchTree.entries,
        key < entry.1 := by
  have filled := ordered
  rw [← fan.fill_locate key, Fan.Place.fill] at filled
  obtain ⟨before_le, after_gt⟩ := fan.locate_around key
  obtain ⟨first, second, child, left, right, exchange⟩ := filled.exchange
  refine ⟨first, second, child, ?_, ?_, fun inner chained => ?_, fun entry member => ?_,
    fun entry member => ?_⟩
  · rcases left with ⟨rfl, _⟩ | ⟨other, member, rfl⟩
    · exact above
    · exact bound_le_bound.mpr (before_le other member)
  · rcases right with ⟨rfl, _⟩ | ⟨entry, next, rfl⟩
    · exact below
    · exact bound_lt_bound.mpr (after_gt entry next)
  · exact exchange Ordered inner (fun _ => rfl) (fun _ _ _ _ same => same) chained
  · obtain ⟨tree, stands, stored⟩ := List.mem_flatMap.mp member
    obtain ⟨pair, paired, rfl⟩ := List.mem_map.mp stands
    obtain ⟨_, treeOrdered⟩ := filled.of_mem_before pair paired
    have inside := (treeOrdered.entries.2 entry stored).2
    exact lt_of_lt_of_le (bound_lt_bound.mp inside)
      (before_le pair.2 (List.mem_map_of_mem paired))
  · obtain ⟨tree, stands, stored⟩ := List.mem_flatMap.mp member
    obtain ⟨pair, paired, rfl⟩ := List.mem_map.mp stands
    obtain ⟨_, treeOrdered⟩ :=
      Fan.Chained.of_mem_rest filled pair (Fan.mem_rest_of_mem_after paired)
    have inside := bound_le_bound.mp (treeOrdered.entries.2 entry stored).1
    refine lt_of_lt_of_le ?_ inside
    have sorted := (ordered_keys filled).1
    rw [Fan.keys_between] at sorted
    have tail := (List.pairwise_append.mp sorted).2.1
    cases after : (fan.locate key).after with
    | nil =>
        rw [after] at paired
        cases paired
    | cons next rest =>
        have least : key < next.1 := after_gt next (by rw [after]; rfl)
        rw [after] at paired tail
        rcases List.mem_cons.mp paired with here | later
        · exact here ▸ least
        · exact lt_trans least
            ((List.pairwise_cons.mp tail).1 pair.1 (List.mem_map_of_mem later))

/-- The entries of a node, around those of the child where a key leads. -/
theorem locate_entries (key : κ) (fan : Fan κ (SearchTree ι κ ν height)) :
    fan.children.flatMap SearchTree.entries =
      ((fan.locate key).before.map Prod.fst).flatMap SearchTree.entries ++
        (fan.locate key).child.entries ++
        ((fan.locate key).after.map Prod.snd).flatMap SearchTree.entries := by
  have filled := fill_entries (fan.locate key) (.single (fan.locate key).child)
  rw [fan.fill_locate, Fan.children_single, List.flatMap_singleton] at filled
  exact filled

/-- The leaf where a key leads is in order and answers for the tree. -/
theorem Ordered.leafOf {tree : SearchTree ι κ ν height} (ordered : tree.Ordered low high)
    (above : low ≤ bound key) (below : bound key < high) :
    SortedKeys (tree.leafOf key).2 ∧
      tree.entries.lookup key = (tree.leafOf key).2.lookup key := by
  induction height generalizing low high with
  | zero =>
      obtain ⟨label, entries⟩ := tree
      rw [entries_leaf]
      exact ⟨ordered.2.1, rfl⟩
  | succ height ih =>
      obtain ⟨label, fan⟩ := tree
      obtain ⟨first, second, child, belowKey, aboveKey, _, smaller, larger⟩ :=
        ordered_locate ordered above below
      obtain ⟨sorted, answers⟩ := ih child belowKey aboveKey
      refine ⟨sorted, ?_⟩
      rw [entries_node, locate_entries key, lookup_local _ smaller larger]
      exact answers

/-- The leaf where a key leads stands between leaves with smaller and with larger keys. -/
theorem Ordered.leaves_around {tree : SearchTree ι κ ν height} (ordered : tree.Ordered low high)
    (above : low ≤ bound key) (below : bound key < high) :
    ∃ front behind, tree.leaves = front ++ tree.leafOf key :: behind ∧
      (∀ entry ∈ front.flatMap Prod.snd, entry.1 < key) ∧
      ∀ entry ∈ behind.flatMap Prod.snd, key < entry.1 := by
  induction height generalizing low high with
  | zero =>
      obtain ⟨label, entries⟩ := tree
      exact ⟨[], [], rfl, fun _ member => absurd member (by simp),
        fun _ member => absurd member (by simp)⟩
  | succ height ih =>
      obtain ⟨label, fan⟩ := tree
      obtain ⟨first, second, child, belowKey, aboveKey, _, smaller, larger⟩ :=
        ordered_locate ordered above below
      obtain ⟨front, behind, split, smallerBelow, largerBelow⟩ := ih child belowKey aboveKey
      have children := congrArg Fan.children (fan.fill_locate key)
      rw [Fan.Place.fill, Fan.children_between, Fan.children_single] at children
      refine ⟨((fan.locate key).before.map Prod.fst).flatMap leaves ++ front,
        behind ++ ((fan.locate key).after.map Prod.snd).flatMap leaves, ?_, ?_, ?_⟩
      · rw [leaves, ← children, List.flatMap_append, List.flatMap_append, List.flatMap_singleton,
          split]
        simp [SearchTree.leafOf]
      · rw [List.flatMap_append, List.flatMap_assoc]
        intro entry member
        rcases List.mem_append.mp member with before | within
        · exact smaller entry before
        · exact smallerBelow entry within
      · rw [List.flatMap_append, List.flatMap_assoc]
        intro entry member
        rcases List.mem_append.mp member with within | after
        · exact largerBelow entry within
        · exact larger entry after

/-! ## What a change does to the entries -/

variable {capacity : Capacity} {fresh : Nat → ι}
variable {act : ι → List (κ × ν) → Fan κ (SearchTree ι κ ν 0)}
variable {operation : List (κ × ν) → List (κ × ν)}

/-- A local operation on the leaf where a key leads is that operation on the tree. -/
theorem change_entries {tree : SearchTree ι κ ν height} (ordered : tree.Ordered low high)
    (above : low ≤ bound key) (below : bound key < high) (acts : ActsLocally key operation)
    (realised : ∀ label entries,
      (act label entries).children.flatMap SearchTree.entries = operation entries) :
    (tree.change capacity fresh key act).children.flatMap SearchTree.entries =
      operation tree.entries := by
  induction height generalizing low high with
  | zero =>
      obtain ⟨label, entries⟩ := tree
      rw [entries_leaf]
      exact realised label entries
  | succ height ih =>
      obtain ⟨label, fan⟩ := tree
      obtain ⟨first, second, child, belowKey, aboveKey, _, smaller, larger⟩ :=
        ordered_locate ordered above below
      rw [change, divide_entries, fill_entries, ih child belowKey aboveKey, entries_node,
        locate_entries key, acts _ _ _ smaller larger]

theorem divide_ordered {fan : Fan κ (SearchTree ι κ ν height)} {most : Nat} {label new : ι}
    (ordered : fan.Chained (fun entry => bound entry.1) Ordered low high) :
    (divide most new label fan).Chained (fun entry => bound entry.1) Ordered low high := by
  rcases divide_cases most new label fan with
    ⟨_, whole⟩ | ⟨left, middle, right, _, shape, _, halves⟩
  · rw [whole]
    exact ordered
  · rw [halves]
    rw [shape] at ordered
    exact Fan.chained_append.mp ordered

/-- A change that keeps the order of the leaf keeps that of the tree. -/
theorem change_ordered {tree : SearchTree ι κ ν height} (ordered : tree.Ordered low high)
    (above : low ≤ bound key) (below : bound key < high)
    (keeps : ∀ label entries (first second : Bound κ),
      (leaf label entries).Ordered first second → first ≤ bound key → bound key < second →
      (act label entries).Chained (fun entry => bound entry.1) Ordered first second) :
    (tree.change capacity fresh key act).Chained (fun entry => bound entry.1) Ordered low high := by
  induction height generalizing low high with
  | zero =>
      obtain ⟨label, entries⟩ := tree
      exact keeps label entries low high ordered above below
  | succ height ih =>
      obtain ⟨label, fan⟩ := tree
      obtain ⟨first, second, child, belowKey, aboveKey, exchange, _, _⟩ :=
        ordered_locate ordered above below
      exact divide_ordered (exchange _ (ih child belowKey aboveKey))

/-- A leaf is split between increasing keys. -/
theorem divideLeaf_ordered {most : Nat} {new label : ι} {entries : List (κ × ν)}
    (room : 0 < most) (ordered : (leaf label entries).Ordered low high) :
    (divideLeaf most new label entries).Chained (fun entry => bound entry.1) Ordered low high := by
  rcases divideLeaf_cases most new label entries with
    ⟨_, whole⟩ | ⟨left, middle, right, exceeds, shape, half, halves⟩
  · rw [whole]
    exact ordered
  · rw [halves]
    obtain ⟨_, sorted, within⟩ := ordered
    rw [shape] at sorted within
    obtain ⟨sortedLeft, sortedRight, across⟩ := List.pairwise_append.mp sorted
    obtain ⟨least, _⟩ := List.pairwise_cons.mp sortedRight
    have inMiddle := within middle (List.mem_append_right _ List.mem_cons_self)
    have nonempty : left ≠ [] := by
      rintro rfl
      rw [List.length_nil] at half
      omega
    obtain ⟨start, rest, rfl⟩ := List.exists_cons_of_ne_nil nonempty
    have started := across start List.mem_cons_self middle List.mem_cons_self
    refine ⟨⟨lt_of_le_of_lt (within start List.mem_cons_self).1 (bound_lt_bound.mpr started),
      sortedLeft, fun entry member => ⟨?_, ?_⟩⟩, inMiddle.2, sortedRight, fun entry member => ?_⟩
    · exact (within entry (List.mem_append_left _ member)).1
    · exact bound_lt_bound.mpr (across entry member middle List.mem_cons_self)
    · refine ⟨?_, (within entry (List.mem_append_right _ member)).2⟩
      rcases List.mem_cons.mp member with here | later
      · exact here ▸ le_refl _
      · exact bound_le_bound.mpr (le_of_lt (least entry later))

end Order

/-! ## Sizes -/

section Sizes

variable {height : Nat} {capacity : Capacity} {least : Nat}

/-- One tree that is filled as its root was, or two that are filled as inner trees are. -/
def GrownTo (capacity : Capacity) (least : Nat) (fan : Fan κ (SearchTree ι κ ν height)) : Prop :=
  (∃ tree, fan = .single tree ∧ tree.Filled capacity least) ∨
    ∃ left key right, fan = ⟨left, [(key, right)]⟩ ∧
      left.Filled capacity (capacity.inner / 2) ∧ right.Filled capacity (capacity.inner / 2)

theorem GrownTo.children {fan : Fan κ (SearchTree ι κ ν height)}
    (grown : GrownTo capacity (capacity.inner / 2) fan) :
    fan.rest.length ≤ 1 ∧ ∀ child ∈ fan.children, child.Filled capacity (capacity.inner / 2) := by
  rcases grown with ⟨tree, rfl, filled⟩ | ⟨left, key, right, rfl, leftFilled, rightFilled⟩
  · refine ⟨Nat.zero_le _, fun child member => ?_⟩
    exact List.mem_singleton.mp member ▸ filled
  · refine ⟨Nat.le_refl _, fun child member => ?_⟩
    rcases List.mem_cons.mp member with here | later
    · exact here ▸ leftFilled
    · exact List.mem_singleton.mp later ▸ rightFilled

/-- A node with at most one key too many. -/
theorem divide_grown {fan : Fan κ (SearchTree ι κ ν height)} {fresh label : ι}
    (enough : least ≤ fan.rest.length) (most : fan.rest.length ≤ capacity.inner + 1)
    (filled : ∀ child ∈ fan.children, child.Filled capacity (capacity.inner / 2)) :
    GrownTo capacity least (divide capacity.inner fresh label fan) := by
  rcases divide_cases capacity.inner fresh label fan with
    ⟨fits, whole⟩ | ⟨left, key, right, exceeds, shape, half, halves⟩
  · exact .inl ⟨_, whole, enough, fits, filled⟩
  · have lengths : fan.rest.length = left.rest.length + (right.rest.length + 1) := by
      rw [congrArg Fan.rest shape, List.length_append, List.length_cons]
    rw [shape, children_halves] at filled
    refine .inr ⟨_, _, _, halves, ⟨by omega, by omega, fun child member => ?_⟩,
      by omega, by omega, fun child member => ?_⟩
    · exact filled child (List.mem_append_left _ member)
    · exact filled child (List.mem_append_right _ member)

theorem divideLeaf_grown {fresh label : ι} {entries : List (κ × ν)}
    (most : entries.length ≤ capacity.leaf + 1) (room : 0 < capacity.leaf) :
    GrownTo capacity least (divideLeaf capacity.leaf fresh label entries) := by
  rcases divideLeaf_cases capacity.leaf fresh label entries with
    ⟨fits, whole⟩ | ⟨left, entry, right, exceeds, shape, half, halves⟩
  · exact .inl ⟨_, whole, fits⟩
  · have lengths := congrArg List.length shape
    rw [List.length_append, List.length_cons] at lengths
    refine .inr ⟨_, _, _, halves, ?_, ?_⟩
    · show left.length ≤ capacity.leaf
      omega
    · show right.length + 1 ≤ capacity.leaf
      omega

/-- A node has as many nodes below it as its least number of children promises. -/
theorem Filled.length_labels {fan : Fan κ (SearchTree ι κ ν height)} {label : ι}
    (filled : (node label fan).Filled capacity least) :
    (least + 1) * (capacity.inner / 2 + 1) ^ height ≤ (node label fan).labels.length := by
  induction height generalizing least label with
  | zero =>
      have counted : (node label fan).labels.length = fan.rest.length + 1 + 1 := by
        rw [labels, List.length_cons, ← fan.length_children]
        congr 1
        exact List.length_flatMap.trans (by simp [labels])
      rw [counted, Nat.pow_zero, Nat.mul_one]
      exact Nat.le_trans (Nat.succ_le_succ filled.1) (Nat.le_succ _)
  | succ height ih =>
      have each : ∀ child ∈ fan.children,
          (capacity.inner / 2 + 1) ^ (height + 1) ≤ (labels child).length := by
        intro child member
        rw [Nat.pow_succ']
        obtain ⟨label, below⟩ := child
        exact ih (filled.2.2 _ member)
      have total : (fan.children.map fun _ => (capacity.inner / 2 + 1) ^ (height + 1)).sum ≤
          (fan.children.map fun child => (labels child).length).sum := List.sum_le_sum each
      rw [List.map_const', List.sum_replicate, Fan.length_children, smul_eq_mul] at total
      have counted : (node label fan).labels.length =
          (fan.children.map fun child => (labels child).length).sum + 1 := by
        rw [labels, List.length_cons, List.length_flatMap]
      calc
        (least + 1) * (capacity.inner / 2 + 1) ^ (height + 1)
          ≤ (fan.rest.length + 1) * (capacity.inner / 2 + 1) ^ (height + 1) :=
            Nat.mul_le_mul_right _ (Nat.succ_le_succ filled.1)
        _ ≤ (fan.children.map fun child => (labels child).length).sum := total
        _ ≤ (node label fan).labels.length := by
            rw [counted]
            exact Nat.le_succ _

theorem Filled.arities {tree : SearchTree ι κ ν height}
    (filled : tree.Filled capacity (capacity.inner / 2)) :
    ∀ arity ∈ tree.arities, capacity.inner / 2 + 1 ≤ arity := by
  induction height with
  | zero => exact fun _ member => absurd member List.not_mem_nil
  | succ height ih =>
      obtain ⟨label, fan⟩ := tree
      intro arity member
      rcases List.mem_cons.mp member with here | below
      · rw [here, Fan.length_children]
        exact Nat.succ_le_succ filled.1
      · obtain ⟨child, stands, inside⟩ := List.mem_flatMap.mp below
        exact ih (filled.2.2 child stands) arity inside

/-- Every node below the root has more than half of the children it may have. -/
theorem Filled.arities_tail {tree : SearchTree ι κ ν height} (filled : tree.Filled capacity least) :
    ∀ arity ∈ tree.arities.tail, capacity.inner / 2 + 1 ≤ arity := by
  cases height with
  | zero => exact fun _ member => absurd member List.not_mem_nil
  | succ height =>
      obtain ⟨label, fan⟩ := tree
      intro arity member
      obtain ⟨child, stands, inside⟩ := List.mem_flatMap.mp member
      exact (filled.2.2 child stands).arities arity inside

section Changed

variable [LinearOrder κ] {fresh : Nat → ι} {key : κ}
variable {act : ι → List (κ × ν) → Fan κ (SearchTree ι κ ν 0)}

theorem fill_children_filled {fan inner : Fan κ (SearchTree ι κ ν height)}
    (filled : ∀ child ∈ fan.children, child.Filled capacity (capacity.inner / 2))
    (innerFilled : ∀ child ∈ inner.children, child.Filled capacity (capacity.inner / 2)) :
    ∀ child ∈ ((fan.locate key).fill inner).children,
      child.Filled capacity (capacity.inner / 2) := by
  intro child member
  rw [Fan.Place.fill, Fan.children_between, List.append_assoc, List.mem_append,
    List.mem_append] at member
  rcases member with before | inside | after
  · exact filled child (Fan.locate_others_mem (List.mem_append_left _ before))
  · exact innerFilled child inside
  · exact filled child (Fan.locate_others_mem (List.mem_append_right _ after))

theorem length_fill_locate (key : κ) (fan inner : Fan κ (SearchTree ι κ ν height)) :
    ((fan.locate key).fill inner).rest.length = fan.rest.length + inner.rest.length := by
  have whole := congrArg (List.length ∘ Fan.rest) (fan.fill_locate key)
  simp only [Function.comp_apply, Fan.Place.fill, Fan.length_between, Fan.single,
    List.length_nil] at whole
  rw [Fan.Place.fill, Fan.length_between]
  omega

/-- A change that adds one entry at most adds one child at most to each node. -/
theorem change_grown {tree : SearchTree ι κ ν height} (filled : tree.Filled capacity least)
    (grows : ∀ label entries most, entries.length ≤ capacity.leaf →
      GrownTo capacity most (act label entries)) :
    GrownTo capacity least (tree.change capacity fresh key act) := by
  induction height generalizing least with
  | zero =>
      obtain ⟨label, entries⟩ := tree
      exact grows label entries least filled
  | succ height ih =>
      obtain ⟨label, fan⟩ := tree
      obtain ⟨enough, most, children⟩ := filled
      obtain ⟨short, grown⟩ := (ih (children _ (fan.locate_child_mem key))).children
      have length := length_fill_locate key fan
        ((fan.locate key).child.change capacity fresh key act)
      apply divide_grown
      · omega
      · omega
      · exact fill_children_filled children grown

theorem Filled.leafOf {tree : SearchTree ι κ ν height} (filled : tree.Filled capacity least)
    (key : κ) : (tree.leafOf key).2.length ≤ capacity.leaf := by
  induction height generalizing least with
  | zero => exact filled
  | succ height ih => exact ih (filled.2.2 _ (Fan.locate_child_mem key _))

/-- A change that leaves the leaf whole leaves the tree whole. -/
theorem change_single {tree : SearchTree ι κ ν height} (filled : tree.Filled capacity least)
    {changed : SearchTree ι κ ν 0}
    (whole : act (tree.leafOf key).1 (tree.leafOf key).2 = .single changed) :
    (∃ after, tree.change capacity fresh key act = .single after) ∧
      tree.splits capacity fresh key act = 0 := by
  induction height generalizing least with
  | zero =>
      obtain ⟨label, entries⟩ := tree
      refine ⟨⟨changed, whole⟩, ?_⟩
      exact congrArg (fun fan => fan.rest.length) whole
  | succ height ih =>
      obtain ⟨label, fan⟩ := tree
      obtain ⟨_, most, children⟩ := filled
      obtain ⟨⟨after, same⟩, none⟩ := ih (children _ (fan.locate_child_mem key)) whole
      have one : (node label fan).change capacity fresh key act =
          .single (node label ((fan.locate key).fill (.single after))) := by
        rw [change, same]
        refine if_pos ?_
        rw [length_fill_locate]
        exact most
      refine ⟨⟨_, one⟩, ?_⟩
      rw [splits, one, none]
      rfl

end Changed

end Sizes

/-! ## Labels -/

section Labels

variable {height : Nat} {capacity : Capacity}

theorem firstLeaf_node (label : ι) (fan : Fan κ (SearchTree ι κ ν height)) :
    (node label fan).firstLeaf = fan.first.firstLeaf := rfl

theorem label_mem_labels (tree : SearchTree ι κ ν height) : tree.label ∈ tree.labels := by
  cases height with
  | zero => exact List.mem_singleton.mpr rfl
  | succ height => exact List.mem_cons_self

/-- The leaves are nodes. -/
theorem leaves_labels (tree : SearchTree ι κ ν height) :
    (tree.leaves.map Prod.fst).Sublist tree.labels := by
  induction height with
  | zero => exact List.Sublist.refl _
  | succ height ih =>
      obtain ⟨label, fan⟩ := tree
      rw [leaves, labels, List.map_flatMap]
      exact (List.Sublist.flatMap_right _ fun child _ => ih child).cons label

/-- The first tree keeps the label of the root. -/
theorem divide_first (most : Nat) (fresh label : ι) (fan : Fan κ (SearchTree ι κ ν height)) :
    (divide most fresh label fan).first.label = label ∧
      (divide most fresh label fan).first.firstLeaf = fan.first.firstLeaf := by
  rcases divide_cases most fresh label fan with
    ⟨_, whole⟩ | ⟨left, key, right, _, shape, _, halves⟩
  · rw [whole]
    exact ⟨rfl, rfl⟩
  · rw [halves, congrArg Fan.first shape]
    exact ⟨rfl, rfl⟩

/-- A split adds the fresh label. -/
theorem divide_labels (most : Nat) (fresh label : ι) (fan : Fan κ (SearchTree ι κ ν height)) :
    ((divide most fresh label fan).rest = [] ∧
        (divide most fresh label fan).children.flatMap labels =
          label :: fan.children.flatMap labels) ∨
      (most < fan.rest.length ∧ (divide most fresh label fan).rest.length = 1 ∧
        ((divide most fresh label fan).children.flatMap labels).Perm
          (fresh :: label :: fan.children.flatMap labels)) := by
  rcases divide_cases most fresh label fan with
    ⟨_, whole⟩ | ⟨left, key, right, exceeds, shape, _, halves⟩
  · rw [whole]
    refine .inl ⟨rfl, ?_⟩
    rw [Fan.children_single, List.flatMap_singleton, labels]
  · rw [halves]
    refine .inr ⟨exceeds, rfl, ?_⟩
    have childrenLabels : fan.children.flatMap labels =
        left.children.flatMap labels ++ right.children.flatMap labels := by
      rw [shape, children_halves, List.flatMap_append]
    have halvesLabels : (⟨node label left, [(key, node fresh right)]⟩ :
        Fan κ (SearchTree ι κ ν (height + 1))).children.flatMap labels =
          label :: left.children.flatMap labels ++ fresh :: right.children.flatMap labels := by
      simp [Fan.children, labels]
    rw [halvesLabels, childrenLabels]
    exact List.perm_middle

/-- What a change of a leaf does to its label. -/
def LeafLabelled (fresh label : ι) (fan : Fan κ (SearchTree ι κ ν 0)) : Prop :=
  fan.first.label = label ∧
    (fan.rest = [] ∨ fan.rest.length = 1 ∧ fan.children.flatMap labels = [label, fresh])

theorem divideLeaf_labelled (most : Nat) (fresh label : ι) (entries : List (κ × ν)) :
    LeafLabelled fresh label (divideLeaf most fresh label entries) := by
  rcases divideLeaf_cases most fresh label entries with
    ⟨_, whole⟩ | ⟨left, entry, right, _, _, _, halves⟩
  · rw [whole]
    exact ⟨rfl, .inl rfl⟩
  · rw [halves]
    exact ⟨rfl, .inr ⟨rfl, rfl⟩⟩

variable [LinearOrder κ] {fresh : Nat → ι} {key : κ}
variable {act : ι → List (κ × ν) → Fan κ (SearchTree ι κ ν 0)}

theorem fill_first {fan inner : Fan κ (SearchTree ι κ ν height)}
    (label : inner.first.label = (fan.locate key).child.label)
    (firstLeaf : inner.first.firstLeaf = (fan.locate key).child.firstLeaf) :
    ((fan.locate key).fill inner).first.label = fan.first.label ∧
      ((fan.locate key).fill inner).first.firstLeaf = fan.first.firstLeaf := by
  have whole := congrArg Fan.first (fan.fill_locate key)
  rw [Fan.Place.fill] at whole ⊢
  cases before : (fan.locate key).before with
  | nil =>
      rw [before] at whole
      rw [← whole]
      exact ⟨label, firstLeaf⟩
  | cons entry rest =>
      rw [before] at whole
      rw [← whole]
      exact ⟨rfl, rfl⟩

/-- In a tree without repeated labels, neither has a child, and no other child has its labels. -/
theorem locate_nodup {fan : Fan κ (SearchTree ι κ ν height)}
    (nodup : (fan.children.flatMap labels).Nodup) (key : κ) :
    (fan.locate key).child.labels.Nodup ∧
      ∀ other ∈ (fan.locate key).others, ∀ id ∈ other.labels,
        id ∉ (fan.locate key).child.labels := by
  have whole := congrArg (fun fan => fan.children.flatMap labels) (fan.fill_locate key)
  simp only [Fan.Place.fill, Fan.children_between, List.flatMap_append, Fan.children_single,
    List.flatMap_singleton] at whole
  rw [← whole] at nodup
  obtain ⟨front, _, apart⟩ := List.nodup_append.mp nodup
  obtain ⟨_, child, behind⟩ := List.nodup_append.mp front
  refine ⟨child, fun other member id inside here => ?_⟩
  rcases List.mem_append.mp member with before | after
  · exact behind id (List.mem_flatMap.mpr ⟨other, before, inside⟩) id here rfl
  · exact apart id (List.mem_append_right _ here) id
      (List.mem_flatMap.mpr ⟨other, after, inside⟩) rfl

theorem length_pathOf (tree : SearchTree ι κ ν height) (key : κ) :
    (tree.pathOf key).length = height := by
  induction height with
  | zero => rfl
  | succ height ih =>
      obtain ⟨label, fan⟩ := tree
      rw [pathOf, List.length_append, List.length_singleton, ih]

theorem leafOf_mem_labels (tree : SearchTree ι κ ν height) (key : κ) :
    (tree.leafOf key).1 ∈ tree.labels := by
  induction height with
  | zero => exact List.mem_singleton.mpr rfl
  | succ height ih =>
      obtain ⟨label, fan⟩ := tree
      refine List.mem_cons_of_mem _ (List.mem_flatMap.mpr ⟨_, fan.locate_child_mem key, ?_⟩)
      exact ih (fan.locate key).child

/-- The first tree keeps the label of the root and the first leaf. -/
theorem change_first (tree : SearchTree ι κ ν height)
    (labelled : ∀ label entries, LeafLabelled (fresh 0) label (act label entries)) :
    (tree.change capacity fresh key act).first.label = tree.label ∧
      (tree.change capacity fresh key act).first.firstLeaf = tree.firstLeaf := by
  induction height with
  | zero =>
      obtain ⟨label, entries⟩ := tree
      have kept := (labelled label entries).1
      exact ⟨kept, kept⟩
  | succ height ih =>
      obtain ⟨label, fan⟩ := tree
      obtain ⟨childLabel, childLeaf⟩ := ih (fan.locate key).child
      obtain ⟨nodeLabel, nodeLeaf⟩ := divide_first capacity.inner (fresh (height + 1)) label
        ((fan.locate key).fill ((fan.locate key).child.change capacity fresh key act))
      exact ⟨nodeLabel, nodeLeaf.trans (fill_first childLabel childLeaf).2⟩

theorem fill_labels {fan inner : Fan κ (SearchTree ι κ ν height)} {added : List ι}
    (grown : (inner.children.flatMap labels).Perm (added ++ (fan.locate key).child.labels)) :
    (((fan.locate key).fill inner).children.flatMap labels).Perm
      (added ++ fan.children.flatMap labels) := by
  have whole := congrArg (fun fan => fan.children.flatMap labels) (fan.fill_locate key)
  simp only [Fan.Place.fill, Fan.children_between, List.flatMap_append, Fan.children_single,
    List.flatMap_singleton] at whole
  rw [Fan.Place.fill, Fan.children_between, List.flatMap_append, List.flatMap_append, ← whole]
  refine ((grown.append_left _).append_right _).trans ?_
  simp only [List.append_assoc]
  exact List.perm_append_comm_assoc _ _ _

/-- A change adds the fresh labels of the heights at which nodes are split, and it splits the root
only if it splits a node of each height below. -/
theorem change_labels {tree : SearchTree ι κ ν height} {least : Nat}
    (filled : tree.Filled capacity least)
    (labelled : ∀ label entries, LeafLabelled (fresh 0) label (act label entries)) :
    ((tree.change capacity fresh key act).children.flatMap labels).Perm
        ((List.range (tree.splits capacity fresh key act)).map fresh ++ tree.labels) ∧
      ((tree.change capacity fresh key act).rest = [] ∧
          tree.splits capacity fresh key act ≤ height ∨
        (tree.change capacity fresh key act).rest.length = 1 ∧
          tree.splits capacity fresh key act = height + 1) := by
  induction height generalizing least with
  | zero =>
      obtain ⟨label, entries⟩ := tree
      rw [change, splits]
      obtain ⟨same, whole | ⟨split, both⟩⟩ := labelled label entries
      · refine ⟨?_, .inl ⟨whole, by rw [whole]; exact Nat.le_refl 0⟩⟩
        rw [Fan.children, whole, List.map_nil, List.flatMap_singleton]
        show List.Perm [(act label entries).first.label] [label]
        rw [same]
      · refine ⟨?_, .inr ⟨split, split⟩⟩
        rw [both, split]
        exact List.Perm.swap _ _ _
  | succ height ih =>
      obtain ⟨label, fan⟩ := tree
      obtain ⟨_, most, children⟩ := filled
      obtain ⟨grown, outcome⟩ := ih (children _ (fan.locate_child_mem key))
      have filled := fill_labels grown
      have length := length_fill_locate key fan
        ((fan.locate key).child.change capacity fresh key act)
      rw [splits, change]
      rcases divide_labels capacity.inner (fresh (height + 1)) label
        ((fan.locate key).fill ((fan.locate key).child.change capacity fresh key act)) with
        ⟨whole, same⟩ | ⟨exceeds, split, perm⟩
      · rw [whole, same, List.length_nil, Nat.add_zero]
        refine ⟨(filled.cons label).trans List.perm_middle.symm, .inl ⟨rfl, ?_⟩⟩
        rcases outcome with ⟨_, below⟩ | ⟨_, equal⟩ <;> omega
      · rcases outcome with ⟨wholeChild, _⟩ | ⟨_, splitBelow⟩
        · rw [wholeChild, List.length_nil] at length
          omega
        · rw [split, splitBelow]
          rw [splitBelow] at filled
          refine ⟨?_, .inr ⟨rfl, rfl⟩⟩
          rw [List.range_succ, List.map_append, List.append_assoc]
          refine perm.trans (((filled.cons label).trans List.perm_middle.symm).cons _ |>.trans ?_)
          exact List.perm_middle.symm

end Labels

/-! ## Storing and removing -/

section Operations

variable [LinearOrder κ]

/-- What a change of leaves must be to change trees: a local operation that keeps the order, adds
one entry at most and one label where it splits. -/
structure LeafChange (capacity : Capacity) (fresh : Nat → ι) (key : κ)
    (operation : List (κ × ν) → List (κ × ν))
    (act : ι → List (κ × ν) → Fan κ (SearchTree ι κ ν 0)) : Prop where
  acts : ActsLocally key operation
  realised : ∀ label entries,
    (act label entries).children.flatMap SearchTree.entries = operation entries
  grows : ∀ label entries most, entries.length ≤ capacity.leaf →
    GrownTo capacity most (act label entries)
  keeps : ∀ label entries (first second : Bound κ), (leaf label entries).Ordered first second →
    first ≤ bound key → bound key < second →
    (act label entries).Chained (fun entry => bound entry.1) Ordered first second
  labelled : ∀ label entries, LeafLabelled (fresh 0) label (act label entries)

variable {capacity : Capacity} {fresh : Nat → ι} {key : κ}

/-- What such a change makes of a tree: one tree or two, in order, with the changed entries. -/
theorem LeafChange.changed {operation : List (κ × ν) → List (κ × ν)}
    {act : ι → List (κ × ν) → Fan κ (SearchTree ι κ ν 0)}
    (changes : LeafChange capacity fresh key operation act) {height least : Nat}
    {tree : SearchTree ι κ ν height} {low high : Bound κ} (ordered : tree.Ordered low high)
    (filled : tree.Filled capacity least) (above : low ≤ bound key) (below : bound key < high) :
    (tree.change capacity fresh key act).Chained (fun entry => bound entry.1) Ordered low high ∧
      GrownTo capacity least (tree.change capacity fresh key act) ∧
      (tree.change capacity fresh key act).children.flatMap SearchTree.entries =
        operation tree.entries :=
  ⟨change_ordered ordered above below changes.keeps, change_grown filled changes.grows,
    change_entries ordered above below changes.acts changes.realised⟩

theorem eraseLeaf_changes :
    LeafChange capacity fresh key (fun entries : List (κ × ν) => eraseKey key entries)
      (eraseLeaf key) where
  acts := eraseKey_local key
  realised label entries := by
    rw [eraseLeaf, Fan.children_single, List.flatMap_singleton, entries_leaf]
  grows label entries most fits :=
    .inl ⟨_, rfl, (eraseKey_sublist key entries).length_le.trans fits⟩
  keeps label entries first second ordered _ _ := by
    obtain ⟨below, sorted, within⟩ := ordered
    exact ⟨below, sortedKeys_eraseKey sorted key,
      fun entry member => within entry ((eraseKey_sublist key entries).mem member)⟩
  labelled _ _ := ⟨rfl, .inl rfl⟩

theorem putLeaf_changes (room : 0 < capacity.leaf) (value : ν) :
    LeafChange capacity fresh key (upsert key value) (putLeaf capacity (fresh 0) key value) where
  acts := upsert_local key value
  realised label entries := divideLeaf_entries _ _ _ _
  grows label entries most fits :=
    divideLeaf_grown ((length_upsert_le key value entries).trans (Nat.succ_le_succ fits)) room
  keeps label entries first second ordered above below := by
    obtain ⟨apart, sorted, within⟩ := ordered
    refine divideLeaf_ordered room ⟨apart, sortedKeys_upsert sorted key value,
      fun entry member => ?_⟩
    rcases mem_upsert member with new | old
    · exact new ▸ ⟨above, below⟩
    · exact within entry old
  labelled label entries := divideLeaf_labelled _ _ _ _

end Operations

end SearchTree

end MiniSqlite.Std
