import MiniSqlite.Index.NodeSplits
import MiniSqlite.Std.Integers
import MiniSqlite.Std.Lockstep
import MiniSqlite.Std.SearchTree

/-!
# The pages of a tree

A store holds a search tree when the page of each node has the node's lists in its bytes, with
the page ids of the children as labels, and each leaf links to the leaf behind it. The walk of
`find_leaf` ends at the leaf of that tree where the key leads.
-/

namespace MiniSqlite.Index

open MiniSqlite.Common MiniSqlite.Std MiniSqlite.Storage MiniSqlite.Buffer

/-- Search trees whose nodes are pages. -/
abbrev PageTree (height : Nat) := SearchTree PageId Int64 Rid height

/-- What the nodes of a tree may hold. -/
def treeCapacity : Capacity := ⟨leafMaxKeys, internalMaxKeys⟩

/-- The page is a node with the keys and the children of a fan. -/
abbrev FanLaid (page : Page) {height : Nat} (fan : Fan Int64 (PageTree height)) : Prop :=
  InternalLaid page fan.first.label (fan.rest.map fun entry => (entry.1, entry.2.label))

theorem FanLaid.congr {page : Page} {height : Nat} {fan other : Fan Int64 (PageTree height)}
    (laid : FanLaid page fan)
    (same : other.map SearchTree.label = fan.map SearchTree.label) : FanLaid page other := by
  have first : other.first.label = fan.first.label := congrArg Fan.first same
  have rest : (other.rest.map fun entry => (entry.1, entry.2.label)) =
      fan.rest.map fun entry => (entry.1, entry.2.label) := congrArg Fan.rest same
  rw [FanLaid, first, rest]
  exact laid

/-- The pages hold the tree, and `next` is the leaf behind it. -/
def Holds (pages : PageId → Option Page) : {height : Nat} → (next : PageId) → PageTree height → Prop
  | 0, next, .leaf label entries => ∃ page, pages label = some page ∧ LeafLaid page entries next
  | _ + 1, next, .node label fan =>
      (∃ page, pages label = some page ∧ FanLaid page fan) ∧
      fan.Chained (fun entry => entry.2.firstLeaf) (fun _ next child => Holds pages next child)
        invalidPageId next

/-- The pages hold the subtrees of a node. -/
def HoldsFan (pages : PageId → Option Page) {height : Nat} (next : PageId)
    (fan : Fan Int64 (PageTree height)) : Prop :=
  fan.Chained (fun entry => entry.2.firstLeaf) (fun _ next child => Holds pages next child)
    invalidPageId next

/-- The pages hold leaves that are linked from each to the following one. -/
def Linked (pages : PageId → Option Page) :
    List (PageId × List (Int64 × Rid)) → (next : PageId) → Prop
  | [], _ => True
  | leaf :: rest, next =>
      (∃ page, pages leaf.1 = some page ∧
        LeafLaid page leaf.2 ((rest.head?.map Prod.fst).getD next)) ∧ Linked pages rest next

section Pages

variable {pages after : PageId → Option Page} {height : Nat} {next : PageId}
variable {tree : PageTree height} {low high : Bound Int64} {key : Int64}

theorem mem_flatMap_labels {fan : Fan Int64 (PageTree height)} {child : PageTree height}
    {id : PageId} (member : child ∈ fan.children) (inside : id ∈ child.labels) :
    id ∈ fan.children.flatMap SearchTree.labels :=
  List.mem_flatMap.mpr ⟨child, member, inside⟩

/-- Only the pages of its nodes matter to a tree. -/
theorem Holds.congr (holds : Holds pages next tree)
    (same : ∀ id ∈ tree.labels, after id = pages id) : Holds after next tree := by
  induction height generalizing next with
  | zero =>
      obtain ⟨page, present, laid⟩ := holds
      exact ⟨page, (same _ tree.label_mem_labels).trans present, laid⟩
  | succ height ih =>
      obtain ⟨label, fan⟩ := tree
      obtain ⟨⟨page, present, laid⟩, chained⟩ := holds
      refine ⟨⟨page, (same _ List.mem_cons_self).trans present, laid⟩, ?_⟩
      refine chained.imp fun child member _ following below => ih below fun id inside => ?_
      exact same id (List.mem_cons_of_mem _ (mem_flatMap_labels member inside))

/-- The leaf where a key leads is laid out in its page. -/
theorem Holds.leafOf (holds : Holds pages next tree) (key : Int64) :
    ∃ page following, pages (tree.leafOf key).1 = some page ∧
      LeafLaid page (tree.leafOf key).2 following := by
  induction height generalizing next with
  | zero =>
      obtain ⟨page, present, laid⟩ := holds
      exact ⟨page, next, present, laid⟩
  | succ height ih =>
      obtain ⟨label, fan⟩ := tree
      obtain ⟨_, following, below⟩ := holds.2.of_mem _ (fan.locate_child_mem key)
      exact ih below

/-- The page of the root is in use. -/
theorem Holds.present (holds : Holds pages next tree) : (pages tree.label).isSome := by
  cases height with
  | zero =>
      obtain ⟨page, present, _⟩ := holds
      exact Option.isSome_iff_exists.mpr ⟨page, present⟩
  | succ height =>
      obtain ⟨⟨page, present, _⟩, _⟩ := holds
      exact Option.isSome_iff_exists.mpr ⟨page, present⟩

/-- The pages of all nodes are in use. -/
theorem Holds.present_of_mem (holds : Holds pages next tree) :
    ∀ id ∈ tree.labels, (pages id).isSome := by
  induction height generalizing next with
  | zero =>
      intro id member
      rw [List.mem_singleton.mp member]
      exact holds.present
  | succ height ih =>
      obtain ⟨label, fan⟩ := tree
      intro id member
      rcases List.mem_cons.mp member with here | below
      · exact here ▸ holds.present
      · obtain ⟨child, stands, inside⟩ := List.mem_flatMap.mp below
        obtain ⟨_, following, held⟩ := holds.2.of_mem child stands
        exact ih held id inside

theorem HoldsFan.congr {fan : Fan Int64 (PageTree height)} (holds : HoldsFan pages next fan)
    (same : ∀ id ∈ fan.children.flatMap SearchTree.labels, after id = pages id) :
    HoldsFan after next fan :=
  holds.imp fun _ member _ _ below =>
    below.congr fun id inside => same id (mem_flatMap_labels member inside)

/-- The subtrees in front of a key link to the first leaf behind it. -/
theorem HoldsFan.halves {left right : Fan Int64 (PageTree height)}
    (holds : HoldsFan pages next ⟨left.first, left.rest ++ (key, right.first) :: right.rest⟩) :
    HoldsFan pages right.first.firstLeaf left ∧ HoldsFan pages next right := by
  obtain ⟨front, back⟩ := Fan.chained_append.mp holds
  exact ⟨front, back.lower (fun _ _ _ _ held => held) _⟩

/-- The pages of all nodes of a fan are in use. -/
theorem HoldsFan.present_of_mem {fan : Fan Int64 (PageTree height)}
    (holds : HoldsFan pages next fan) :
    ∀ id ∈ fan.children.flatMap SearchTree.labels, (pages id).isSome := by
  intro id member
  obtain ⟨child, stands, inside⟩ := List.mem_flatMap.mp member
  obtain ⟨_, following, held⟩ := holds.of_mem child stands
  exact held.present_of_mem id inside

/-- A child of a node may be exchanged for subtrees that begin with its first leaf, if the pages
of the other children stay. -/
theorem HoldsFan.locate {fan : Fan Int64 (PageTree height)} (holds : HoldsFan pages next fan)
    (key : Int64) :
    ∃ following, Holds pages following (fan.locate key).child ∧
      ∀ (after : PageId → Option Page) (inner : Fan Int64 (PageTree height)),
        inner.first.firstLeaf = (fan.locate key).child.firstLeaf →
        (∀ other ∈ (fan.locate key).others, ∀ id ∈ other.labels, after id = pages id) →
        HoldsFan after following inner → HoldsFan after next ((fan.locate key).fill inner) := by
  have filled := holds
  rw [HoldsFan, ← fan.fill_locate key, Fan.Place.fill] at filled
  obtain ⟨first, following, child, _, _, exchange⟩ := filled.exchange
  refine ⟨following, child, fun after inner leaf same chained => ?_⟩
  refine exchange (fun _ next child => Holds after next child) inner (fun _ => leaf) ?_ ?_
  · exact fun other member _ _ held => held.congr (same other member)
  · exact Fan.Chained.lower chained (fun _ _ _ _ held => held) first

theorem linked_append {left right : List (PageId × List (Int64 × Rid))} :
    Linked pages (left ++ right) next ↔
      Linked pages left ((right.head?.map Prod.fst).getD next) ∧ Linked pages right next := by
  induction left with
  | nil => simp [Linked]
  | cons leaf left ih =>
      rw [List.cons_append, Linked, Linked, ih, and_assoc]
      cases left with
      | nil => simp
      | cons other left => simp

theorem leaves_head (tree : PageTree height) :
    tree.leaves.head?.map Prod.fst = some tree.firstLeaf := by
  induction height with
  | zero => rfl
  | succ height ih =>
      obtain ⟨label, first, rest⟩ := tree
      have front := ih first
      cases leaves : first.leaves with
      | nil =>
          rw [leaves] at front
          cases front
      | cons leaf others =>
          rw [leaves] at front
          rw [SearchTree.leaves, Fan.children, List.flatMap_cons, leaves]
          exact front

/-- The leaves of a tree are linked from left to right. -/
theorem Holds.linked (holds : Holds pages next tree) : Linked pages tree.leaves next := by
  induction height generalizing next with
  | zero =>
      obtain ⟨page, present, laid⟩ := holds
      exact ⟨⟨page, present, laid⟩, trivial⟩
  | succ height ih =>
      obtain ⟨label, first, rest⟩ := tree
      obtain ⟨-, chained⟩ := holds
      show Linked pages ((Fan.mk first rest).children.flatMap SearchTree.leaves) next
      have linked : HoldsFan pages next ⟨first, rest⟩ := chained
      clear chained
      induction rest generalizing first with
      | nil =>
          rw [show (Fan.mk first ([] : List (Int64 × PageTree height))).children = [first] from rfl,
            List.flatMap_singleton]
          exact ih linked
      | cons entry rest inner =>
          rw [Fan.children, List.map_cons, List.flatMap_cons]
          obtain ⟨front, back⟩ := Fan.chained_cons.mp linked
          refine linked_append.mpr
            ⟨?_, inner entry.2 (back.lower (fun _ _ _ _ held => held) invalidPageId)⟩
          have head := leaves_head entry.2
          cases leaves : entry.2.leaves with
          | nil =>
              rw [leaves] at head
              cases head
          | cons leaf others =>
              rw [leaves] at head
              rw [List.flatMap_cons, leaves]
              have sameLeaf : leaf.1 = entry.2.firstLeaf := Option.some.inj head
              show Linked pages first.leaves leaf.1
              rw [sameLeaf]
              exact ih front

/-! ## The way of a key -/

theorem InternalLaid.child_at {page : Page} {first : PageId} {rest : List (Int64 × PageId)}
    (laid : InternalLaid page first rest) {i : Nat} {child : PageId}
    (stands : (first :: rest.map Prod.snd)[i]? = some child) : internalGetChild page i = child := by
  cases i with
  | zero => exact laid.first.trans (Option.some.inj stands)
  | succ i =>
      rw [List.getElem?_cons_succ, List.getElem?_map] at stands
      obtain ⟨entry, found, rfl⟩ := Option.map_eq_some_iff.mp stands
      obtain ⟨bound, rfl⟩ := List.getElem?_eq_some_iff.mp found
      exact (laid.key_at bound).2

/-- The search in a node finds the place where a key leads, and the child there. -/
theorem InternalLaid.locate {page : Page} {fan : Fan Int64 (PageTree height)}
    (laid : FanLaid page fan) (sorted : fan.keys.Pairwise (· < ·)) (key : Int64) :
    internalFindPosition page key = (fan.locate key).before.length ∧
      internalGetChild page (fan.locate key).before.length = (fan.locate key).child.label := by
  constructor
  · rw [laid.findPosition, fan.locate_before, List.takeWhile_map, List.length_map]
    · rfl
    · rw [List.pairwise_map]
      exact (List.pairwise_map.mp sorted).imp Int64.le_of_lt
  · apply laid.child_at
    have children := congrArg (fun fan => fan.children.map SearchTree.label) (fan.fill_locate key)
    simp only [Fan.Place.fill, Fan.children_between, Fan.children_single] at children
    rw [List.map_map]
    have stands : (fan.children.map SearchTree.label)[(fan.locate key).before.length]? =
        some (fan.locate key).child.label := by
      rw [← children]
      simp
    simpa [Fan.children, Function.comp_def] using stands

end Pages

/-! ## The walk -/

section Walk

variable {store : PageStore} {height : Nat} {next : PageId}
variable {tree : PageTree height} {low high : Bound Int64} {key : Int64}

/-- A path as `find_leaf` records it. -/
def pathEntries (path : List (PageId × Nat)) : List PathEntry :=
  path.map fun entry => ⟨entry.1, entry.2⟩

theorem fetchPage_present {pid : PageId} {page : Page} (present : store.pages pid = some page) :
    PagePool.fetchPage store pid = .ok (store, some pid) ∧ PagePool.data store pid = page := by
  constructor
  · show Except.ok (store, (store.pages pid).map fun _ => pid) = _
    rw [present]
    rfl
  · show (store.pages pid).getD zeroPage = page
    rw [present]
    rfl

theorem unpinPage_store (store : PageStore) (pid : PageId) (isDirty : Bool) :
    PagePool.unpinPage store pid isDirty = .ok store := rfl

theorem setData_store (store : PageStore) (pid : PageId) (page : Page) :
    PagePool.setData store pid page = store.set pid page := rfl

/-- `find_leaf` walks to the leaf where the key leads and records the way, if the path array
has room for it. -/
theorem Holds.findLeafFrom (holds : Holds store.pages next tree) (ordered : tree.Ordered low high)
    (above : low ≤ bound key) (below : bound key < high) {room : Nat} (enough : height ≤ room)
    (path : List PathEntry) :
    findLeafFrom key room store tree.label path =
      .ok (store, some ((tree.leafOf key).1, pathEntries (tree.pathOf key) ++ path)) := by
  induction height generalizing next low high room path with
  | zero =>
      obtain ⟨label, entries⟩ := tree
      obtain ⟨page, present, laid⟩ := holds
      obtain ⟨fetched, shown⟩ := fetchPage_present present
      show Index.findLeafFrom key room store label path = _
      unfold Index.findLeafFrom
      rw [fetched]
      show (if _ then _ else _) = _
      rw [shown, if_pos laid.isLeaf]
      rfl
  | succ height ih =>
      obtain ⟨label, fan⟩ := tree
      obtain ⟨⟨page, present, laid⟩, chained⟩ := holds
      obtain ⟨fetched, shown⟩ := fetchPage_present present
      obtain ⟨first, second, child, aboveChild, belowChild, _, _, _⟩ :=
        SearchTree.ordered_locate ordered above below
      obtain ⟨_, following, childHolds⟩ := chained.of_mem _ (fan.locate_child_mem key)
      obtain ⟨position, stands⟩ := laid.locate (SearchTree.ordered_keys ordered).1 key
      have walk := ih childHolds child aboveChild belowChild (Nat.le_sub_one_of_lt enough)
        (⟨label, (fan.locate key).before.length⟩ :: path)
      show Index.findLeafFrom key room store label path = _
      cases room with
      | zero => exact absurd enough (Nat.not_succ_le_zero height)
      | succ room =>
          unfold Index.findLeafFrom
          rw [fetched]
          show (if _ then _ else _) = _
          rw [shown, if_neg (by rw [laid.inner]; decide), position, stands]
          refine walk.trans ?_
          simp [SearchTree.leafOf, SearchTree.pathOf, pathEntries]

end Walk

end MiniSqlite.Index
