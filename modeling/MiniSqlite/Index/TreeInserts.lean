import MiniSqlite.Index.TreeChanges

/-!
# Insertions into a tree

`insert_into_parent` puts the key that a split promotes, with the new page behind it, at the
position that the path has recorded, and goes on with the next node of the path where there is no
room. The pages then hold what the change of a search tree makes of it.
-/

namespace MiniSqlite.Index

open MiniSqlite.Common MiniSqlite.Std MiniSqlite.Storage MiniSqlite.Buffer

/-! ## Nodes -/

section Nodes

variable {page : Page} {height : Nat} {fan : Fan Int64 (PageTree height)} {key : Int64}

theorem FanLaid.length (laid : FanLaid page fan) : bpNodeGetSize page = fan.rest.length := by
  rw [laid.size, List.length_map]

/-- A key and a child put where a key leads. -/
theorem FanLaid.splice (laid : FanLaid page fan) (fits : fan.rest.length + 1 < 2147483648)
    {left : PageTree height} (right : PageTree height) (promoted : Int64)
    (same : left.label = (fan.locate key).child.label) :
    FanLaid (internalPlace page (fan.locate key).before.length promoted right.label)
      ((fan.locate key).fill ⟨left, [(promoted, right)]⟩) := by
  have reads : ((fan.locate key).fill (.single left)).map SearchTree.label =
      fan.map SearchTree.label := by
    rw [(fan.locate key).map_fill_single same, fan.fill_locate]
  have inside : (fan.locate key).before.length ≤ fan.rest.length := by
    rw [fan.locate_before]
    exact (List.takeWhile_sublist _).length_le
  obtain ⟨placed, _⟩ := laid.place
    (show (fan.locate key).before.length ≤ _ by rw [List.length_map]; exact inside)
    (by rwa [List.length_map]) promoted right.label
  have first : ((fan.locate key).fill ⟨left, [(promoted, right)]⟩).first.label =
      fan.first.label := by
    rw [Fan.Place.fill, Fan.between_two]
    exact congrArg Fan.first reads
  have rest : ((fan.locate key).fill ⟨left, [(promoted, right)]⟩).rest.map
        (fun entry => (entry.1, entry.2.label)) =
      (fan.rest.map fun entry => (entry.1, entry.2.label)).insertIdx
        (fan.locate key).before.length (promoted, right.label) := by
    rw [Fan.Place.fill, Fan.between_two, List.map_insertIdx]
    exact congrArg (fun labels : Fan Int64 PageId => labels.rest.insertIdx
      (fan.locate key).before.length (promoted, right.label)) reads
  rw [FanLaid, first, rest]
  exact placed

/-- The page that is left in front of the promoted key, the key, and the page that is filled with
what stands behind it. -/
theorem FanLaid.halves {left right : Fan Int64 (PageTree height)}
    (laid : FanLaid page ⟨left.first, left.rest ++ (key, right.first) :: right.rest⟩)
    (target : Page) :
    FanLaid (bpNodeSetSize page left.rest.length) left ∧
      internalGetKey page left.rest.length = key ∧
      FanLaid (bpNodeSetSize
          (copyInternalEntries page (left.rest.length + 1) right.rest.length
            (internalSetChild (initInternalPage target) 0
              (internalGetChild page (left.rest.length + 1))))
          right.rest.length) right := by
  rw [FanLaid, List.map_append, List.map_cons] at laid
  have length : (left.rest.map fun entry => (entry.1, entry.2.label)).length =
      left.rest.length := List.length_map _
  have total : ((left.rest.map fun entry => (entry.1, entry.2.label)) ++
      (key, right.first.label) :: right.rest.map fun entry => (entry.1, entry.2.label)).length =
        left.rest.length + (right.rest.length + 1) := by
    simp
  have inside : left.rest.length < ((left.rest.map fun entry => (entry.1, entry.2.label)) ++
      (key, right.first.label) :: right.rest.map fun entry => (entry.1, entry.2.label)).length := by
    omega
  have front := laid.cut (Nat.le_of_lt inside)
  have back := laid.copied target inside
  have middle := (laid.key_at inside).1
  rw [total, Nat.add_sub_cancel_left, Nat.add_sub_cancel] at back
  refine ⟨?_, ?_, ?_⟩
  · rwa [List.take_left' length] at front
  · rw [middle]
    simp
  · have gone : (left.rest.map fun entry => (entry.1, entry.2.label)).drop
        (left.rest.length + 1) = [] := List.drop_eq_nil_of_le (by omega)
    simpa [FanLaid, List.drop_append, gone] using back

end Nodes

/-! ## One node of the path -/

section Parents

variable {tree : BPlusTree PageStore} {parentPid leftPid rightPid : PageId} {pos : Nat}
variable {path : List PathEntry} {key : Int64} {page : Page}

/-- The climb ends at a node with room. -/
theorem insertIntoParent_room (present : tree.bpm.pages parentPid = some page)
    (room : bpNodeGetSize page < internalMaxKeys) :
    insertIntoParent tree (⟨parentPid, pos⟩ :: path) leftPid key rightPid =
      .ok ({ tree with bpm := tree.bpm.set parentPid (internalPlace page pos key rightPid) }, .ok) := by
  obtain ⟨fetched, shown⟩ := fetchPage_present present
  rw [insertIntoParent, fetched, ok_bind]
  dsimp only
  rw [shown, if_pos room, internalInsert, if_neg (by omega), setData_store, unpinPage_store, ok_bind]
  rfl

theorem insertIntoParent_exhausted (present : tree.bpm.pages parentPid = some page)
    (full : ¬bpNodeGetSize page < internalMaxKeys) (exhausted : tree.bpm.fresh = []) :
    insertIntoParent tree (⟨parentPid, pos⟩ :: path) leftPid key rightPid = .error .overflow := by
  obtain ⟨fetched, shown⟩ := fetchPage_present present
  rw [insertIntoParent, fetched, ok_bind]
  dsimp only
  rw [shown, if_neg full, setData_store]
  have failed : PagePool.newPage (tree.bpm.set parentPid (internalPlace page pos key rightPid)) =
      .error .overflow := by
    show (PageStore.allocate _ >>= _) = _
    rw [PageStore.allocate_nil (by rw [PageStore.set_fresh, exhausted])]
    rfl
  rw [failed]
  rfl

/-- At a full node the climb goes on: the back half of the over-full node is in a new page. -/
theorem insertIntoParent_full (present : tree.bpm.pages parentPid = some page)
    (full : ¬bpNodeGetSize page < internalMaxKeys) {newPid : PageId} {rest : List PageId}
    (supply : tree.bpm.fresh = newPid :: rest) {placed : Page}
    (places : internalPlace page pos key rightPid = placed) {mid behind : Nat}
    (half : (bpNodeGetSize placed).toNat / 2 = mid)
    (others : (bpNodeGetSize placed).toNat - mid - 1 = behind) :
    ∃ store : PageStore,
      insertIntoParent tree (⟨parentPid, pos⟩ :: path) leftPid key rightPid =
        insertIntoParent { tree with bpm := store } path parentPid (internalGetKey placed mid)
          newPid ∧
      store.fresh = rest ∧
      ∀ other, store.pages other =
        if other = parentPid then some (bpNodeSetSize placed mid)
        else if other = newPid then
          some (bpNodeSetSize (copyInternalEntries placed (mid + 1) behind
            (internalSetChild (initInternalPage zeroPage) 0 (internalGetChild placed (mid + 1))))
            behind)
        else tree.bpm.pages other := by
  obtain ⟨fetched, shown⟩ := fetchPage_present present
  have placedPages := PageStore.set_pages present placed
  obtain ⟨allocated, allocates, freshLeft, pages⟩ :=
    @PageStore.allocate_cons (tree.bpm.set parentPid placed) newPid rest
      (by rw [PageStore.set_fresh]; exact supply)
  have differ : parentPid ≠ newPid := by
    rintro rfl
    have unused := tree.bpm.fresh_unused parentPid (by rw [supply]; exact List.mem_cons_self)
    rw [present] at unused
    cases unused
  have parentData : allocated.pages parentPid = some placed := by
    rw [pages, if_neg differ, placedPages, if_pos rfl]
  have newData : allocated.pages newPid = some zeroPage := by rw [pages, if_pos rfl]
  have created : PagePool.newPage (tree.bpm.set parentPid placed) =
      .ok (allocated, some (newPid, newPid)) := by
    show (PageStore.allocate _ >>= _) = _
    rw [allocates]
    rfl
  let newNode := bpNodeSetSize (copyInternalEntries placed (mid + 1) behind
    (internalSetChild (initInternalPage zeroPage) 0 (internalGetChild placed (mid + 1)))) behind
  have newPages := PageStore.set_pages newData newNode
  have parentAgain : (allocated.set newPid newNode).pages parentPid = some placed := by
    rw [newPages, if_neg differ, parentData]
  refine ⟨(allocated.set newPid newNode).set parentPid (bpNodeSetSize placed mid), ?_, ?_, ?_⟩
  · rw [insertIntoParent, fetched, ok_bind]
    dsimp only
    rw [shown, if_neg full, places, setData_store, created, ok_bind]
    dsimp only
    rw [(fetchPage_present parentData).2, (fetchPage_present newData).2, half, others]
    rfl
  · rw [PageStore.set_fresh, PageStore.set_fresh, freshLeft]
  · intro other
    rw [PageStore.set_pages parentAgain, newPages, pages, placedPages]
    split
    · rfl
    · split
      · rfl
      · rfl

/-- Behind the path there is a new root. -/
theorem insertIntoParent_root {newRootPid : PageId} {rest : List PageId}
    (supply : tree.bpm.fresh = newRootPid :: rest) :
    ∃ store : PageStore,
      insertIntoParent tree [] leftPid key rightPid =
        .ok ({ tree with rootPageId := newRootPid, bpm := store }, .ok) ∧
      store.fresh = rest ∧
      ∀ other, store.pages other =
        if other = newRootPid then some (newRoot zeroPage leftPid key rightPid)
        else tree.bpm.pages other := by
  obtain ⟨allocated, allocates, freshLeft, pages⟩ := PageStore.allocate_cons supply
  have newData : allocated.pages newRootPid = some zeroPage := by rw [pages, if_pos rfl]
  have created : PagePool.newPage tree.bpm = .ok (allocated, some (newRootPid, newRootPid)) := by
    show (PageStore.allocate _ >>= _) = _
    rw [allocates]
    rfl
  refine ⟨allocated.set newRootPid (newRoot zeroPage leftPid key rightPid), ?_, ?_, fun other => ?_⟩
  · rw [insertIntoParent, created, ok_bind]
    dsimp only
    rw [(fetchPage_present newData).2]
    rfl
  · rw [PageStore.set_fresh, freshLeft]
  · rw [PageStore.set_pages newData, pages]
    split
    · rfl
    · rfl

theorem insertIntoParent_rootless (exhausted : tree.bpm.fresh = []) :
    insertIntoParent tree [] leftPid key rightPid = .error .overflow := by
  have failed : PagePool.newPage tree.bpm = .error .overflow := by
    show (PageStore.allocate _ >>= _) = _
    rw [PageStore.allocate_nil exhausted]
    rfl
  rw [insertIntoParent, failed]
  rfl

variable {height : Nat} {fan : Fan Int64 (PageTree height)} {left right : PageTree height}
variable {label next : PageId} {promoted : Int64}

/-- A node with room takes the promoted key. -/
theorem FanLaid.insertIntoParent_room (laid : FanLaid page fan)
    (present : tree.bpm.pages label = some page) (room : fan.rest.length < internalMaxKeys)
    (same : left.label = (fan.locate key).child.label)
    (holds : HoldsFan tree.bpm.pages next ((fan.locate key).fill ⟨left, [(promoted, right)]⟩))
    (apart : label ∉ ((fan.locate key).fill ⟨left, [(promoted, right)]⟩).children.flatMap
      SearchTree.labels) (leftPid : PageId) :
    ∃ store : PageStore,
      insertIntoParent tree (⟨label, (fan.locate key).before.length⟩ :: path) leftPid promoted
        right.label = .ok ({ tree with bpm := store }, .ok) ∧
      store.fresh = tree.bpm.fresh ∧ (∀ id ≠ label, store.pages id = tree.bpm.pages id) ∧
      Holds store.pages next
        (SearchTree.node label ((fan.locate key).fill ⟨left, [(promoted, right)]⟩)) := by
  have few : fan.rest.length < 338 := room
  have spliced := laid.splice (by omega) right promoted same
  have pages := PageStore.set_pages present (internalPlace page (fan.locate key).before.length
    promoted right.label)
  refine ⟨_, Index.insertIntoParent_room present (by rw [laid.length]; omega),
    PageStore.set_fresh _ _ _, fun id differs => by rw [pages, if_neg differs],
    ⟨_, by rw [pages, if_pos rfl], spliced⟩, holds.congr fun id inside => ?_⟩
  rw [pages, if_neg]
  rintro rfl
  exact apart inside

/-- A full node is split around its middle key, if there is a page left. -/
theorem FanLaid.insertIntoParent_full (laid : FanLaid page fan)
    (present : tree.bpm.pages label = some page) (full : fan.rest.length = internalMaxKeys)
    (same : left.label = (fan.locate key).child.label)
    (holds : HoldsFan tree.bpm.pages next ((fan.locate key).fill ⟨left, [(promoted, right)]⟩))
    (apart : label ∉ ((fan.locate key).fill ⟨left, [(promoted, right)]⟩).children.flatMap
      SearchTree.labels) (leftPid : PageId) {newPid : PageId} {rest : List PageId}
    (supply : tree.bpm.fresh = newPid :: rest) :
    ∃ (store : PageStore) (first second : PageTree (height + 1)) (middle : Int64),
      SearchTree.divide internalMaxKeys newPid label
        ((fan.locate key).fill ⟨left, [(promoted, right)]⟩) = ⟨first, [(middle, second)]⟩ ∧
      insertIntoParent tree (⟨label, (fan.locate key).before.length⟩ :: path) leftPid promoted
        right.label =
          insertIntoParent { tree with bpm := store } path first.label middle second.label ∧
      store.fresh = rest ∧
      (∀ id ≠ label, id ≠ newPid → store.pages id = tree.bpm.pages id) ∧
      HoldsFan store.pages next ⟨first, [(middle, second)]⟩ := by
  have spliced := laid.splice (by rw [full]; decide) right promoted same
  have length : ((fan.locate key).fill ⟨left, [(promoted, right)]⟩).rest.length =
      internalMaxKeys + 1 := by
    rw [SearchTree.length_fill_locate, full]
    rfl
  rcases SearchTree.divide_cases internalMaxKeys newPid label
      ((fan.locate key).fill ⟨left, [(promoted, right)]⟩) with
    ⟨fits, _⟩ | ⟨front, middle, back, _, shape, half, halves⟩
  · omega
  · have size := spliced.length
    have lengths : internalMaxKeys + 1 = front.rest.length + (back.rest.length + 1) := by
      rw [← length, congrArg Fan.rest shape, List.length_append, List.length_cons]
    rw [length] at half size
    obtain ⟨store, runs, fresh, pages⟩ := @Index.insertIntoParent_full tree label leftPid
      right.label (fan.locate key).before.length path promoted page present
      (by rw [laid.length, full]; exact Int.lt_irrefl _) newPid rest supply _ rfl
      front.rest.length back.rest.length
      (by rw [size, Int.toNat_natCast, half]) (by rw [size, Int.toNat_natCast]; omega)
    rw [shape] at spliced holds apart
    obtain ⟨frontLaid, promotes, backLaid⟩ := spliced.halves zeroPage
    obtain ⟨frontHolds, backHolds⟩ := holds.halves
    rw [SearchTree.children_halves, List.flatMap_append, List.mem_append, not_or] at apart
    have unused : tree.bpm.pages newPid = none :=
      tree.bpm.fresh_unused newPid (by rw [supply]; exact List.mem_cons_self)
    have differ : newPid ≠ label := by
      rintro rfl
      rw [present] at unused
      cases unused
    have kept : ∀ id, (tree.bpm.pages id).isSome → id ≠ label →
        store.pages id = tree.bpm.pages id := by
      intro id used differs
      rw [pages, if_neg differs, if_neg]
      rintro rfl
      rw [unused] at used
      cases used
    refine ⟨store, SearchTree.node label front, SearchTree.node newPid back, middle, halves, ?_,
      fresh, fun id notLabel notNew => by rw [pages, if_neg notLabel, if_neg notNew],
      ⟨⟨_, by rw [pages, if_pos rfl], frontLaid⟩, ?_⟩,
      ⟨⟨_, by rw [pages, if_neg differ, if_pos rfl], backLaid⟩, ?_⟩⟩
    · rw [promotes] at runs
      exact runs
    · refine frontHolds.congr fun id inside => kept id (frontHolds.present_of_mem id inside) ?_
      rintro rfl
      exact apart.1 inside
    · refine backHolds.congr fun id inside => kept id (backHolds.present_of_mem id inside) ?_
      rintro rfl
      exact apart.2 inside

end Parents

/-! ## The climb -/

/-- The labels of the nodes that splits create: the ids that are left, in order. -/
def freshFrom (ids : List PageId) (i : Nat) : PageId := ids.getD i invalidPageId

theorem freshFrom_next {ids rest : List PageId} {id : PageId} {count : Nat}
    (supply : ids = (List.range count).map (freshFrom ids) ++ id :: rest) :
    freshFrom ids count = id ∧
      ids = (List.range (count + 1)).map (freshFrom ids) ++ rest := by
  have here : freshFrom ids count = id := by
    have at_ : ids[count]? = some id := by
      rw [supply]
      simp
    rw [freshFrom, List.getD_eq_getElem?_getD, at_]
    rfl
  refine ⟨here, ?_⟩
  rw [List.range_succ, List.map_append, List.map_singleton, here, List.append_assoc]
  exact supply

section Climb

variable {ids : List PageId} {act : PageId → List (Int64 × Rid) → Fan Int64 (PageTree 0)}
variable {key : Int64} {operation : List (Int64 × Rid) → List (Int64 × Rid)}
variable {pages : PageId → Option Page} {next : PageId} {height least : Nat}

/-- The store after the nodes of a tree were changed: other pages stay, and the pages of the tree
hold what the change makes of it. -/
structure Climbed (ids : List PageId) (act : PageId → List (Int64 × Rid) → Fan Int64 (PageTree 0))
    (key : Int64) (tree : PageTree height) (next : PageId) (before after : PageStore) : Prop where
  frame : ∀ id ∉ tree.labels, id ∉ before.fresh → after.pages id = before.pages id
  supply : ids = (List.range (tree.splits treeCapacity (freshFrom ids) key act)).map
    (freshFrom ids) ++ after.fresh
  holds : HoldsFan after.pages next (tree.change treeCapacity (freshFrom ids) key act)

/-- How the climb through a tree ends: there is no page left, or the tree is whole, or the climb
goes on with its two halves. -/
def ClimbEnds (ids : List PageId) (act : PageId → List (Int64 × Rid) → Fan Int64 (PageTree 0))
    (key : Int64) (tree : PageTree height) (next : PageId) (base : BPlusTree PageStore)
    (path : List PathEntry) (run : Except Fault (BPlusTree PageStore × ErrorCode)) : Prop :=
  (run = .error .overflow ∧ ids.length ≤ height) ∨
    ∃ store : PageStore, Climbed ids act key tree next base.bpm store ∧
      ((∃ changed, tree.change treeCapacity (freshFrom ids) key act = .single changed ∧
          run = .ok ({ base with bpm := store }, .ok)) ∨
        ∃ left middle right,
          tree.change treeCapacity (freshFrom ids) key act = ⟨left, [(middle, right)]⟩ ∧
          run = insertIntoParent { base with bpm := store } path left.label middle right.label)

/-- From a leaf that was split, `insert_into_parent` makes the pages of each subtree on the way
hold what the change makes of the subtree. -/
theorem Holds.climb {tree : PageTree height} {base : BPlusTree PageStore}
    (holds : Holds pages next tree) (nodup : tree.labels.Nodup)
    (filled : tree.Filled treeCapacity least) (unused : ∀ id ∈ ids, pages id = none)
    (changes : SearchTree.LeafChange treeCapacity (freshFrom ids) key operation act)
    (supply : ids = freshFrom ids 0 :: base.bpm.fresh) {left right : PageTree 0} {promoted : Int64}
    (split : act (tree.leafOf key).1 (tree.leafOf key).2 = ⟨left, [(promoted, right)]⟩)
    (others : ∀ id ∈ tree.labels, id ≠ (tree.leafOf key).1 → base.bpm.pages id = pages id)
    (halves : ∀ page following, pages (tree.leafOf key).1 = some page →
      LeafLaid page (tree.leafOf key).2 following →
      HoldsFan base.bpm.pages following (act (tree.leafOf key).1 (tree.leafOf key).2))
    (path : List PathEntry) :
    ClimbEnds ids act key tree next base path
      (insertIntoParent base (pathEntries (tree.pathOf key) ++ path) left.label promoted
        right.label) := by
  induction height generalizing next least path with
  | zero =>
      obtain ⟨label, entries⟩ := tree
      obtain ⟨page, present, laid⟩ := holds
      refine .inr ⟨base.bpm, ⟨fun _ _ _ => rfl, ?_, halves page next present laid⟩,
        .inr ⟨left, promoted, right, split, rfl⟩⟩
      have one : (SearchTree.splits treeCapacity (freshFrom ids) key act
          (SearchTree.leaf label entries)) = 1 := by
        show (act label entries).rest.length = 1
        rw [show act label entries = _ from split]
        rfl
      rw [one]
      exact supply
  | succ height ih =>
      obtain ⟨label, fan⟩ := tree
      obtain ⟨⟨page, present, laid⟩, chained⟩ := holds
      obtain ⟨_, most, children⟩ := filled
      obtain ⟨labelApart, below⟩ := List.nodup_cons.mp nodup
      obtain ⟨childNodup, apart⟩ := SearchTree.locate_nodup below key
      obtain ⟨following, child, exchange⟩ := HoldsFan.locate chained key
      have childFilled := children _ (fan.locate_child_mem key)
      have leafInside : (SearchTree.leafOf key (fan.locate key).child).1 ∈
          (fan.locate key).child.labels := SearchTree.leafOf_mem_labels _ key
      have climbed := ih child childNodup childFilled split
        (fun id inside => others id (List.mem_cons_of_mem _
          (mem_flatMap_labels (fan.locate_child_mem key) inside))) halves
        (⟨label, (fan.locate key).before.length⟩ :: path)
      have samePath : pathEntries (SearchTree.pathOf key (SearchTree.node label fan)) ++ path =
          pathEntries (SearchTree.pathOf key (fan.locate key).child) ++
            ⟨label, (fan.locate key).before.length⟩ :: path := by
        simp [SearchTree.pathOf, pathEntries]
      rw [samePath]
      rcases climbed with ⟨fails, short⟩ | ⟨store, inner, outcome⟩
      · exact .inl ⟨fails, Nat.le_succ_of_le short⟩
      · have used : ∀ id, (pages id).isSome → id ∉ ids := by
          intro id isUsed member
          rw [unused id member] at isUsed
          cases isUsed
        have supplied : ∀ id ∈ base.bpm.fresh, id ∈ ids := by
          intro id member
          rw [supply]
          exact List.mem_cons_of_mem _ member
        have kept : ∀ id, (pages id).isSome → id ∈ SearchTree.labels (SearchTree.node label fan) →
            id ∉ (fan.locate key).child.labels → store.pages id = pages id := by
          intro id isUsed member outside
          rw [inner.frame id outside fun fresh => used id isUsed (supplied id fresh)]
          exact others id member fun isLeaf => outside (isLeaf ▸ leafInside)
        have labelUsed : (pages label).isSome := by rw [present]; rfl
        have labelOutside : label ∉ (fan.locate key).child.labels := fun inside =>
          labelApart (mem_flatMap_labels (fan.locate_child_mem key) inside)
        have storePage : store.pages label = some page :=
          (kept label labelUsed List.mem_cons_self labelOutside).trans present
        obtain ⟨firstLabel, firstLeaf⟩ := @SearchTree.change_first _ _ _ _ treeCapacity _
          (freshFrom ids) key act (fan.locate key).child changes.labelled
        obtain ⟨labelsPerm, splitShape⟩ := @SearchTree.change_labels _ _ _ _ _ _ (freshFrom ids)
          key act _ _ childFilled changes.labelled
        have filledHolds := exchange store.pages _ firstLeaf
          (fun other member id inside => kept id
            ((HoldsFan.present_of_mem chained) id
              (mem_flatMap_labels (Fan.locate_others_mem member) inside))
            (List.mem_cons_of_mem _ (mem_flatMap_labels (Fan.locate_others_mem member) inside))
            (apart other member id inside)) inner.holds
        have labelApartFill : label ∉
            ((fan.locate key).fill ((fan.locate key).child.change treeCapacity (freshFrom ids) key
              act)).children.flatMap SearchTree.labels := by
          intro inside
          rcases List.mem_append.mp ((SearchTree.fill_labels labelsPerm).subset inside) with
            new | old
          · refine used label labelUsed ?_
            rw [inner.supply]
            exact List.mem_append_left _ new
          · exact labelApart old
        have outer : ∀ id ∉ SearchTree.labels (SearchTree.node label fan),
            id ≠ label ∧ id ∉ (fan.locate key).child.labels := by
          intro id outside
          refine ⟨fun same => outside (same ▸ List.mem_cons_self), fun inside => outside ?_⟩
          exact List.mem_cons_of_mem _ (mem_flatMap_labels (fan.locate_child_mem key) inside)
        have splitsNode : (SearchTree.node label fan).splits treeCapacity (freshFrom ids) key act =
            (fan.locate key).child.splits treeCapacity (freshFrom ids) key act +
              ((SearchTree.node label fan).change treeCapacity (freshFrom ids) key act).rest.length :=
          rfl
        rcases outcome with ⟨changed, whole, ends⟩ | ⟨first, middle, second, two, goesOn⟩
        · rw [whole] at filledHolds firstLabel
          have nodeWhole : (SearchTree.node label fan).change treeCapacity (freshFrom ids) key act =
              .single (SearchTree.node label ((fan.locate key).fill (.single changed))) := by
            rw [SearchTree.change, whole]
            refine if_pos ?_
            rw [SearchTree.length_fill_locate]
            exact most
          refine .inr ⟨store, ⟨fun id outside => inner.frame id (outer id outside).2, ?_, ?_⟩,
            .inl ⟨_, nodeWhole, ends⟩⟩
          · rw [splitsNode, nodeWhole]
            exact inner.supply
          · rw [nodeWhole]
            refine ⟨⟨page, storePage, laid.congr ?_⟩, filledHolds⟩
            have sameLabel : changed.label = (fan.locate key).child.label := firstLabel
            rw [(fan.locate key).map_fill_single sameLabel, fan.fill_locate]
        · rw [two] at filledHolds firstLabel labelApartFill splitShape
          have childSplits : (fan.locate key).child.splits treeCapacity (freshFrom ids) key act =
              height + 1 := by
            rcases splitShape with ⟨none, _⟩ | ⟨_, equal⟩
            · cases none
            · exact equal
          have innerSupply := inner.supply
          rw [childSplits] at innerSupply
          have length : ((fan.locate key).fill ⟨first, [(middle, second)]⟩).rest.length =
              fan.rest.length + 1 := SearchTree.length_fill_locate _ _ _
          by_cases room : fan.rest.length < internalMaxKeys
          · obtain ⟨after, runs, fresh, frame, nodeHolds⟩ :=
              @FanLaid.insertIntoParent_room { base with bpm := store } path key page height fan
                first second label next middle laid storePage room firstLabel filledHolds
                labelApartFill first.label
            have nodeWhole : (SearchTree.node label fan).change treeCapacity (freshFrom ids) key act =
                .single (SearchTree.node label
                  ((fan.locate key).fill ⟨first, [(middle, second)]⟩)) := by
              rw [SearchTree.change, two]
              refine if_pos ?_
              rw [length]
              exact room
            refine .inr ⟨after, ⟨fun id outside notFresh => ?_, ?_, ?_⟩,
              .inl ⟨_, nodeWhole, goesOn.trans runs⟩⟩
            · rw [frame id (outer id outside).1]
              exact inner.frame id (outer id outside).2 notFresh
            · rw [splitsNode, nodeWhole, fresh]
              exact inner.supply
            · rw [nodeWhole]
              exact nodeHolds
          · have full : fan.rest.length = internalMaxKeys := Nat.le_antisymm most (Nat.not_lt.mp room)
            cases left : store.fresh with
            | nil =>
                refine .inl ⟨goesOn.trans (insertIntoParent_exhausted storePage ?_ left), ?_⟩
                · rw [laid.length, full]
                  exact Int.lt_irrefl _
                · rw [left, List.append_nil] at innerSupply
                  rw [innerSupply, List.length_map, List.length_range]
            | cons newPid rest =>
                rw [left] at innerSupply
                obtain ⟨newLabel, supplyAfter⟩ := freshFrom_next innerSupply
                obtain ⟨after, front, back, between, halved, runs, fresh, frame, nodeHolds⟩ :=
                  @FanLaid.insertIntoParent_full { base with bpm := store } path key page height fan
                    first second label next middle laid storePage full firstLabel filledHolds
                    labelApartFill first.label newPid rest left
                have nodeSplit : (SearchTree.node label fan).change treeCapacity (freshFrom ids) key
                    act = ⟨front, [(between, back)]⟩ := by
                  rw [SearchTree.change, two, newLabel]
                  exact halved
                have newInside : newPid ∈ base.bpm.fresh := by
                  have suffix : ids.drop (height + 1) = newPid :: rest :=
                    (congrArg (List.drop (height + 1)) innerSupply).trans
                      (List.drop_left' (by rw [List.length_map, List.length_range]))
                  rw [supply, List.drop_succ_cons] at suffix
                  exact List.mem_of_mem_drop (suffix ▸ List.mem_cons_self)
                refine .inr ⟨after, ⟨fun id outside notFresh => ?_, ?_, ?_⟩,
                  .inr ⟨front, between, back, nodeSplit, goesOn.trans runs⟩⟩
                · rw [frame id (outer id outside).1 (fun same => notFresh (same ▸ newInside))]
                  exact inner.frame id (outer id outside).2 notFresh
                · rw [splitsNode, nodeSplit, childSplits, fresh]
                  exact supplyAfter
                · rw [nodeSplit]
                  exact nodeHolds

/-- The nodes that a change has made are those of the tree and fresh ones. -/
theorem Climbed.nodup {tree : PageTree height} {before after : PageStore}
    (climbed : Climbed ids act key tree next before after) (nodup : tree.labels.Nodup)
    (filled : tree.Filled treeCapacity least) (distinct : ids.Nodup)
    (apart : ∀ id ∈ ids, id ∉ tree.labels)
    (changes : SearchTree.LeafChange treeCapacity (freshFrom ids) key operation act) :
    ((tree.change treeCapacity (freshFrom ids) key act).children.flatMap
      SearchTree.labels).Nodup := by
  obtain ⟨perm, _⟩ := @SearchTree.change_labels _ _ _ _ _ _ (freshFrom ids) key act _ _ filled
    changes.labelled
  rw [perm.nodup_iff]
  have supply := climbed.supply
  have split : ((List.range (tree.splits treeCapacity (freshFrom ids) key act)).map
      (freshFrom ids) ++ after.fresh).Nodup := supply ▸ distinct
  refine List.nodup_append.mpr ⟨(List.nodup_append.mp split).1, nodup, fun id new other old => ?_⟩
  rintro rfl
  refine apart id ?_ old
  rw [supply]
  exact List.mem_append_left _ new

end Climb

/-! ## Splits of leaves -/

section Leaves

variable {tree : BPlusTree PageStore} {leafPid : PageId} {page : Page}

theorem splitLeaf_exhausted (present : tree.bpm.pages leafPid = some page)
    (exhausted : tree.bpm.fresh = []) : splitLeaf tree leafPid = .error .overflow := by
  obtain ⟨fetched, _⟩ := fetchPage_present present
  rw [splitLeaf, fetched, ok_bind]
  dsimp only
  have failed : PagePool.newPage tree.bpm = .error .overflow := by
    show (PageStore.allocate _ >>= _) = _
    rw [PageStore.allocate_nil exhausted]
    rfl
  rw [failed]
  rfl

/-- `split_leaf` leaves the front half of an over-full leaf and puts the back half into a new
page, which follows it. -/
theorem LeafLaid.splitLeaf {front back : List (Int64 × Rid)} {entry : Int64 × Rid}
    {following : PageId} (laid : LeafLaid page (front ++ entry :: back) following)
    (half : front.length = (front ++ entry :: back).length / 2)
    (present : tree.bpm.pages leafPid = some page) {newPid : PageId} {rest : List PageId}
    (supply : tree.bpm.fresh = newPid :: rest) :
    ∃ (store : PageStore) (left right : Page),
      Index.splitLeaf tree leafPid = .ok ({ tree with bpm := store }, entry.1, newPid) ∧
      store.fresh = rest ∧
      (∀ other, store.pages other =
        if other = leafPid then some left
        else if other = newPid then some right
        else tree.bpm.pages other) ∧
      LeafLaid left front newPid ∧ LeafLaid right (entry :: back) following := by
  obtain ⟨fetched, shown⟩ := fetchPage_present present
  obtain ⟨allocated, allocates, freshLeft, pages⟩ := PageStore.allocate_cons supply
  have differ : leafPid ≠ newPid := by
    rintro rfl
    have unused := tree.bpm.fresh_unused leafPid (by rw [supply]; exact List.mem_cons_self)
    rw [present] at unused
    cases unused
  have leafData : allocated.pages leafPid = some page := by rw [pages, if_neg differ, present]
  have newData : allocated.pages newPid = some zeroPage := by rw [pages, if_pos rfl]
  have created : PagePool.newPage tree.bpm = .ok (allocated, some (newPid, newPid)) := by
    show (PageStore.allocate _ >>= _) = _
    rw [allocates]
    rfl
  have size : (bpNodeGetSize page).toNat / 2 = front.length := by
    rw [laid.size, Int.toNat_natCast, half]
  have behind : (bpNodeGetSize page).toNat - front.length = back.length + 1 := by
    rw [laid.size, Int.toNat_natCast, List.length_append, List.length_cons]
    omega
  have inside : front.length ≤ (front ++ entry :: back).length := by
    rw [List.length_append]
    omega
  have copied := laid.copied zeroPage inside
  have kept := (laid.cut inside).relink newPid
  rw [List.take_left] at kept
  rw [List.drop_left, List.length_append, List.length_cons, Nat.add_sub_cancel_left] at copied
  let left := leafSetNextPage (bpNodeSetSize page front.length) newPid
  let right := leafSetNextPage (bpNodeSetSize
    (copyLeafEntries page front.length (back.length + 1) (initLeafPage zeroPage))
    (back.length + 1 : Nat)) following
  have newPages := PageStore.set_pages newData right
  have leafAgain := (newPages leafPid).trans (if_neg differ)
  refine ⟨(allocated.set newPid right).set leafPid left, left, right, ?_, ?_, fun other => ?_,
    kept, copied⟩
  · rw [Index.splitLeaf, fetched, ok_bind]
    dsimp only
    rw [created, ok_bind]
    dsimp only
    rw [(fetchPage_present leafData).2, (fetchPage_present newData).2, size, behind, laid.next,
      (copied.key_at (Nat.succ_pos _)).1]
    rfl
  · rw [PageStore.set_fresh, PageStore.set_fresh, freshLeft]
  · rw [PageStore.set_pages (leafAgain.trans leafData), newPages, pages]
    split
    · rfl
    · split
      · rfl
      · rfl

end Leaves

/-! ## `bpt_insert` -/

section Inserts

variable {tree : BPlusTree PageStore} {height : Nat} {shape : PageTree height} {key : Int64}
variable {rid : Rid}

theorem putLeaf_whole {label fresh : PageId} {entries : List (Int64 × Rid)}
    (fits : (upsert key rid entries).length ≤ leafMaxKeys) :
    SearchTree.putLeaf treeCapacity fresh key rid label entries =
      .single (SearchTree.leaf label (upsert key rid entries)) := if_pos fits

theorem putLeaf_treeChanges (fresh : Nat → PageId) (key : Int64) (rid : Rid) :
    SearchTree.LeafChange treeCapacity fresh key (upsert key rid)
      (SearchTree.putLeaf treeCapacity (fresh 0) key rid) :=
  SearchTree.putLeaf_changes (by decide) rid

/-- The search tree that an insertion makes, with the ids that the pool has left for new nodes. -/
def stored (tree : BPlusTree PageStore) (shape : PageTree height) (key : Int64) (rid : Rid) :
    SearchTree.Rooted PageId Int64 Rid :=
  .put treeCapacity (freshFrom tree.bpm.fresh) key rid ⟨height, shape⟩

/-- How many of these ids it takes. -/
def taken (tree : BPlusTree PageStore) (shape : PageTree height) (key : Int64) (rid : Rid) : Nat :=
  SearchTree.Rooted.putTakes treeCapacity (freshFrom tree.bpm.fresh) key rid ⟨height, shape⟩

/-- A leaf that is changed where it lies, to hold one key more or another RID. -/
theorem Represents.putLeaf (represents : Represents tree shape) {page changedPage : Page}
    {following : PageId} (present : tree.bpm.pages (shape.leafOf key).1 = some page)
    (laid : LeafLaid page (shape.leafOf key).2 following)
    (changedLaid : LeafLaid changedPage (upsert key rid (shape.leafOf key).2) following)
    (fits : (upsert key rid (shape.leafOf key).2).length ≤ leafMaxKeys) :
    Represents { tree with bpm := tree.bpm.set (shape.leafOf key).1 changedPage }
        (stored tree shape key rid).tree ∧
      (stored tree shape key rid).tree.entries = upsert key rid shape.entries ∧
      taken tree shape key rid = 0 := by
  obtain ⟨changed, same, changedRepresents, content⟩ :=
    represents.exchangeLeaf (putLeaf_treeChanges (freshFrom tree.bpm.fresh) key rid) present laid
      changedLaid (putLeaf_whole fits)
  have put : stored tree shape key rid = ⟨height, changed⟩ := by
    rw [stored, SearchTree.Rooted.put, same]
    rfl
  rw [put, taken, SearchTree.Rooted.putTakes, same]
  exact ⟨changedRepresents, content,
    (SearchTree.change_single represents.filled (putLeaf_whole fits)).2⟩

/-- What is stored when an insertion has returned. -/
structure Inserted (tree after : BPlusTree PageStore) (shape : PageTree height) (key : Int64)
    (rid : Rid) : Prop where
  represents : Represents after (stored tree shape key rid).tree
  content : (stored tree shape key rid).tree.entries = upsert key rid shape.entries
  ids : after.bpm.fresh = tree.bpm.fresh.drop (taken tree shape key rid)
  unique : after.isUnique = tree.isUnique

/-- A unique tree refuses a key that is there. -/
theorem Represents.bptInsert_refused (represents : Represents tree shape)
    (here : (shape.entries.lookup key).isSome = true) (unique : tree.isUnique = true) :
    bptInsert tree key rid = .ok (tree, .duplicateKey) := by
  obtain ⟨page, following, present, laid, sorted, answers⟩ := represents.leaf key
  obtain ⟨_, found, _⟩ := laid.finds sorted key
  obtain ⟨fetched, shown⟩ := fetchPage_present present
  rw [answers] at here
  rw [Index.bptInsert, represents.findLeaf key, ok_bind]
  dsimp only
  rw [fetched, ok_bind]
  dsimp only
  rw [shown, if_pos (found.mpr here), unpinPage_store, ok_bind, if_pos unique]
  rfl

/-- Another tree exchanges its RID. -/
theorem Represents.bptInsert_replaces (represents : Represents tree shape)
    (here : (shape.entries.lookup key).isSome = true) (unique : tree.isUnique ≠ true) :
    ∃ after, bptInsert tree key rid = .ok (after, .ok) ∧
      Inserted tree after shape key rid ∧ taken tree shape key rid = 0 := by
  obtain ⟨page, following, present, laid, sorted, answers⟩ := represents.leaf key
  obtain ⟨place, found, _⟩ := laid.finds sorted key
  obtain ⟨fetched, shown⟩ := fetchPage_present present
  rw [answers] at here
  have finds := found.mpr here
  have inside : position key (shape.leafOf key).2 < (shape.leafOf key).2.length := by
    rw [place, laid.size] at finds
    exact Int.ofNat_lt.mp finds.1
  have sameKey : (shape.leafOf key).2[position key (shape.leafOf key).2].1 = key := by
    rw [← (laid.key_at inside).1, ← place]
    exact finds.2
  have replaced := laid.replace inside rid
  rw [sameKey, ← upsert_present sorted here] at replaced
  have fits : (upsert key rid (shape.leafOf key).2).length ≤ leafMaxKeys := by
    rw [length_upsert_present sorted here]
    exact represents.filled.leafOf key
  obtain ⟨changed, content, none⟩ := represents.putLeaf present laid replaced fits
  refine ⟨{ tree with
    bpm := tree.bpm.set (shape.leafOf key).1
      (leafSetRid page (position key (shape.leafOf key).2) rid) }, ?_,
    ⟨changed, content, ?_, rfl⟩, none⟩
  · rw [Index.bptInsert, represents.findLeaf key, ok_bind]
    dsimp only
    rw [fetched, ok_bind]
    dsimp only
    rw [shown, if_pos finds, unpinPage_store, ok_bind, if_neg unique, shown, place]
    rfl
  · rw [none]
    exact PageStore.set_fresh _ _ _

/-- A new key in a leaf with room. -/
theorem Represents.bptInsert_room (represents : Represents tree shape)
    (absent : shape.entries.lookup key = none)
    (room : (shape.leafOf key).2.length < leafMaxKeys) :
    ∃ after, bptInsert tree key rid = .ok (after, .ok) ∧
      Inserted tree after shape key rid ∧ taken tree shape key rid = 0 := by
  obtain ⟨page, following, present, laid, sorted, answers⟩ := represents.leaf key
  obtain ⟨place, found, _⟩ := laid.finds sorted key
  obtain ⟨fetched, shown⟩ := fetchPage_present present
  rw [answers] at absent
  have missing : ¬(leafFindPosition page key < bpNodeGetSize page ∧
      leafGetKey page (leafFindPosition page key) = key) := fun stored => by
    have some_ := found.mp stored
    rw [absent] at some_
    cases some_
  have few : (shape.leafOf key).2.length < 253 := room
  obtain ⟨placed, _⟩ := laid.place (position_le key _) (by omega) key rid
  rw [← upsert_absent absent] at placed
  have fits : (upsert key rid (shape.leafOf key).2).length ≤ leafMaxKeys := by
    rw [length_upsert_absent absent]
    exact room
  obtain ⟨changed, content, none⟩ := represents.putLeaf present laid placed fits
  refine ⟨{ tree with
    bpm := tree.bpm.set (shape.leafOf key).1
      (leafPlace page (position key (shape.leafOf key).2) key rid) }, ?_,
    ⟨changed, content, ?_, rfl⟩, none⟩
  · rw [Index.bptInsert, represents.findLeaf key, ok_bind]
    dsimp only
    rw [fetched, ok_bind]
    dsimp only
    rw [shown, if_neg missing, if_pos (by rw [laid.size]; omega), leafInsert,
      if_neg (by rw [laid.size]; omega), place]
    rfl
  · rw [none]
    exact PageStore.set_fresh _ _ _

/-- The tree after a climb, under its old root or under a new one. -/
theorem Represents.climbed (represents : Represents tree shape) {ids : List PageId}
    {base : BPlusTree PageStore}
    {act : PageId → List (Int64 × Rid) → Fan Int64 (PageTree 0)}
    {operation : List (Int64 × Rid) → List (Int64 × Rid)}
    (changes : SearchTree.LeafChange treeCapacity (freshFrom ids) key operation act)
    (distinct : ids.Nodup) (apart : ∀ id ∈ ids, id ∉ shape.labels)
    (sameRoot : base.rootPageId = tree.rootPageId)
    {run : Except Fault (BPlusTree PageStore × ErrorCode)}
    (ends : ClimbEnds ids act key shape invalidPageId base [] run) :
    (run = .error .overflow ∧ ids.length ≤ height + 1) ∨
      ∃ after : BPlusTree PageStore, run = .ok (after, .ok) ∧
        after.isUnique = base.isUnique ∧
        Represents after (SearchTree.Rooted.over (freshFrom ids (height + 1))
          (shape.change treeCapacity (freshFrom ids) key act)).tree ∧
        (SearchTree.Rooted.over (freshFrom ids (height + 1))
          (shape.change treeCapacity (freshFrom ids) key act)).tree.entries =
            operation shape.entries ∧
        after.bpm.fresh = ids.drop (shape.splits treeCapacity (freshFrom ids) key act +
          (shape.change treeCapacity (freshFrom ids) key act).rest.length) ∧
        shape.splits treeCapacity (freshFrom ids) key act +
          (shape.change treeCapacity (freshFrom ids) key act).rest.length ≤ height + 2 := by
  rcases ends with ⟨fails, short⟩ | ⟨store, climbed, outcome⟩
  · exact .inl ⟨fails, Nat.le_succ_of_le short⟩
  · obtain ⟨ordered, grown, content⟩ := changes.changed represents.ordered represents.filled
      (bound_inside key).1 (bound_inside key).2
    have nodup := climbed.nodup represents.nodup represents.filled distinct apart changes
    have held := climbed.holds
    have supply := climbed.supply
    obtain ⟨firstLabel, _⟩ := @SearchTree.change_first _ _ _ _ treeCapacity _ (freshFrom ids) key
      act shape changes.labelled
    obtain ⟨_, splitShape⟩ := @SearchTree.change_labels _ _ _ _ _ _ (freshFrom ids) key act _ _
      represents.filled changes.labelled
    rcases outcome with ⟨changed, whole, ends⟩ | ⟨left, middle, right, two, goesOn⟩
    · rw [whole] at ordered grown content nodup held splitShape firstLabel ⊢
      rw [Fan.children_single, List.flatMap_singleton] at content nodup
      refine .inr ⟨{ base with bpm := store }, ends, rfl,
        ⟨sameRoot.trans (represents.root.trans firstLabel.symm), held, ordered, ?_, nodup⟩,
        content, ?_, ?_⟩
      · rcases grown with ⟨_, one, filled⟩ | ⟨_, _, _, none, _⟩
        · obtain rfl := congrArg Fan.first one
          exact filled
        · cases none
      · have dropped := congrArg (List.drop (shape.splits treeCapacity (freshFrom ids) key act))
          supply
        rw [List.drop_left' (by rw [List.length_map, List.length_range])] at dropped
        exact dropped.symm
      · rcases splitShape with ⟨_, few⟩ | ⟨none, _⟩
        · exact Nat.le_trans few (Nat.le_add_right _ 2)
        · cases none
    · rw [two] at ordered grown content nodup held splitShape ⊢
      have splits : shape.splits treeCapacity (freshFrom ids) key act = height + 1 := by
        rcases splitShape with ⟨none, _⟩ | ⟨_, equal⟩
        · cases none
        · exact equal
      rw [splits] at supply ⊢
      cases remaining : store.fresh with
      | nil =>
          refine .inl ⟨goesOn.trans (insertIntoParent_rootless remaining), ?_⟩
          rw [remaining, List.append_nil] at supply
          rw [supply, List.length_map, List.length_range]
      | cons newRootPid rest =>
          obtain ⟨after, runs, fresh, pages⟩ :=
            @insertIntoParent_root { base with bpm := store } left.label right.label middle
              newRootPid rest remaining
          rw [remaining] at supply
          obtain ⟨newLabel, supplyAfter⟩ := freshFrom_next supply
          have unused : store.pages newRootPid = none :=
            store.fresh_unused newRootPid (by rw [remaining]; exact List.mem_cons_self)
          have apartRoot : newRootPid ∉
              (⟨left, [(middle, right)]⟩ : Fan Int64 (PageTree height)).children.flatMap
                SearchTree.labels := by
            intro inside
            have used := HoldsFan.present_of_mem held newRootPid inside
            rw [unused] at used
            cases used
          rw [newLabel]
          refine .inr ⟨{ base with rootPageId := newRootPid, bpm := after }, goesOn.trans runs, rfl,
            ⟨rfl, ⟨⟨_, by rw [pages]; exact if_pos rfl, newRoot_laid _ _ _ _⟩, ?_⟩, ordered, ?_,
              List.nodup_cons.mpr ⟨apartRoot, nodup⟩⟩,
            (SearchTree.entries_node _ _).trans content, ?_, Nat.le_refl _⟩
          · refine HoldsFan.congr held fun id inside => ?_
            rw [pages, if_neg]
            rintro rfl
            exact apartRoot inside
          · rcases grown with ⟨_, none, _⟩ | ⟨_, _, _, same, leftFilled, rightFilled⟩
            · cases none
            · cases same
              refine ⟨Nat.le_refl 1, show 1 ≤ internalMaxKeys by decide, fun child member => ?_⟩
              rcases List.mem_cons.mp member with here | later
              · exact here ▸ leftFilled
              · exact List.mem_singleton.mp later ▸ rightFilled
          · have dropped := congrArg (List.drop (height + 1 + 1)) supplyAfter
            rw [List.drop_left' (by rw [List.length_map, List.length_range])] at dropped
            exact fresh.trans dropped.symm

/-- A new key in a full leaf, which is split. -/
theorem Represents.bptInsert_split (represents : Represents tree shape)
    (absent : shape.entries.lookup key = none)
    (full : leafMaxKeys ≤ (shape.leafOf key).2.length) :
    (bptInsert tree key rid = .error .overflow ∧ tree.bpm.fresh.length ≤ height + 1) ∨
      ∃ after, bptInsert tree key rid = .ok (after, .ok) ∧ Inserted tree after shape key rid ∧
        taken tree shape key rid ≤ height + 2 := by
  obtain ⟨page, following, present, laid, sorted, answers⟩ := represents.leaf key
  obtain ⟨place, found, _⟩ := laid.finds sorted key
  obtain ⟨fetched, shown⟩ := fetchPage_present present
  rw [answers] at absent
  have missing : ¬(leafFindPosition page key < bpNodeGetSize page ∧
      leafGetKey page (leafFindPosition page key) = key) := fun stored => by
    have some_ := found.mp stored
    rw [absent] at some_
    cases some_
  have most : (shape.leafOf key).2.length = 253 :=
    Nat.le_antisymm (represents.filled.leafOf key) full
  obtain ⟨placed, _⟩ := laid.place (position_le key _) (by omega) key rid
  rw [← upsert_absent absent] at placed
  let store := tree.bpm.set (shape.leafOf key).1
    (leafPlace page (position key (shape.leafOf key).2) key rid)
  have pages : ∀ other, store.pages other = if other = (shape.leafOf key).1 then
      some (leafPlace page (position key (shape.leafOf key).2) key rid)
      else tree.bpm.pages other := PageStore.set_pages present _
  have reaches : bptInsert tree key rid =
      splitLeaf { tree with bpm := store } (shape.leafOf key).1 >>= fun split =>
        insertIntoParent split.1 (pathEntries (shape.pathOf key)) (shape.leafOf key).1 split.2.1
          split.2.2 := by
    rw [Index.bptInsert, represents.findLeaf key, ok_bind]
    dsimp only
    rw [fetched, ok_bind]
    dsimp only
    rw [shown, if_neg missing, if_neg (by rw [laid.size, most]; decide), place]
    rfl
  rw [reaches]
  have storePage : store.pages (shape.leafOf key).1 =
      some (leafPlace page (position key (shape.leafOf key).2) key rid) := by
    rw [pages, if_pos rfl]
  have sameFresh : store.fresh = tree.bpm.fresh := PageStore.set_fresh _ _ _
  cases supply : tree.bpm.fresh with
  | nil =>
      rw [@splitLeaf_exhausted { tree with bpm := store } _ _ storePage (sameFresh.trans supply)]
      exact .inl ⟨rfl, Nat.zero_le _⟩
  | cons newPid rest =>
      rcases SearchTree.divideLeaf_cases leafMaxKeys newPid (shape.leafOf key).1
          (upsert key rid (shape.leafOf key).2) with
        ⟨fits, _⟩ | ⟨front, entry, back, _, divided, half, halves⟩
      · rw [length_upsert_absent absent, most] at fits
        exact absurd fits (by decide)
      · rw [divided] at placed half
        obtain ⟨splitStore, leftPage, rightPage, splits, fresh, splitPages, leftLaid, rightLaid⟩ :=
          @LeafLaid.splitLeaf { tree with bpm := store } _ _ _ _ _ _ placed half storePage newPid
            rest (sameFresh.trans supply)
        rw [splits, ok_bind]
        have first : freshFrom (newPid :: rest) 0 = newPid := rfl
        have split : SearchTree.putLeaf treeCapacity (freshFrom (newPid :: rest) 0) key rid
            (shape.leafOf key).1 (shape.leafOf key).2 =
              ⟨SearchTree.leaf (shape.leafOf key).1 front,
                [(entry.1, SearchTree.leaf newPid (entry :: back))]⟩ := halves
        have unused : ∀ id ∈ newPid :: rest, tree.bpm.pages id = none := by
          rw [← supply]
          exact tree.bpm.fresh_unused
        have apart : ∀ id ∈ newPid :: rest, id ∉ shape.labels := by
          intro id isFresh inside
          have used := represents.holds.present_of_mem id inside
          rw [unused id isFresh] at used
          cases used
        have differ : newPid ≠ (shape.leafOf key).1 := by
          rintro rfl
          exact apart _ List.mem_cons_self (SearchTree.leafOf_mem_labels shape key)
        have ends := @Holds.climb (newPid :: rest) _ key _ tree.bpm.pages invalidPageId height 1
          shape { tree with bpm := splitStore } represents.holds represents.nodup represents.filled
          unused (putLeaf_treeChanges _ key rid) (by rw [first]; exact congrArg _ fresh.symm)
          _ _ _ split
          (fun id inside differs => by
            have notNew : id ≠ newPid := fun same =>
              apart newPid List.mem_cons_self (same ▸ inside)
            rw [splitPages, if_neg differs, if_neg notNew]
            exact (pages id).trans (if_neg differs))
          (fun other next otherPresent otherLaid => by
            obtain rfl := Option.some.inj (present.symm.trans otherPresent)
            obtain rfl := laid.next.symm.trans otherLaid.next
            rw [split]
            exact ⟨⟨leftPage, by rw [splitPages, if_pos rfl], leftLaid⟩,
              rightPage, by rw [splitPages, if_neg differ, if_pos rfl], rightLaid⟩) []
        rw [List.append_nil] at ends
        have sameRoot : ({ tree with bpm := splitStore } : BPlusTree PageStore).rootPageId =
            tree.rootPageId := rfl
        have finished := represents.climbed (putLeaf_treeChanges _ key rid)
          (by rw [← supply]; exact tree.bpm.fresh_nodup) apart sameRoot ends
        rw [← supply] at finished
        rcases finished with ⟨fails, few⟩ | ⟨after, ran, unique, changed, content, left, few⟩
        · exact .inl ⟨fails, by rw [← supply]; exact few⟩
        · exact .inr ⟨after, ran, ⟨changed, content, left, unique⟩, few⟩

/-- A key that is not there is stored, unless the pool runs out of pages. -/
theorem Represents.bptInsert_absent (represents : Represents tree shape) (rid : Rid)
    (absent : shape.entries.lookup key = none) :
    (bptInsert tree key rid = .error .overflow ∧ tree.bpm.fresh.length ≤ height + 1) ∨
      ∃ after, bptInsert tree key rid = .ok (after, .ok) ∧ Inserted tree after shape key rid ∧
        taken tree shape key rid ≤ height + 2 := by
  by_cases room : (shape.leafOf key).2.length < leafMaxKeys
  · obtain ⟨after, ran, inserted, none⟩ :=
      @Represents.bptInsert_room tree height shape key rid represents absent room
    exact .inr ⟨after, ran, inserted, by rw [none]; exact Nat.zero_le _⟩
  · exact represents.bptInsert_split absent (Nat.not_lt.mp room)

end Inserts

end MiniSqlite.Index
