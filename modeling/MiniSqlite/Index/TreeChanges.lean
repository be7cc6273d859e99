import MiniSqlite.Index.TreePages

/-!
# Changes of a tree in its pages

One lemma for each of `bpt_find`, `bpt_remove` and `bpt_insert`: which code it returns, and which
tree the pages hold afterwards. A change that leaves the leaf whole touches the page of that
leaf. A split is carried upwards along the recorded path until a node has room for the key or
there is a new root.
-/

namespace MiniSqlite.Index

open MiniSqlite.Common MiniSqlite.Std MiniSqlite.Storage MiniSqlite.Buffer

/-- The search in a leaf finds the key if it is there, and its RID. -/
theorem LeafLaid.finds {page : Page} {entries : List (Int64 × Rid)} {next : PageId}
    (laid : LeafLaid page entries next) (sorted : SortedKeys entries) (key : Int64) :
    leafFindPosition page key = position key entries ∧
      (leafFindPosition page key < bpNodeGetSize page ∧
          leafGetKey page (leafFindPosition page key) = key ↔
        (entries.lookup key).isSome = true) ∧
      ∀ rid, entries.lookup key = some rid → leafGetRid page (leafFindPosition page key) = rid := by
  have found : leafFindPosition page key = position key entries :=
    laid.findPosition (sorted.imp Int64.le_of_lt) key
  refine ⟨found, ?_⟩
  rw [found, laid.size, lookup_eq_position sorted key]
  by_cases inside : position key entries < entries.length
  · obtain ⟨keyAt, ridAt⟩ := laid.key_at inside
    rw [keyAt, ridAt, List.getElem?_eq_getElem inside]
    by_cases same : entries[position key entries].1 = key
    · simp [same, inside, Option.filter]
    · simp [same, Option.filter]
  · rw [List.getElem?_eq_none (by omega)]
    refine ⟨⟨fun here => ?_, fun here => by simp at here⟩, fun rid here => by simp at here⟩
    omega

/-! ## Trees on pages -/

section Leaves

variable {pages after : PageId → Option Page} {height least : Nat} {next : PageId}
variable {tree : PageTree height} {fresh : Nat → PageId} {key : Int64}
variable {act : PageId → List (Int64 × Rid) → Fan Int64 (PageTree 0)}

/-- Where only the page of the leaf changes, and holds the changed leaf, the pages hold the
changed tree. -/
theorem Holds.exchangeLeaf (holds : Holds pages next tree) (nodup : tree.labels.Nodup)
    (filled : tree.Filled treeCapacity least) {entries : List (Int64 × Rid)}
    (whole : act (tree.leafOf key).1 (tree.leafOf key).2 =
      .single (SearchTree.leaf (tree.leafOf key).1 entries))
    (others : ∀ id ≠ (tree.leafOf key).1, after id = pages id)
    (laid : ∀ page following, pages (tree.leafOf key).1 = some page →
      LeafLaid page (tree.leafOf key).2 following →
      ∃ page', after (tree.leafOf key).1 = some page' ∧ LeafLaid page' entries following) :
    ∃ changed, tree.change treeCapacity fresh key act = .single changed ∧
      Holds after next changed ∧ changed.label = tree.label ∧
      changed.firstLeaf = tree.firstLeaf ∧ changed.labels = tree.labels := by
  induction height generalizing next least with
  | zero =>
      obtain ⟨label, stored⟩ := tree
      obtain ⟨page, present, old⟩ := holds
      exact ⟨SearchTree.leaf label entries, whole, laid page next present old, rfl, rfl, rfl⟩
  | succ height ih =>
      obtain ⟨label, fan⟩ := tree
      obtain ⟨⟨page, present, old⟩, chained⟩ := holds
      obtain ⟨_, most, children⟩ := filled
      obtain ⟨labelApart, below⟩ := List.nodup_cons.mp nodup
      obtain ⟨childNodup, apart⟩ := SearchTree.locate_nodup below key
      obtain ⟨following, child, exchange⟩ := HoldsFan.locate chained key
      obtain ⟨changed, same, held, sameLabel, sameLeaf, sameLabels⟩ :=
        ih child childNodup (children _ (fan.locate_child_mem key)) whole others laid
      have leafInside : (SearchTree.leafOf key (fan.locate key).child).1 ∈
          (fan.locate key).child.labels := SearchTree.leafOf_mem_labels _ key
      have reads {β : Type} (read : PageTree height → β)
          (same : read changed = read (fan.locate key).child) :
          ((fan.locate key).fill (.single changed)).map read = fan.map read := by
        rw [(fan.locate key).map_fill_single same, fan.fill_locate]
      have sameFan := reads SearchTree.label sameLabel
      have labelDiffers : label ≠ (SearchTree.leafOf key (fan.locate key).child).1 := by
        rintro rfl
        exact labelApart (mem_flatMap_labels (fan.locate_child_mem key) leafInside)
      refine ⟨SearchTree.node label ((fan.locate key).fill (.single changed)), ?_,
        ⟨⟨page, (others label labelDiffers).trans present, ?_⟩, ?_⟩, rfl, ?_, ?_⟩
      · rw [SearchTree.change, same]
        refine if_pos ?_
        rw [SearchTree.length_fill_locate]
        exact most
      · exact old.congr sameFan
      · refine exchange after (.single changed) sameLeaf (fun other member id inside => ?_) held
        refine others id fun isLeaf => apart other member id inside ?_
        exact isLeaf ▸ leafInside
      · exact congrArg Fan.first (reads SearchTree.firstLeaf sameLeaf)
      · have childrenLabels := congrArg (fun fan => fan.children.flatten)
          (reads SearchTree.labels sameLabels)
        simp only [Fan.children_map, ← List.flatMap_def] at childrenLabels
        exact congrArg (label :: ·) childrenLabels

end Leaves

/-! ## The whole tree -/

/-- The pages of a tree hold a search tree under its root, without a page that occurs twice. -/
structure Represents (tree : BPlusTree PageStore) {height : Nat} (shape : PageTree height) : Prop where
  root : tree.rootPageId = shape.label
  holds : Holds tree.bpm.pages invalidPageId shape
  ordered : shape.Ordered ⊥ ⊤
  filled : shape.Filled treeCapacity 1
  nodup : shape.labels.Nodup

section Trees

variable {tree : BPlusTree PageStore} {height : Nat} {shape : PageTree height} {key : Int64}

/-- A tree of more than five levels of internal nodes would have more nodes than there are page
ids. -/
theorem Represents.height_le (represents : Represents tree shape) : height ≤ 5 := by
  have missing : invalidPageId ∉ shape.labels := by
    intro member
    have present := represents.holds.present_of_mem _ member
    rw [tree.bpm.invalid_unused.2] at present
    cases present
  have few := length_lt_of_missing invalidPageId represents.nodup missing
  cases height with
  | zero => exact Nat.zero_le 5
  | succ height =>
      obtain ⟨label, fan⟩ := shape
      have many := represents.filled.length_labels
      by_contra tall
      have power : (treeCapacity.inner / 2 + 1) ^ 5 ≤ (treeCapacity.inner / 2 + 1) ^ height :=
        Nat.pow_le_pow_right (by decide) (by omega)
      have large : 4294967296 ≤ (1 + 1) * (treeCapacity.inner / 2 + 1) ^ 5 := by decide
      have least := Nat.mul_le_mul_left 2 power
      have length : 4294967296 ≤ (SearchTree.node label fan).labels.length :=
        large.trans (least.trans many)
      exact absurd few (Nat.not_lt.mpr length)

theorem bound_inside (key : Int64) : (⊥ : Bound Int64) ≤ bound key ∧ bound key < ⊤ :=
  ⟨bot_le, WithBot.coe_lt_coe.mpr (WithTop.coe_lt_top key)⟩

theorem Represents.findLeaf (represents : Represents tree shape) (key : Int64) :
    findLeaf tree key =
      .ok (tree, some ((shape.leafOf key).1, pathEntries (shape.pathOf key))) := by
  have walk := represents.holds.findLeafFrom represents.ordered (bound_inside key).1
    (bound_inside key).2 (show height ≤ pathLength from represents.height_le.trans (by decide)) []
  rw [← represents.root, List.append_nil] at walk
  rw [Index.findLeaf, walk, ok_bind]
  rfl

/-- The page of the leaf where a key leads, and what the tree says about the key. -/
theorem Represents.leaf (represents : Represents tree shape) (key : Int64) :
    ∃ page following, tree.bpm.pages (shape.leafOf key).1 = some page ∧
      LeafLaid page (shape.leafOf key).2 following ∧ SortedKeys (shape.leafOf key).2 ∧
      shape.entries.lookup key = (shape.leafOf key).2.lookup key := by
  obtain ⟨page, following, present, laid⟩ := represents.holds.leafOf key
  obtain ⟨sorted, answers⟩ :=
    represents.ordered.leafOf (bound_inside key).1 (bound_inside key).2
  exact ⟨page, following, present, laid, sorted, answers⟩

/-- `bpt_find` returns the RID of the key if and only if there is one. -/
theorem Represents.bptFind (represents : Represents tree shape) (key : Int64) :
    bptFind tree key =
      .ok (tree, (shape.entries.lookup key).elim (.error .pageNotFound) .ok) := by
  obtain ⟨page, following, present, laid, sorted, answers⟩ := represents.leaf key
  obtain ⟨_, found, ridAt⟩ := laid.finds sorted key
  obtain ⟨fetched, shown⟩ := fetchPage_present present
  rw [Index.bptFind, represents.findLeaf key, ok_bind]
  dsimp only
  rw [fetched, ok_bind]
  dsimp only
  rw [shown, unpinPage_store, ok_bind, answers]
  cases stored : (shape.leafOf key).2.lookup key with
  | none =>
      rw [stored] at found
      rw [if_neg fun here => by simpa using found.mp here]
      rfl
  | some rid =>
      rw [stored] at found
      rw [if_pos (found.mpr rfl), ridAt rid stored]
      rfl

/-- A leaf that is changed where it lies changes the tree. -/
theorem Represents.exchangeLeaf (represents : Represents tree shape) {page changedPage : Page}
    {following : PageId} {entries : List (Int64 × Rid)} {fresh : Nat → PageId}
    {act : PageId → List (Int64 × Rid) → Fan Int64 (PageTree 0)}
    {operation : List (Int64 × Rid) → List (Int64 × Rid)}
    (changes : SearchTree.LeafChange treeCapacity fresh key operation act)
    (present : tree.bpm.pages (shape.leafOf key).1 = some page)
    (laid : LeafLaid page (shape.leafOf key).2 following)
    (changedLaid : LeafLaid changedPage entries following)
    (whole : act (shape.leafOf key).1 (shape.leafOf key).2 =
      .single (SearchTree.leaf (shape.leafOf key).1 entries)) :
    ∃ changed : PageTree height,
      shape.change treeCapacity fresh key act = .single changed ∧
        Represents { tree with bpm := tree.bpm.set (shape.leafOf key).1 changedPage } changed ∧
        changed.entries = operation shape.entries := by
  let store := tree.bpm.set (shape.leafOf key).1 changedPage
  have pages : ∀ other, store.pages other =
      if other = (shape.leafOf key).1 then some changedPage else tree.bpm.pages other :=
    PageStore.set_pages present changedPage
  obtain ⟨changed, same, holds, label, _, labels⟩ :=
    @Holds.exchangeLeaf _ store.pages _ _ _ _ fresh key act represents.holds represents.nodup
      represents.filled entries whole (fun id differs => by rw [pages, if_neg differs])
      (fun other next found otherLaid => by
        obtain rfl := Option.some.inj (present.symm.trans found)
        obtain rfl := laid.next.symm.trans otherLaid.next
        exact ⟨changedPage, by rw [pages, if_pos rfl], changedLaid⟩)
  obtain ⟨ordered, grown, content⟩ := changes.changed represents.ordered represents.filled
    (bound_inside key).1 (bound_inside key).2
  rw [same] at ordered grown content
  rw [Fan.children_single, List.flatMap_singleton] at content
  refine ⟨changed, same, ⟨represents.root.trans label.symm, holds, ordered, ?_, ?_⟩, content⟩
  · rcases grown with ⟨_, one, filled⟩ | ⟨_, _, _, two, _⟩
    · obtain rfl := congrArg Fan.first one
      exact filled
    · cases two
  · rw [labels]
    exact represents.nodup

/-- `bpt_remove` reports that there is no such key, and changes nothing. -/
theorem Represents.bptRemove_absent (represents : Represents tree shape)
    (absent : shape.entries.lookup key = none) :
    bptRemove tree key = .ok (tree, .pageNotFound) := by
  obtain ⟨page, following, present, laid, sorted, answers⟩ := represents.leaf key
  obtain ⟨_, found, _⟩ := laid.finds sorted key
  obtain ⟨fetched, shown⟩ := fetchPage_present present
  rw [← answers, absent] at found
  have missing : ¬(leafFindPosition page key < bpNodeGetSize page ∧
      leafGetKey page (leafFindPosition page key) = key) := fun here => by
    simpa using found.mp here
  rw [Index.bptRemove, represents.findLeaf key, ok_bind]
  dsimp only
  rw [fetched, ok_bind]
  dsimp only
  rw [shown, if_pos (by rw [ge_iff_le, ← Int.not_lt]; exact not_and_or.mp missing)]
  rfl

/-- `bpt_remove` removes a key. -/
theorem Represents.bptRemove_present (represents : Represents tree shape)
    (here : (shape.entries.lookup key).isSome = true) (fresh : Nat → PageId) :
    ∃ after : BPlusTree PageStore,
      bptRemove tree key = .ok (after, .ok) ∧
      Represents after (SearchTree.Rooted.erase treeCapacity fresh key ⟨height, shape⟩).tree ∧
      (SearchTree.Rooted.erase treeCapacity fresh key ⟨height, shape⟩).tree.entries =
        eraseKey key shape.entries ∧
      after.bpm.fresh = tree.bpm.fresh ∧ after.isUnique = tree.isUnique := by
  obtain ⟨page, following, present, laid, sorted, answers⟩ := represents.leaf key
  obtain ⟨position, found, _⟩ := laid.finds sorted key
  obtain ⟨fetched, shown⟩ := fetchPage_present present
  rw [answers] at here
  have stored := found.mpr here
  have inside := stored.1
  rw [laid.size, position] at inside
  obtain ⟨_, removedLaid, _⟩ := laid.remove (Int.ofNat_lt.mp inside) laid.length_lt
  rw [← eraseKey_present sorted here] at removedLaid
  have erases : SearchTree.LeafChange treeCapacity fresh key
      (fun entries : List (Int64 × Rid) => eraseKey key entries) (SearchTree.eraseLeaf key) :=
    SearchTree.eraseLeaf_changes
  obtain ⟨changed, same, changedRepresents, content⟩ :=
    represents.exchangeLeaf erases present laid removedLaid rfl
  have erased : SearchTree.Rooted.erase treeCapacity fresh key ⟨height, shape⟩ =
      ⟨height, changed⟩ := by
    rw [SearchTree.Rooted.erase, same]
    rfl
  rw [erased]
  refine ⟨_, ?_, changedRepresents, content, PageStore.set_fresh _ _ _, rfl⟩
  rw [Index.bptRemove, represents.findLeaf key, ok_bind]
  dsimp only
  rw [fetched, ok_bind]
  dsimp only
  rw [shown, if_neg (by rw [ge_iff_le, ← Int.not_lt, ← not_and_or, not_not]; exact stored),
    position]
  rfl

end Trees

end MiniSqlite.Index
