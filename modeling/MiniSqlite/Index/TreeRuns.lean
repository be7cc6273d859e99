import MiniSqlite.Index.TreeInserts
import MiniSqlite.Std.Run

/-!
# Runs of tree calls

Insertions, removals and searches in any order, from a tree whose root is an empty leaf: the tree
answers as a finite map does, until the pool has no page id left, and its pages always hold a
search tree. From the number of children that every inner node keeps it follows that there are
few levels, so the path array of `find_leaf` is long enough.
-/

namespace MiniSqlite.Index

open MiniSqlite.Common MiniSqlite.Std MiniSqlite.Storage MiniSqlite.Buffer

/-- The calls on a tree. -/
inductive TreeCall
  | insert (key : Int64) (rid : Rid)
  | remove (key : Int64)
  | find (key : Int64)
  deriving DecidableEq, Repr

/-- What a call returns: a code, or what was found. -/
inductive TreeAnswer
  | code (rc : ErrorCode)
  | found (rid : Except ErrorCode Rid)

def TreeCall.run (tree : BPlusTree PageStore) :
    TreeCall → Except Fault (BPlusTree PageStore × TreeAnswer)
  | .insert key rid => do
      let (tree, rc) ← bptInsert tree key rid
      return (tree, .code rc)
  | .remove key => do
      let (tree, rc) ← bptRemove tree key
      return (tree, .code rc)
  | .find key => do
      let (tree, rid) ← bptFind tree key
      return (tree, .found rid)

/-- The same calls on a map from keys to RIDs. -/
def TreeCall.onMap (unique : Bool) (map : Int64 → Option Rid) :
    TreeCall → (Int64 → Option Rid) × TreeAnswer
  | .insert key rid =>
      if (map key).isSome ∧ unique then (map, .code .duplicateKey)
      else (Function.update map key (some rid), .code .ok)
  | .remove key =>
      if (map key).isSome then (Function.update map key none, .code .ok)
      else (map, .code .pageNotFound)
  | .find key => (map, .found ((map key).elim (.error .pageNotFound) .ok))

/-- The root is a leaf without entries. -/
def StartsEmpty (tree : BPlusTree PageStore) : Prop :=
  ∃ page, tree.bpm.pages tree.rootPageId = some page ∧ LeafLaid page [] invalidPageId

theorem StartsEmpty.represents {tree : BPlusTree PageStore} (empty : StartsEmpty tree) :
    Represents tree (SearchTree.leaf tree.rootPageId []) := by
  obtain ⟨page, present, laid⟩ := empty
  refine ⟨rfl, ⟨page, present, laid⟩, ⟨?_, List.Pairwise.nil, fun _ member => ?_⟩,
    Nat.zero_le _, List.nodup_singleton _⟩
  · exact WithBot.bot_lt_coe _
  · exact absurd member List.not_mem_nil

/-- `bpt_init` makes such a tree. -/
theorem bptInit_startsEmpty {store : PageStore} {pid : PageId} {rest : List PageId}
    (supply : store.fresh = pid :: rest) (indexId : Catalog.IndexId) (unique : Bool) :
    ∃ after, bptInit indexId invalidPageId store unique =
        .ok (after, .ok ⟨indexId, pid, after, unique⟩) ∧
      after.fresh = rest ∧ StartsEmpty ⟨indexId, pid, after, unique⟩ := by
  obtain ⟨allocated, allocates, freshLeft, pages⟩ := PageStore.allocate_cons supply
  have newData : allocated.pages pid = some zeroPage := by rw [pages, if_pos rfl]
  have created : PagePool.newPage store = .ok (allocated, some (pid, pid)) := by
    show (PageStore.allocate _ >>= _) = _
    rw [allocates]
    rfl
  have set := PageStore.set_pages newData (initLeafPage zeroPage)
  refine ⟨allocated.set pid (initLeafPage zeroPage), ?_, ?_,
    ⟨_, (set pid).trans (if_pos rfl), initLeafPage_laid zeroPage⟩⟩
  · rw [bptInit, if_pos rfl, created, ok_bind]
    dsimp only
    rw [(fetchPage_present newData).2]
    rfl
  · rw [PageStore.set_fresh, freshLeft]

/-- What the calls make of a search tree and of the page ids that are left. -/
def TreeCall.onShape (unique : Bool) (state : SearchTree.Rooted PageId Int64 Rid × List PageId) :
    TreeCall → SearchTree.Rooted PageId Int64 Rid × List PageId
  | .insert key rid =>
      if (state.1.tree.entries.lookup key).isSome ∧ unique then state
      else (state.1.put treeCapacity (freshFrom state.2) key rid,
        state.2.drop (state.1.putTakes treeCapacity (freshFrom state.2) key rid))
  | .remove key =>
      if (state.1.tree.entries.lookup key).isSome then
        (state.1.erase treeCapacity (freshFrom state.2) key, state.2)
      else state
  | .find _ => state

/-- The pages of the tree hold this search tree, with the entries of the map, and the pool has
these ids left. -/
structure StandsFor (unique : Bool) (tree : BPlusTree PageStore)
    (state : SearchTree.Rooted PageId Int64 Rid × List PageId) (map : Int64 → Option Rid) :
    Prop where
  unique : tree.isUnique = unique
  represents : Represents tree state.1.tree
  ids : tree.bpm.fresh = state.2
  content : ∀ key, state.1.tree.entries.lookup key = map key

section Calls

variable {tree : BPlusTree PageStore} {unique : Bool} {map : Int64 → Option Rid}
variable {state : SearchTree.Rooted PageId Int64 Rid × List PageId}

theorem lookup_inserted {entries : List (Int64 × Rid)}
    (content : ∀ key, entries.lookup key = map key) (key : Int64) (rid : Rid) (other : Int64) :
    (upsert key rid entries).lookup other = Function.update map key (some rid) other := by
  rw [lookup_upsert, Function.update_apply, content]

theorem lookup_removed {entries : List (Int64 × Rid)} (sorted : SortedKeys entries)
    (content : ∀ key, entries.lookup key = map key) (key other : Int64) :
    (eraseKey key entries).lookup other = Function.update map key none other := by
  rw [lookup_eraseKey sorted, Function.update_apply, content]

/-- An insertion that has stored the key. -/
theorem StandsFor.inserted (standsFor : StandsFor unique tree state map) {key : Int64} {rid : Rid}
    {after : BPlusTree PageStore} (inserted : Inserted tree after state.1.tree key rid)
    (accepts : ¬((map key).isSome = true ∧ unique = true)) :
    StandsFor unique after ((TreeCall.insert key rid).onShape unique state)
      ((TreeCall.insert key rid).onMap unique map).1 := by
  obtain ⟨represents, content, ids, same⟩ := inserted
  rw [TreeCall.onShape, if_neg (by rwa [standsFor.content]), TreeCall.onMap, if_neg accepts,
    ← standsFor.ids]
  refine ⟨same.trans standsFor.unique, represents, ids, fun other => ?_⟩
  exact (congrArg (·.lookup other) content).trans
    (lookup_inserted standsFor.content key rid other)

/-- Each call answers as on the map, and the tree then stands for what the search tree and the map
have become; an insertion may fail when there are not enough page ids left for its splits. -/
theorem TreeCall.refines (standsFor : StandsFor unique tree state map) (call : TreeCall) :
    (call.run tree = .error .overflow ∧ tree.bpm.fresh.length < 7) ∨
      ∃ after, call.run tree = .ok (after, (call.onMap unique map).2) ∧
        StandsFor unique after (call.onShape unique state) (call.onMap unique map).1 ∧
        tree.bpm.fresh.length ≤ after.bpm.fresh.length + 7 := by
  have represents := standsFor.represents
  have content := standsFor.content
  cases call with
  | find key =>
      refine .inr ⟨tree, ?_, standsFor, Nat.le_add_right _ 7⟩
      rw [TreeCall.run, represents.bptFind key, ok_bind, content]
      rfl
  | remove key =>
      by_cases here : (map key).isSome = true
      · obtain ⟨after, ran, afterRepresents, erased, fresh, isUnique⟩ :=
          represents.bptRemove_present (by rwa [content]) (freshFrom state.2)
        refine .inr ⟨after, ?_, ⟨isUnique.trans standsFor.unique, ?_, ?_, fun other => ?_⟩,
          by rw [fresh]; exact Nat.le_add_right _ 7⟩
        · rw [TreeCall.run, ran, ok_bind, TreeCall.onMap, if_pos here]
          rfl
        · rw [TreeCall.onShape, if_pos (by rwa [content])]
          exact afterRepresents
        · rw [TreeCall.onShape, if_pos (by rwa [content])]
          exact fresh.trans standsFor.ids
        · rw [TreeCall.onShape, if_pos (by rwa [content]), TreeCall.onMap, if_pos here]
          exact (congrArg (·.lookup other) erased).trans
            (lookup_removed represents.ordered.entries.1 content key other)
      · have absent : state.1.tree.entries.lookup key = none := by
          rw [content]
          exact Option.not_isSome_iff_eq_none.mp here
        refine .inr ⟨tree, ?_, ?_, Nat.le_add_right _ 7⟩
        · rw [TreeCall.run, represents.bptRemove_absent absent, ok_bind, TreeCall.onMap,
            if_neg here]
          rfl
        · rw [TreeCall.onShape, if_neg (by rwa [content]), TreeCall.onMap, if_neg here]
          exact standsFor
  | insert key rid =>
      by_cases refuses : (map key).isSome = true ∧ unique = true
      · refine .inr ⟨tree, ?_, ?_, Nat.le_add_right _ 7⟩
        · rw [TreeCall.run, represents.bptInsert_refused (by rw [content]; exact refuses.1)
            (standsFor.unique.trans refuses.2), ok_bind, TreeCall.onMap, if_pos refuses]
          rfl
        · rw [TreeCall.onShape, if_pos (by rwa [content]), TreeCall.onMap, if_pos refuses]
          exact standsFor
      · have answered : ((TreeCall.insert key rid).onMap unique map).2 = .code .ok := by
          rw [TreeCall.onMap, if_neg refuses]
        rw [answered]
        have low := represents.height_le
        have stores : (bptInsert tree key rid = .error .overflow ∧
            tree.bpm.fresh.length ≤ state.1.height + 1) ∨
            ∃ after, bptInsert tree key rid = .ok (after, .ok) ∧
              Inserted tree after state.1.tree key rid ∧
              taken tree state.1.tree key rid ≤ state.1.height + 2 := by
          by_cases here : (map key).isSome = true
          · have notUnique : tree.isUnique ≠ true := fun isUnique =>
              refuses ⟨here, standsFor.unique.symm.trans isUnique⟩
            obtain ⟨after, ran, inserted, none⟩ := @Represents.bptInsert_replaces tree _ _ key rid
              represents (by rwa [content]) notUnique
            exact .inr ⟨after, ran, inserted, by rw [none]; exact Nat.zero_le _⟩
          · refine represents.bptInsert_absent rid ?_
            rw [content]
            exact Option.not_isSome_iff_eq_none.mp here
        rcases stores with ⟨fails, few⟩ | ⟨after, ran, inserted, few⟩
        · refine .inl ⟨?_, by omega⟩
          rw [TreeCall.run, fails]
          rfl
        · refine .inr ⟨after, ?_, standsFor.inserted inserted refuses, ?_⟩
          · rw [TreeCall.run, ran, ok_bind]
            rfl
          · rw [inserted.ids, List.length_drop]
            omega

end Calls

/-! ## Runs -/

/-- The search tree that a run makes of an empty leaf. -/
def shapeAfter (tree : BPlusTree PageStore) (calls : List TreeCall) :
    SearchTree.Rooted PageId Int64 Rid :=
  (run (TreeCall.onShape tree.isUnique) (⟨0, SearchTree.leaf tree.rootPageId []⟩, tree.bpm.fresh)
    calls).1

/-- The map that a run makes of the empty map, and its answers. -/
def mapAfter (unique : Bool) (calls : List TreeCall) : (Int64 → Option Rid) × List TreeAnswer :=
  runAnswers (TreeCall.onMap unique) (fun _ => none) calls

/-- A run answers as the map, and then the pages hold the search tree that it has made, or there
were fewer than seven page ids for each call. -/
theorem treeCalls_refine {tree : BPlusTree PageStore} (empty : StartsEmpty tree)
    (calls : List TreeCall) :
    (executeAnswers TreeCall.run tree calls = .error .overflow ∧
        tree.bpm.fresh.length < 7 * calls.length) ∨
      ∃ last, executeAnswers TreeCall.run tree calls =
          .ok (last, (mapAfter tree.isUnique calls).2) ∧
        Represents last (shapeAfter tree calls).tree ∧ last.isUnique = tree.isUnique ∧
        ∀ key, (shapeAfter tree calls).tree.entries.lookup key =
          (mapAfter tree.isUnique calls).1 key := by
  have start : StandsFor tree.isUnique tree
      (⟨0, SearchTree.leaf tree.rootPageId []⟩, tree.bpm.fresh) fun _ => none :=
    ⟨rfl, empty.represents, rfl, fun _ => rfl⟩
  let related (tree' : BPlusTree PageStore)
      (pair : (SearchTree.Rooted PageId Int64 Rid × List PageId) × (Int64 → Option Rid)) : Prop :=
    StandsFor tree.isUnique tree' pair.1 pair.2
  let step (pair : (SearchTree.Rooted PageId Int64 Rid × List PageId) × (Int64 → Option Rid))
      (call : TreeCall) :=
    ((call.onShape tree.isUnique pair.1, (call.onMap tree.isUnique pair.2).1),
      (call.onMap tree.isUnique pair.2).2)
  have outcome := executeAnswers_refines_or (fun tree : BPlusTree PageStore => tree.bpm.fresh.length)
    (show ∀ tree' pair call, related tree' pair →
        (TreeCall.run tree' call = .error .overflow ∧ tree'.bpm.fresh.length < 7) ∨
          ∃ next, TreeCall.run tree' call = .ok (next, (step pair call).2) ∧
            related next (step pair call).1 ∧
            tree'.bpm.fresh.length ≤ next.bpm.fresh.length + 7
      from fun _ _ call standsFor => TreeCall.refines standsFor call)
    (show related tree ((⟨0, SearchTree.leaf tree.rootPageId []⟩, tree.bpm.fresh), fun _ => none)
      from start) calls
  rw [runAnswers_beside] at outcome
  rcases outcome with fails | ⟨last, ran, standsFor⟩
  · exact .inl fails
  · exact .inr ⟨last, ran, standsFor.represents, standsFor.unique, standsFor.content⟩

/-- A tree whose root is an empty leaf answers as a finite map does, as long as the pool has page
ids left. After every run its pages hold a search tree with the entries of that map: the keys of
each node increase and bound the subtrees on both sides, the leaves stand at one height and are
linked from left to right, and no leaf or node holds more than it has room for. -/
theorem tree_refines_map {tree : BPlusTree PageStore} (empty : StartsEmpty tree)
    (calls : List TreeCall) :
    (executeAnswers TreeCall.run tree calls = .error .overflow ∧
        tree.bpm.fresh.length < 7 * calls.length) ∨
      ∃ (last : BPlusTree PageStore) (height : Nat) (shape : PageTree height),
        executeAnswers TreeCall.run tree calls = .ok (last, (mapAfter tree.isUnique calls).2) ∧
        (∀ key, shape.entries.lookup key = (mapAfter tree.isUnique calls).1 key) ∧
        last.rootPageId = shape.label ∧ Holds last.bpm.pages invalidPageId shape ∧
        Linked last.bpm.pages shape.leaves invalidPageId ∧ shape.labels.Nodup ∧
        shape.Sorted ∧ shape.Ordered ⊥ ⊤ ∧ shape.Filled ⟨253, 338⟩ 1 := by
  rcases treeCalls_refine empty calls with fails | ⟨last, ran, represents, _, content⟩
  · exact .inl fails
  · exact .inr ⟨last, _, (shapeAfter tree calls).tree, ran, content, represents.root,
      represents.holds, represents.holds.linked, represents.nodup, represents.ordered.sorted,
      represents.ordered, represents.filled⟩

/-- A store with one page, an empty leaf, and ids for fourteen more. -/
def emptyLeafStore : PageStore where
  pages pid := if pid = 0 then some (initLeafPage zeroPage) else none
  fresh := [1, 2, 3, 4, 5, 6, 7, 8, 9, 10, 11, 12, 13, 14]
  fresh_nodup := by decide
  fresh_unused := by
    intro pid member
    refine if_neg ?_
    rintro rfl
    exact absurd member (by decide)
  invalid_unused := ⟨by decide, rfl⟩

def emptyTree : BPlusTree PageStore := ⟨1, 0, emptyLeafStore, true⟩

theorem emptyTree_startsEmpty : StartsEmpty emptyTree :=
  ⟨initLeafPage zeroPage, rfl, initLeafPage_laid zeroPage⟩

/-- A key stored in an empty tree and found again. -/
theorem tree_refines_map_found : ∃ last,
    executeAnswers TreeCall.run emptyTree [.insert 5 ⟨1, 2⟩, .find 5] =
      .ok (last, [.code .ok, .found (.ok ⟨1, 2⟩)]) := by
  rcases tree_refines_map emptyTree_startsEmpty [.insert 5 ⟨1, 2⟩, .find 5] with
    ⟨_, few⟩ | ⟨last, _, _, ran, _⟩
  · exact absurd few (by decide)
  · exact ⟨last, ran⟩

/-! ## Levels -/

/-- After every run, each inner node below the root has at least 170 children, so that the walk of
`find_leaf` ends at a leaf after at most five steps: its path array is long enough. -/
theorem findLeaf_pathFits {tree last : BPlusTree PageStore} (empty : StartsEmpty tree)
    {calls : List TreeCall} {answers : List TreeAnswer}
    (ran : executeAnswers TreeCall.run tree calls = .ok (last, answers)) :
    ∃ (height : Nat) (shape : PageTree height), Represents last shape ∧
      (∀ arity ∈ shape.arities.tail, 170 ≤ arity) ∧ height ≤ 5 ∧
      ∀ key, ∃ leaf path, findLeaf last key = .ok (last, some (leaf, path)) ∧
        path.length = height ∧ path.length ≤ pathLength := by
  rcases treeCalls_refine empty calls with
    ⟨fails, _⟩ | ⟨other, same, represents, _⟩
  · rw [fails] at ran
    cases ran
  · obtain ⟨rfl, _⟩ := Prod.mk.inj (Except.ok.inj (same.symm.trans ran))
    have low := represents.height_le
    refine ⟨_, _, represents, represents.filled.arities_tail, low, fun key => ?_⟩
    have length : (pathEntries ((shapeAfter tree calls).tree.pathOf key)).length =
        (shapeAfter tree calls).height := by
      rw [pathEntries, List.length_map, SearchTree.length_pathOf]
    refine ⟨_, _, represents.findLeaf key, length, ?_⟩
    rw [length]
    exact low.trans (by decide)

/-- The walk in a tree with one key. -/
theorem findLeaf_pathFits_oneKey : ∃ last answers,
    executeAnswers TreeCall.run emptyTree [.insert 5 ⟨1, 2⟩] = .ok (last, answers) ∧
      ∀ key, ∃ leaf path, findLeaf last key = .ok (last, some (leaf, path)) ∧
        path.length ≤ pathLength := by
  rcases treeCalls_refine emptyTree_startsEmpty [.insert 5 ⟨1, 2⟩] with
    ⟨_, few⟩ | ⟨last, ran, _⟩
  · exact absurd few (by decide)
  · obtain ⟨_, _, _, _, _, walks⟩ := findLeaf_pathFits emptyTree_startsEmpty ran
    refine ⟨last, _, ran, fun key => ?_⟩
    obtain ⟨leaf, path, walk, _, fits⟩ := walks key
    exact ⟨leaf, path, walk, fits⟩

end MiniSqlite.Index
