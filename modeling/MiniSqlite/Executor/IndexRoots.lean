import MiniSqlite.Executor.IndexTransparency
import MiniSqlite.Index.BPlusTree

/-!
# The root page of a new index

`CREATE INDEX` records a page of zeros, which no call makes a leaf. `find_leaf` takes
it for an internal node whose only child is page 0, the header of the file, and the
header for one whose only child is page 0 again.
-/

namespace MiniSqlite.Executor

open MiniSqlite.Common MiniSqlite.Std MiniSqlite.Storage MiniSqlite.Buffer MiniSqlite.Catalog
  MiniSqlite.Parser MiniSqlite.Index

open PagePool (fetchPage newPage unpinPage data setData)

/-! ## Pages that are no nodes -/

/-- The page has zeros where the type, the size and the first child of a node are. -/
def Blank (page : Page) : Prop := ∀ i, 24 ≤ i → i < 33 → page i = 0

theorem zeroPage_blank : Blank zeroPage := fun _ _ _ => rfl

theorem header_blank (pageCount : Int32) (freeListHead : PageId) :
    Blank (writeHeaderToBuf pageCount freeListHead) := by
  intro i low high
  unfold writeHeaderToBuf Scalar.store
  rw [Block.write_apply_outside, Block.write_apply_outside, Block.write_apply_outside,
    Block.write_apply_outside]
  · rfl
  · exact .inr (Nat.le_trans (by decide) low)
  all_goals
    rw [littleEndian_length]
    exact .inr (Nat.le_trans (by decide) low)

namespace Blank

variable {page : Page} (blank : Blank page)

include blank

theorem notLeaf : bpNodeGetType page ≠ bpNodeTypeLeaf := by
  have zero : bpNodeGetType page = 0 := blank 24 (by decide) (by decide)
  rw [zero]
  decide

theorem load_i32 {offset : Nat} (low : 24 ≤ offset) (high : offset + 4 ≤ 33) :
    Scalar.i32.load page offset = 0 := by
  have same : Scalar.i32.load page offset = Scalar.i32.load zeroPage 0 := by
    apply Scalar.load_congr
    apply Block.read_congr
    intro i bound
    rw [Scalar.i32_width] at bound
    exact blank _ (by omega) (by omega)
  rw [same]
  decide +kernel

theorem findPosition (key : Int64) : internalFindPosition page key = 0 := by
  have size : bpNodeGetSize page = 0 := by
    rw [bpNodeGetSize, blank.load_i32 (by decide) (by decide)]
    rfl
  rw [internalFindPosition, size]
  rfl

theorem child (key : Int64) : internalGetChild page (internalFindPosition page key) = 0 := by
  rw [blank.findPosition]
  exact blank.load_i32 (by decide) (by decide)

end Blank

/-! ## The walk from such a page -/

section Walk

variable {store : PageStore} {key : Int64} {current : PageId}

/-- Without page 0 the walk ends there, with nothing. -/
theorem findLeafFrom_absent (absent : store.pages current = none) (room : Nat)
    (path : List PathEntry) : findLeafFrom key room store current path = .ok (store, none) := by
  unfold findLeafFrom
  simp [fetchPage, absent, bind, Except.bind, pure, Except.pure]

theorem findLeafFrom_blank {page : Page} (used : store.pages current = some page)
    (blank : Blank page) (room : Nat) (path : List PathEntry) :
    findLeafFrom key room store current path = match room with
      | 0 => .error .outOfBounds
      | room + 1 => findLeafFrom key room store 0 (⟨current, 0⟩ :: path) := by
  rw [findLeafFrom]
  simp only [fetchPage, used, Option.map_some, bind, Except.bind, data, Option.getD_some,
    if_neg blank.notLeaf, blank.findPosition, unpinPage]
  have child : internalGetChild page 0 = 0 := blank.load_i32 (by decide) (by decide)
  rw [child]
  cases room <;> rfl

/-- With a page 0 that is no node the walk goes on until the path array is full. -/
theorem findLeafFrom_circles {header : Page} (used : store.pages 0 = some header)
    (blank : Blank header) (room : Nat) (path : List PathEntry) :
    findLeafFrom key room store 0 path = .error .outOfBounds := by
  induction room generalizing path with
  | zero => exact findLeafFrom_blank used blank 0 path
  | succ room ih => exact (findLeafFrom_blank used blank (room + 1) path).trans (ih _)

/-- No walk from such a page comes to a leaf. -/
theorem findLeaf_blank {tree : BPlusTree PageStore} {page : Page}
    (root : tree.bpm.pages tree.rootPageId = some page) (blank : Blank page)
    (header : ∀ page, tree.bpm.pages 0 = some page → Blank page) (key : Int64) :
    findLeaf tree key =
      if (tree.bpm.pages 0).isSome then .error .outOfBounds else .ok (tree, none) := by
  rw [findLeaf, pathLength, findLeafFrom_blank root blank]
  cases used : tree.bpm.pages 0 with
  | none =>
      dsimp only
      rw [findLeafFrom_absent used]
      rfl
  | some page =>
      dsimp only
      rw [findLeafFrom_circles used (header page used)]
      rfl

end Walk

/-! ## Trees opened on a new index -/

/-- Each call on the tree ends, and answers as the empty map does. -/
structure BehavesEmpty (tree : BPlusTree PageStore) : Prop where
  find : ∀ key, ∃ after, bptFind tree key = .ok (after, .error .pageNotFound)
  findRange : ∀ low high, ∃ turns after, bptFindRange turns tree low high = .ok (after, [])
  insert : ∀ key rid, ∃ after, bptInsert tree key rid = .ok (after, .ok)
  remove : ∀ key, ∃ after, bptRemove tree key = .ok (after, .pageNotFound)

/-- Page 0, if it can be fetched, is the header of the file. -/
def HeaderFirst (store : PageStore) : Prop :=
  ∀ page, store.pages 0 = some page →
    ∃ pageCount freeListHead, page = writeHeaderToBuf pageCount freeListHead

/-- Nothing can be inserted into a tree whose root is no node. -/
theorem blankRoot_notEmpty {tree : BPlusTree PageStore} {page : Page}
    (root : tree.bpm.pages tree.rootPageId = some page) (blank : Blank page)
    (header : ∀ page, tree.bpm.pages 0 = some page → Blank page) : ¬BehavesEmpty tree := by
  intro empty
  obtain ⟨after, inserted⟩ := empty.insert 0 ⟨0, 0⟩
  rw [bptInsert, findLeaf_blank root blank header] at inserted
  split at inserted
  · cases inserted
  · obtain ⟨-, code⟩ := Prod.mk.inj (Except.ok.inj inserted)
    cases code

variable {Double : Type}
variable {db indexed : Database PageStore} {result : StatementResult Double}
variable {tableName indexName column : CString} {isUnique : Bool}

/-- The root of a new index holds zeros, and page 0 what it held or zeros as well. -/
theorem createIndex_root (header : HeaderFirst db.bpm)
    (created : executeDdl db (.createIndex tableName indexName column isUnique) =
      .ok (indexed, result)) (succeeded : result.code = .ok) :
    ∃ indexId index, indexed.catalog.indexCache.hashmapGet indexId = some index ∧
      index.indexName = indexName ∧ indexed.bpm.pages index.rootPageId = some zeroPage ∧
      ∀ page, indexed.bpm.pages 0 = some page → Blank page := by
  obtain ⟨rootPid, frame, tableMeta, schema, colIdx, indexId, allocated, -, -, entered⟩ :=
    createIndex_calls created succeeded
  have pages : ∀ other, indexed.bpm.pages other =
      if other = rootPid then some zeroPage else db.bpm.pages other := by
    cases supply : db.bpm.fresh with
    | nil =>
        rw [newPage_exhausted supply] at allocated
        cases allocated
    | cons fresh rest =>
        obtain ⟨store, new, -, pages⟩ := newPage_store supply
        rw [new] at allocated
        obtain ⟨rfl, same⟩ := Prod.mk.inj (Except.ok.inj allocated)
        obtain ⟨rfl, -⟩ := Prod.mk.inj (Option.some.inj same)
        exact pages
  unfold catalogCreateIndex at entered
  split at entered
  · obtain ⟨-, none⟩ := Prod.mk.inj (Except.ok.inj entered)
    cases none
  · obtain ⟨next, -, returned⟩ := Returning.returned entered
    obtain ⟨catalog, same⟩ := Prod.mk.inj (Except.ok.inj returned)
    obtain rfl := Option.some.inj same
    refine ⟨db.catalog.nextIndexId,
      ⟨db.catalog.nextIndexId, indexName, tableMeta.tableId, Int32.ofNat colIdx, rootPid, isUnique⟩,
      ?_, rfl, ?_, ?_⟩
    · rw [← catalog]
      exact (get_put_id _ _ _ _).trans (if_pos rfl)
    · rw [pages, if_pos rfl]
    · intro page used
      rw [pages] at used
      split at used
      · exact Option.some.inj used ▸ zeroPage_blank
      · obtain ⟨pageCount, freeListHead, rfl⟩ := header page used
        exact header_blank pageCount freeListHead

/-- Whenever `CREATE INDEX` succeeds, no tree opened on the root that it records is one. -/
theorem createIndex_notEmpty (header : HeaderFirst db.bpm)
    (created : executeDdl db (.createIndex tableName indexName column isUnique) =
      .ok (indexed, result)) (succeeded : result.code = .ok) :
    ∃ indexId index, indexed.catalog.indexCache.hashmapGet indexId = some index ∧
      index.indexName = indexName ∧ ∀ unique, ∃ tree,
        bptInit indexId index.rootPageId indexed.bpm unique = .ok (indexed.bpm, .ok tree) ∧
          ¬BehavesEmpty tree := by
  obtain ⟨indexId, index, recorded, name, root, pageZero⟩ :=
    createIndex_root header created succeeded
  refine ⟨indexId, index, recorded, name, fun unique => ?_⟩
  refine ⟨⟨indexId, index.rootPageId, indexed.bpm, unique⟩, ?_, ?_⟩
  · rw [bptInit, if_neg (PageStore.ne_invalid root)]
  · exact blankRoot_notEmpty root zeroPage_blank pageZero

/-- A new file, of which only the header exists. -/
def headerStore : PageStore where
  pages pageId := if pageId = 0 then some (writeHeaderToBuf 1 invalidPageId) else none
  fresh := [1, 2, 3, 4]
  fresh_nodup := by decide
  fresh_unused pageId inside := by
    apply if_neg
    rintro rfl
    simp at inside
  invalid_unused := by decide

theorem headerStore_headerFirst : HeaderFirst headerStore := by
  intro page used
  exact ⟨1, invalidPageId, (Option.some.inj used).symm⟩

/-- The file after `CREATE TABLE t (n INTEGER)`, which takes no page. -/
def oneTable : Database PageStore where
  catalog :=
    match executeDdl (⟨catalogInit, headerStore⟩ : Database PageStore)
      (.createTable (.ofChars ['t']) [.plain (.ofChars ['n']) .integer 0] false : Stmt Int) with
    | .ok (db, _) => db.catalog
    | .error _ => catalogInit
  bpm := headerStore

theorem oneTable_indexed : ∃ indexed created, executeDdl oneTable indexOne = .ok (indexed, created) ∧
    created.code = .ok ∧ (indexed.bpm.pages 0).isSome = true := by
  have ends : (executeDdl oneTable indexOne).toOption.any (fun ended =>
      decide (ended.2.code = .ok) && (ended.1.bpm.pages 0).isSome) = true := by decide +kernel
  cases ran : executeDdl oneTable indexOne with
  | error fault =>
      rw [ran] at ends
      cases ends
  | ok ended =>
      rw [ran] at ends
      obtain ⟨code, present⟩ := Bool.and_eq_true_iff.mp ends
      exact ⟨ended.1, ended.2, rfl, of_decide_eq_true code, present⟩

theorem createIndex_notEmpty_oneTable : ∃ (indexed : Database PageStore) (indexId : IndexId)
    (index : IndexMeta), indexed.catalog.indexCache.hashmapGet indexId = some index ∧
      index.indexName = .ofChars ['i'] ∧ ∀ unique, ∃ tree,
        bptInit indexId index.rootPageId indexed.bpm unique = .ok (indexed.bpm, .ok tree) ∧
          ¬BehavesEmpty tree := by
  obtain ⟨indexed, created, ran, code, -⟩ := oneTable_indexed
  obtain ⟨indexId, index, found⟩ := createIndex_notEmpty headerStore_headerFirst ran code
  exact ⟨indexed, indexId, index, found⟩

/-- After `CREATE TABLE t (n INTEGER)` and `CREATE INDEX i ON t (n)` in a new file, a search in
the index runs past the end of its path array. -/
theorem newIndex_circles : ¬∀ (db indexed : Database PageStore) (created : StatementResult Int),
    HeaderFirst db.bpm → executeDdl db indexOne = .ok (indexed, created) → created.code = .ok →
      ∀ indexId index, indexed.catalog.indexCache.hashmapGet indexId = some index →
        index.indexName = .ofChars ['i'] →
          ∃ after, bptFind ⟨indexId, index.rootPageId, indexed.bpm, false⟩ 1 =
            .ok (after, .error .pageNotFound) := by
  intro claimed
  obtain ⟨indexed, created, ran, code, present⟩ := oneTable_indexed
  obtain ⟨indexId, index, recorded, name, root, pageZero⟩ :=
    createIndex_root headerStore_headerFirst ran code
  obtain ⟨after, found⟩ :=
    claimed oneTable indexed created headerStore_headerFirst ran code indexId index recorded name
  have walks := @findLeaf_blank ⟨indexId, index.rootPageId, indexed.bpm, false⟩ _ root
    zeroPage_blank pageZero 1
  rw [if_pos present] at walks
  rw [bptFind, walks] at found
  cases found

end MiniSqlite.Executor
