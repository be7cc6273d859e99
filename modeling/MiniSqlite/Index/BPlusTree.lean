import MiniSqlite.Buffer.PagePool
import MiniSqlite.Catalog.Catalog
import MiniSqlite.Index.BPlusTreeNode

/-!
# The B+ tree

`index/b_plus_tree.c`, for any pool. A `page_t*` that is `NULL` is followed where the source
does not look: in `split_leaf` and `insert_into_parent`. The loop of `find_leaf` ends at a
leaf or writes behind its path array, and that of `bpt_find_range` takes at most `turns`
turns. `split_internal`, which nothing calls, is left out.
-/

namespace MiniSqlite.Index

open MiniSqlite.Common MiniSqlite.Std MiniSqlite.Storage MiniSqlite.Buffer MiniSqlite.Catalog

variable {Pool Frame : Type} [PagePool Pool Frame]

open PagePool (fetchPage newPage unpinPage data setData)

/-- `b_plus_tree_t`. -/
structure BPlusTree (Pool : Type) where
  indexId : IndexId
  rootPageId : PageId
  bpm : Pool
  isUnique : Bool

/-- `path_entry_t`. -/
structure PathEntry where
  pageId : PageId
  childIndex : Nat
  deriving DecidableEq, Repr

/-- The length of the array `path`. -/
def pathLength : Nat := 64

/-- `init_leaf_page`. -/
def initLeafPage (page : Page) : Page :=
  let page := page.fill 0 0 pageSize
  let page := bpNodeSetType page bpNodeTypeLeaf
  let page := bpNodeSetSize page 0
  leafSetNextPage page invalidPageId

/-- `init_internal_page`. -/
def initInternalPage (page : Page) : Page :=
  let page := page.fill 0 0 pageSize
  let page := bpNodeSetType page bpNodeTypeInternal
  bpNodeSetSize page 0

/-- The loop of `find_leaf`: the leaf, which stays pinned, with the path to it, the last entry
first, or `none` for `INVALID_PAGE_ID`. The path array has room for so many more entries. -/
def findLeafFrom (key : Int64) : (room : Nat) → Pool → PageId → List PathEntry →
    Except Fault (Pool × Option (PageId × List PathEntry))
  | room, bpm, current, path => do
      match ← fetchPage bpm current with
      | (bpm, none) => return (bpm, none)
      | (bpm, some page) =>
          let node := data bpm page
          if bpNodeGetType node = bpNodeTypeLeaf then return (bpm, some (current, path))
          else
            let childIdx := internalFindPosition node key
            let child := internalGetChild node childIdx
            match room with
            | 0 => throw .outOfBounds
            | room + 1 =>
                let bpm ← unpinPage bpm current false
                findLeafFrom key room bpm child (⟨current, childIdx⟩ :: path)

/-- `find_leaf`. -/
def findLeaf (tree : BPlusTree Pool) (key : Int64) :
    Except Fault (BPlusTree Pool × Option (PageId × List PathEntry)) := do
  let (bpm, found) ← findLeafFrom key pathLength tree.bpm tree.rootPageId []
  return ({ tree with bpm := bpm }, found)

/-- `bpt_init`: the tree and the code. Without a page there is no tree. -/
def bptInit (indexId : IndexId) (rootPageId : PageId) (bpm : Pool) (unique : Bool) :
    Except Fault (Pool × Except ErrorCode (BPlusTree Pool)) :=
  if rootPageId = invalidPageId then do
    match ← newPage bpm with
    | (bpm, none) => return (bpm, .error .outOfMemory)
    | (bpm, some (newPid, page)) =>
        let bpm := setData bpm page (initLeafPage (data bpm page))
        let bpm ← unpinPage bpm newPid true
        return (bpm, .ok ⟨indexId, newPid, bpm, unique⟩)
  else .ok (bpm, .ok ⟨indexId, rootPageId, bpm, unique⟩)

/-- `bpt_find`: the RID, or the code. -/
def bptFind (tree : BPlusTree Pool) (key : Int64) :
    Except Fault (BPlusTree Pool × Except ErrorCode Rid) := do
  match ← findLeaf tree key with
  | (tree, none) => return (tree, .error .pageNotFound)
  | (tree, some (leafPid, _)) =>
      match ← fetchPage tree.bpm leafPid with
      | (bpm, none) => return ({ tree with bpm := bpm }, .error .pageNotFound)
      | (bpm, some page) =>
          let node := data bpm page
          let pos := leafFindPosition node key
          let bpm ← unpinPage bpm leafPid false
          if pos < bpNodeGetSize node ∧ leafGetKey node pos = key then
            return ({ tree with bpm := bpm }, .ok (leafGetRid node pos))
          else return ({ tree with bpm := bpm }, .error .pageNotFound)

/-! ## Splits -/

/-- The loop of `split_leaf`: entries from `start` on copied to the front of another leaf. -/
def copyLeafEntries (source : Page) (start : Nat) : (count : Nat) → Page → Page
  | 0, target => target
  | i + 1, target =>
      let target := copyLeafEntries source start i target
      let target := leafSetKey target i (leafGetKey source (start + i))
      leafSetRid target i (leafGetRid source (start + i))

/-- `split_leaf`: the promoted key and the new sibling. -/
def splitLeaf (tree : BPlusTree Pool) (leafPid : PageId) :
    Except Fault (BPlusTree Pool × Int64 × PageId) := do
  match ← fetchPage tree.bpm leafPid with
  | (_, none) => throw .nullPointer
  | (bpm, some leaf) =>
      match ← newPage bpm with
      | (_, none) => throw .nullPointer
      | (bpm, some (newPid, newLeaf)) =>
          let leafData := data bpm leaf
          let size := (bpNodeGetSize leafData).toNat
          let mid := size / 2
          let rightCount := size - mid
          let newData := copyLeafEntries leafData mid rightCount (initLeafPage (data bpm newLeaf))
          let newData := bpNodeSetSize newData rightCount
          let newData := leafSetNextPage newData (leafGetNextPage leafData)
          let promotedKey := leafGetKey newData 0
          let leafData := bpNodeSetSize leafData mid
          let leafData := leafSetNextPage leafData newPid
          let bpm := setData (setData bpm newLeaf newData) leaf leafData
          let bpm ← unpinPage bpm leafPid true
          let bpm ← unpinPage bpm newPid true
          return ({ tree with bpm := bpm }, promotedKey, newPid)

/-- The loop of `insert_into_parent`: keys from `start` on, with the children behind them, copied
to the front of another node. -/
def copyInternalEntries (source : Page) (start : Nat) : (count : Nat) → Page → Page
  | 0, target => target
  | i + 1, target =>
      let target := copyInternalEntries source start i target
      let target := internalSetKey target i (internalGetKey source (start + i))
      internalSetChild target (i + 1) (internalGetChild source (start + i + 1))

/-- A new root over two nodes. -/
def newRoot (page : Page) (leftPid : PageId) (key : Int64) (rightPid : PageId) : Page :=
  let page := initInternalPage page
  let page := internalSetChild page 0 leftPid
  let page := internalSetKey page 0 key
  let page := internalSetChild page 1 rightPid
  bpNodeSetSize page 1

/-- `insert_into_parent`, with the last entry of the path first. -/
def insertIntoParent (tree : BPlusTree Pool) : (path : List PathEntry) → (leftPid : PageId) →
    (key : Int64) → (rightPid : PageId) → Except Fault (BPlusTree Pool × ErrorCode)
  | [], leftPid, key, rightPid => do
      match ← newPage tree.bpm with
      | (bpm, none) => return ({ tree with bpm := bpm }, .outOfMemory)
      | (bpm, some (newRootPid, page)) =>
          let bpm := setData bpm page (newRoot (data bpm page) leftPid key rightPid)
          let bpm ← unpinPage bpm newRootPid true
          return ({ tree with rootPageId := newRootPid, bpm := bpm }, .ok)
  | ⟨parentPid, insertPos⟩ :: path, _, key, rightPid => do
      match ← fetchPage tree.bpm parentPid with
      | (_, none) => throw .nullPointer
      | (bpm, some parent) =>
          if bpNodeGetSize (data bpm parent) < internalMaxKeys then
            let bpm := setData bpm parent (internalInsert (data bpm parent) insertPos key rightPid).1
            let bpm ← unpinPage bpm parentPid true
            return ({ tree with bpm := bpm }, .ok)
          else
            -- over capacity by one key until it is split
            let bpm := setData bpm parent (internalPlace (data bpm parent) insertPos key rightPid)
            match ← newPage bpm with
            | (_, none) => throw .nullPointer
            | (bpm, some (newPid, newNode)) =>
                let parentData := data bpm parent
                let newSize := (bpNodeGetSize parentData).toNat
                let mid := newSize / 2
                let promotedKey := internalGetKey parentData mid
                let rightCount := newSize - mid - 1
                let newData := internalSetChild (initInternalPage (data bpm newNode)) 0
                  (internalGetChild parentData (mid + 1))
                let newData := copyInternalEntries parentData (mid + 1) rightCount newData
                let newData := bpNodeSetSize newData rightCount
                let parentData := bpNodeSetSize parentData mid
                let bpm := setData (setData bpm newNode newData) parent parentData
                let bpm ← unpinPage bpm parentPid true
                let bpm ← unpinPage bpm newPid true
                insertIntoParent { tree with bpm := bpm } path parentPid promotedKey newPid

/-! ## Changes -/

/-- `bpt_insert`. -/
def bptInsert (tree : BPlusTree Pool) (key : Int64) (rid : Rid) :
    Except Fault (BPlusTree Pool × ErrorCode) := do
  match ← findLeaf tree key with
  | (tree, none) => return (tree, .internalError)
  | (tree, some (leafPid, path)) =>
      match ← fetchPage tree.bpm leafPid with
      | (bpm, none) => return ({ tree with bpm := bpm }, .internalError)
      | (bpm, some leaf) =>
          let size := bpNodeGetSize (data bpm leaf)
          let pos := leafFindPosition (data bpm leaf) key
          if pos < size ∧ leafGetKey (data bpm leaf) pos = key then
            let bpm ← unpinPage bpm leafPid false
            if tree.isUnique then return ({ tree with bpm := bpm }, .duplicateKey)
            -- the leaf is written after it was unpinned, and unpinned again
            let bpm := setData bpm leaf (leafSetRid (data bpm leaf) pos rid)
            let bpm ← unpinPage bpm leafPid true
            return ({ tree with bpm := bpm }, .ok)
          else if size < leafMaxKeys then
            let bpm := setData bpm leaf (leafInsert (data bpm leaf) pos key rid).1
            let bpm ← unpinPage bpm leafPid true
            return ({ tree with bpm := bpm }, .ok)
          else
            -- over capacity by one entry until it is split
            let bpm := setData bpm leaf (leafPlace (data bpm leaf) pos key rid)
            let bpm ← unpinPage bpm leafPid true
            let (tree, promotedKey, siblingPid) ← splitLeaf { tree with bpm := bpm } leafPid
            insertIntoParent tree path leafPid promotedKey siblingPid

/-- `bpt_remove`. -/
def bptRemove (tree : BPlusTree Pool) (key : Int64) :
    Except Fault (BPlusTree Pool × ErrorCode) := do
  match ← findLeaf tree key with
  | (tree, none) => return (tree, .pageNotFound)
  | (tree, some (leafPid, _)) =>
      match ← fetchPage tree.bpm leafPid with
      | (bpm, none) => return ({ tree with bpm := bpm }, .pageNotFound)
      | (bpm, some leaf) =>
          let size := bpNodeGetSize (data bpm leaf)
          let pos := leafFindPosition (data bpm leaf) key
          if pos ≥ size ∨ leafGetKey (data bpm leaf) pos ≠ key then
            let bpm ← unpinPage bpm leafPid false
            return ({ tree with bpm := bpm }, .pageNotFound)
          else
            let bpm := setData bpm leaf (leafRemove (data bpm leaf) pos).1
            let bpm ← unpinPage bpm leafPid true
            return ({ tree with bpm := bpm }, .ok)

/-! ## Ranges -/

/-- The inner loop of `bpt_find_range`: the RIDs from position `pos` on, and whether a key past
the range was met. -/
def leafRange (page : Page) (high : Int64) : (count : Nat) → (pos : Nat) → List Rid × Bool
  | 0, _ => ([], false)
  | count + 1, pos =>
      if leafGetKey page pos > high then ([], true)
      else
        let (rids, past) := leafRange page high count (pos + 1)
        (leafGetRid page pos :: rids, past)

/-- The outer loop of `bpt_find_range`. -/
def rangeFrom (leafPid : PageId) (low high : Int64) : (turns : Nat) → Pool → PageId →
    Except Fault (Pool × List Rid)
  | 0, _, _ => .error .unending
  | turns + 1, bpm, current =>
      if current = invalidPageId then .ok (bpm, [])
      else do
        match ← fetchPage bpm current with
        | (bpm, none) => return (bpm, [])
        | (bpm, some page) =>
            let node := data bpm page
            let next := leafGetNextPage node
            let startPos := if current = leafPid then leafFindPosition node low else 0
            let (rids, past) := leafRange node high ((bpNodeGetSize node).toNat - startPos) startPos
            let bpm ← unpinPage bpm current false
            if past then return (bpm, rids)
            else
              let (bpm, more) ← rangeFrom leafPid low high turns bpm next
              return (bpm, rids ++ more)

/-- `bpt_find_range`, which always returns `DB_OK`. -/
def bptFindRange (turns : Nat) (tree : BPlusTree Pool) (low high : Int64) :
    Except Fault (BPlusTree Pool × List Rid) := do
  match ← findLeaf tree low with
  | (tree, none) => return (tree, [])
  | (tree, some (leafPid, _)) =>
      let (bpm, rids) ← rangeFrom leafPid low high turns tree.bpm leafPid
      return ({ tree with bpm := bpm }, rids)

end MiniSqlite.Index
