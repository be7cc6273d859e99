import MiniSqlite.Index.BPlusTree

/-!
# The index iterator

`index/index_iterator.c`, for any pool. The iterator has a pointer to its pool; here the
calls are given the pool and return it. The loop of `find_leaf_page`, which keeps no path,
takes at most `turns` turns, and so does a scan.
-/

namespace MiniSqlite.Index

open MiniSqlite.Common MiniSqlite.Std MiniSqlite.Storage MiniSqlite.Buffer MiniSqlite.Catalog

variable {Pool Frame : Type} [PagePool Pool Frame]

open PagePool (fetchPage newPage unpinPage data setData)

/-- `index_iterator_t`. -/
structure IndexIterator where
  currentPageId : PageId
  currentIndex : Nat
  highKey : Int64
  exhausted : Bool

/-- `find_leaf_page`: the leaf, which stays pinned, or `none` for `INVALID_PAGE_ID`. -/
def findLeafPage (key : Int64) : (turns : Nat) → Pool → PageId →
    Except Fault (Pool × Option PageId)
  | 0, _, _ => .error .unending
  | turns + 1, bpm, current => do
      match ← fetchPage bpm current with
      | (bpm, none) => return (bpm, none)
      | (bpm, some page) =>
          let node := data bpm page
          if bpNodeGetType node = bpNodeTypeLeaf then return (bpm, some current)
          else
            let childIdx := internalFindPosition node key
            let child := internalGetChild node childIdx
            let bpm ← unpinPage bpm current false
            findLeafPage key turns bpm child

/-- `index_iterator_init`, which always returns `DB_OK`. -/
def indexIteratorInit (turns : Nat) (bpm : Pool) (rootPageId : PageId) (startKey highKey : Int64) :
    Except Fault (Pool × IndexIterator) := do
  match ← findLeafPage startKey turns bpm rootPageId with
  | (bpm, none) => return (bpm, ⟨invalidPageId, 0, highKey, true⟩)
  | (bpm, some leafPid) =>
      match ← fetchPage bpm leafPid with
      | (bpm, none) => return (bpm, ⟨leafPid, 0, highKey, true⟩)
      | (bpm, some page) =>
          let node := data bpm page
          let index := leafFindPosition node startKey
          let bpm ← unpinPage bpm leafPid false
          if index ≥ bpNodeGetSize node then
            let next := leafGetNextPage node
            if next = invalidPageId then return (bpm, ⟨invalidPageId, index, highKey, true⟩)
            else return (bpm, ⟨next, 0, highKey, false⟩)
          else return (bpm, ⟨leafPid, index, highKey, false⟩)

/-- The end of `index_iterator_next`: the entry of the current leaf, which is pinned. -/
def currentEntry (it : IndexIterator) (bpm : Pool) (page : Frame) :
    Except Fault (Pool × IndexIterator × Option (Int64 × Rid)) := do
  let node := data bpm page
  let bpm ← unpinPage bpm it.currentPageId false
  if it.currentIndex ≥ bpNodeGetSize node then return (bpm, { it with exhausted := true }, none)
  else
    let key := leafGetKey node it.currentIndex
    if key > it.highKey then return (bpm, { it with exhausted := true }, none)
    else
      return (bpm, { it with currentIndex := it.currentIndex + 1 },
        some (key, leafGetRid node it.currentIndex))

/-- `index_iterator_next`, with `none` for 0. -/
def indexIteratorNext (it : IndexIterator) (bpm : Pool) :
    Except Fault (Pool × IndexIterator × Option (Int64 × Rid)) :=
  if it.exhausted then .ok (bpm, it, none)
  else do
    match ← fetchPage bpm it.currentPageId with
    | (bpm, none) => return (bpm, { it with exhausted := true }, none)
    | (bpm, some page) =>
        let node := data bpm page
        if it.currentIndex ≥ bpNodeGetSize node then
          let next := leafGetNextPage node
          let bpm ← unpinPage bpm it.currentPageId false
          if next = invalidPageId then
            return (bpm, { it with exhausted := true, currentPageId := invalidPageId }, none)
          else
            let it := { it with currentPageId := next, currentIndex := 0 }
            match ← fetchPage bpm next with
            | (bpm, none) => return (bpm, { it with exhausted := true }, none)
            | (bpm, some page) => currentEntry it bpm page
        else currentEntry it bpm page

/-- `index_iterator_destroy`. -/
def indexIteratorDestroy (it : IndexIterator) : IndexIterator :=
  { it with exhausted := true, currentPageId := invalidPageId }

/-- The calls of `index_iterator_next` until it returns 0: the entries in order. -/
def entriesFrom : (turns : Nat) → IndexIterator → Pool →
    Except Fault (Pool × IndexIterator × List (Int64 × Rid))
  | 0, _, _ => .error .unending
  | turns + 1, it, bpm => do
      match ← indexIteratorNext it bpm with
      | (bpm, it, none) => return (bpm, it, [])
      | (bpm, it, some entry) =>
          let (bpm, it, entries) ← entriesFrom turns it bpm
          return (bpm, it, entry :: entries)

/-- An iterator made, advanced until it reports the end, and destroyed. -/
def iterateRange (turns : Nat) (bpm : Pool) (rootPageId : PageId) (startKey highKey : Int64) :
    Except Fault (Pool × List (Int64 × Rid)) := do
  let (bpm, it) ← indexIteratorInit turns bpm rootPageId startKey highKey
  let (bpm, it, entries) ← entriesFrom turns it bpm
  let _ := indexIteratorDestroy it
  return (bpm, entries)

end MiniSqlite.Index
