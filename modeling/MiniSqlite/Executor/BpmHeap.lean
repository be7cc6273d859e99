import MiniSqlite.Buffer.PagePool
import MiniSqlite.Storage.HeapCalls

/-!
# The heap file over the buffer pool

`executor/bpm_heap.c`: a linked list of slotted pages reached through the buffer
pool, for any pool. The schema and the table id, which no operation reads, are
left out, and so are checks for null arguments.
-/

namespace MiniSqlite.Executor

open MiniSqlite.Common MiniSqlite.Storage MiniSqlite.Buffer

variable {Pool Frame : Type} [PagePool Pool Frame]

open PagePool (fetchPage newPage unpinPage data setData pageId)

/-- `bpm_heap_t`. -/
structure BpmHeap (Pool : Type) where
  bpm : Pool
  firstPageId : PageId

/-- `bpm_heap_init`. -/
def bpmHeapInit (bpm : Pool) (firstPageId : PageId) : BpmHeap Pool := ⟨bpm, firstPageId⟩

/-- `ensure_first_page`. -/
def ensureFirstPage (hf : BpmHeap Pool) : Except Fault (BpmHeap Pool × ErrorCode) :=
  if hf.firstPageId ≠ invalidPageId then .ok (hf, .ok)
  else do
    match ← newPage hf.bpm with
    | (bpm, none) => return ({ hf with bpm := bpm }, .outOfMemory)
    | (bpm, some (newPid, page)) =>
        let bpm := setData bpm page (slottedPageInit (data bpm page) newPid)
        let bpm ← unpinPage bpm newPid true
        return (⟨bpm, newPid⟩, .ok)

/-- The search loop of `find_page_with_space`: the first page from `current` on with
room for a tuple, left pinned. -/
def searchPages (tupleSize : Nat) : Nat → Pool → PageId →
    Except Fault (Pool × Except ErrorCode (Option (PageId × Frame)))
  | 0, _, _ => .error .unending
  | turns + 1, bpm, current =>
      if current = invalidPageId then .ok (bpm, .ok none)
      else do
        match ← fetchPage bpm current with
        | (bpm, none) => return (bpm, .error .pageNotFound)
        | (bpm, some page) =>
            if slottedPageFreeSpace (data bpm page) ≥ tupleSize + slotSize then
              return (bpm, .ok (some (current, page)))
            else
              let next := pageHeaderGetNextPage (data bpm page)
              let bpm ← unpinPage bpm current false
              searchPages tupleSize turns bpm next

/-- The linking loop of `find_page_with_space`: the last page from `last` on gets
the new page as its next. -/
def linkLast (newPid : PageId) : Nat → Pool → PageId → Except Fault (Pool × ErrorCode)
  | 0, _, _ => .error .unending
  | turns + 1, bpm, last => do
      match ← fetchPage bpm last with
      | (bpm, none) =>
          let bpm ← unpinPage bpm newPid true
          return (bpm, .pageNotFound)
      | (bpm, some lastPg) =>
          let next := pageHeaderGetNextPage (data bpm lastPg)
          if next = invalidPageId then
            let bpm := setData bpm lastPg (pageHeaderSetNextPage (data bpm lastPg) newPid)
            let bpm ← unpinPage bpm last true
            return (bpm, .ok)
          else
            let bpm ← unpinPage bpm last false
            linkLast newPid turns bpm next

/-- `find_page_with_space`: a pinned page with room for a tuple, or the error code. -/
def findPageWithSpace (hf : BpmHeap Pool) (tupleSize : Nat) :
    Except Fault (BpmHeap Pool × Except ErrorCode (PageId × Frame)) := do
  let (hf, rc) ← ensureFirstPage hf
  if rc ≠ .ok then return (hf, .error rc)
  match ← searchPages tupleSize maxPages hf.bpm hf.firstPageId with
  | (bpm, .error rc) => return ({ hf with bpm := bpm }, .error rc)
  | (bpm, .ok (some found)) => return ({ hf with bpm := bpm }, .ok found)
  | (bpm, .ok none) =>
      -- no existing page has space
      match ← newPage bpm with
      | (bpm, none) => return ({ hf with bpm := bpm }, .error .outOfMemory)
      | (bpm, some (newPid, newPg)) =>
          let bpm := setData bpm newPg (slottedPageInit (data bpm newPg) newPid)
          let (bpm, rc) ← linkLast newPid maxPages bpm hf.firstPageId
          if rc ≠ .ok then return ({ hf with bpm := bpm }, .error rc)
          return ({ hf with bpm := bpm }, .ok (newPid, newPg))

/-- `bpm_heap_insert`. -/
def bpmHeapInsert (hf : BpmHeap Pool) (tuple : List UInt8) :
    Except Fault (BpmHeap Pool × HeapResult) :=
  if tuple.length = 0 then .ok (hf, { code := ErrorCode.invalidArgument.code })
  else do
    match ← findPageWithSpace hf tuple.length with
    | (hf, .error rc) => return (hf, { code := rc.code })
    | (hf, .ok (pid, page)) =>
        let inserted := slottedPageInsert (data hf.bpm page) tuple
        let bpm := setData hf.bpm page inserted.1
        let slotId := inserted.2
        if slotId < 0 then
          let bpm ← unpinPage bpm pid false
          return ({ hf with bpm := bpm }, { code := slotId })
        else
          let bpm ← unpinPage bpm pid true
          return ({ hf with bpm := bpm },
            { code := ErrorCode.ok.code, rid := some ⟨pid, Int32.ofInt slotId⟩ })

/-- The common shape of `bpm_heap_delete` and `bpm_heap_update`: change a tuple in
its page, which is dirty if that succeeded. -/
def changeTuple (hf : BpmHeap Pool) (rid : Rid) (change : Page → Page × ErrorCode) :
    Except Fault (BpmHeap Pool × HeapResult) :=
  if badRid rid then .ok (hf, { code := ErrorCode.invalidArgument.code })
  else do
    match ← fetchPage hf.bpm rid.pageId with
    | (bpm, none) => return ({ hf with bpm := bpm }, { code := ErrorCode.pageNotFound.code })
    | (bpm, some page) =>
        let changed := change (data bpm page)
        let bpm := setData bpm page changed.1
        let bpm ← unpinPage bpm rid.pageId (changed.2 = .ok)
        return ({ hf with bpm := bpm }, { code := changed.2.code })

/-- `bpm_heap_delete`. -/
def bpmHeapDelete (hf : BpmHeap Pool) (rid : Rid) : Except Fault (BpmHeap Pool × HeapResult) :=
  changeTuple hf rid fun page => slottedPageDelete page rid.slotId

/-- `bpm_heap_update`. -/
def bpmHeapUpdate (hf : BpmHeap Pool) (rid : Rid) (newData : List UInt8) :
    Except Fault (BpmHeap Pool × HeapResult) :=
  if newData.length = 0 then .ok (hf, { code := ErrorCode.invalidArgument.code })
  else changeTuple hf rid fun page => slottedPageUpdate page rid.slotId newData

/-- `bpm_heap_get`: the code, and on success the bytes with the page left pinned. -/
def bpmHeapGet (hf : BpmHeap Pool) (rid : Rid) :
    Except Fault (BpmHeap Pool × Except ErrorCode (List UInt8 × Frame)) :=
  if badRid rid then .ok (hf, .error .invalidArgument)
  else do
    match ← fetchPage hf.bpm rid.pageId with
    | (bpm, none) => return ({ hf with bpm := bpm }, .error .pageNotFound)
    | (bpm, some page) =>
        match slottedPageGet (data bpm page) rid.slotId with
        | .error rc =>
            let bpm ← unpinPage bpm rid.pageId false
            return ({ hf with bpm := bpm }, .error rc)
        | .ok bytes => return ({ hf with bpm := bpm }, .ok (bytes, page))

/-- `bpm_heap_release_get`. -/
def bpmHeapReleaseGet (hf : BpmHeap Pool) (pinnedPage : Frame) :
    Except Fault (BpmHeap Pool) := do
  let bpm ← unpinPage hf.bpm (pageId hf.bpm pinnedPage) false
  return { hf with bpm := bpm }

/-! ## The iterator -/

/-- `bpm_heap_iter_t`, without the pointer to its heap. -/
structure BpmHeapIter (Frame : Type) where
  currentPageId : PageId
  currentSlot : Nat
  currentPage : Option Frame

/-- `bpm_heap_iter_init`. -/
def bpmHeapIterInit (hf : BpmHeap Pool) : BpmHeapIter Frame := ⟨hf.firstPageId, 0, none⟩

/-- Pins the current page if needed: the `if (!it->current_page)` of `bpm_heap_iter_next`. -/
def pinCurrent (bpm : Pool) (it : BpmHeapIter Frame) :
    Except Fault (Pool × Option (Frame × Nat)) :=
  match it.currentPage with
  | some page => .ok (bpm, some (page, it.currentSlot))
  | none => do
      let (bpm, page) ← fetchPage bpm it.currentPageId
      return (bpm, page.map fun page => (page, 0))

/-- `bpm_heap_iter_next`: the next row, or the code that ends the iteration. -/
def bpmHeapIterNext : Nat → Pool → BpmHeapIter Frame →
    Except Fault (Pool × BpmHeapIter Frame × Except ErrorCode (Rid × List UInt8))
  | 0, _, _ => .error .unending
  | turns + 1, bpm, it =>
      if it.currentPageId = invalidPageId then .ok (bpm, it, .error .pageNotFound)
      else do
        match ← pinCurrent bpm it with
        | (bpm, none) => return (bpm, it, .error .pageNotFound)
        | (bpm, some (page, slot)) =>
            let bytes := data bpm page
            match nextLiveSlot bytes (pageHeaderGetNumTuples bytes - slot) slot with
            | some slot =>
                return (bpm, ⟨it.currentPageId, slot + 1, some page⟩,
                  .ok (⟨it.currentPageId, Int32.ofNat slot⟩,
                    bytes.read (slotGetOffset bytes slot) (slotGetSize bytes slot)))
            | none =>
                let next := pageHeaderGetNextPage bytes
                let bpm ← unpinPage bpm it.currentPageId false
                bpmHeapIterNext turns bpm ⟨next, max slot (pageHeaderGetNumTuples bytes), none⟩

/-- `bpm_heap_iter_destroy`. -/
def bpmHeapIterDestroy (bpm : Pool) (it : BpmHeapIter Frame) : Except Fault Pool :=
  match it.currentPage with
  | some _ => unpinPage bpm it.currentPageId false
  | none => .ok bpm

/-- A client's loop around `bpm_heap_iter_next`: the rows until it returns no `DB_OK`. -/
def iterRows : Nat → Pool → BpmHeapIter Frame →
    Except Fault (Pool × BpmHeapIter Frame × List (Rid × List UInt8) × ErrorCode)
  | 0, _, _ => .error .unending
  | rows + 1, bpm, it => do
      match ← bpmHeapIterNext maxPages bpm it with
      | (bpm, it, .error rc) => return (bpm, it, [], rc)
      | (bpm, it, .ok row) =>
          let (bpm, it, more, rc) ← iterRows rows bpm it
          return (bpm, it, row :: more, rc)

/-- A complete scan. -/
def bpmHeapScan (hf : BpmHeap Pool) : Except Fault (BpmHeap Pool × HeapResult) := do
  let (bpm, it, rows, rc) ← iterRows maxRids hf.bpm (bpmHeapIterInit hf)
  let bpm ← bpmHeapIterDestroy bpm it
  return ({ hf with bpm := bpm }, { code := rc.code, rows := rows })

/-- A call on the heap; a client that gets a tuple copies its bytes and releases it. -/
def bpmHeapCall (hf : BpmHeap Pool) : HeapOp → Except Fault (BpmHeap Pool × HeapResult)
  | .insert tuple => bpmHeapInsert hf tuple.1
  | .delete rid => bpmHeapDelete hf rid
  | .update rid newData => bpmHeapUpdate hf rid newData.1
  | .get rid => do
      match ← bpmHeapGet hf rid with
      | (hf, .error rc) => return (hf, { code := rc.code })
      | (hf, .ok (bytes, page)) =>
          let hf ← bpmHeapReleaseGet hf page
          return (hf, { code := ErrorCode.ok.code, bytes := some bytes })
  | .scan => bpmHeapScan hf

end MiniSqlite.Executor
