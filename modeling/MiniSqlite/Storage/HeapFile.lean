import MiniSqlite.Storage.DiskManager
import MiniSqlite.Storage.HeapCalls

/-!
# The heap file over the disk manager

`storage/heap_file.c`: a linked list of slotted pages, each operation reading
the pages it needs into buffers and writing back what it changed. The schema,
which no operation reads, is left out, and so are checks for null arguments and
the release of buffers.
-/

namespace MiniSqlite.Storage

open MiniSqlite.Common

/-- `heap_file_t`. -/
structure HeapFile where
  dm : DiskManager
  firstPageId : PageId

/-- `heap_file_init`. -/
def heapFileInit (dm : DiskManager) (firstPageId : PageId) : HeapFile := ⟨dm, firstPageId⟩

/-- The code of a call of the disk manager. -/
def resultCode {α : Type} : Except ErrorCode α → Int
  | .ok _ => ErrorCode.ok.code
  | .error rc => rc.code

/-- A page read into a buffer of its own. -/
def loadPage (pageId : PageId) : DiskM Page := do
  pageAlloc
  diskManagerReadPage pageId

namespace HeapFile

/-- `ensure_first_page`. -/
def ensureFirstPage (hf : HeapFile) : Except Fault (HeapFile × Int) :=
  if hf.firstPageId ≠ invalidPageId then .ok (hf, ErrorCode.ok.code)
  else do
    let (pid, dm) ← diskManagerAllocatePage hf.dm
    if pid < 0 then return ({ hf with dm := dm }, pid)
    let firstPageId := Int32.ofInt pid
    let initialise : DiskM Unit := do
      let pageBuf ← loadPage firstPageId
      diskManagerWritePage firstPageId (slottedPageInit pageBuf firstPageId)
    let (result, dm) := initialise.exec dm
    return (⟨dm, firstPageId⟩, resultCode result)

/-- The search loop of `find_page_with_space`: the first page from `current` on with
room for a tuple, and its buffer. -/
def searchPages (tupleSize : Nat) : Nat → DiskManager → PageId →
    Except Fault (DiskManager × Except ErrorCode (Option (PageId × Page)))
  | 0, _, _ => .error .unending
  | turns + 1, dm, current =>
      if current = invalidPageId then .ok (dm, .ok none)
      else
        match (loadPage current).exec dm with
        | (.error rc, dm) => .ok (dm, .error rc)
        | (.ok pageBuf, dm) =>
            if slottedPageFreeSpace pageBuf ≥ tupleSize + slotSize then
              .ok (dm, .ok (some (current, pageBuf)))
            else searchPages tupleSize turns dm (pageHeaderGetNextPage pageBuf)

/-- The linking loop of `find_page_with_space`, once its buffer is allocated. -/
def linkLast (newPid : PageId) : Nat → DiskManager → PageId →
    Except Fault (DiskManager × Except ErrorCode Unit)
  | 0, _, _ => .error .unending
  | turns + 1, dm, last =>
      match (diskManagerReadPage last).exec dm with
      | (.error rc, dm) => .ok (dm, .error rc)
      | (.ok lastBuf, dm) =>
          let next := pageHeaderGetNextPage lastBuf
          if next = invalidPageId then
            let (result, dm) :=
              (diskManagerWritePage last (pageHeaderSetNextPage lastBuf newPid)).exec dm
            .ok (dm, result)
          else linkLast newPid turns dm next

/-- Writes a new page and reads it back. -/
def storeNewPage (pid : PageId) : DiskM Page := do
  pageAlloc
  diskManagerWritePage pid (slottedPageInit zeroPage pid)
  diskManagerReadPage pid

/-- `find_page_with_space`: the page id or error code returned, and the page buffer. -/
def findPageWithSpace (hf : HeapFile) (tupleSize : Nat) :
    Except Fault (HeapFile × Int × Option Page) := do
  let (hf, rc) ← ensureFirstPage hf
  if rc ≠ ErrorCode.ok.code then return (hf, rc, none)
  match ← searchPages tupleSize maxPages hf.dm hf.firstPageId with
  | (dm, .error rc) => return ({ hf with dm := dm }, rc.code, none)
  | (dm, .ok (some (current, pageBuf))) =>
      return ({ hf with dm := dm }, current.toInt, some pageBuf)
  | (dm, .ok none) =>
      -- no existing page has enough space
      let (pid, dm) ← diskManagerAllocatePage dm
      if pid < 0 then return ({ hf with dm := dm }, pid, none)
      let newPid := Int32.ofInt pid
      match (storeNewPage newPid).exec dm with
      | (.error rc, dm) => return ({ hf with dm := dm }, rc.code, none)
      | (.ok pageBuf, dm) =>
          match pageAlloc.exec dm with
          | (.error rc, dm) => return ({ hf with dm := dm }, rc.code, none)
          | (.ok _, dm) =>
              match ← linkLast newPid maxPages dm hf.firstPageId with
              | (dm, .error rc) => return ({ hf with dm := dm }, rc.code, none)
              | (dm, .ok _) => return ({ hf with dm := dm }, pid, some pageBuf)

end HeapFile

/-- `heap_file_insert`. -/
def heapFileInsert (hf : HeapFile) (tuple : List UInt8) : Except Fault (HeapFile × HeapResult) :=
  if tuple.length = 0 then .ok (hf, { code := ErrorCode.invalidArgument.code })
  else do
    match ← hf.findPageWithSpace tuple.length with
    | (hf, pid, none) =>
        return (hf, { code := if pid < 0 then pid else ErrorCode.internalError.code })
    | (hf, pid, some pageBuf) =>
        if pid < 0 then return (hf, { code := pid })
        let (pageBuf, slotId) := slottedPageInsert pageBuf tuple
        if slotId < 0 then return (hf, { code := slotId })
        match (diskManagerWritePage (Int32.ofInt pid) pageBuf).exec hf.dm with
        | (.error rc, dm) => return ({ hf with dm := dm }, { code := rc.code })
        | (.ok _, dm) => return ({ hf with dm := dm },
            { code := ErrorCode.ok.code, rid := some ⟨Int32.ofInt pid, Int32.ofInt slotId⟩ })

/-- The common shape of `heap_file_delete` and `heap_file_update`: change a tuple in
its page, which is written back if that succeeded. -/
def HeapFile.changeTuple (hf : HeapFile) (rid : Rid) (change : Page → Page × ErrorCode) :
    HeapFile × HeapResult :=
  if badRid rid then (hf, { code := ErrorCode.invalidArgument.code })
  else
    match (loadPage rid.pageId).exec hf.dm with
    | (.error rc, dm) => ({ hf with dm := dm }, { code := rc.code })
    | (.ok pageBuf, dm) =>
        let (pageBuf, rc) := change pageBuf
        if rc ≠ .ok then ({ hf with dm := dm }, { code := rc.code })
        else
          let (result, dm) := (diskManagerWritePage rid.pageId pageBuf).exec dm
          ({ hf with dm := dm }, { code := resultCode result })

/-- `heap_file_delete`. -/
def heapFileDelete (hf : HeapFile) (rid : Rid) : HeapFile × HeapResult :=
  hf.changeTuple rid fun pageBuf => slottedPageDelete pageBuf rid.slotId

/-- `heap_file_update`. -/
def heapFileUpdate (hf : HeapFile) (rid : Rid) (newData : List UInt8) : HeapFile × HeapResult :=
  if newData.length = 0 then (hf, { code := ErrorCode.invalidArgument.code })
  else hf.changeTuple rid fun pageBuf => slottedPageUpdate pageBuf rid.slotId newData

/-- `heap_file_get`: the bytes a client copies out of the buffer. -/
def heapFileGet (hf : HeapFile) (rid : Rid) : HeapFile × HeapResult :=
  if badRid rid then (hf, { code := ErrorCode.invalidArgument.code })
  else
    match (loadPage rid.pageId).exec hf.dm with
    | (.error rc, dm) => ({ hf with dm := dm }, { code := rc.code })
    | (.ok pageBuf, dm) =>
        match slottedPageGet pageBuf rid.slotId with
        | .error rc => ({ hf with dm := dm }, { code := rc.code })
        | .ok bytes => ({ hf with dm := dm },
            { code := ErrorCode.ok.code, bytes := some bytes })

/-! ## The iterator -/

/-- `heap_iter_t`, without the pointer to its heap; the buffer counts while it is loaded. -/
structure HeapIter where
  currentPageId : PageId
  currentSlot : Nat
  pageBuf : Option Page

/-- `heap_iter_init`. -/
def heapIterInit (hf : HeapFile) : HeapIter := ⟨hf.firstPageId, 0, none⟩

/-- Loads the current page if needed: the `if (!it->page_loaded)` of `heap_iter_next`. -/
def loadCurrent (dm : DiskManager) (it : HeapIter) :
    Except ErrorCode (Page × Nat) × DiskManager :=
  match it.pageBuf with
  | some pageBuf => (.ok (pageBuf, it.currentSlot), dm)
  | none =>
      match (loadPage it.currentPageId).exec dm with
      | (.error rc, dm) => (.error rc, dm)
      | (.ok pageBuf, dm) => (.ok (pageBuf, 0), dm)

/-- `heap_iter_next`: the next row, or the code that ends the iteration. -/
def heapIterNext : Nat → DiskManager → HeapIter →
    Except Fault (DiskManager × HeapIter × Except ErrorCode (Rid × List UInt8))
  | 0, _, _ => .error .unending
  | turns + 1, dm, it =>
      if it.currentPageId = invalidPageId then .ok (dm, it, .error .pageNotFound)
      else
        match loadCurrent dm it with
        | (.error rc, dm) => .ok (dm, it, .error rc)
        | (.ok (pageBuf, slot), dm) =>
            match nextLiveSlot pageBuf (pageHeaderGetNumTuples pageBuf - slot) slot with
            | some slot =>
                .ok (dm, ⟨it.currentPageId, slot + 1, some pageBuf⟩,
                  .ok (⟨it.currentPageId, Int32.ofNat slot⟩,
                    pageBuf.read (slotGetOffset pageBuf slot) (slotGetSize pageBuf slot)))
            | none =>
                heapIterNext turns dm ⟨pageHeaderGetNextPage pageBuf,
                  max slot (pageHeaderGetNumTuples pageBuf), none⟩

/-- A client's loop around `heap_iter_next`: the rows until it returns no `DB_OK`. -/
def heapIterRows : Nat → DiskManager → HeapIter →
    Except Fault (DiskManager × List (Rid × List UInt8) × ErrorCode)
  | 0, _, _ => .error .unending
  | rows + 1, dm, it => do
      match ← heapIterNext maxPages dm it with
      | (dm, _, .error rc) => return (dm, [], rc)
      | (dm, it, .ok row) =>
          let (dm, more, rc) ← heapIterRows rows dm it
          return (dm, row :: more, rc)

/-- A complete scan. -/
def heapFileScan (hf : HeapFile) : Except Fault (HeapFile × HeapResult) := do
  let (dm, rows, rc) ← heapIterRows maxRids hf.dm (heapIterInit hf)
  return ({ hf with dm := dm }, { code := rc.code, rows := rows })

/-- A call on the heap file. -/
def heapFileCall (hf : HeapFile) : HeapOp → Except Fault (HeapFile × HeapResult)
  | .insert tuple => heapFileInsert hf tuple.1
  | .delete rid => .ok (heapFileDelete hf rid)
  | .update rid newData => .ok (heapFileUpdate hf rid newData.1)
  | .get rid => .ok (heapFileGet hf rid)
  | .scan => heapFileScan hf

end MiniSqlite.Storage
