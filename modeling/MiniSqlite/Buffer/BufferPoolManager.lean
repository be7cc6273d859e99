import MiniSqlite.Buffer.LruReplacer
import MiniSqlite.Storage.DiskManager

/-!
# The buffer pool manager

`buffer/buffer_pool_manager.c`. A `page_t*` is the index of its frame, so that a
client that keeps one reads whatever that frame holds later. Latches are left
out, and so are allocation failures in `bpm_init`. A page has fewer pins and the
pool fewer frames than would overflow an `int`.
-/

namespace MiniSqlite.Buffer

open MiniSqlite.Common MiniSqlite.Std MiniSqlite.Storage

/-- `page_t`. -/
structure PageT where
  data : Page
  pageId : PageId
  pinCount : Nat
  isDirty : Bool

/-- `int_hash` and `int_equal` on page ids widened by `page_id_to_key`. -/
def pageKeys : HashKey PageId := .ofEq fun pageId => intHash pageId.toUInt32.toUInt64

/-- A node of the free list: its sentinel, or the node of a frame in `free_nodes`. -/
inductive FreeNode where
  | sentinel
  | frame (frameId : FrameId)
  deriving DecidableEq

/-- `buffer_pool_manager_t`. Values of the page table are frame ids; the source
stores them with 1 added to keep 0 for "not found". -/
structure BufferPoolManager where
  poolSize : Nat
  pages : FrameId → PageT
  pageTable : Hashmap pageKeys FrameId
  freeList : ListT FreeNode
  freeNodes : Links FreeNode
  replacer : LruReplacer
  diskManager : DiskManager

namespace BufferPoolManager

/-- The pool with one frame exchanged. -/
def setPage (bpm : BufferPoolManager) (frameId : FrameId) (page : PageT) : BufferPoolManager :=
  { bpm with pages := fun other => if other = frameId then page else bpm.pages other }

/-- Puts a frame at the end of the free list, after clearing its node. -/
def pushFree (bpm : BufferPoolManager) (frameId : FrameId) : Except Fault BufferPoolManager := do
  let freeNodes := (bpm.freeNodes.setPrev (.frame frameId) none).setNext (.frame frameId) none
  let (freeNodes, freeList) ← listPushBack freeNodes bpm.freeList (.frame frameId)
  return { bpm with freeNodes := freeNodes, freeList := freeList }

end BufferPoolManager

/-- `find_free_frame`, with `none` for -1. -/
def findFreeFrame (bpm : BufferPoolManager) :
    Except Fault (BufferPoolManager × Option FrameId) := do
  match ← listPopFront bpm.freeNodes bpm.freeList with
  | (freeNodes, freeList, some (.frame frameId)) =>
      return ({ bpm with freeNodes := freeNodes, freeList := freeList }, some frameId)
  | (freeNodes, freeList, none) =>
      return ({ bpm with freeNodes := freeNodes, freeList := freeList }, none)
  | (_, _, some .sentinel) => throw .nullPointer

/-- Writes the page of a frame to disk if it is dirty. -/
def writeIfDirty (bpm : BufferPoolManager) (frameId : FrameId) : BufferPoolManager :=
  let page := bpm.pages frameId
  if page.isDirty then
    let (_, diskManager) := (diskManagerWritePage page.pageId page.data).exec bpm.diskManager
    { bpm with diskManager := diskManager }.setPage frameId { page with isDirty := false }
  else bpm

/-- `evict_page`, with `none` for -1. -/
def evictPage (bpm : BufferPoolManager) : Except Fault (BufferPoolManager × Option FrameId) := do
  match ← lruReplacerVictim bpm.replacer with
  | (replacer, none) => return ({ bpm with replacer := replacer }, none)
  | (replacer, some frameId) =>
      let bpm := writeIfDirty { bpm with replacer := replacer } frameId
      let page := bpm.pages frameId
      let bpm := { bpm with pageTable := bpm.pageTable.hashmapRemove page.pageId }
      let bpm := bpm.setPage frameId
        { page with pageId := invalidPageId, pinCount := 0, isDirty := false }
      let bpm ← bpm.pushFree frameId
      return (bpm, some frameId)

/-- A frame for a page that is not in the pool: a free one, or else one evicted. -/
def takeFrame (bpm : BufferPoolManager) : Except Fault (BufferPoolManager × Option FrameId) := do
  match ← findFreeFrame bpm with
  | (bpm, some frameId) => return (bpm, some frameId)
  | (bpm, none) => evictPage bpm

/-- `free_nodes` and the free list with all frames below `count` in it. -/
def initFreeList : (count : Nat) → Except Fault (Links FreeNode × ListT FreeNode)
  | 0 => .ok (listInit .unlinked .sentinel)
  | count + 1 => do
      let (freeNodes, freeList) ← initFreeList count
      listPushBack freeNodes freeList (.frame count)

/-- `bpm_init`. -/
def bpmInit (poolSize : Nat) (dm : DiskManager) : Except Fault BufferPoolManager := do
  let (freeNodes, freeList) ← initFreeList poolSize
  return {
    poolSize := poolSize
    pages := fun _ => ⟨zeroPage, invalidPageId, 0, false⟩
    pageTable := .hashmapInit pageKeys FrameId 64
    freeList := freeList
    freeNodes := freeNodes
    replacer := lruReplacerInit poolSize
    diskManager := dm }

/-- `bpm_fetch_page`, with `none` for `NULL`. -/
def bpmFetchPage (bpm : BufferPoolManager) (pageId : PageId) :
    Except Fault (BufferPoolManager × Option FrameId) := do
  match bpm.pageTable.hashmapGet pageId with
  | some frameId =>
      let page := bpm.pages frameId
      let bpm := bpm.setPage frameId { page with pinCount := page.pinCount + 1 }
      let replacer ← lruReplacerPin bpm.replacer frameId
      return ({ bpm with replacer := replacer }, some frameId)
  | none =>
      match ← takeFrame bpm with
      | (bpm, none) => return (bpm, none)
      | (bpm, some frameId) =>
          match (diskManagerReadPage pageId).exec bpm.diskManager with
          | (.error _, diskManager) =>
              let bpm ← { bpm with diskManager := diskManager }.pushFree frameId
              return (bpm, none)
          | (.ok data, diskManager) =>
              let bpm := { bpm with diskManager := diskManager }.setPage frameId
                ⟨data, pageId, 1, false⟩
              let bpm := { bpm with pageTable := bpm.pageTable.hashmapPut pageId frameId }
              return (bpm, some frameId)

/-- `bpm_new_page`, with `none` for `NULL`. An error code of the disk manager is
positive and passes for a page id. -/
def bpmNewPage (bpm : BufferPoolManager) :
    Except Fault (BufferPoolManager × Option (PageId × FrameId)) := do
  let (newPid, diskManager) ← diskManagerAllocatePage bpm.diskManager
  let bpm := { bpm with diskManager := diskManager }
  if newPid < 0 then return (bpm, none)
  let newPid := Int32.ofInt newPid
  match ← takeFrame bpm with
  | (bpm, none) =>
      let (_, diskManager) := (diskManagerDeallocatePage newPid).exec bpm.diskManager
      return ({ bpm with diskManager := diskManager }, none)
  | (bpm, some frameId) =>
      let bpm := bpm.setPage frameId ⟨zeroPage, newPid, 1, false⟩
      let (_, diskManager) := (diskManagerWritePage newPid zeroPage).exec bpm.diskManager
      let bpm := { bpm with
        diskManager := diskManager
        pageTable := bpm.pageTable.hashmapPut newPid frameId }
      return (bpm, some (newPid, frameId))

/-- `bpm_unpin_page`. -/
def bpmUnpinPage (bpm : BufferPoolManager) (pageId : PageId) (isDirty : Bool) :
    Except Fault (BufferPoolManager × Int) :=
  match bpm.pageTable.hashmapGet pageId with
  | none => .ok (bpm, -1)
  | some frameId =>
      let page := bpm.pages frameId
      if page.pinCount = 0 then .ok (bpm, -1)
      else do
        let bpm := bpm.setPage frameId
          { page with pinCount := page.pinCount - 1, isDirty := isDirty || page.isDirty }
        if page.pinCount - 1 = 0 then
          let replacer ← lruReplacerUnpin bpm.replacer frameId
          return ({ bpm with replacer := replacer }, 0)
        else return (bpm, 0)

/-- `bpm_flush_page`. -/
def bpmFlushPage (bpm : BufferPoolManager) (pageId : PageId) : BufferPoolManager × Int :=
  match bpm.pageTable.hashmapGet pageId with
  | none => (bpm, -1)
  | some frameId =>
      let page := bpm.pages frameId
      match (diskManagerWritePage pageId page.data).exec bpm.diskManager with
      | (.ok _, diskManager) =>
          ({ bpm with diskManager := diskManager }.setPage frameId { page with isDirty := false },
            ErrorCode.ok.code)
      | (.error rc, diskManager) => ({ bpm with diskManager := diskManager }, rc.code)

/-- A turn of the loop in `bpm_flush_all`. -/
def flushFrame (bpm : BufferPoolManager) (frameId : FrameId) : BufferPoolManager :=
  if (bpm.pages frameId).pageId ≠ invalidPageId then writeIfDirty bpm frameId else bpm

/-- `bpm_flush_all`. -/
def bpmFlushAll (bpm : BufferPoolManager) : BufferPoolManager :=
  (List.range bpm.poolSize).foldl flushFrame bpm

end MiniSqlite.Buffer
