import MiniSqlite.Common.Error
import MiniSqlite.Storage.Page

/-!
# The disk manager

`storage/disk_manager.c` over `common/file_io.c`. The file is the list of page
writes it has received. Calls that can fail (opening the file, allocating a
buffer, transferring a page) draw their outcome from `failures`; when it is used
up they succeed. The path of the file is left out.
-/

namespace MiniSqlite.Storage

open MiniSqlite.Common MiniSqlite.Std

/-- The contents of the database file: the page writes issued, newest first. -/
abbrev DbFile := List (PageId × Page)

/-- The page at an id, if the file reaches that far; a gap reads as zeros. -/
def DbFile.page (file : DbFile) (pageId : PageId) : Option Page :=
  match file.find? fun write => write.1 == pageId with
  | some write => some write.2
  | none => if file.any fun write => pageId < write.1 then some zeroPage else none

/-- `disk_manager_t` with its file. -/
structure DiskManager where
  pageCount : Int32
  freeListHead : PageId
  isOpen : Bool
  file : DbFile
  /-- Whether the next calls that can fail do so. -/
  failures : List Bool

/-- A function of the disk manager: it may leave early with an error code, and
what it has changed by then stays changed. -/
abbrev DiskM := ExceptT ErrorCode (StateM DiskManager)

/-- Runs a function of the disk manager. -/
def DiskM.exec {α : Type} (call : DiskM α) (dm : DiskManager) : Except ErrorCode α × DiskManager :=
  (ExceptT.run call).run dm

namespace DiskM

@[simp] theorem exec_pure {α : Type} (value : α) (dm : DiskManager) :
    exec (pure value) dm = (.ok value, dm) := rfl

@[simp] theorem exec_throw {α : Type} (error : ErrorCode) (dm : DiskManager) :
    exec (throw error : DiskM α) dm = (.error error, dm) := rfl

@[simp] theorem exec_get (dm : DiskManager) : exec get dm = (.ok dm, dm) := rfl

@[simp] theorem exec_modify (change : DiskManager → DiskManager) (dm : DiskManager) :
    exec (modify change) dm = (.ok (), change dm) := rfl

@[simp] theorem exec_bind {α β : Type} (call : DiskM α) (next : α → DiskM β) (dm : DiskManager) :
    exec (call >>= next) dm = match exec call dm with
      | (.ok value, after) => exec (next value) after
      | (.error error, after) => (.error error, after) := by
  unfold exec
  rw [ExceptT.run_bind, StateT.run_bind]
  show (match (ExceptT.run call).run dm with | (result, after) => _) = _
  rcases (ExceptT.run call).run dm with ⟨value | error, after⟩ <;> rfl

@[simp] theorem exec_map {α β : Type} (change : α → β) (call : DiskM α) (dm : DiskManager) :
    exec (change <$> call) dm = match exec call dm with
      | (.ok value, after) => (.ok (change value), after)
      | (.error error, after) => (.error error, after) := by
  rw [← bind_pure_comp, exec_bind]
  rcases exec call dm with ⟨value | error, after⟩ <;> rfl

@[simp] theorem exec_tryCatch {α : Type} (call : DiskM α) (handler : ErrorCode → DiskM α)
    (dm : DiskManager) :
    exec (tryCatch call handler) dm = match exec call dm with
      | (.ok value, after) => (.ok value, after)
      | (.error error, after) => exec (handler error) after := by
  unfold exec
  rw [ExceptT.run_tryCatch, StateT.run_bind]
  show (match (ExceptT.run call).run dm with | (result, after) => _) = _
  rcases (ExceptT.run call).run dm with ⟨value | error, after⟩ <;> rfl

@[simp] theorem exec_ite {α : Type} (condition : Prop) [Decidable condition] (yes no : DiskM α)
    (dm : DiskManager) :
    exec (if condition then yes else no) dm = if condition then exec yes dm else exec no dm := by
  split <;> rfl

end DiskM

/-- A call of the operating system or of the allocator. -/
def mayFail (error : ErrorCode) : DiskM Unit := do
  match (← get).failures with
  | [] => return
  | failed :: later =>
      modify fun dm => { dm with failures := later }
      if failed then throw error

/-- `file_io_open`. -/
def fileIoOpen : DiskM Unit := mayFail .ioError

/-- `page_alloc`. -/
def pageAlloc : DiskM Unit := mayFail .outOfMemory

/-- `file_io_read_page`. -/
def fileIoReadPage (pageId : PageId) : DiskM Page := do
  if pageId < 0 then throw .pageNotFound
  mayFail .ioError
  match (← get).file.page pageId with
  | some page => return page
  | none => throw .ioError

/-- `file_io_write_page`. -/
def fileIoWritePage (pageId : PageId) (buf : Page) : DiskM Unit := do
  if pageId < 0 then throw .pageNotFound
  mayFail .ioError
  modify fun dm => { dm with file := (pageId, buf) :: dm.file }

/-! ## The file header -/

@[simp] abbrev headerOffsetMagic : Nat := 0
@[simp] abbrev headerOffsetVersion : Nat := 10
@[simp] abbrev headerOffsetPageCount : Nat := 14
@[simp] abbrev headerOffsetFreeList : Nat := 18

/-- `DB_MAGIC`, the letters of MINISQLITE. -/
def dbMagic : List UInt8 := [77, 73, 78, 73, 83, 81, 76, 73, 84, 69]

/-- `DB_VERSION`. -/
def dbVersion : UInt32 := 1

/-- `write_header_to_buf`. -/
def writeHeaderToBuf (pageCount : Int32) (freeListHead : PageId) : Page :=
  let buf := zeroPage.write headerOffsetMagic dbMagic
  let buf := Scalar.u32.store buf headerOffsetVersion dbVersion
  let buf := Scalar.u32.store buf headerOffsetPageCount pageCount.toUInt32
  Scalar.i32.store buf headerOffsetFreeList freeListHead

/-- `read_header_from_buf`. -/
def readHeaderFromBuf (buf : Page) : DiskM Unit := do
  if buf.read headerOffsetMagic 10 ≠ dbMagic then throw .ioError
  if Scalar.u32.load buf headerOffsetVersion ≠ dbVersion then throw .ioError
  modify fun dm => { dm with
    pageCount := (Scalar.u32.load buf headerOffsetPageCount).toInt32
    freeListHead := Scalar.i32.load buf headerOffsetFreeList }

/-- Writes the current header to page 0. -/
def flushHeader : DiskM Unit := do
  pageAlloc
  let dm ← get
  fileIoWritePage 0 (writeHeaderToBuf dm.pageCount dm.freeListHead)

/-- `disk_manager_open` where no file exists and nothing fails. -/
def diskManagerCreate : DiskManager where
  pageCount := 1
  freeListHead := invalidPageId
  isOpen := true
  file := [(0, writeHeaderToBuf 1 invalidPageId)]
  failures := []

/-- The first half of `disk_manager_open`: an existing file is opened and its header
read. A file without any page write stands for no file. -/
def openExisting : DiskM Unit := do
  pageAlloc
  let hdr ← fileIoReadPage 0
  readHeaderFromBuf hdr
  modify fun dm => { dm with isOpen := true }

/-- The second half of `disk_manager_open`: a new file replaces what is there. -/
def createFile : DiskM Unit := do
  fileIoOpen
  modify fun dm => { dm with pageCount := 1, freeListHead := invalidPageId, file := [] }
  pageAlloc
  fileIoWritePage 0 (writeHeaderToBuf 1 invalidPageId)
  modify fun dm => { dm with isOpen := true }

/-- `disk_manager_open` on the file of an earlier disk manager. -/
def diskManagerOpen : DiskM Unit := do
  modify fun dm => { dm with pageCount := 0, freeListHead := invalidPageId, isOpen := false }
  let opened ← tryCatch (do fileIoOpen; return true) fun _ => return false
  if opened && !(← get).file.isEmpty then openExisting else createFile

/-- `disk_manager_flush_header`. -/
def diskManagerFlushHeader : DiskM Unit := do
  if !(← get).isOpen then throw .fileNotOpen
  fileIoOpen
  flushHeader

/-- `disk_manager_close`, which ignores whether the header could be written. -/
def diskManagerClose : DiskM Unit := do
  if (← get).isOpen then
    tryCatch diskManagerFlushHeader fun _ => return
    modify fun dm => { dm with isOpen := false }

/-! ## Pages -/

/-- `disk_manager_read_page`. -/
def diskManagerReadPage (pageId : PageId) : DiskM Page := do
  let dm ← get
  if !dm.isOpen then throw .fileNotOpen
  if pageId < 0 ∨ pageId ≥ dm.pageCount then throw .pageNotFound
  fileIoOpen
  fileIoReadPage pageId

/-- `disk_manager_write_page`. -/
def diskManagerWritePage (pageId : PageId) (buf : Page) : DiskM Unit := do
  let dm ← get
  if !dm.isOpen then throw .fileNotOpen
  if pageId < 0 ∨ pageId ≥ dm.pageCount then throw .pageNotFound
  fileIoOpen
  fileIoWritePage pageId buf

/-- Takes the head of the free list, which the first bytes of that page lead on from. -/
def reuseFreedPage : DiskM PageId := do
  let allocatedId := (← get).freeListHead
  pageAlloc
  let pageBuf ← fileIoReadPage allocatedId
  modify fun dm => { dm with freeListHead := Scalar.i32.load pageBuf 0 }
  fileIoWritePage allocatedId zeroPage
  return allocatedId

/-- Extends the file by a page. -/
def appendPage : DiskM PageId := do
  let allocatedId := (← get).pageCount
  pageAlloc
  fileIoWritePage allocatedId zeroPage
  modify fun dm => { dm with pageCount := dm.pageCount + 1 }
  return allocatedId

/-- `disk_manager_allocate_page`, with a page count that wraps around. -/
def allocatePage : DiskM PageId := do
  let dm ← get
  if !dm.isOpen then throw .fileNotOpen
  fileIoOpen
  let allocatedId ← if dm.freeListHead ≠ invalidPageId then reuseFreedPage else appendPage
  flushHeader
  return allocatedId

/-- `disk_manager_allocate_page`: the page id or error code returned. A page count
that has wrapped around has overflowed, which the source leaves undefined. -/
def diskManagerAllocatePage (dm : DiskManager) : Except Fault (Int × DiskManager) :=
  let (result, after) := allocatePage.exec dm
  if after.pageCount < dm.pageCount then .error .overflow
  else match result with
    | .ok allocatedId => .ok (allocatedId.toInt, after)
    | .error rc => .ok (rc.code, after)

/-- A page that was read has a proper id. -/
theorem diskManagerReadPage_valid {pageId : PageId} {dm after : DiskManager} {data : Page}
    (read : (diskManagerReadPage pageId).exec dm = (.ok data, after)) : pageId ≠ invalidPageId := by
  rintro rfl
  have negative : invalidPageId < 0 := by decide
  cases opened : dm.isOpen <;> simp [diskManagerReadPage, opened, negative] at read

theorem diskManagerAllocatePage_error {dm : DiskManager} {fault : Fault}
    (failed : diskManagerAllocatePage dm = .error fault) : fault = .overflow := by
  unfold diskManagerAllocatePage at failed
  split at failed
  split at failed
  · exact (Except.error.inj failed).symm
  · split at failed <;> exact absurd failed (by simp)

/-- The id of a page allocated is a proper one. -/
theorem diskManagerAllocatePage_valid {dm after : DiskManager} {newPid : Int}
    (allocated : diskManagerAllocatePage dm = .ok (newPid, after)) (nonneg : 0 ≤ newPid) :
    Int32.ofInt newPid ≠ invalidPageId := by
  have small : newPid < 2 ^ 31 := by
    unfold diskManagerAllocatePage at allocated
    split at allocated
    split at allocated
    · exact absurd allocated (by simp)
    · split at allocated
      · rename_i pageId _
        obtain ⟨rfl, _⟩ := Prod.mk.inj (Except.ok.inj allocated)
        exact pageId.toInt_lt
      · rename_i rc _
        obtain ⟨rfl, _⟩ := Prod.mk.inj (Except.ok.inj allocated)
        cases rc <;> decide
  intro same
  have value := congrArg Int32.toInt same
  rw [Int32.toInt_ofInt_of_le (by omega) small] at value
  have invalid : invalidPageId.toInt = -1 := by decide
  omega

/-- `disk_manager_deallocate_page`. -/
def diskManagerDeallocatePage (pageId : PageId) : DiskM Unit := do
  let dm ← get
  if !dm.isOpen then throw .fileNotOpen
  if pageId ≤ 0 ∨ pageId ≥ dm.pageCount then throw .pageNotFound
  fileIoOpen
  pageAlloc
  let pageBuf ← fileIoReadPage pageId
  fileIoWritePage pageId (Scalar.i32.store pageBuf 0 dm.freeListHead)
  modify fun dm => { dm with freeListHead := pageId }
  flushHeader

end MiniSqlite.Storage
