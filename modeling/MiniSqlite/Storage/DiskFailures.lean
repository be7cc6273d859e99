import MiniSqlite.Storage.DiskContents
import MiniSqlite.Storage.HeapFile

/-!
# Allocations that fail

`disk_manager_allocate_page` may fail at every call of the operating system or of the
allocator. `allocatePage_kept_iff` says at which of them the disk manager is left as it
was. The functions that are told the error code take it for a page id: what they do to the
file then is `diskManagerDeallocatePage_untouched_iff` and `storeNewPage_untouched_iff`.
-/

namespace MiniSqlite.Storage

open MiniSqlite.Common MiniSqlite.Std

/-- The call that can fail, after `count` more that can, fails. -/
def DiskManager.Fails (dm : DiskManager) (count : Nat) : Prop := dm.failures[count]? = some true

instance (dm : DiskManager) (count : Nat) : Decidable (dm.Fails count) :=
  inferInstanceAs (Decidable (_ = _))

/-- The disk manager after so many calls that can fail. -/
def DiskManager.drawn (dm : DiskManager) (count : Nat) : DiskManager :=
  { dm with failures := dm.failures.drop count }

namespace DiskManager

variable (dm : DiskManager)

@[simp] theorem drawn_pageCount (count : Nat) : (dm.drawn count).pageCount = dm.pageCount := rfl

@[simp] theorem drawn_freeListHead (count : Nat) :
    (dm.drawn count).freeListHead = dm.freeListHead := rfl

@[simp] theorem drawn_isOpen (count : Nat) : (dm.drawn count).isOpen = dm.isOpen := rfl

@[simp] theorem drawn_file (count : Nat) : (dm.drawn count).file = dm.file := rfl

@[simp] theorem drawn_drawn (first second : Nat) :
    (dm.drawn first).drawn second = dm.drawn (first + second) := by
  simp [drawn, List.drop_drop]

@[simp] theorem drawn_fails (first second : Nat) :
    (dm.drawn first).Fails second ↔ dm.Fails (first + second) := by
  simp [Fails, drawn]

end DiskManager

@[simp] theorem DiskManager.written_freeListHead (dm : DiskManager) (pageId : PageId) (buf : Page) :
    (dm.written pageId buf).freeListHead = dm.freeListHead := rfl

variable {dm after : DiskManager} {rc : ErrorCode}

theorem mayFail_exec (error : ErrorCode) (dm : DiskManager) : (mayFail error).exec dm =
    if dm.Fails 0 then (.error error, dm.drawn 1) else (.ok (), dm.drawn 1) := by
  obtain ⟨pageCount, freeListHead, isOpen, file, failures⟩ := dm
  cases failures with
  | nil => simp [mayFail, DiskManager.Fails, DiskManager.drawn]
  | cons failed later => cases failed <;> simp [mayFail, DiskManager.Fails, DiskManager.drawn]

theorem readPage_exec (pageId : PageId) (dm : DiskManager) : (fileIoReadPage pageId).exec dm =
    if pageId < 0 then (.error .pageNotFound, dm)
    else if dm.Fails 0 then (.error .ioError, dm.drawn 1)
    else match dm.file.page pageId with
      | some page => (.ok page, dm.drawn 1)
      | none => (.error .ioError, dm.drawn 1) := by
  by_cases negative : pageId < 0
  · simp [fileIoReadPage, negative]
  · by_cases fails : dm.Fails 0
    · simp [fileIoReadPage, negative, mayFail_exec, fails]
    · cases found : dm.file.page pageId <;>
        simp [fileIoReadPage, negative, mayFail_exec, fails, found]

theorem writePage_exec (pageId : PageId) (buf : Page) (dm : DiskManager) :
    (fileIoWritePage pageId buf).exec dm =
      if pageId < 0 then (.error .pageNotFound, dm)
      else if dm.Fails 0 then (.error .ioError, dm.drawn 1)
      else (.ok (), (dm.drawn 1).written pageId buf) := by
  by_cases negative : pageId < 0
  · simp [fileIoWritePage, negative]
  · by_cases fails : dm.Fails 0
    · simp [fileIoWritePage, negative, mayFail_exec, fails]
    · simp [fileIoWritePage, negative, mayFail_exec, fails, DiskManager.written]

/-! ## The state of the disk manager -/

/-- The page count and the head of the free list are as before. -/
def Kept (dm after : DiskManager) : Prop :=
  after.pageCount = dm.pageCount ∧ after.freeListHead = dm.freeListHead

/-- An allocation from the free list fails before it moves the head, or moves it nowhere. -/
def ReuseFailsEarly (dm : DiskManager) : Prop :=
  dm.Fails 1 ∨ dm.freeListHead < 0 ∨ dm.Fails 2 ∨
    ∀ page, dm.file.page dm.freeListHead = some page → Scalar.i32.load page 0 = dm.freeListHead

/-- An allocation at the end of the file fails before the page is counted. -/
def AppendFailsEarly (dm : DiskManager) : Prop :=
  dm.Fails 1 ∨ dm.pageCount < 0 ∨ dm.Fails 2

/-- An allocation fails before it changes the page count or the head of the free list. -/
def FailsEarly (dm : DiskManager) : Prop :=
  dm.isOpen = false ∨ dm.Fails 0 ∨
    if dm.freeListHead ≠ invalidPageId then ReuseFailsEarly dm else AppendFailsEarly dm

theorem flushHeader_keeps (dm : DiskManager) : Kept dm (flushHeader.exec dm).2 := by
  have notNegative : ¬(0 : PageId) < 0 := Int32.lt_irrefl
  by_cases buffer : dm.Fails 0
  · simp [flushHeader, pageAlloc, mayFail_exec, buffer, Kept]
  · by_cases write : dm.Fails 1 <;>
      simp [flushHeader, pageAlloc, mayFail_exec, buffer, writePage_exec, notNegative, write, Kept]

/-- The head of the free list after it was to be reused. -/
theorem reuseFreedPage_head (dm : DiskManager) :
    (reuseFreedPage.exec dm).2.pageCount = dm.pageCount ∧
      ((reuseFreedPage.exec dm).2.freeListHead = dm.freeListHead ↔
        dm.Fails 0 ∨ dm.freeListHead < 0 ∨ dm.Fails 1 ∨ ∀ page,
          dm.file.page dm.freeListHead = some page → Scalar.i32.load page 0 = dm.freeListHead) := by
  by_cases buffer : dm.Fails 0
  · simp [reuseFreedPage, pageAlloc, mayFail_exec, buffer]
  · by_cases negative : dm.freeListHead < 0
    · simp [reuseFreedPage, pageAlloc, mayFail_exec, buffer, readPage_exec, negative]
    · by_cases read : dm.Fails 1
      · simp [reuseFreedPage, pageAlloc, mayFail_exec, buffer, readPage_exec, negative, read]
      · cases found : dm.file.page dm.freeListHead with
        | none =>
            simp [reuseFreedPage, pageAlloc, mayFail_exec, buffer, readPage_exec, negative, read,
              found]
        | some page =>
            simp only [reuseFreedPage, pageAlloc, DiskM.exec_bind, DiskM.exec_get, mayFail_exec,
              buffer, if_false, readPage_exec, negative,
              DiskManager.drawn_fails, Nat.add_zero, read, DiskManager.drawn_file, found,
              DiskManager.drawn_drawn, DiskM.exec_modify, writePage_exec, false_or,
              Option.some.injEq, forall_eq']
            split <;> rename_i outcome <;> split at outcome <;> cases outcome <;> simp

/-- The page count after the file was to be extended. -/
theorem appendPage_count (dm : DiskManager) :
    (appendPage.exec dm).2.freeListHead = dm.freeListHead ∧
      ((appendPage.exec dm).2.pageCount = dm.pageCount ↔
        dm.Fails 0 ∨ dm.pageCount < 0 ∨ dm.Fails 1) := by
  have counted : dm.pageCount + 1 ≠ dm.pageCount := by
    intro same
    simp at same
  by_cases buffer : dm.Fails 0
  · simp [appendPage, pageAlloc, mayFail_exec, buffer]
  · by_cases negative : dm.pageCount < 0
    · simp [appendPage, pageAlloc, mayFail_exec, buffer, writePage_exec, negative]
    · by_cases write : dm.Fails 1 <;>
        simp [appendPage, pageAlloc, mayFail_exec, buffer, writePage_exec, negative, write, counted]

/-- Writing the header at the end of an allocation changes neither. -/
theorem flushing_kept_iff (take : DiskM PageId) (dm start : DiskManager) :
    Kept dm ((do let allocatedId ← take; flushHeader; return allocatedId).exec start).2 ↔
      Kept dm (take.exec start).2 := by
  simp only [DiskM.exec_bind]
  rcases take.exec start with ⟨allocatedId | error, middle⟩
  · exact Iff.rfl
  · obtain ⟨count, head⟩ := flushHeader_keeps middle
    simp only [DiskM.exec_pure, Kept]
    rcases flushed : flushHeader.exec middle with ⟨_ | _, after⟩ <;>
      rw [flushed] at count head <;>
      exact Iff.of_eq (by rw [count, head])

/-- An allocation keeps the page count and the head of the free list exactly where it fails early. -/
theorem allocatePage_kept_iff (dm : DiskManager) :
    Kept dm (allocatePage.exec dm).2 ↔ FailsEarly dm := by
  cases isOpen : dm.isOpen with
  | false =>
      refine iff_of_true ?_ (.inl isOpen)
      simp [allocatePage, isOpen, Kept]
  | true =>
      by_cases open_ : dm.Fails 0
      · refine iff_of_true ?_ (.inr (.inl open_))
        simp [allocatePage, isOpen, fileIoOpen, mayFail_exec, open_, Kept]
      · rw [FailsEarly, isOpen]
        simp only [Bool.true_eq_false, open_, false_or]
        by_cases listed : dm.freeListHead ≠ invalidPageId
        · have rest := flushing_kept_iff reuseFreedPage dm (dm.drawn 1)
          obtain ⟨count, head⟩ := reuseFreedPage_head (dm.drawn 1)
          simp only [DiskManager.drawn_fails, DiskManager.drawn_freeListHead, DiskManager.drawn_file,
            DiskManager.drawn_pageCount] at count head
          rw [if_pos listed, ReuseFailsEarly, ← head]
          refine Iff.trans ?_ (rest.trans (and_iff_right count))
          simp [allocatePage, isOpen, fileIoOpen, mayFail_exec, open_, listed]
        · have rest := flushing_kept_iff appendPage dm (dm.drawn 1)
          obtain ⟨head, count⟩ := appendPage_count (dm.drawn 1)
          simp only [DiskManager.drawn_fails, DiskManager.drawn_freeListHead,
            DiskManager.drawn_pageCount] at count head
          rw [if_neg listed, AppendFailsEarly, ← count]
          refine Iff.trans ?_ (rest.trans (and_iff_left head))
          simp [allocatePage, isOpen, fileIoOpen, mayFail_exec, open_, not_not.mp listed]

/-! ## The file of the disk manager -/

/-- Neither the state of the disk manager nor its file is changed. -/
def Untouched (dm after : DiskManager) : Prop := Kept dm after ∧ after.file = dm.file

theorem untouched_drawn (dm : DiskManager) (count : Nat) : Untouched dm (dm.drawn count) :=
  ⟨⟨rfl, rfl⟩, rfl⟩

/-- A file that a page was written to is not what it was. -/
theorem not_untouched_of_written {write : PageId × Page}
    (written : write :: dm.file <:+ after.file) : ¬Untouched dm after := by
  rintro ⟨-, same⟩
  have length := written.length_le
  rw [same, List.length_cons] at length
  exact absurd length (Nat.not_succ_le_self _)

theorem writePage_suffix (pageId : PageId) (buf : Page) (dm : DiskManager) :
    dm.file <:+ ((fileIoWritePage pageId buf).exec dm).2.file := by
  rw [writePage_exec]
  split
  · exact List.suffix_rfl
  · split
    · exact List.suffix_rfl
    · exact List.suffix_cons _ _

theorem flushHeader_suffix (dm : DiskManager) : dm.file <:+ (flushHeader.exec dm).2.file := by
  by_cases buffer : dm.Fails 0
  · simp [flushHeader, pageAlloc, mayFail_exec, buffer]
  · simpa [flushHeader, pageAlloc, mayFail_exec, buffer] using
      writePage_suffix 0 (writeHeaderToBuf dm.pageCount dm.freeListHead) (dm.drawn 1)

theorem fileIoReadPage_untouched (pageId : PageId) (dm : DiskManager) :
    Untouched dm ((fileIoReadPage pageId).exec dm).2 := by
  rw [readPage_exec]
  split
  · exact ⟨⟨rfl, rfl⟩, rfl⟩
  · split
    · exact untouched_drawn dm 1
    · split <;> exact untouched_drawn dm 1

theorem diskManagerReadPage_untouched (pageId : PageId) (dm : DiskManager) :
    Untouched dm ((diskManagerReadPage pageId).exec dm).2 := by
  cases isOpen : dm.isOpen with
  | false => simp [diskManagerReadPage, isOpen, Untouched, Kept]
  | true =>
      by_cases missing : pageId < 0 ∨ dm.pageCount ≤ pageId
      · simp [diskManagerReadPage, isOpen, missing, Untouched, Kept]
      · by_cases opened : dm.Fails 0
        · simp [diskManagerReadPage, isOpen, missing, fileIoOpen, mayFail_exec, opened,
            untouched_drawn]
        · have read : Untouched dm ((fileIoReadPage pageId).exec (dm.drawn 1)).2 :=
            fileIoReadPage_untouched pageId (dm.drawn 1)
          simpa [diskManagerReadPage, isOpen, missing, fileIoOpen, mayFail_exec, opened] using read

theorem diskManagerWritePage_suffix (pageId : PageId) (buf : Page) (dm : DiskManager) :
    dm.file <:+ ((diskManagerWritePage pageId buf).exec dm).2.file := by
  cases isOpen : dm.isOpen with
  | false => simp [diskManagerWritePage, isOpen]
  | true =>
      by_cases missing : pageId < 0 ∨ dm.pageCount ≤ pageId
      · simp [diskManagerWritePage, isOpen, missing]
      · by_cases opened : dm.Fails 0
        · simp [diskManagerWritePage, isOpen, missing, fileIoOpen, mayFail_exec, opened]
        · simpa [diskManagerWritePage, isOpen, missing, fileIoOpen, mayFail_exec, opened] using
            writePage_suffix pageId buf (dm.drawn 1)

/-- A page cannot be written: the file is closed, does not reach that far, or the call fails. -/
def WriteRefused (dm : DiskManager) (pageId : PageId) : Prop :=
  dm.isOpen = false ∨ dm.pageCount ≤ pageId ∨ dm.Fails 0 ∨ dm.Fails 1

theorem diskManagerWritePage_refused {pageId : PageId} (buf : Page)
    (refused : WriteRefused dm pageId) : ∃ rc after,
      (diskManagerWritePage pageId buf).exec dm = (.error rc, after) ∧ Untouched dm after := by
  cases isOpen : dm.isOpen with
  | false => exact ⟨.fileNotOpen, dm, by simp [diskManagerWritePage, isOpen], ⟨rfl, rfl⟩, rfl⟩
  | true =>
      by_cases missing : pageId < 0 ∨ dm.pageCount ≤ pageId
      · exact ⟨.pageNotFound, dm, by simp [diskManagerWritePage, isOpen, missing], ⟨rfl, rfl⟩, rfl⟩
      · by_cases opened : dm.Fails 0
        · exact ⟨.ioError, dm.drawn 1, by
            simp [diskManagerWritePage, isOpen, missing, fileIoOpen, mayFail_exec, opened],
            untouched_drawn dm 1⟩
        · have write : dm.Fails 1 := by
            rcases refused with closed | beyond | fails | fails
            · rw [isOpen] at closed
              cases closed
            · exact absurd (.inr beyond) missing
            · exact absurd fails opened
            · exact fails
          exact ⟨.ioError, dm.drawn 2, by
            simp [diskManagerWritePage, isOpen, fileIoOpen, mayFail_exec, opened, writePage_exec,
              not_or.mp missing, write], untouched_drawn dm 2⟩

theorem diskManagerWritePage_taken {pageId : PageId} (buf : Page) (positive : 0 < pageId)
    (taken : ¬WriteRefused dm pageId) :
    (diskManagerWritePage pageId buf).exec dm = (.ok (), (dm.drawn 2).written pageId buf) := by
  simp only [WriteRefused, not_or, Bool.not_eq_false] at taken
  obtain ⟨isOpen, inside, opened, write⟩ := taken
  have notNegative : ¬pageId < 0 := Int32.not_lt.mpr (Int32.le_of_lt positive)
  simp [diskManagerWritePage, isOpen, notNegative, inside, fileIoOpen, mayFail_exec, opened,
    writePage_exec, write]

/-! ## Error codes as page ids -/

/-- The page id that an error code passes for. -/
def codePage (rc : ErrorCode) : PageId := Int32.ofInt rc.code

theorem codePage_pos (failed : rc ≠ .ok) : 0 < codePage rc := by
  cases rc <;> first | exact absurd rfl failed | decide

/-- A page cannot be given back. -/
def DeallocateRefused (dm : DiskManager) (pageId : PageId) : Prop :=
  dm.isOpen = false ∨ dm.pageCount ≤ pageId ∨ dm.Fails 0 ∨ dm.Fails 1 ∨ dm.Fails 2 ∨
    dm.file.page pageId = none ∨ dm.Fails 3

/-- A page given back is written to, unless that is refused. -/
theorem diskManagerDeallocatePage_untouched_iff {pageId : PageId} (positive : 0 < pageId) :
    Untouched dm ((diskManagerDeallocatePage pageId).exec dm).2 ↔ DeallocateRefused dm pageId := by
  have notNegative : ¬pageId < 0 := Int32.not_lt.mpr (Int32.le_of_lt positive)
  have notHeader : ¬pageId ≤ 0 := Int32.not_le.mpr positive
  cases isOpen : dm.isOpen with
  | false =>
      refine iff_of_true ?_ (.inl isOpen)
      simp [diskManagerDeallocatePage, isOpen, Untouched, Kept]
  | true =>
      by_cases missing : dm.pageCount ≤ pageId
      · refine iff_of_true ?_ (.inr (.inl missing))
        simp [diskManagerDeallocatePage, isOpen, missing, Untouched, Kept]
      · by_cases opened : dm.Fails 0
        · refine iff_of_true ?_ (.inr (.inr (.inl opened)))
          simp [diskManagerDeallocatePage, isOpen, missing, notHeader, fileIoOpen, mayFail_exec,
            opened, untouched_drawn]
        · by_cases buffer : dm.Fails 1
          · refine iff_of_true ?_ (.inr (.inr (.inr (.inl buffer))))
            simp [diskManagerDeallocatePage, isOpen, missing, notHeader, fileIoOpen, mayFail_exec,
              opened, pageAlloc, buffer, untouched_drawn]
          · by_cases read : dm.Fails 2
            · refine iff_of_true ?_ (.inr (.inr (.inr (.inr (.inl read)))))
              simp [diskManagerDeallocatePage, isOpen, missing, notHeader, fileIoOpen, mayFail_exec,
                opened, pageAlloc, buffer, readPage_exec, notNegative, read, untouched_drawn]
            · cases found : dm.file.page pageId with
              | none =>
                  refine iff_of_true ?_ (.inr (.inr (.inr (.inr (.inr (.inl found))))))
                  simp [diskManagerDeallocatePage, isOpen, missing, notHeader, fileIoOpen,
                    mayFail_exec, opened, pageAlloc, buffer, readPage_exec, notNegative, read, found,
                    untouched_drawn]
              | some page =>
                  by_cases write : dm.Fails 3
                  · refine iff_of_true ?_ (.inr (.inr (.inr (.inr (.inr (.inr write))))))
                    simp [diskManagerDeallocatePage, isOpen, missing, notHeader, fileIoOpen,
                      mayFail_exec, opened, pageAlloc, buffer, readPage_exec, notNegative, read,
                      found, writePage_exec, write, untouched_drawn]
                  · refine iff_of_false ?_ ?_
                    · have flushed := flushHeader_suffix { (dm.drawn 4).written pageId
                        (Scalar.i32.store page 0 dm.freeListHead) with freeListHead := pageId }
                      change (pageId, Scalar.i32.store page 0 dm.freeListHead) :: dm.file <:+ _
                        at flushed
                      refine @not_untouched_of_written dm _
                        (pageId, Scalar.i32.store page 0 dm.freeListHead) ?_
                      simpa [diskManagerDeallocatePage, isOpen, missing, notHeader, fileIoOpen,
                        mayFail_exec, opened, pageAlloc, buffer, readPage_exec, notNegative, read,
                        found, writePage_exec, write] using flushed
                    · simp [DeallocateRefused, isOpen, missing, opened, buffer, read, found, write]

/-- A new page cannot be stored: no buffer, or a write that is refused. -/
def StoreRefused (dm : DiskManager) (pageId : PageId) : Prop :=
  dm.Fails 0 ∨ WriteRefused (dm.drawn 1) pageId

theorem storeNewPage_refused {pageId : PageId} (refused : StoreRefused dm pageId) :
    ∃ rc after, (HeapFile.storeNewPage pageId).exec dm = (.error rc, after) ∧ Untouched dm after := by
  by_cases buffer : dm.Fails 0
  · exact ⟨.outOfMemory, dm.drawn 1, by
      simp [HeapFile.storeNewPage, pageAlloc, mayFail_exec, buffer], untouched_drawn dm 1⟩
  · obtain ⟨rc, after, write, same⟩ := diskManagerWritePage_refused
      (slottedPageInit zeroPage pageId) (refused.resolve_left buffer)
    exact ⟨rc, after, by
      simp [HeapFile.storeNewPage, pageAlloc, mayFail_exec, buffer, write], same⟩

theorem storeNewPage_taken {pageId : PageId} (positive : 0 < pageId)
    (taken : ¬StoreRefused dm pageId) :
    (pageId, slottedPageInit zeroPage pageId) :: dm.file <:+
      ((HeapFile.storeNewPage pageId).exec dm).2.file := by
  obtain ⟨buffer, write⟩ := not_or.mp taken
  have written := diskManagerWritePage_taken (slottedPageInit zeroPage pageId) positive write
  have read := (diskManagerReadPage_untouched pageId
    (((dm.drawn 1).drawn 2).written pageId (slottedPageInit zeroPage pageId))).2
  simp only [HeapFile.storeNewPage, pageAlloc, DiskM.exec_bind, mayFail_exec, buffer, if_false,
    written, read]
  exact List.suffix_rfl

/-! ## Insertions into a heap file -/

theorem linkLast_suffix (newPid : PageId) {turns : Nat} {last : PageId} {dm after : DiskManager}
    {result : Except ErrorCode Unit}
    (linked : HeapFile.linkLast newPid turns dm last = .ok (after, result)) :
    dm.file <:+ after.file := by
  induction turns generalizing dm last with
  | zero => cases linked
  | succ turns ih =>
      have same := (diskManagerReadPage_untouched last dm).2
      rw [HeapFile.linkLast] at linked
      rcases read : (diskManagerReadPage last).exec dm with ⟨rc | lastBuf, middle⟩
      · rw [read] at linked same
        obtain ⟨rfl, -⟩ := Prod.mk.inj (Except.ok.inj linked)
        rw [same]
      · rw [read] at linked same
        dsimp only at linked same
        rw [← same]
        split at linked
        · obtain ⟨rfl, -⟩ := Prod.mk.inj (Except.ok.inj linked)
          exact diskManagerWritePage_suffix _ _ _
        · exact ih linked

/-- Once there is a first page, looking for room does not change which it is. -/
theorem findPageWithSpace_first {hf middle next : HeapFile} {tupleSize : Nat} {code pid : Int}
    {buf : Option Page} (ensured : hf.ensureFirstPage = .ok (middle, code))
    (found : hf.findPageWithSpace tupleSize = .ok (next, pid, buf)) :
    next.firstPageId = middle.firstPageId := by
  simp only [HeapFile.findPageWithSpace, ensured, bind, Except.bind, pure, Except.pure] at found
  split at found
  · obtain ⟨rfl, -⟩ := Prod.mk.inj (Except.ok.inj found)
    rfl
  · split at found
    · cases found
    · split at found
      · obtain ⟨rfl, -⟩ := Prod.mk.inj (Except.ok.inj found)
        rfl
      · obtain ⟨rfl, -⟩ := Prod.mk.inj (Except.ok.inj found)
        rfl
      · split at found
        · cases found
        · split at found
          · obtain ⟨rfl, -⟩ := Prod.mk.inj (Except.ok.inj found)
            rfl
          · split at found
            · obtain ⟨rfl, -⟩ := Prod.mk.inj (Except.ok.inj found)
              rfl
            · split at found
              · obtain ⟨rfl, -⟩ := Prod.mk.inj (Except.ok.inj found)
                rfl
              · split at found
                · cases found
                · split at found <;>
                    obtain ⟨rfl, -⟩ := Prod.mk.inj (Except.ok.inj found) <;> rfl

theorem heapFileInsert_first {hf middle next : HeapFile} {tuple : List UInt8} {code : Int}
    {result : HeapResult} (nonempty : tuple ≠ [])
    (ensured : hf.ensureFirstPage = .ok (middle, code))
    (inserted : heapFileInsert hf tuple = .ok (next, result)) :
    next.firstPageId = middle.firstPageId := by
  have length : tuple.length ≠ 0 := fun empty => nonempty (List.length_eq_zero_iff.mp empty)
  simp only [heapFileInsert, if_neg length, bind, Except.bind, pure, Except.pure] at inserted
  split at inserted
  · cases inserted
  · rename_i found
    split at inserted
    · obtain ⟨rfl, -⟩ := Prod.mk.inj (Except.ok.inj inserted)
      exact findPageWithSpace_first ensured found
    · have first := findPageWithSpace_first ensured found
      split at inserted
      · obtain ⟨rfl, -⟩ := Prod.mk.inj (Except.ok.inj inserted)
        exact first
      · split at inserted
        · obtain ⟨rfl, -⟩ := Prod.mk.inj (Except.ok.inj inserted)
          exact first
        · split at inserted <;>
            obtain ⟨rfl, -⟩ := Prod.mk.inj (Except.ok.inj inserted) <;> exact first

/-- An insertion in which the allocation fails is handled: it returns an error, keeps its
first page and writes to no page. -/
def InsertHandled (hf : HeapFile) (tuple : List UInt8) (after : DiskManager) : Prop :=
  ∃ next result, heapFileInsert hf tuple = .ok (next, result) ∧ result.code ≠ ErrorCode.ok.code ∧
    next.firstPageId = hf.firstPageId ∧ Untouched after next.dm

/-- The code of a failed allocation is returned where a page id would be. -/
theorem diskManagerAllocatePage_failed (failed : allocatePage.exec dm = (.error rc, after))
    (defined : ¬after.pageCount < dm.pageCount) :
    diskManagerAllocatePage dm = .ok (rc.code, after) := by
  simp [diskManagerAllocatePage, failed, defined]

theorem code_not_neg (rc : ErrorCode) : ¬rc.code < 0 := Int.not_lt.mpr rc.code_nonneg

/-- Without a first page the error code becomes the first page. -/
theorem not_insertHandled_empty (failed : allocatePage.exec dm = (.error rc, after))
    (defined : ¬after.pageCount < dm.pageCount) (code : rc ≠ .ok) {tuple : List UInt8}
    (nonempty : tuple ≠ []) : ¬InsertHandled ⟨dm, invalidPageId⟩ tuple after := by
  rintro ⟨next, result, inserted, -, first, -⟩
  have allocated := diskManagerAllocatePage_failed failed defined
  have ensured : ∃ middle code', HeapFile.ensureFirstPage ⟨dm, invalidPageId⟩ = .ok (middle, code') ∧
      middle.firstPageId = codePage rc := by
    simp only [HeapFile.ensureFirstPage, allocated, bind, Except.bind, pure, Except.pure,
      if_neg (code_not_neg rc), ne_eq, not_true_eq_false, if_false]
    exact ⟨_, _, rfl, rfl⟩
  obtain ⟨middle, code', ensured, page⟩ := ensured
  rw [heapFileInsert_first nonempty ensured inserted, page] at first
  have invalid : codePage rc = invalidPageId := first
  exact absurd (invalid ▸ codePage_pos code) (by decide)

theorem heapFileInsert_suffix {hf next : HeapFile} {tuple : List UInt8} {result : HeapResult}
    (nonempty : tuple ≠ []) (inserted : heapFileInsert hf tuple = .ok (next, result)) :
    ∃ middle pid buf, hf.findPageWithSpace tuple.length = .ok (middle, pid, buf) ∧
      middle.dm.file <:+ next.dm.file := by
  have length : tuple.length ≠ 0 := fun empty => nonempty (List.length_eq_zero_iff.mp empty)
  simp only [heapFileInsert, if_neg length, bind, Except.bind, pure, Except.pure] at inserted
  cases found : hf.findPageWithSpace tuple.length with
  | error fault => rw [found] at inserted; cases inserted
  | ok outcome =>
      obtain ⟨middle, pid, buf⟩ := outcome
      rw [found] at inserted
      refine ⟨middle, pid, buf, rfl, ?_⟩
      cases buf with
      | none =>
          obtain ⟨rfl, -⟩ := Prod.mk.inj (Except.ok.inj inserted)
          exact List.suffix_rfl
      | some pageBuf =>
          dsimp only at inserted
          split at inserted
          · obtain ⟨rfl, -⟩ := Prod.mk.inj (Except.ok.inj inserted)
            exact List.suffix_rfl
          · split at inserted
            · obtain ⟨rfl, -⟩ := Prod.mk.inj (Except.ok.inj inserted)
              exact List.suffix_rfl
            · have written := diskManagerWritePage_suffix (Int32.ofInt pid)
                (slottedPageInsert pageBuf tuple).1 middle.dm
              split at inserted <;> rename_i outcome <;>
                obtain ⟨rfl, -⟩ := Prod.mk.inj (Except.ok.inj inserted) <;>
                rw [outcome] at written <;> exact written

/-- A page taken for new is written to before anything else is. -/
theorem findPageWithSpace_suffix {hf next : HeapFile} {tupleSize : Nat} {pid newPid : Int}
    {buf : Option Page} (ensured : hf.ensureFirstPage = .ok (hf, ErrorCode.ok.code))
    (searched : HeapFile.searchPages tupleSize maxPages hf.dm hf.firstPageId = .ok (dm, .ok none))
    (allocated : diskManagerAllocatePage dm = .ok (newPid, after)) (nonneg : ¬newPid < 0)
    (found : hf.findPageWithSpace tupleSize = .ok (next, pid, buf)) :
    ((HeapFile.storeNewPage (Int32.ofInt newPid)).exec after).2.file <:+ next.dm.file := by
  simp only [HeapFile.findPageWithSpace, ensured, searched, allocated, bind, Except.bind, pure,
    Except.pure, if_neg nonneg, ne_eq, not_true_eq_false, if_false] at found
  rcases stored : (HeapFile.storeNewPage (Int32.ofInt newPid)).exec after with ⟨rc | pageBuf, first⟩
  · rw [stored] at found
    obtain ⟨rfl, -⟩ := Prod.mk.inj (Except.ok.inj found)
    exact List.suffix_rfl
  · rw [stored] at found
    have buffered : (pageAlloc.exec first).2.file = first.file := by
      rw [pageAlloc, mayFail_exec]
      split <;> rfl
    dsimp only at found
    rcases buffer : pageAlloc.exec first with ⟨rc | _, second⟩
    · rw [buffer] at found buffered
      obtain ⟨rfl, -⟩ := Prod.mk.inj (Except.ok.inj found)
      exact buffered ▸ List.suffix_rfl
    · rw [buffer] at found buffered
      dsimp only at found buffered ⊢
      rw [← buffered]
      split at found
      · cases found
      · rename_i linked
        have grown := linkLast_suffix _ linked
        split at found <;> obtain ⟨rfl, -⟩ := Prod.mk.inj (Except.ok.inj found) <;> exact grown

/-- Behind pages without room an allocation that fails is handled exactly where the error
code is refused as the id of the new page. -/
theorem insertHandled_full_iff {hf : HeapFile} {tuple : List UInt8} (nonempty : tuple ≠ [])
    (first : hf.firstPageId ≠ invalidPageId)
    (searched : HeapFile.searchPages tuple.length maxPages hf.dm hf.firstPageId =
      .ok (dm, .ok none))
    (failed : allocatePage.exec dm = (.error rc, after))
    (defined : ¬after.pageCount < dm.pageCount) (code : rc ≠ .ok) :
    InsertHandled hf tuple after ↔ StoreRefused after (codePage rc) := by
  have length : tuple.length ≠ 0 := fun empty => nonempty (List.length_eq_zero_iff.mp empty)
  have allocated := diskManagerAllocatePage_failed failed defined
  have ensured : hf.ensureFirstPage = .ok (hf, ErrorCode.ok.code) := by
    rw [HeapFile.ensureFirstPage, if_pos first]
  constructor
  · rintro ⟨next, result, inserted, -, -, same⟩
    by_contra taken
    have written := storeNewPage_taken (codePage_pos code) taken
    obtain ⟨middle, pid, buf, found, grown⟩ := heapFileInsert_suffix nonempty inserted
    have stored := findPageWithSpace_suffix ensured searched allocated (code_not_neg rc) found
    exact not_untouched_of_written (written.trans (stored.trans grown)) same
  · intro refused
    obtain ⟨error, last, stored, same⟩ := storeNewPage_refused refused
    have found : hf.findPageWithSpace tuple.length =
        .ok ({ hf with dm := last }, error.code, none) := by
      simp only [HeapFile.findPageWithSpace, ensured, searched, allocated, bind, Except.bind, pure,
        Except.pure, if_neg (code_not_neg rc), ne_eq, not_true_eq_false, if_false]
      rw [codePage] at stored
      rw [stored]
    refine ⟨{ hf with dm := last }, { code := ErrorCode.internalError.code }, ?_, by decide, rfl,
      same⟩
    simp only [heapFileInsert, if_neg length, found, bind, Except.bind, pure, Except.pure,
      if_neg (code_not_neg error)]

/-! ## Codes of failures -/

/-- A function fails with proper error codes only. -/
def ErrorsProper {α : Type} (call : DiskM α) : Prop :=
  ∀ dm rc after, call.exec dm = (.error rc, after) → rc ≠ .ok

theorem ErrorsProper.bind {α β : Type} {call : DiskM α} {next : α → DiskM β}
    (first : ErrorsProper call) (second : ∀ value, ErrorsProper (next value)) :
    ErrorsProper (call >>= next) := by
  intro dm rc after failed
  rw [DiskM.exec_bind] at failed
  rcases called : call.exec dm with ⟨error | value, middle⟩
  · rw [called] at failed
    obtain ⟨same, -⟩ := Prod.mk.inj failed
    exact Except.error.inj same ▸ first dm error middle called
  · rw [called] at failed
    exact second value middle rc after failed

theorem errorsProper_pure {α : Type} (value : α) : ErrorsProper (pure value) := by
  intro dm rc after failed
  cases failed

theorem errorsProper_get : ErrorsProper get := by
  intro dm rc after failed
  cases failed

theorem errorsProper_modify (change : DiskManager → DiskManager) : ErrorsProper (modify change) := by
  intro dm rc after failed
  cases failed

theorem errorsProper_throw {α : Type} {error : ErrorCode} (proper : error ≠ .ok) :
    ErrorsProper (throw error : DiskM α) := by
  intro dm rc after failed
  rw [DiskM.exec_throw] at failed
  exact Except.error.inj (Prod.mk.inj failed).1 ▸ proper

theorem errorsProper_mayFail {error : ErrorCode} (proper : error ≠ .ok) :
    ErrorsProper (mayFail error) := by
  intro dm rc after failed
  rw [mayFail_exec] at failed
  split at failed
  · exact Except.error.inj (Prod.mk.inj failed).1 ▸ proper
  · cases failed

theorem errorsProper_readPage (pageId : PageId) : ErrorsProper (fileIoReadPage pageId) := by
  intro dm rc after failed
  rw [readPage_exec] at failed
  split at failed
  · exact Except.error.inj (Prod.mk.inj failed).1 ▸ by decide
  · split at failed
    · exact Except.error.inj (Prod.mk.inj failed).1 ▸ by decide
    · split at failed
      · cases failed
      · exact Except.error.inj (Prod.mk.inj failed).1 ▸ by decide

theorem errorsProper_writePage (pageId : PageId) (buf : Page) :
    ErrorsProper (fileIoWritePage pageId buf) := by
  intro dm rc after failed
  rw [writePage_exec] at failed
  split at failed
  · exact Except.error.inj (Prod.mk.inj failed).1 ▸ by decide
  · split at failed
    · exact Except.error.inj (Prod.mk.inj failed).1 ▸ by decide
    · cases failed

theorem errorsProper_allocatePage : ErrorsProper allocatePage := by
  have buffer : ErrorsProper pageAlloc := errorsProper_mayFail (by decide)
  have opened : ErrorsProper fileIoOpen := errorsProper_mayFail (by decide)
  have flush : ErrorsProper flushHeader :=
    buffer.bind fun _ => errorsProper_get.bind fun _ => errorsProper_writePage _ _
  have reuse : ErrorsProper reuseFreedPage :=
    errorsProper_get.bind fun _ => buffer.bind fun _ => (errorsProper_readPage _).bind fun _ =>
      (errorsProper_modify _).bind fun _ => (errorsProper_writePage _ _).bind fun _ =>
        errorsProper_pure _
  have append : ErrorsProper appendPage :=
    errorsProper_get.bind fun _ => buffer.bind fun _ => (errorsProper_writePage _ _).bind fun _ =>
      (errorsProper_modify _).bind fun _ => errorsProper_pure _
  have rest : ∀ take : DiskM PageId, ErrorsProper take →
      ErrorsProper (do fileIoOpen; let allocatedId ← take; flushHeader; return allocatedId) :=
    fun take proper => opened.bind fun _ => proper.bind fun _ => flush.bind fun _ =>
      errorsProper_pure _
  refine errorsProper_get.bind fun dm => ?_
  have open_ : ErrorsProper (do
      fileIoOpen
      if dm.freeListHead ≠ invalidPageId then do
        let allocatedId ← reuseFreedPage
        flushHeader
        return allocatedId
      else do
        let allocatedId ← appendPage
        flushHeader
        return allocatedId) := by
    split
    · exact rest _ reuse
    · exact rest _ append
  cases dm.isOpen with
  | false => exact (errorsProper_throw (by decide)).bind fun _ => open_
  | true => exact open_

end MiniSqlite.Storage
