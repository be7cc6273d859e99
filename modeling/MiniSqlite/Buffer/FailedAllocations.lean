import MiniSqlite.Buffer.PoolSound
import MiniSqlite.Storage.DiskFailures

/-!
# What the callers make of an allocation that fails

`bpm_new_page` and `heap_file_insert` take a negative result of
`disk_manager_allocate_page` for a failure, and all error codes are positive.
`failedAllocation_handled_iff` says where a failure is handled nevertheless.
-/

namespace MiniSqlite.Buffer

open MiniSqlite.Common MiniSqlite.Std MiniSqlite.Storage

variable {bpm : BufferPoolManager} {dm after : DiskManager} {rc : ErrorCode}
  {free cold hot : List FrameId}

/-- A call of `bpm_new_page` in which the allocation fails is handled: it returns `NULL`, keeps
the page table and the free list, and writes to no page. -/
def NewPageHandled (bpm : BufferPoolManager) (after : DiskManager) : Prop :=
  ∃ next, bpmNewPage bpm = .ok (next, none) ∧ next.pageTable = bpm.pageTable ∧
    next.freeList = bpm.freeList ∧ next.freeNodes = bpm.freeNodes ∧
    Untouched after next.diskManager

/-- A pool has no frame to give when none is on the free list and none in the replacer. -/
theorem PoolSound.takeFrame_iff (sound : PoolSound bpm free cold hot) :
    (∃ middle frame, takeFrame bpm = .ok (middle, some frame)) ∨
      takeFrame bpm = .ok (bpm, none) ∧ free = [] ∧ cold ++ hot = [] := by
  cases free with
  | cons frame rest =>
      obtain ⟨freeNodes, freeList, found, -⟩ := sound.toFreeHolds.findFreeFrame_cons
      refine .inl ⟨withFree bpm freeNodes freeList, frame, ?_⟩
      simp only [takeFrame, found, bind, Except.bind, pure, Except.pure]
  | nil =>
      cases victim : lruVictim cold hot with
      | none => exact .inr ⟨sound.takeFrame_none victim, rfl, lruVictim_eq_none victim⟩
      | some frame =>
          obtain ⟨replacer, freeNodes, freeList, taken, -⟩ := sound.takeFrame_victim victim
          exact .inl ⟨_, frame, taken⟩

/-- A failed allocation is handled by `bpm_new_page` exactly where there is no frame and the
error code is refused as the id of a page to give back. -/
theorem newPageHandled_iff (sound : PoolSound bpm free cold hot)
    (failed : allocatePage.exec bpm.diskManager = (.error rc, after))
    (defined : ¬after.pageCount < bpm.diskManager.pageCount) :
    NewPageHandled bpm after ↔
      free = [] ∧ cold ++ hot = [] ∧ DeallocateRefused after (codePage rc) := by
  have allocated := diskManagerAllocatePage_failed failed defined
  have positive := codePage_pos (errorsProper_allocatePage _ _ _ failed)
  have moved : PoolSound { bpm with diskManager := after } free cold hot :=
    sound.congr (sameRoles_withDisk bpm after)
  rcases moved.takeFrame_iff with ⟨middle, frame, taken⟩ | ⟨full, noneFree, noneCold⟩
  · refine iff_of_false ?_ ?_
    · rintro ⟨next, returned, -⟩
      rw [bpmNewPage_taken allocated (code_not_neg rc) taken] at returned
      cases returned
    · rintro ⟨rfl, noneCold, -⟩
      have noVictim : lruVictim cold hot = none := by
        obtain ⟨rfl, rfl⟩ := List.append_eq_nil_iff.mp noneCold
        rfl
      rw [moved.takeFrame_none noVictim] at taken
      cases taken
  · have returned := bpmNewPage_full allocated (code_not_neg rc) full
    rw [← diskManagerDeallocatePage_untouched_iff positive]
    constructor
    · rintro ⟨next, other, -, -, -, same⟩
      obtain ⟨rfl, -⟩ := Prod.mk.inj (Except.ok.inj (returned.symm.trans other))
      exact ⟨noneFree, noneCold, same⟩
    · rintro ⟨-, -, same⟩
      exact ⟨_, returned, rfl, rfl, rfl, same⟩

/-- Where an allocation fails, the disk manager keeps its page count and free list exactly if
it fails before they are changed. A pool handles the failure exactly if it has no frame
and the error code is refused as a page id. An insertion into an empty heap file never
handles it, and one behind pages without room exactly if the error code is refused. -/
theorem failedAllocation_handled_iff (failed : allocatePage.exec dm = (.error rc, after))
    (defined : ¬after.pageCount < dm.pageCount) :
    (Kept dm after ↔ FailsEarly dm) ∧
    (∀ bpm free cold hot, PoolSound bpm free cold hot → bpm.diskManager = dm →
      (NewPageHandled bpm after ↔
        free = [] ∧ cold ++ hot = [] ∧ DeallocateRefused after (codePage rc))) ∧
    (∀ tuple, tuple ≠ [] → ¬InsertHandled ⟨dm, invalidPageId⟩ tuple after) ∧
    (∀ hf tuple, tuple ≠ [] → hf.firstPageId ≠ invalidPageId →
      HeapFile.searchPages tuple.length maxPages hf.dm hf.firstPageId = .ok (dm, .ok none) →
        (InsertHandled hf tuple after ↔ StoreRefused after (codePage rc))) := by
  have code := errorsProper_allocatePage _ _ _ failed
  refine ⟨?_, ?_, ?_, ?_⟩
  · have kept := allocatePage_kept_iff dm
    rw [failed] at kept
    exact kept
  · rintro bpm free cold hot sound rfl
    exact newPageHandled_iff sound failed defined
  · intro tuple nonempty
    exact not_insertHandled_empty failed defined code nonempty
  · intro hf tuple nonempty first searched
    exact insertHandled_full_iff nonempty first searched failed defined code

/-- A new database file whose next opening fails. -/
def unopenable : DiskManager := { diskManagerCreate with failures := [true] }

theorem unopenable_fails :
    allocatePage.exec unopenable = (.error .ioError, diskManagerCreate) := rfl

theorem failedAllocation_handled_iff_unopenable :
    Kept unopenable diskManagerCreate ↔ FailsEarly unopenable :=
  (failedAllocation_handled_iff unopenable_fails (by decide)).1

/-- The error code 1001 becomes the first page of a heap file. -/
theorem unopenable_taken :
    (¬ ∀ (dm after : DiskManager) (rc : ErrorCode) (tuple : List UInt8),
      allocatePage.exec dm = (.error rc, after) → tuple ≠ [] →
        Kept dm after ∧ InsertHandled ⟨dm, invalidPageId⟩ tuple after) ∧
    ∃ next result, heapFileInsert ⟨unopenable, invalidPageId⟩ [7] = .ok (next, result) ∧
      next.firstPageId = 1001 := by
  constructor
  · intro claimed
    exact not_insertHandled_empty unopenable_fails (by decide) (by decide) (by decide)
      (claimed unopenable diskManagerCreate .ioError [7] unopenable_fails (by decide)).2
  · exact ⟨_, _, rfl, rfl⟩

end MiniSqlite.Buffer
