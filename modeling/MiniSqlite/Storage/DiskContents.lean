import MiniSqlite.Storage.DiskManager
import MiniSqlite.Std.Integers

/-!
# The pages of a healthy database file

`Healthy` describes a disk manager whose calls cannot fail: its file holds every
page below the page count and its free list is a chain of distinct pages. Each
function of the disk manager has one lemma that says what it returns there,
which pages of the file it changes and that the disk manager stays healthy.
-/

namespace MiniSqlite.Storage

open MiniSqlite.Common MiniSqlite.Std

variable {dm : DiskManager} {freed : List PageId} {pageId : PageId}

/-- The page ids that `freed` lists are linked by their first bytes, from `head` on. -/
def FreeChain (file : DbFile) (head : PageId) : List PageId → Prop
  | [] => head = invalidPageId
  | pageId :: rest => head = pageId ∧
      ∃ page, file.page pageId = some page ∧ FreeChain file (Scalar.i32.load page 0) rest

/-- A disk manager that cannot fail, with the pages it has to give away again. -/
structure Healthy (dm : DiskManager) (freed : List PageId) : Prop where
  isOpen : dm.isOpen = true
  reliable : dm.failures = []
  nonempty : 0 < dm.pageCount
  stored : ∀ pageId, 0 ≤ pageId → pageId < dm.pageCount → ∃ page, dm.file.page pageId = some page
  chain : FreeChain dm.file dm.freeListHead freed
  inside : ∀ pageId ∈ freed, 0 < pageId ∧ pageId < dm.pageCount
  nodup : freed.Nodup

namespace DbFile

theorem page_write_same (file : DbFile) (pageId : PageId) (buf : Page) :
    DbFile.page ((pageId, buf) :: file) pageId = some buf := by
  simp [DbFile.page]

/-- A write leaves the other pages of the file as they were. -/
theorem page_write_other {file : DbFile} {other : PageId} {page : Page}
    (present : file.page other = some page) (differ : other ≠ pageId) (buf : Page) :
    DbFile.page ((pageId, buf) :: file) other = some page := by
  have different : (pageId == other) = false := by simpa using Ne.symm differ
  unfold DbFile.page at present ⊢
  rw [List.find?_cons, different]
  cases found : file.find? fun write => write.1 == other with
  | some write => simpa [found] using present
  | none =>
      rw [found] at present
      simp only [Option.ite_none_right_eq_some] at present
      simp only [List.any_cons, present.1, Bool.or_true, if_true]
      exact congrArg some (Option.some.inj present.2)

end DbFile

/-- The free list is not affected by writes to other pages. -/
theorem FreeChain.write {file : DbFile} {head : PageId}
    (chain : FreeChain file head freed) (absent : pageId ∉ freed) (buf : Page) :
    FreeChain ((pageId, buf) :: file) head freed := by
  induction freed generalizing head with
  | nil => exact chain
  | cons first rest ih =>
      obtain ⟨same, page, present, next⟩ := chain
      rw [List.mem_cons, not_or] at absent
      exact ⟨same, page, DbFile.page_write_other present (Ne.symm absent.1) buf, ih next absent.2⟩

/-- A chain through the free list ends at the first page that is not valid. -/
theorem FreeChain.unique {file : DbFile} {head : PageId} {others : List PageId}
    (first : FreeChain file head freed) (second : FreeChain file head others)
    (valid : invalidPageId ∉ freed) (othersValid : invalidPageId ∉ others) : freed = others := by
  induction freed generalizing head others with
  | nil =>
      cases others with
      | nil => rfl
      | cons other rest =>
          have same : invalidPageId = other := first.symm.trans second.1
          exact absurd (same ▸ List.mem_cons_self) othersValid
  | cons pageId rest ih =>
      obtain ⟨rfl, page, present, next⟩ := first
      cases others with
      | nil =>
          have same : head = invalidPageId := second
          exact absurd (same ▸ List.mem_cons_self) valid
      | cons other others =>
          obtain ⟨rfl, otherPage, otherPresent, otherNext⟩ := second
          obtain rfl := Option.some.inj (present.symm.trans otherPresent)
          rw [List.mem_cons, not_or] at valid othersValid
          rw [ih next otherNext valid.2 othersValid.2]

@[simp] theorem exec_mayFail (reliable : dm.failures = []) (error : ErrorCode) :
    (mayFail error).exec dm = (.ok (), dm) := by
  simp [mayFail, reliable]

/-! ## Reading and writing -/

/-- The disk manager after a page write. -/
def DiskManager.written (dm : DiskManager) (pageId : PageId) (buf : Page) : DiskManager :=
  { dm with file := (pageId, buf) :: dm.file }

@[simp] theorem DiskManager.written_pageCount (dm : DiskManager) (pageId : PageId) (buf : Page) :
    (dm.written pageId buf).pageCount = dm.pageCount := rfl

theorem fileIoWritePage_exec (reliable : dm.failures = []) (nonneg : 0 ≤ pageId) (buf : Page) :
    (fileIoWritePage pageId buf).exec dm = (.ok (), dm.written pageId buf) := by
  have notNegative : ¬ pageId < 0 := Int32.not_lt.mpr nonneg
  simp [fileIoWritePage, notNegative, exec_mayFail reliable, DiskManager.written]

theorem fileIoReadPage_exec (reliable : dm.failures = []) (nonneg : 0 ≤ pageId) {page : Page}
    (present : dm.file.page pageId = some page) :
    (fileIoReadPage pageId).exec dm = (.ok page, dm) := by
  have notNegative : ¬ pageId < 0 := Int32.not_lt.mpr nonneg
  simp [fileIoReadPage, notNegative, exec_mayFail reliable, present]

/-- A page of the file is read as it was last written. -/
theorem Healthy.readPage (healthy : Healthy dm freed) (nonneg : 0 ≤ pageId)
    (below : pageId < dm.pageCount) {page : Page} (present : dm.file.page pageId = some page) :
    (diskManagerReadPage pageId).exec dm = (.ok page, dm) := by
  have inRange : ¬ (pageId < 0 ∨ dm.pageCount ≤ pageId) := by
    rw [not_or, Int32.not_lt, Int32.not_le]
    exact ⟨nonneg, below⟩
  simp [diskManagerReadPage, healthy.isOpen, inRange, fileIoOpen, exec_mayFail healthy.reliable,
    fileIoReadPage_exec healthy.reliable nonneg present]

theorem Healthy.readPage_missing (healthy : Healthy dm freed)
    (missing : pageId < 0 ∨ dm.pageCount ≤ pageId) :
    (diskManagerReadPage pageId).exec dm = (.error .pageNotFound, dm) := by
  simp [diskManagerReadPage, healthy.isOpen, missing]

theorem Healthy.writePage (healthy : Healthy dm freed) (nonneg : 0 ≤ pageId)
    (below : pageId < dm.pageCount) (buf : Page) :
    (diskManagerWritePage pageId buf).exec dm = (.ok (), dm.written pageId buf) := by
  have inRange : ¬ (pageId < 0 ∨ dm.pageCount ≤ pageId) := by
    rw [not_or, Int32.not_lt, Int32.not_le]
    exact ⟨nonneg, below⟩
  simp [diskManagerWritePage, healthy.isOpen, inRange, fileIoOpen, exec_mayFail healthy.reliable,
    fileIoWritePage_exec healthy.reliable nonneg]

/-- Writing a page that is not on the free list keeps the disk manager healthy. -/
theorem Healthy.written (healthy : Healthy dm freed) (absent : pageId ∉ freed) (buf : Page) :
    Healthy (dm.written pageId buf) freed where
  isOpen := healthy.isOpen
  reliable := healthy.reliable
  nonempty := healthy.nonempty
  stored other nonneg below := by
    by_cases same : other = pageId
    · exact ⟨buf, same ▸ DbFile.page_write_same dm.file pageId buf⟩
    · obtain ⟨page, present⟩ := healthy.stored other nonneg below
      exact ⟨page, DbFile.page_write_other present same buf⟩
  chain := healthy.chain.write absent buf
  inside := healthy.inside
  nodup := healthy.nodup

theorem Healthy.zero_notMem (healthy : Healthy dm freed) : (0 : PageId) ∉ freed :=
  fun member => Int32.lt_irrefl (healthy.inside 0 member).1

theorem Healthy.invalid_notMem (healthy : Healthy dm freed) : invalidPageId ∉ freed := by
  intro member
  exact absurd (healthy.inside _ member).1 (by decide)

/-! ## Allocating and deallocating -/

/-- The header on disk is the one in memory. -/
def HeaderStored (dm : DiskManager) : Prop :=
  dm.file.page 0 = some (writeHeaderToBuf dm.pageCount dm.freeListHead)

/-- What becomes of the pages of a file when `pageId` is taken from or given to the
disk manager: that page and then the header are written, and the header is new. -/
structure OthersKept (pageId : PageId) (dm after : DiskManager) : Prop where
  others : ∀ other page, other ≠ 0 → other ≠ pageId → dm.file.page other = some page →
    after.file.page other = some page
  grown : dm.pageCount ≤ after.pageCount
  header : HeaderStored after
  writes : ∃ header buf, after.file = (0, header) :: (pageId, buf) :: dm.file

theorem flushHeader_exec (reliable : dm.failures = []) : flushHeader.exec dm =
    (.ok (), dm.written 0 (writeHeaderToBuf dm.pageCount dm.freeListHead)) := by
  simp [flushHeader, pageAlloc, exec_mayFail reliable,
    fileIoWritePage_exec reliable (Int32.le_refl 0)]

theorem othersKept_twice (pageCount : Int32) (grown : dm.pageCount ≤ pageCount)
    (freeListHead : PageId) (isOpen : Bool) (failures : List Bool) (buf : Page) :
    OthersKept pageId dm
      ⟨pageCount, freeListHead, isOpen,
        (0, writeHeaderToBuf pageCount freeListHead) :: (pageId, buf) :: dm.file, failures⟩ where
  others _ _ notHeader differ present :=
    DbFile.page_write_other (DbFile.page_write_other present differ buf) notHeader _
  grown := grown
  header := DbFile.page_write_same _ _ _
  writes := ⟨_, _, rfl⟩

theorem allocatePage_exec {middle : DiskManager} (isOpen : dm.isOpen = true)
    (reliable : dm.failures = [])
    (got : (if dm.freeListHead ≠ invalidPageId then reuseFreedPage else appendPage).exec dm =
      (.ok pageId, middle)) (stillReliable : middle.failures = []) :
    allocatePage.exec dm = (.ok pageId,
      middle.written 0 (writeHeaderToBuf middle.pageCount middle.freeListHead)) := by
  by_cases listed : dm.freeListHead ≠ invalidPageId
  · rw [if_pos listed] at got
    simp only [allocatePage, DiskM.exec_bind, DiskM.exec_get, isOpen, Bool.not_true,
      Bool.false_eq_true, if_false, if_pos listed, DiskM.exec_pure, fileIoOpen,
      exec_mayFail reliable, got, flushHeader_exec stillReliable]
  · rw [if_neg listed] at got
    simp only [allocatePage, DiskM.exec_bind, DiskM.exec_get, isOpen, Bool.not_true,
      Bool.false_eq_true, if_false, if_neg listed, DiskM.exec_pure, fileIoOpen,
      exec_mayFail reliable, got, flushHeader_exec stillReliable]

/-- The head of the free list is given away again. -/
theorem Healthy.allocate_reuse (healthy : Healthy dm (pageId :: freed)) :
    ∃ after, diskManagerAllocatePage dm = .ok (pageId.toInt, after) ∧ Healthy after freed ∧
      after.file.page pageId = some zeroPage ∧ OthersKept pageId dm after ∧
      after.pageCount = dm.pageCount := by
  obtain ⟨head, page, present, chain⟩ := healthy.chain
  obtain ⟨positive, below⟩ := healthy.inside pageId List.mem_cons_self
  obtain ⟨absent, nodup⟩ := List.nodup_cons.mp healthy.nodup
  have valid : pageId ≠ invalidPageId := by
    rintro rfl
    exact absurd positive (by decide)
  have notHeader : pageId ≠ 0 := fun same => Int32.lt_irrefl (same ▸ positive)
  have nonneg : 0 ≤ pageId := Int32.le_of_lt positive
  let next := Scalar.i32.load page 0
  let after := DiskManager.written
    { dm.written pageId zeroPage with freeListHead := next } 0 (writeHeaderToBuf dm.pageCount next)
  have allocated : allocatePage.exec dm = (.ok pageId, after) := by
    have reused : reuseFreedPage.exec dm =
        (.ok pageId, { dm.written pageId zeroPage with freeListHead := next }) := by
      have reliable : ({ dm with freeListHead := next } : DiskManager).failures = [] :=
        healthy.reliable
      simp [reuseFreedPage, head, pageAlloc, exec_mayFail healthy.reliable,
        fileIoReadPage_exec healthy.reliable nonneg present,
        fileIoWritePage_exec reliable nonneg, next, DiskManager.written]
    have listed : dm.freeListHead ≠ invalidPageId := head ▸ valid
    exact allocatePage_exec healthy.isOpen healthy.reliable (by rw [if_pos listed, reused])
      healthy.reliable
  have zeroed : after.file.page pageId = some zeroPage :=
    DbFile.page_write_other (DbFile.page_write_same _ _ _) notHeader _
  have kept : OthersKept pageId dm after :=
    othersKept_twice dm.pageCount (Int32.le_refl _) next dm.isOpen dm.failures zeroPage
  have inside : ∀ other ∈ freed, 0 < other ∧ other < dm.pageCount :=
    fun other member => healthy.inside other (List.mem_cons_of_mem _ member)
  have zeroAbsent : (0 : PageId) ∉ freed := fun member => Int32.lt_irrefl (inside 0 member).1
  refine ⟨after, ?_, ⟨healthy.isOpen, healthy.reliable, healthy.nonempty, ?_,
    (chain.write absent zeroPage).write zeroAbsent _, inside, nodup⟩, zeroed, kept, rfl⟩
  · have sameCount : ¬ after.pageCount < dm.pageCount := Int32.lt_irrefl
    simp only [diskManagerAllocatePage, allocated, if_neg sameCount]
  · intro other otherNonneg otherBelow
    by_cases isHeader : other = 0
    · subst isHeader
      exact ⟨_, DbFile.page_write_same _ _ _⟩
    · by_cases same : other = pageId
      · exact ⟨zeroPage, same ▸ zeroed⟩
      · obtain ⟨otherPage, otherPresent⟩ := healthy.stored other otherNonneg otherBelow
        exact ⟨otherPage, kept.others other otherPage isHeader same otherPresent⟩

/-- A page count that has grown has grown by one. -/
theorem pageCount_succ {pageCount : Int32} (grown : pageCount ≤ pageCount + 1) (pageId : PageId) :
    pageId < pageCount + 1 ↔ pageId ≤ pageCount := by
  rw [Int32.lt_iff_toInt_lt, Int32.le_iff_toInt_le, toInt_add_one (ne_last_of_grows grown)]
  omega

/-- With an empty free list the file grows by a page, unless the count overflows. -/
theorem Healthy.allocate_append (healthy : Healthy dm []) :
    (diskManagerAllocatePage dm = .error .overflow ∧ dm.pageCount + 1 < dm.pageCount) ∨
      ∃ after, diskManagerAllocatePage dm = .ok (dm.pageCount.toInt, after) ∧ Healthy after [] ∧
        after.file.page dm.pageCount = some zeroPage ∧ OthersKept dm.pageCount dm after ∧
        after.pageCount = dm.pageCount + 1 ∧ dm.pageCount < after.pageCount ∧
        ∀ pageId, pageId < after.pageCount ↔ pageId ≤ dm.pageCount := by
  let grown := { dm.written dm.pageCount zeroPage with pageCount := dm.pageCount + 1 }
  let after := grown.written 0 (writeHeaderToBuf grown.pageCount dm.freeListHead)
  have head : dm.freeListHead = invalidPageId := healthy.chain
  have nonneg : 0 ≤ dm.pageCount := Int32.le_of_lt healthy.nonempty
  have allocated : allocatePage.exec dm = (.ok dm.pageCount, after) := by
    have appended : appendPage.exec dm = (.ok dm.pageCount, grown) := by
      simp [appendPage, pageAlloc, exec_mayFail healthy.reliable,
        fileIoWritePage_exec healthy.reliable nonneg, grown, DiskManager.written]
    exact allocatePage_exec healthy.isOpen healthy.reliable
      (by rw [if_neg (not_not.mpr head), appended]) healthy.reliable
  by_cases wrapped : after.pageCount < dm.pageCount
  · refine .inl ⟨?_, wrapped⟩
    simp only [diskManagerAllocatePage, allocated, if_pos wrapped]
  · have successor := pageCount_succ (Int32.not_lt.mp wrapped)
    have kept : OthersKept dm.pageCount dm after :=
      othersKept_twice (dm.pageCount + 1) (Int32.not_lt.mp wrapped) _ dm.isOpen dm.failures
        zeroPage
    have zeroed : after.file.page dm.pageCount = some zeroPage :=
      DbFile.page_write_other (DbFile.page_write_same _ _ _)
        (fun same => Int32.lt_irrefl (same ▸ healthy.nonempty)) _
    refine .inr ⟨after, ?_, ⟨healthy.isOpen, healthy.reliable, ?_, ?_, head, by simp, by simp⟩,
      zeroed, kept, rfl, ?_, successor⟩
    · simp only [diskManagerAllocatePage, allocated, if_neg wrapped]
    · exact (successor 0).mpr nonneg
    · intro other otherNonneg otherBelow
      by_cases isHeader : other = 0
      · subst isHeader
        exact ⟨_, DbFile.page_write_same _ _ _⟩
      · by_cases same : other = dm.pageCount
        · exact ⟨zeroPage, same ▸ zeroed⟩
        · have below : other < dm.pageCount :=
            Int32.lt_of_le_of_ne ((successor other).mp otherBelow) same
          obtain ⟨page, present⟩ := healthy.stored other otherNonneg below
          exact ⟨page, kept.others other page isHeader same present⟩
    · exact (successor dm.pageCount).mpr (Int32.le_refl _)

/-- A page given back becomes the head of the free list. -/
theorem Healthy.deallocate (healthy : Healthy dm freed) (positive : 0 < pageId)
    (below : pageId < dm.pageCount) (absent : pageId ∉ freed) :
    ∃ after, (diskManagerDeallocatePage pageId).exec dm = (.ok (), after) ∧
      Healthy after (pageId :: freed) ∧ OthersKept pageId dm after ∧
      after.pageCount = dm.pageCount := by
  have nonneg : 0 ≤ pageId := Int32.le_of_lt positive
  have notHeader : pageId ≠ 0 := fun same => Int32.lt_irrefl (same ▸ positive)
  obtain ⟨page, present⟩ := healthy.stored pageId nonneg below
  let linked := Scalar.i32.store page 0 dm.freeListHead
  let middle := { dm.written pageId linked with freeListHead := pageId }
  let after := middle.written 0 (writeHeaderToBuf dm.pageCount pageId)
  have inRange : ¬ (pageId ≤ 0 ∨ dm.pageCount ≤ pageId) := by
    rw [not_or, Int32.not_le, Int32.not_le]
    exact ⟨positive, below⟩
  have reliable : middle.failures = [] := healthy.reliable
  have kept : OthersKept pageId dm after :=
    othersKept_twice dm.pageCount (Int32.le_refl _) pageId dm.isOpen dm.failures linked
  have linkedPage : after.file.page pageId = some linked :=
    DbFile.page_write_other (DbFile.page_write_same _ _ _) notHeader _
  refine ⟨after, ?_, ⟨healthy.isOpen, healthy.reliable, healthy.nonempty, ?_, ?_, ?_, ?_⟩, kept,
    rfl⟩
  · have flushed := flushHeader_exec reliable
    simp only [middle, DiskManager.written, healthy.isOpen, linked] at flushed
    simp [diskManagerDeallocatePage, healthy.isOpen, inRange, fileIoOpen, pageAlloc,
      exec_mayFail healthy.reliable, fileIoReadPage_exec healthy.reliable nonneg present,
      fileIoWritePage_exec healthy.reliable nonneg, flushed, middle, after, linked,
      DiskManager.written]
  · intro other otherNonneg otherBelow
    by_cases isHeader : other = 0
    · subst isHeader
      exact ⟨_, DbFile.page_write_same _ _ _⟩
    · by_cases same : other = pageId
      · exact ⟨linked, same ▸ linkedPage⟩
      · obtain ⟨otherPage, otherPresent⟩ := healthy.stored other otherNonneg otherBelow
        exact ⟨otherPage, kept.others other otherPage isHeader same otherPresent⟩
  · refine ⟨rfl, linked, linkedPage, ?_⟩
    rw [Scalar.load_store_same]
    exact (healthy.chain.write absent linked).write healthy.zero_notMem _
  · intro other member
    rcases List.mem_cons.mp member with same | listed
    · exact same ▸ ⟨positive, below⟩
    · exact healthy.inside other listed
  · exact List.nodup_cons.mpr ⟨absent, healthy.nodup⟩

/-! ## The pages of clients -/

/-- A page of the file other than the header. -/
def DiskManager.pageAt (dm : DiskManager) (pageId : PageId) : Option Page :=
  if 0 < pageId ∧ pageId < dm.pageCount then dm.file.page pageId else none

theorem DiskManager.pageAt_of (inside : 0 < pageId ∧ pageId < dm.pageCount) :
    dm.pageAt pageId = dm.file.page pageId := if_pos inside

theorem DiskManager.pageAt_outside (outside : ¬ (0 < pageId ∧ pageId < dm.pageCount)) :
    dm.pageAt pageId = none := if_neg outside

theorem DiskManager.pageAt_inside {page : Page} (present : dm.pageAt pageId = some page) :
    0 < pageId ∧ pageId < dm.pageCount ∧ dm.file.page pageId = some page := by
  unfold DiskManager.pageAt at present
  split at present
  · rename_i inside
    exact ⟨inside.1, inside.2, present⟩
  · exact absurd present (by simp)

theorem DiskManager.pageAt_valid {page : Page} (present : dm.pageAt pageId = some page) :
    pageId ≠ invalidPageId := by
  rintro rfl
  exact absurd (DiskManager.pageAt_inside present).1 (by decide)

theorem Healthy.pageAt_missing (healthy : Healthy dm freed) (absent : dm.pageAt pageId = none)
    (notHeader : pageId ≠ 0) : pageId < 0 ∨ dm.pageCount ≤ pageId := by
  by_contra inside
  rw [not_or, Int32.not_lt, Int32.not_le] at inside
  have positive : 0 < pageId := Int32.lt_of_le_of_ne inside.1 (Ne.symm notHeader)
  obtain ⟨page, present⟩ := healthy.stored pageId inside.1 inside.2
  rw [DiskManager.pageAt, if_pos ⟨positive, inside.2⟩, present] at absent
  exact absurd absent (by simp)

theorem Healthy.pageAt_written (healthy : Healthy dm freed) (positive : 0 < pageId)
    (below : pageId < dm.pageCount) (buf : Page) (other : PageId) :
    (dm.written pageId buf).pageAt other = if other = pageId then some buf else dm.pageAt other := by
  by_cases same : other = pageId
  · subst same
    rw [DiskManager.pageAt, if_pos ⟨positive, below⟩, if_pos rfl]
    exact DbFile.page_write_same _ _ _
  · rw [if_neg same]
    by_cases inside : 0 < other ∧ other < dm.pageCount
    · obtain ⟨page, present⟩ := healthy.stored other (Int32.le_of_lt inside.1) inside.2
      have insideStill : 0 < other ∧ other < (dm.written pageId buf).pageCount := inside
      rw [DiskManager.pageAt_of inside, DiskManager.pageAt_of insideStill, present]
      exact DbFile.page_write_other present same buf
    · rw [DiskManager.pageAt_outside inside]
      exact @DiskManager.pageAt_outside (dm.written pageId buf) other inside

theorem Healthy.write_pageAt (healthy : Healthy dm freed) {page : Page}
    (present : dm.pageAt pageId = some page) (buf : Page) :
    (diskManagerWritePage pageId buf).exec dm = (.ok (), dm.written pageId buf) := by
  obtain ⟨positive, below, _⟩ := DiskManager.pageAt_inside present
  exact healthy.writePage (Int32.le_of_lt positive) below buf

theorem Healthy.read_pageAt (healthy : Healthy dm freed) {page : Page}
    (present : dm.pageAt pageId = some page) :
    (diskManagerReadPage pageId).exec dm = (.ok page, dm) := by
  obtain ⟨positive, below, onDisk⟩ := DiskManager.pageAt_inside present
  exact healthy.readPage (Int32.le_of_lt positive) below onDisk

/-- Without freed pages, allocating gives the next id and a page of zeros. -/
theorem Healthy.allocate_next (healthy : Healthy dm []) :
    (diskManagerAllocatePage dm = .error .overflow ∧ dm.pageCount + 1 < dm.pageCount) ∨
      ∃ after, diskManagerAllocatePage dm = .ok (dm.pageCount.toInt, after) ∧ Healthy after [] ∧
        dm.pageCount < after.pageCount ∧ after.pageCount = dm.pageCount + 1 ∧
        ∀ other, after.pageAt other =
          if other = dm.pageCount then some zeroPage else dm.pageAt other := by
  rcases healthy.allocate_append with ⟨overflow, wrapped⟩ |
    ⟨after, allocated, stillHealthy, zeroed, kept, count, grown, successor⟩
  · exact .inl ⟨overflow, wrapped⟩
  · refine .inr ⟨after, allocated, stillHealthy, grown, count, fun other => ?_⟩
    by_cases same : other = dm.pageCount
    · subst same
      rw [if_pos rfl, DiskManager.pageAt, if_pos ⟨healthy.nonempty, grown⟩, zeroed]
    · rw [if_neg same]
      have below : other < after.pageCount ↔ other < dm.pageCount := by
        rw [successor, Int32.le_iff_lt_or_eq]
        exact ⟨fun either => either.resolve_right same, .inl⟩
      by_cases inside : 0 < other ∧ other < dm.pageCount
      · obtain ⟨page, present⟩ := healthy.stored other (Int32.le_of_lt inside.1) inside.2
        rw [DiskManager.pageAt_of inside, DiskManager.pageAt_of ⟨inside.1, below.mpr inside.2⟩,
          present]
        refine kept.others other page ?_ same present
        rintro rfl
        exact Int32.lt_irrefl inside.1
      · rw [DiskManager.pageAt_outside inside, DiskManager.pageAt_outside]
        exact fun within => inside ⟨within.1, below.mp within.2⟩

/-- A new database file is healthy. -/
theorem diskManagerCreate_healthy : Healthy diskManagerCreate [] where
  isOpen := rfl
  reliable := rfl
  nonempty := by decide
  stored pageId nonneg below := by
    have : pageId = 0 := by
      have count : diskManagerCreate.pageCount.toInt = 1 := by decide
      rw [Int32.lt_iff_toInt_lt, count] at below
      rw [Int32.le_iff_toInt_le] at nonneg
      have zero : (0 : Int32).toInt = 0 := by decide
      rw [zero] at nonneg
      exact Int32.toInt_inj.mp (by omega)
    subst this
    exact ⟨_, DbFile.page_write_same _ _ _⟩
  chain := rfl
  inside := by simp
  nodup := by simp

end MiniSqlite.Storage
