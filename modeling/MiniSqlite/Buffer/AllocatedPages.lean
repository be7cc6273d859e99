import MiniSqlite.Buffer.BufferPoolManager
import MiniSqlite.Buffer.PagePool
import MiniSqlite.Std.Returns
import MiniSqlite.Storage.DiskContents
import Mathlib.Data.Set.Insert

/-!
# The pages that are allocated

A page is allocated if it lies below the page count and is not on the free list.
`bpm_new_page` allocates one page if the pool has a frame to give, and none
otherwise: the page it got is given back. Its clients see the pool through
`PagePool`.
-/

namespace MiniSqlite.Storage

open MiniSqlite.Common

variable {dm after : DiskManager} {freed rest : List PageId} {pageId : PageId}

theorem Healthy.invalid_below (healthy : Healthy dm freed) : invalidPageId < dm.pageCount :=
  Int32.lt_trans (by decide : invalidPageId < 0) healthy.nonempty

/-- The pages of the file that are not on the free list, the header apart. -/
def DiskManager.allocated (dm : DiskManager) : Set PageId :=
  { pageId | 0 < pageId ∧ pageId < dm.pageCount ∧ ∃ freed, Healthy dm freed ∧ pageId ∉ freed }

theorem Healthy.mem_allocated (healthy : Healthy dm freed) :
    pageId ∈ dm.allocated ↔ 0 < pageId ∧ pageId < dm.pageCount ∧ pageId ∉ freed := by
  constructor
  · rintro ⟨positive, below, others, other, absent⟩
    obtain rfl := healthy.chain.unique other.chain healthy.invalid_notMem other.invalid_notMem
    exact ⟨positive, below, absent⟩
  · rintro ⟨positive, below, absent⟩
    exact ⟨positive, below, freed, healthy, absent⟩

/-- A page outside the free list is written, or refused, without a change to the free list. -/
theorem Healthy.exec_write (healthy : Healthy dm freed) (absent : pageId ∉ freed) (buf : Page) :
    Healthy ((diskManagerWritePage pageId buf).exec dm).2 freed ∧
      ((diskManagerWritePage pageId buf).exec dm).2.pageCount = dm.pageCount := by
  by_cases missing : pageId < 0 ∨ dm.pageCount ≤ pageId
  · have refused : (diskManagerWritePage pageId buf).exec dm = (.error .pageNotFound, dm) := by
      simp [diskManagerWritePage, healthy.isOpen, missing]
    rw [refused]
    exact ⟨healthy, rfl⟩
  · rw [not_or, Int32.not_lt, Int32.not_le] at missing
    rw [healthy.writePage missing.1 missing.2 buf]
    exact ⟨healthy.written absent buf, rfl⟩

/-- A page of the file is read, and nothing else is, without a change. -/
theorem Healthy.exec_read (healthy : Healthy dm freed) (pageId : PageId) :
    (diskManagerReadPage pageId).exec dm = (.error .pageNotFound, dm) ∨
      pageId < dm.pageCount ∧
        ∃ page, (diskManagerReadPage pageId).exec dm = (.ok page, dm) := by
  by_cases missing : pageId < 0 ∨ dm.pageCount ≤ pageId
  · exact .inl (healthy.readPage_missing missing)
  · rw [not_or, Int32.not_lt, Int32.not_le] at missing
    obtain ⟨page, present⟩ := healthy.stored pageId missing.1 missing.2
    exact .inr ⟨missing.2, page, healthy.readPage missing.1 missing.2 present⟩

/-- What an allocation leaves on the free list, and how it changes the page count. -/
structure Allocates (dm after : DiskManager) (pageId : PageId) (freed rest : List PageId) :
    Prop where
  healthy : Healthy after rest
  positive : 0 < pageId
  below : pageId < after.pageCount
  notMem : pageId ∉ rest
  sublist : rest ⊆ freed
  pages : ∀ other, other < after.pageCount ∧ other ∉ rest ↔
    other = pageId ∨ other < dm.pageCount ∧ other ∉ freed
  new : ¬(pageId < dm.pageCount ∧ pageId ∉ freed)

/-- An allocation takes a page from the free list or behind the last one. -/
theorem Healthy.allocates (healthy : Healthy dm freed) {newPid : Int}
    (allocated : diskManagerAllocatePage dm = .ok (newPid, after)) :
    ∃ pageId rest, newPid = Int32.toInt pageId ∧ Allocates dm after pageId freed rest := by
  cases freed with
  | nil =>
      obtain ⟨overflowed, -⟩ | ⟨other, same, kept, -, -, -, grown, following⟩ :=
        healthy.allocate_append
      · rw [allocated] at overflowed
        cases overflowed
      · obtain ⟨rfl, rfl⟩ := Prod.mk.inj (Except.ok.inj (allocated.symm.trans same))
        refine ⟨dm.pageCount, [], rfl, kept, healthy.nonempty, grown, by simp, fun _ => id, ?_, ?_⟩
        · intro other
          simp only [List.not_mem_nil, not_false_eq_true, and_true, following]
          exact Int32.le_iff_lt_or_eq.trans or_comm
        · exact fun inside => Int32.lt_irrefl inside.1
  | cons pageId rest =>
      obtain ⟨other, same, kept, -, -, count⟩ := healthy.allocate_reuse
      obtain ⟨rfl, rfl⟩ := Prod.mk.inj (Except.ok.inj (allocated.symm.trans same))
      obtain ⟨positive, below⟩ := healthy.inside pageId List.mem_cons_self
      obtain ⟨absent, -⟩ := List.nodup_cons.mp healthy.nodup
      refine ⟨pageId, rest, rfl, kept, positive, count ▸ below, absent,
        fun _ => List.mem_cons_of_mem _, ?_, ?_⟩
      · intro other
        rw [count, List.mem_cons, not_or]
        by_cases here : other = pageId
        · simp [here, below, absent]
        · simp [here]
      · exact fun inside => inside.2 List.mem_cons_self

theorem Allocates.allocated_eq (allocates : Allocates dm after pageId freed rest)
    (healthy : Healthy dm freed) : after.allocated = insert pageId dm.allocated := by
  ext other
  rw [Set.mem_insert_iff, allocates.healthy.mem_allocated, healthy.mem_allocated,
    allocates.pages other]
  constructor
  · rintro ⟨positive, same | inside⟩
    · exact .inl same
    · exact .inr ⟨positive, inside⟩
  · rintro (same | ⟨positive, inside⟩)
    · exact ⟨same ▸ allocates.positive, .inl same⟩
    · exact ⟨positive, .inr inside⟩

end MiniSqlite.Storage

namespace MiniSqlite.Buffer

open MiniSqlite.Common MiniSqlite.Std MiniSqlite.Storage

variable {bpm after : BufferPoolManager} {freed : List PageId}

/-- The pool as its clients call it. -/
instance : PagePool BufferPoolManager FrameId where
  fetchPage := bpmFetchPage
  newPage := bpmNewPage
  unpinPage bpm pageId isDirty := do
    let (bpm, _) ← bpmUnpinPage bpm pageId isDirty
    return bpm
  data bpm frame := (bpm.pages frame).data
  setData bpm frame page := bpm.setPage frame { bpm.pages frame with data := page }
  pageId bpm frame := (bpm.pages frame).pageId

/-- The pages of the pool lie in the file, and none of them was given back. -/
structure FreedKept (bpm : BufferPoolManager) (freed : List PageId) : Prop where
  healthy : Healthy bpm.diskManager freed
  kept : ∀ frame, (bpm.pages frame).pageId < bpm.diskManager.pageCount ∧
    (bpm.pages frame).pageId ∉ freed

/-- The pool has a frame for another page: a free one, or one of a page that is not pinned. -/
def hasFrame (bpm : BufferPoolManager) : Bool :=
  bpm.freeList.size != 0 || bpm.replacer.coldList.size != 0 || bpm.replacer.hotList.size != 0

/-! ## Taking a frame -/

theorem FreedKept.setPage (kept : FreedKept bpm freed) {page : PageT} (frame : FrameId)
    (below : page.pageId < bpm.diskManager.pageCount) (absent : page.pageId ∉ freed) :
    FreedKept (bpm.setPage frame page) freed where
  healthy := kept.healthy
  kept other := by
    by_cases same : other = frame
    · simp [BufferPoolManager.setPage, same, below, absent]
    · simpa [BufferPoolManager.setPage, same] using kept.kept other

/-- `evict_page` writes a page that was not given back. -/
theorem FreedKept.writeIfDirty (kept : FreedKept bpm freed) (frame : FrameId) :
    FreedKept (writeIfDirty bpm frame) freed ∧
      (writeIfDirty bpm frame).diskManager.pageCount = bpm.diskManager.pageCount := by
  unfold Buffer.writeIfDirty
  dsimp only
  split
  · obtain ⟨healthy, count⟩ :=
      kept.healthy.exec_write (kept.kept frame).2 (bpm.pages frame).data
    have moved : FreedKept { bpm with
        diskManager := ((diskManagerWritePage (bpm.pages frame).pageId
          (bpm.pages frame).data).exec bpm.diskManager).2 } freed :=
      ⟨healthy, fun other => count ▸ kept.kept other⟩
    exact ⟨moved.setPage frame (count ▸ (kept.kept frame).1) (kept.kept frame).2, count⟩
  · exact ⟨kept, rfl⟩

theorem listPopFront_isSome {Node : Type} [DecidableEq Node] {links next : Links Node}
    {list rest : ListT Node} {node : Option Node}
    (popped : listPopFront links list = .ok (next, rest, node)) :
    node.isSome = (list.size != 0) := by
  unfold listPopFront at popped
  split at popped
  · rename_i empty
    rw [← (Prod.mk.inj (Prod.mk.inj (Except.ok.inj popped)).2).2, empty]
    rfl
  · rename_i nonempty
    obtain ⟨front, -, removed⟩ := Returning.returned popped
    obtain ⟨_, -, returned⟩ := Returning.returned removed
    rw [← (Prod.mk.inj (Prod.mk.inj (Except.ok.inj returned)).2).2]
    simp [nonempty]

theorem listPopBack_isSome {Node : Type} [DecidableEq Node] {links next : Links Node}
    {list rest : ListT Node} {node : Option Node}
    (popped : listPopBack links list = .ok (next, rest, node)) :
    node.isSome = (list.size != 0) := by
  unfold listPopBack at popped
  split at popped
  · rename_i empty
    rw [← (Prod.mk.inj (Prod.mk.inj (Except.ok.inj popped)).2).2, empty]
    rfl
  · rename_i nonempty
    obtain ⟨back, -, removed⟩ := Returning.returned popped
    obtain ⟨_, -, returned⟩ := Returning.returned removed
    rw [← (Prod.mk.inj (Prod.mk.inj (Except.ok.inj returned)).2).2]
    simp [nonempty]

theorem popVictim_isSome {replacer rest : LruReplacer} {node : Option LruNode}
    (popped : replacer.popVictim = .ok (rest, node)) :
    node.isSome = (replacer.coldList.size != 0 || replacer.hotList.size != 0) := by
  obtain ⟨⟨links, coldList, node⟩, poppedCold, others⟩ := Returning.returned popped
  have isSome := listPopBack_isSome poppedCold
  cases node with
  | some node =>
      rw [← (Prod.mk.inj (Except.ok.inj others)).2, ← isSome]
      rfl
  | none =>
      obtain ⟨_, poppedHot, returned⟩ := Returning.returned others
      rw [← (Prod.mk.inj (Except.ok.inj returned)).2, ← isSome, ← listPopBack_isSome poppedHot]
      rfl

theorem lruReplacerVictim_isSome {replacer rest : LruReplacer} {victim : Option FrameId}
    (chosen : lruReplacerVictim replacer = .ok (rest, victim)) :
    victim.isSome = (replacer.coldList.size != 0 || replacer.hotList.size != 0) := by
  obtain ⟨⟨middle, node⟩, popped, others⟩ := Returning.returned chosen
  rw [← popVictim_isSome popped]
  cases node with
  | none =>
      rw [← (Prod.mk.inj (Except.ok.inj others)).2]
      rfl
  | some node =>
      cases node with
      | entry address =>
          obtain ⟨entry, -, returned⟩ := Returning.returned others
          rw [← (Prod.mk.inj (Except.ok.inj returned)).2]
          rfl
      | cold | hot => cases others

theorem pushFree_same {frame : FrameId} (pushed : bpm.pushFree frame = .ok after) :
    after.pages = bpm.pages ∧ after.diskManager = bpm.diskManager := by
  obtain ⟨⟨links, list⟩, -, returned⟩ := Returning.returned pushed
  obtain rfl := Except.ok.inj returned
  exact ⟨rfl, rfl⟩

theorem FreedKept.congr (kept : FreedKept bpm freed) (pages : after.pages = bpm.pages)
    (disk : after.diskManager = bpm.diskManager) : FreedKept after freed :=
  ⟨disk ▸ kept.healthy, fun frame => by rw [pages, disk]; exact kept.kept frame⟩

/-- A frame is found where there is one, and the free list on disk stays the same. -/
theorem FreedKept.takeFrame (kept : FreedKept bpm freed) {frame : Option FrameId}
    (taken : takeFrame bpm = .ok (after, frame)) :
    frame.isSome = hasFrame bpm ∧ FreedKept after freed ∧
      after.diskManager.pageCount = bpm.diskManager.pageCount ∧
      (frame = none → after.pages = bpm.pages) := by
  obtain ⟨⟨middle, free⟩, found, others⟩ := Returning.returned taken
  obtain ⟨⟨freeNodes, freeList, node⟩, popped, returned⟩ := Returning.returned found
  have isSome := listPopFront_isSome popped
  cases node with
  | some node =>
      cases node with
      | sentinel => cases returned
      | frame frameId =>
          obtain ⟨rfl, rfl⟩ := Prod.mk.inj (Except.ok.inj returned)
          obtain ⟨rfl, rfl⟩ := Prod.mk.inj (Except.ok.inj others)
          exact ⟨by rw [hasFrame, ← isSome]; rfl, kept.congr rfl rfl, rfl, fun _ => rfl⟩
  | none =>
      obtain ⟨rfl, rfl⟩ := Prod.mk.inj (Except.ok.inj returned)
      obtain ⟨⟨replacer, victim⟩, chosen, evicts⟩ := Returning.returned others
      have victimIsSome := lruReplacerVictim_isSome chosen
      have available : hasFrame bpm = victim.isSome := by
        rw [victimIsSome, hasFrame, ← isSome]
        rfl
      cases victim with
      | none =>
          obtain ⟨rfl, rfl⟩ := Prod.mk.inj (Except.ok.inj evicts)
          exact ⟨available.symm, kept.congr rfl rfl, rfl, fun _ => rfl⟩
      | some victim =>
          obtain ⟨pushed, pushes, returned⟩ := Returning.returned evicts
          obtain ⟨rfl, rfl⟩ := Prod.mk.inj (Except.ok.inj returned)
          obtain ⟨pages, disk⟩ := pushFree_same pushes
          let start : BufferPoolManager :=
            { bpm with freeNodes := freeNodes, freeList := freeList, replacer := replacer }
          have startKept : FreedKept start freed := kept.congr rfl rfl
          obtain ⟨written, count⟩ := startKept.writeIfDirty victim
          have forgotten := @FreedKept.setPage _ _ written
            { (Buffer.writeIfDirty start victim).pages victim with
              pageId := invalidPageId, pinCount := 0, isDirty := false } victim
            written.healthy.invalid_below written.healthy.invalid_notMem
          exact ⟨available.symm, forgotten.congr pages disk, disk ▸ count, by simp⟩

/-! ## The calls -/

/-- `bpm_new_page` allocates one page if there is a frame for it, and none otherwise. -/
theorem FreedKept.bpmNewPage (kept : FreedKept bpm freed) {result : Option (PageId × FrameId)}
    (called : bpmNewPage bpm = .ok (after, result)) :
    (∃ rest, FreedKept after rest) ∧
      (hasFrame bpm = true ∧ (∃ pageId frame, result = some (pageId, frame) ∧
          pageId ∉ bpm.diskManager.allocated ∧
          after.diskManager.allocated = insert pageId bpm.diskManager.allocated) ∨
        hasFrame bpm = false ∧ result = none ∧
          after.diskManager.allocated = bpm.diskManager.allocated) := by
  obtain ⟨⟨newPid, dm⟩, allocated, given⟩ := Returning.returned called
  obtain ⟨pageId, rest, rfl, allocates⟩ := kept.healthy.allocates allocated
  have nonneg : ¬pageId.toInt < 0 := by
    have positive := allocates.positive
    rw [Int32.lt_iff_toInt_lt, show (0 : Int32).toInt = 0 by decide] at positive
    omega
  have moved : FreedKept { bpm with diskManager := dm } rest := by
    refine ⟨allocates.healthy, fun frame => ?_⟩
    exact (allocates.pages _).mpr (.inr (kept.kept frame))
  dsimp only at given
  rw [if_neg nonneg, Int32.ofInt_toInt] at given
  obtain ⟨⟨middle, frame⟩, taken, installs⟩ := Returning.returned given
  obtain ⟨isSome, held, count, same⟩ := moved.takeFrame taken
  have available : frame.isSome = hasFrame bpm := isSome
  cases frame with
  | some frame =>
      obtain ⟨rfl, rfl⟩ := Prod.mk.inj (Except.ok.inj installs)
      obtain ⟨written, sameCount⟩ := held.healthy.exec_write allocates.notMem zeroPage
      have below : pageId < middle.diskManager.pageCount := count ▸ allocates.below
      have installed :=
        @FreedKept.setPage _ _ held ⟨zeroPage, pageId, 1, false⟩ frame below allocates.notMem
      have allocates : Allocates bpm.diskManager
          ((diskManagerWritePage pageId zeroPage).exec middle.diskManager).2 pageId freed rest :=
        { allocates with
          healthy := written
          below := sameCount ▸ below
          pages := fun other => by rw [sameCount, count]; exact allocates.pages other }
      refine ⟨⟨rest, written, fun other => ?_⟩, .inl ⟨available.symm, pageId, frame, rfl, ?_,
        allocates.allocated_eq kept.healthy⟩⟩
      · show _ < ((diskManagerWritePage pageId zeroPage).exec middle.diskManager).2.pageCount ∧ _
        rw [sameCount]
        exact installed.kept other
      · exact fun member => allocates.new (kept.healthy.mem_allocated.mp member).2
  | none =>
      obtain ⟨rfl, rfl⟩ := Prod.mk.inj (Except.ok.inj installs)
      have pages : middle.pages = bpm.pages := same rfl
      obtain ⟨last, deallocated, healthy, -, lastCount⟩ :=
        held.healthy.deallocate allocates.positive (count ▸ allocates.below) allocates.notMem
      have elsewhere : ∀ other, (bpm.pages other).pageId ≠ pageId := by
        intro other here
        exact allocates.new (here ▸ kept.kept other)
      refine ⟨⟨pageId :: rest, ?_, fun other => ?_⟩, .inr ⟨available.symm, rfl, ?_⟩⟩
      · rw [deallocated]
        exact healthy
      · show _ < ((diskManagerDeallocatePage pageId).exec middle.diskManager).2.pageCount ∧ _
        rw [deallocated, lastCount, List.mem_cons, not_or]
        exact ⟨(held.kept other).1, pages ▸ elsewhere other, (held.kept other).2⟩
      · ext other
        show other ∈ ((diskManagerDeallocatePage pageId).exec middle.diskManager).2.allocated ↔ _
        rw [deallocated, healthy.mem_allocated, kept.healthy.mem_allocated, lastCount, count,
          List.mem_cons, not_or]
        have split := allocates.pages other
        have new := allocates.new
        by_cases here : other = pageId
        · subst here
          tauto
        · tauto

/-- `bpm_fetch_page` of a page that was not given back. -/
theorem FreedKept.bpmFetchPage (kept : FreedKept bpm freed) {pageId : PageId}
    (absent : pageId ∉ freed) {frame : Option FrameId}
    (called : bpmFetchPage bpm pageId = .ok (after, frame)) : FreedKept after freed := by
  unfold Buffer.bpmFetchPage at called
  split at called
  · rename_i held _
    obtain ⟨replacer, -, returned⟩ := Returning.returned called
    obtain ⟨rfl, -⟩ := Prod.mk.inj (Except.ok.inj returned)
    exact (@FreedKept.setPage _ _ kept
      { bpm.pages held with pinCount := (bpm.pages held).pinCount + 1 } held (kept.kept held).1
      (kept.kept held).2).congr rfl rfl
  · obtain ⟨⟨middle, taken⟩, takes, reads⟩ := Returning.returned called
    obtain ⟨-, held, count, -⟩ := kept.takeFrame takes
    cases taken with
    | none =>
        obtain ⟨rfl, -⟩ := Prod.mk.inj (Except.ok.inj reads)
        exact held
    | some frame =>
        dsimp only at reads
        rcases held.healthy.exec_read pageId with missing | ⟨below, page, present⟩
        · rw [missing] at reads
          obtain ⟨pushed, pushes, returned⟩ := Returning.returned reads
          obtain ⟨rfl, -⟩ := Prod.mk.inj (Except.ok.inj returned)
          obtain ⟨pages, disk⟩ := pushFree_same pushes
          exact held.congr pages disk
        · rw [present] at reads
          obtain ⟨rfl, -⟩ := Prod.mk.inj (Except.ok.inj reads)
          exact (@FreedKept.setPage _ _ held ⟨page, pageId, 1, false⟩ frame below absent).congr
            rfl rfl

/-- `bpm_unpin_page` moves no page on disk. -/
theorem FreedKept.bpmUnpinPage (kept : FreedKept bpm freed) {pageId : PageId} {isDirty : Bool}
    {rc : Int} (called : bpmUnpinPage bpm pageId isDirty = .ok (after, rc)) :
    after.diskManager = bpm.diskManager ∧ FreedKept after freed := by
  unfold Buffer.bpmUnpinPage at called
  split at called
  · obtain ⟨rfl, -⟩ := Prod.mk.inj (Except.ok.inj called)
    exact ⟨rfl, kept⟩
  · rename_i frame _
    have moved := @FreedKept.setPage _ _ kept { bpm.pages frame with
      pinCount := (bpm.pages frame).pinCount - 1
      isDirty := isDirty || (bpm.pages frame).isDirty } frame (kept.kept frame).1
      (kept.kept frame).2
    dsimp only at called
    split at called
    · obtain ⟨rfl, -⟩ := Prod.mk.inj (Except.ok.inj called)
      exact ⟨rfl, kept⟩
    · split at called
      · obtain ⟨replacer, -, returned⟩ := Returning.returned called
        obtain ⟨rfl, -⟩ := Prod.mk.inj (Except.ok.inj returned)
        exact ⟨rfl, moved.congr rfl rfl⟩
      · obtain ⟨rfl, -⟩ := Prod.mk.inj (Except.ok.inj called)
        exact ⟨rfl, moved⟩

/-- `bpm_init` on a file. -/
theorem bpmInit_freedKept {poolSize : Nat} {dm : DiskManager} (healthy : Healthy dm freed)
    (started : bpmInit poolSize dm = .ok bpm) : FreedKept bpm freed := by
  obtain ⟨_, -, returned⟩ := Returning.returned started
  obtain rfl := Except.ok.inj returned
  exact ⟨healthy, fun _ => ⟨healthy.invalid_below, healthy.invalid_notMem⟩⟩

/-! ## Pools in use -/

/-- What clients can make of a new pool if they fetch no page that was given back. -/
inductive PoolReached : BufferPoolManager → Prop
  | init {poolSize : Nat} {dm : DiskManager} {freed : List PageId} {bpm : BufferPoolManager}
      (healthy : Healthy dm freed) (started : bpmInit poolSize dm = .ok bpm) : PoolReached bpm
  | fetch {bpm after : BufferPoolManager} {pageId : PageId} {frame : Option FrameId}
      (reached : PoolReached bpm) (inUse : ∀ freed, Healthy bpm.diskManager freed → pageId ∉ freed)
      (called : bpmFetchPage bpm pageId = .ok (after, frame)) : PoolReached after
  | new {bpm after : BufferPoolManager} {created : Option (PageId × FrameId)}
      (reached : PoolReached bpm) (called : bpmNewPage bpm = .ok (after, created)) :
      PoolReached after
  | unpin {bpm after : BufferPoolManager} {pageId : PageId} {isDirty : Bool} {rc : Int}
      (reached : PoolReached bpm) (called : bpmUnpinPage bpm pageId isDirty = .ok (after, rc)) :
      PoolReached after
  | setData {bpm : BufferPoolManager} (frame : FrameId) (page : Page)
      (reached : PoolReached bpm) : PoolReached (PagePool.setData bpm frame page)

theorem PoolReached.freedKept (reached : PoolReached bpm) : ∃ freed, FreedKept bpm freed := by
  induction reached with
  | init healthy started => exact ⟨_, bpmInit_freedKept healthy started⟩
  | fetch _ inUse called ih =>
      obtain ⟨freed, kept⟩ := ih
      exact ⟨freed, kept.bpmFetchPage (inUse freed kept.healthy) called⟩
  | new _ called ih =>
      obtain ⟨freed, kept⟩ := ih
      exact (kept.bpmNewPage called).1
  | unpin _ called ih =>
      obtain ⟨freed, kept⟩ := ih
      exact ⟨freed, (kept.bpmUnpinPage called).2⟩
  | @setData bpm frame page _ ih =>
      obtain ⟨freed, kept⟩ := ih
      exact ⟨freed, @FreedKept.setPage _ _ kept { bpm.pages frame with data := page } frame
        (kept.kept frame).1 (kept.kept frame).2⟩

end MiniSqlite.Buffer
