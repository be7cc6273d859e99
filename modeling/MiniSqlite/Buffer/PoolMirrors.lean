import MiniSqlite.Buffer.AllocatedPages
import MiniSqlite.Buffer.PoolServes

/-!
# The real pool behind an ideal store

A pool with free frames evicts nothing, so every page it has created stays in its
frame. `Mirrors` says that the pages of an ideal store are in the frames of a real
pool over a real file, with a free frame for each page the store has still to give.
Each call of the pool has one lemma: what it returns and what it mirrors then.
-/

namespace MiniSqlite.Buffer

open MiniSqlite.Common MiniSqlite.Std MiniSqlite.Storage

open PagePool (fetchPage newPage unpinPage data setData)

variable {bpm after : BufferPoolManager} {store : PageStore} {touched : List PageId}
  {pid : PageId} {frame : FrameId} {page : Page}

/-- The pages of the store are in frames of the pool. Those that are not dirty are on the
disk too, but for the touched ones, which a client has written to and still has to unpin. -/
structure Mirrors (touched : List PageId) (store : PageStore) (bpm : BufferPoolManager) :
    Prop where
  room : ∃ free cold hot, Settled bpm free cold hot ∧ store.fresh.length ≤ free.length
  healthy : Healthy bpm.diskManager []
  supply : store.fresh = (freshIds bpm.diskManager.pageCount).take store.fresh.length
  held : ∀ pid page, store.pages pid = some page →
    ∃ frame, bpm.pageTable.hashmapGet pid = some frame ∧ (bpm.pages frame).data = page
  inFile : ∀ pid frame, bpm.pageTable.hashmapGet pid = some frame →
    0 < pid ∧ pid < bpm.diskManager.pageCount
  clean : ∀ pid frame, bpm.pageTable.hashmapGet pid = some frame → pid ∉ touched →
    (bpm.pages frame).isDirty = false →
    bpm.diskManager.pageAt pid = some (bpm.pages frame).data

/-- Every page is still in its frame, and what is on the disk only is still there. -/
structure FramesKept (before after : BufferPoolManager) : Prop where
  frames : ∀ pid frame, before.pageTable.hashmapGet pid = some frame →
    after.pageTable.hashmapGet pid = some frame
  disk : ∀ pid page, before.pageTable.hashmapGet pid = none →
    before.diskManager.pageAt pid = some page →
      after.pageTable.hashmapGet pid = none ∧ after.diskManager.pageAt pid = some page

/-- The page is in a frame that somebody has pinned. -/
def Pinned (bpm : BufferPoolManager) (pid : PageId) : Prop :=
  ∃ frame, bpm.pageTable.hashmapGet pid = some frame ∧ (bpm.pages frame).pinCount ≠ 0

/-- Neither the page table nor the disk has changed. -/
theorem FramesKept.of_eq (table : after.pageTable = bpm.pageTable)
    (disk : after.diskManager = bpm.diskManager) : FramesKept bpm after where
  frames _ _ found := table ▸ found
  disk _ _ absent present := ⟨table ▸ absent, disk ▸ present⟩

theorem FramesKept.refl (bpm : BufferPoolManager) : FramesKept bpm bpm := .of_eq rfl rfl

theorem FramesKept.trans {middle : BufferPoolManager} (first : FramesKept bpm middle)
    (second : FramesKept middle after) : FramesKept bpm after where
  frames pid frame found := second.frames pid frame (first.frames pid frame found)
  disk pid page absent present :=
    have ⟨absent, present⟩ := first.disk pid page absent present
    second.disk pid page absent present

theorem get_put_same (table : Hashmap pageKeys FrameId) (pid : PageId) (frame : FrameId) :
    (table.hashmapPut pid frame).hashmapGet pid = some frame := by
  rw [Hashmap.hashmapGet_put]
  simp [pageKeys]

theorem get_put_cases {table : Hashmap pageKeys FrameId} {other : PageId} {holder : FrameId}
    (found : (table.hashmapPut pid frame).hashmapGet other = some holder) :
    other = pid ∧ holder = frame ∨ table.hashmapGet other = some holder := by
  rw [Hashmap.hashmapGet_put] at found
  split at found
  · rename_i same
    have same : pid = other := by simpa [pageKeys] using same
    exact .inl ⟨same.symm, (Option.some.inj found).symm⟩
  · exact .inr found

namespace Mirrors

theorem data_eq (mirrors : Mirrors touched store bpm) (used : store.pages pid = some page)
    (found : bpm.pageTable.hashmapGet pid = some frame) : data bpm frame = page := by
  obtain ⟨other, foundOther, same⟩ := mirrors.held pid page used
  rw [found, Option.some.injEq] at foundOther
  exact foundOther ▸ same

/-- Pinning, unpinning and marking a page keeps what is mirrored. A page that is marked as
dirty need not be among the touched ones any longer. -/
theorem repin {untouched : List PageId} {record : PageT} {replacer : LruReplacer}
    {free cold hot cold' hot' : List FrameId} (mirrors : Mirrors touched store bpm)
    (settled : Settled bpm free cold hot) (enough : store.fresh.length ≤ free.length)
    (sound : PoolSound (repinned bpm frame record replacer) free cold' hot')
    (samePid : record.pageId = (bpm.pages frame).pageId)
    (sameData : record.data = (bpm.pages frame).data)
    (marked : record.isDirty = false → (bpm.pages frame).isDirty = false)
    (dirty : ∀ pid holder, bpm.pageTable.hashmapGet pid = some holder → pid ∉ untouched →
      pid ∉ touched ∨ holder = frame ∧ record.isDirty = true) :
    Mirrors untouched store (repinned bpm frame record replacer) where
  room := by
    refine ⟨free, _, _, ⟨sound, fun other member => ?_⟩, enough⟩
    rw [← settled.freeUnheld other member]
    by_cases isFrame : other = frame <;> simp [repinned, BufferPoolManager.setPage, isFrame, samePid]
  healthy := mirrors.healthy
  supply := mirrors.supply
  held pid page used := by
    obtain ⟨holder, found, same⟩ := mirrors.held pid page used
    refine ⟨holder, found, same ▸ ?_⟩
    by_cases isFrame : holder = frame <;>
      simp [repinned, BufferPoolManager.setPage, isFrame, sameData]
  inFile := mirrors.inFile
  clean pid holder found absent notDirty := by
    rcases dirty pid holder found absent with untouched | ⟨rfl, isDirty⟩
    · have clean := mirrors.clean pid holder found untouched
      by_cases isFrame : holder = frame
      · subst isFrame
        simp only [repinned, BufferPoolManager.setPage, if_true] at notDirty ⊢
        exact sameData ▸ clean (marked notDirty)
      · simp only [repinned, BufferPoolManager.setPage, if_neg isFrame] at notDirty ⊢
        exact clean notDirty
    · simp only [repinned, BufferPoolManager.setPage, if_true] at notDirty
      rw [isDirty] at notDirty
      exact absurd notDirty (by simp)

/-- A page of the store is found in its frame. -/
theorem fetch (mirrors : Mirrors touched store bpm) (used : store.pages pid = some page) :
    ∃ after frame, fetchPage bpm pid = .ok (after, some frame) ∧ Mirrors touched store after ∧
      FramesKept bpm after ∧ after.pageTable.hashmapGet pid = some frame ∧ Pinned after pid ∧
      ∀ other, Pinned bpm other → Pinned after other := by
  obtain ⟨free, cold, hot, settled, enough⟩ := mirrors.room
  obtain ⟨frame, found, -⟩ := mirrors.held pid page used
  obtain ⟨replacer, fetched, sound⟩ := settled.toPoolSound.bpmFetchPage_hit found
  refine ⟨_, frame, fetched, mirrors.repin settled enough sound rfl rfl id
    (fun _ _ _ absent => .inl absent), .of_eq rfl rfl, found, ⟨frame, found, ?_⟩, ?_⟩
  · simp [repinned, BufferPoolManager.setPage]
  · rintro other ⟨holder, held, pinned⟩
    refine ⟨holder, held, ?_⟩
    by_cases isFrame : holder = frame
    · simp [repinned, BufferPoolManager.setPage, isFrame]
    · simpa [repinned, BufferPoolManager.setPage, isFrame] using pinned

/-- A page is unpinned. If it is pinned and said to be dirty, it is not touched any longer. -/
theorem unpin (mirrors : Mirrors touched store bpm) (pid : PageId) (isDirty : Bool) :
    ∃ after, unpinPage bpm pid isDirty = .ok after ∧ Mirrors touched store after ∧
      FramesKept bpm after ∧ (∀ other, other ≠ pid → Pinned bpm other → Pinned after other) ∧
      (isDirty = true → Pinned bpm pid →
        ∀ rest, touched ⊆ pid :: rest → Mirrors rest store after) := by
  obtain ⟨free, cold, hot, settled, enough⟩ := mirrors.room
  by_cases refused : ∀ frame, bpm.pageTable.hashmapGet pid = some frame →
      (bpm.pages frame).pinCount = 0
  · refine ⟨bpm, ?_, mirrors, .refl bpm, fun _ _ pinned => pinned, ?_⟩
    · show (bpmUnpinPage bpm pid isDirty >>= _) = _
      rw [bpmUnpinPage_refused isDirty refused]
      rfl
    · rintro _ ⟨frame, found, pinned⟩
      exact absurd (refused frame found) pinned
  · push Not at refused
    obtain ⟨frame, found, pinned⟩ := refused
    obtain ⟨replacer, cold', hot', unpinned, sound⟩ :=
      settled.toPoolSound.bpmUnpinPage_pinned isDirty found pinned
    have marked : (releasedPage bpm frame isDirty).isDirty = false →
        (bpm.pages frame).isDirty = false := fun clean => (Bool.or_eq_false_iff.mp clean).2
    refine ⟨_, ?_, mirrors.repin settled enough sound rfl rfl marked
      (fun _ _ _ absent => .inl absent), .of_eq rfl rfl, ?_, ?_⟩
    · show (bpmUnpinPage bpm pid isDirty >>= _) = _
      rw [unpinned]
      rfl
    · rintro other differ ⟨holder, held, stillPinned⟩
      refine ⟨holder, held, ?_⟩
      have otherFrame : holder ≠ frame := by
        rintro rfl
        exact differ ((settled.of_get held).2.1.symm.trans (settled.of_get found).2.1)
      simpa [repinned, BufferPoolManager.setPage, otherFrame] using stillPinned
    · rintro rfl _ rest subset
      refine mirrors.repin settled enough sound rfl rfl marked fun other holder held absent => ?_
      by_cases isPage : other = pid
      · subst isPage
        rw [found, Option.some.injEq] at held
        exact .inr ⟨held.symm, rfl⟩
      · refine .inl fun member => ?_
        rcases List.mem_cons.mp (subset member) with same | among
        · exact isPage same
        · exact absent among

/-- A client writes to a page. -/
theorem setData (mirrors : Mirrors touched store bpm) (used : store.pages pid = some page)
    (found : bpm.pageTable.hashmapGet pid = some frame) (bytes : Page) :
    Mirrors (pid :: touched) (store.set pid bytes) (PagePool.setData bpm frame bytes) ∧
      FramesKept bpm (PagePool.setData bpm frame bytes) ∧
      ∀ other, Pinned bpm other → Pinned (PagePool.setData bpm frame bytes) other := by
  obtain ⟨free, cold, hot, settled, enough⟩ := mirrors.room
  have same := sameRoles_setPage bpm frame bytes (bpm.pages frame).isDirty
  have others : ∀ other holder, bpm.pageTable.hashmapGet other = some holder → other ≠ pid →
      holder ≠ frame := by
    rintro other holder held differ rfl
    exact differ ((settled.of_get held).2.1.symm.trans (settled.of_get found).2.1)
  refine ⟨⟨⟨free, cold, hot, settled.congr same, ?_⟩, mirrors.healthy, ?_, ?_, mirrors.inFile, ?_⟩,
    .of_eq rfl rfl, ?_⟩
  · rw [PageStore.set_fresh]
    exact enough
  · rw [PageStore.set_fresh]
    exact mirrors.supply
  · intro other otherPage otherUsed
    rw [PageStore.set_pages used] at otherUsed
    by_cases isPage : other = pid
    · subst isPage
      rw [if_pos rfl, Option.some.injEq] at otherUsed
      exact ⟨frame, found, by simp [PagePool.setData, BufferPoolManager.setPage, otherUsed]⟩
    · rw [if_neg isPage] at otherUsed
      obtain ⟨holder, held, contents⟩ := mirrors.held other otherPage otherUsed
      refine ⟨holder, held, ?_⟩
      simpa [PagePool.setData, BufferPoolManager.setPage, others other holder held isPage]
        using contents
  · intro other holder held absent notDirty
    have differ : other ≠ pid := fun isPage => absent (isPage ▸ List.mem_cons_self)
    have otherFrame := others other holder held differ
    simp only [PagePool.setData, BufferPoolManager.setPage, if_neg otherFrame] at notDirty ⊢
    exact mirrors.clean other holder held (fun member => absent (List.mem_cons_of_mem _ member))
      notDirty
  · rintro other ⟨holder, held, pinned⟩
    refine ⟨holder, held, ?_⟩
    by_cases isFrame : holder = frame <;>
      simpa [PagePool.setData, BufferPoolManager.setPage, isFrame] using pinned

/-- The next page of the file is in no frame yet. -/
theorem get_pageCount (mirrors : Mirrors touched store bpm) :
    bpm.pageTable.hashmapGet bpm.diskManager.pageCount = none := by
  by_contra found
  obtain ⟨holder, found⟩ := Option.ne_none_iff_exists'.mp found
  exact Int32.lt_irrefl (mirrors.inFile _ holder found).2

/-- A store that has a page to give shares its id with the file. -/
theorem supply_cons {rest : List PageId} (mirrors : Mirrors touched store bpm)
    (supply : store.fresh = pid :: rest) :
    pid = bpm.diskManager.pageCount ∧
      ∃ dm, diskManagerAllocatePage bpm.diskManager = .ok (pid.toInt, dm) ∧ Healthy dm [] ∧
        pid < dm.pageCount ∧ rest = (freshIds dm.pageCount).take rest.length ∧
        ∀ other, dm.pageAt other =
          if other = pid then some zeroPage else bpm.diskManager.pageAt other := by
  have shape := mirrors.supply
  rw [supply, List.length_cons] at shape
  rcases mirrors.healthy.allocate_next with ⟨-, wrapped⟩ |
    ⟨dm, allocated, healthy, grown, count, pageAt⟩
  · rw [freshIds_wrapped wrapped] at shape
    exact absurd shape (by simp)
  · rw [freshIds_cons mirrors.healthy.nonempty (count ▸ grown), List.take_succ_cons,
      List.cons.injEq] at shape
    obtain ⟨rfl, others⟩ := shape
    exact ⟨rfl, dm, allocated, healthy, grown, count ▸ others, pageAt⟩

/-- The pool creates the page that the store creates. -/
theorem new {grown : PageStore} {rest : List PageId} (mirrors : Mirrors touched store bpm)
    (supply : store.fresh = pid :: rest) (fresh : grown.fresh = rest)
    (pages : ∀ other, grown.pages other =
      if other = pid then some zeroPage else store.pages other) :
    ∃ after frame, newPage bpm = .ok (after, some (pid, frame)) ∧ Mirrors touched grown after ∧
      FramesKept bpm after ∧ after.pageTable.hashmapGet pid = some frame ∧ Pinned after pid ∧
      ∀ other, Pinned bpm other → Pinned after other := by
  obtain ⟨free, cold, hot, settled, enough⟩ := mirrors.room
  obtain ⟨isCount, dm, allocated, healthy, below, others, pageAt⟩ := mirrors.supply_cons supply
  rw [supply, List.length_cons] at enough
  obtain ⟨frame, free, rfl⟩ := List.exists_cons_of_length_pos (by omega : 0 < free.length)
  have now := settled.congr (sameRoles_withDisk bpm dm)
  have unheld := now.freeUnheld frame List.mem_cons_self
  obtain ⟨freeNodes, freeList, take, taken⟩ := now.toPoolSound.takeFrame_cons unheld
  have positive : 0 < pid := isCount ▸ mirrors.healthy.nonempty
  have valid : pid ≠ invalidPageId := by
    rintro rfl
    exact absurd positive (by decide)
  have nonneg : ¬ pid.toInt < 0 :=
    Int.not_lt.mpr (Int32.le_iff_toInt_le.mp (Int32.le_of_lt positive))
  have missing := isCount ▸ mirrors.get_pageCount
  have created := bpmNewPage_taken allocated nonneg take
  have written := healthy.writePage (Int32.le_of_lt positive) below zeroPage
  rw [Int32.ofInt_toInt] at created
  have disk : ((diskManagerWritePage pid zeroPage).exec (withFree { bpm with diskManager := dm }
      freeNodes freeList).diskManager).2 = dm.written pid zeroPage := congrArg Prod.snd written
  rw [disk] at created
  have notFree := (List.nodup_cons.mp settled.toFreeHolds.nodup).1
  have elsewhere : ∀ other holder, bpm.pageTable.hashmapGet other = some holder →
      other ≠ pid ∧ holder ≠ frame := by
    intro other holder found
    obtain ⟨-, holds, valid⟩ := settled.of_get found
    constructor
    · rintro rfl
      rw [missing] at found
      cases found
    · rintro rfl
      exact valid (holds.symm.trans unheld)
  have kept : ∀ other holder, bpm.pageTable.hashmapGet other = some holder →
      (bpm.pageTable.hashmapPut pid frame).hashmapGet other = some holder :=
    fun other holder found => get_put_of_get missing found
  have pageAtAfter := healthy.pageAt_written positive below zeroPage
  refine ⟨_, frame, created, ⟨⟨free, cold, hot, ⟨(taken.congr (sameRoles_withDisk _ _)).install
    valid (by simp) missing, ?_⟩, ?_⟩, healthy.written (by simp) zeroPage, ?_, ?_, ?_, ?_⟩,
    ⟨kept, ?_⟩, ?_, ?_, ?_⟩
  · intro other member
    have differ : other ≠ frame := fun same => notFree (same ▸ member)
    simpa [installed, BufferPoolManager.setPage, withFree, differ] using
      settled.freeUnheld other (List.mem_cons_of_mem _ member)
  · rw [fresh]
    rw [List.length_cons] at enough
    omega
  · rw [fresh]
    exact others
  · intro other page used
    rw [pages] at used
    by_cases isNew : other = pid
    · rw [if_pos isNew, Option.some.injEq] at used
      refine ⟨frame, isNew ▸ get_put_same _ pid frame, ?_⟩
      simpa [installed, BufferPoolManager.setPage] using used
    · rw [if_neg isNew] at used
      obtain ⟨holder, found, same⟩ := mirrors.held other page used
      refine ⟨holder, kept other holder found, ?_⟩
      simpa [installed, BufferPoolManager.setPage, withFree, (elsewhere other holder found).2]
        using same
  · intro other holder found
    rcases get_put_cases found with ⟨rfl, -⟩ | found
    · exact ⟨positive, below⟩
    · obtain ⟨positive', below'⟩ := mirrors.inFile other holder found
      exact ⟨positive', Int32.lt_trans (isCount ▸ below') below⟩
  · intro other holder found absent notDirty
    show (dm.written pid zeroPage).pageAt other = _
    rw [pageAtAfter]
    rcases get_put_cases found with ⟨rfl, rfl⟩ | found
    · simp [installed, BufferPoolManager.setPage]
    · obtain ⟨isOld, otherFrame⟩ := elsewhere other holder found
      simp only [installed, BufferPoolManager.setPage, withFree, if_neg otherFrame] at notDirty ⊢
      rw [if_neg isOld, pageAt, if_neg isOld]
      exact mirrors.clean other holder found absent notDirty
  · intro other page absent present
    have differ : other ≠ pid := by
      rintro rfl
      exact Int32.lt_irrefl (isCount ▸ (DiskManager.pageAt_inside present).2.1)
    refine ⟨?_, ?_⟩
    · show (bpm.pageTable.hashmapPut pid frame).hashmapGet other = none
      rw [Hashmap.hashmapGet_put, if_neg (by simpa [pageKeys] using Ne.symm differ)]
      exact absent
    · show (dm.written pid zeroPage).pageAt other = _
      rw [pageAtAfter, if_neg differ, pageAt, if_neg differ]
      exact present
  · exact get_put_same _ pid frame
  · exact ⟨frame, get_put_same _ pid frame, by simp [installed, BufferPoolManager.setPage]⟩
  · rintro other ⟨holder, found, pinned⟩
    refine ⟨holder, kept other holder found, ?_⟩
    simpa [installed, BufferPoolManager.setPage, withFree, (elsewhere other holder found).2]
      using pinned

/-! ## Flushing -/

/-- Writing a page back keeps what is mirrored and leaves the page clean. -/
theorem writeIfDirty (mirrors : Mirrors [] store bpm)
    (found : bpm.pageTable.hashmapGet pid = some frame) :
    Mirrors [] store (Buffer.writeIfDirty bpm frame) ∧
      FramesKept bpm (Buffer.writeIfDirty bpm frame) ∧
      ((Buffer.writeIfDirty bpm frame).pages frame).isDirty = false ∧
      ∀ other, (bpm.pages other).isDirty = false →
        ((Buffer.writeIfDirty bpm frame).pages other).isDirty = false := by
  obtain ⟨free, cold, hot, settled, enough⟩ := mirrors.room
  have holds := (settled.of_get found).2.1
  by_cases dirty : (bpm.pages frame).isDirty = true
  · obtain ⟨positive, below⟩ := mirrors.inFile pid frame found
    have written := mirrors.healthy.writePage (Int32.le_of_lt positive) below
      (bpm.pages frame).data
    have pageAt := mirrors.healthy.pageAt_written positive below (bpm.pages frame).data
    have same := (sameRoles_withDisk bpm (bpm.diskManager.written pid (bpm.pages frame).data)).trans
      (sameRoles_setPage _ frame (bpm.pages frame).data false)
    have back : Buffer.writeIfDirty bpm frame =
        { bpm with diskManager := bpm.diskManager.written pid (bpm.pages frame).data }.setPage frame
          { bpm.pages frame with isDirty := false } := by
      simp only [Buffer.writeIfDirty, if_pos dirty, holds, written]
    rw [back]
    refine ⟨⟨⟨free, cold, hot, settled.congr same, enough⟩, mirrors.healthy.written (by simp) _,
      mirrors.supply, ?_, mirrors.inFile, ?_⟩, ⟨fun _ _ found => found, ?_⟩,
      by simp [BufferPoolManager.setPage], ?_⟩
    · intro other page used
      obtain ⟨holder, held, contents⟩ := mirrors.held other page used
      refine ⟨holder, held, contents ▸ ?_⟩
      by_cases isFrame : holder = frame <;> simp [BufferPoolManager.setPage, isFrame]
    · intro other holder held _ notDirty
      show (bpm.diskManager.written pid (bpm.pages frame).data).pageAt other = _
      rw [pageAt]
      by_cases isPage : other = pid
      · subst isPage
        rw [show bpm.pageTable.hashmapGet other = some holder from held, Option.some.injEq] at found
        simp [BufferPoolManager.setPage, found]
      · have otherFrame : holder ≠ frame := by
          rintro rfl
          exact isPage ((settled.of_get held).2.1.symm.trans holds)
        simp only [BufferPoolManager.setPage, if_neg otherFrame] at notDirty ⊢
        rw [if_neg isPage]
        exact mirrors.clean other holder held (by simp) notDirty
    · intro other page absent present
      refine ⟨absent, ?_⟩
      have differ : other ≠ pid := by
        rintro rfl
        exact absurd (absent.symm.trans found) (by simp)
      show (bpm.diskManager.written pid (bpm.pages frame).data).pageAt other = _
      rw [pageAt, if_neg differ, present]
    · intro other clean
      by_cases isFrame : other = frame
      · simp [BufferPoolManager.setPage, isFrame]
      · simpa [BufferPoolManager.setPage, isFrame] using clean
  · have same : Buffer.writeIfDirty bpm frame = bpm := by
      simp only [Buffer.writeIfDirty, if_neg dirty]
    rw [same]
    exact ⟨mirrors, .refl bpm, Bool.eq_false_iff.mpr dirty, fun _ clean => clean⟩

/-- One turn of `bpm_flush_all`. -/
theorem flushFrame (mirrors : Mirrors [] store bpm) (inside : frame < bpm.poolSize) :
    Mirrors [] store (Buffer.flushFrame bpm frame) ∧
      FramesKept bpm (Buffer.flushFrame bpm frame) ∧
      ((bpm.pages frame).pageId ≠ invalidPageId →
        ((Buffer.flushFrame bpm frame).pages frame).isDirty = false) ∧
      ∀ other, (bpm.pages other).isDirty = false →
        ((Buffer.flushFrame bpm frame).pages other).isDirty = false := by
  unfold Buffer.flushFrame
  by_cases valid : (bpm.pages frame).pageId ≠ invalidPageId
  · obtain ⟨free, cold, hot, settled, -⟩ := mirrors.room
    have found := (settled.tableIff _ frame).mpr ⟨inside, rfl, valid⟩
    obtain ⟨still, kept, clean, others⟩ := mirrors.writeIfDirty found
    rw [if_pos valid]
    exact ⟨still, kept, fun _ => clean, others⟩
  · rw [if_neg valid]
    exact ⟨mirrors, .refl bpm, fun held => absurd held valid, fun _ clean => clean⟩

theorem flushFrames (frames : List FrameId) (inside : ∀ frame ∈ frames, frame < bpm.poolSize)
    (mirrors : Mirrors [] store bpm) :
    Mirrors [] store (frames.foldl Buffer.flushFrame bpm) ∧
      FramesKept bpm (frames.foldl Buffer.flushFrame bpm) ∧
      ∀ frame, frame ∈ frames ∨ (bpm.pages frame).isDirty = false →
        (bpm.pages frame).pageId ≠ invalidPageId →
        ((frames.foldl Buffer.flushFrame bpm).pages frame).isDirty = false := by
  induction frames generalizing bpm with
  | nil => exact ⟨mirrors, .refl bpm, fun _ clean _ => clean.resolve_left (by simp)⟩
  | cons first frames ih =>
      have same := flushFrame_sameRoles bpm first
      obtain ⟨still, kept, here, others⟩ := mirrors.flushFrame (inside first List.mem_cons_self)
      obtain ⟨mirrorsAfter, keptAfter, clean⟩ :=
        ih (fun frame member => same.poolSize ▸ inside frame (List.mem_cons_of_mem _ member)) still
      refine ⟨mirrorsAfter, kept.trans keptAfter,
        fun frame listed valid => clean frame ?_ (same.pageId frame ▸ valid)⟩
      rcases listed with member | notDirty
      · rcases List.mem_cons.mp member with rfl | later
        · exact .inr (here valid)
        · exact .inl later
      · exact .inr (others frame notDirty)

/-- `bpm_flush_all` brings every page of the store to the disk. -/
theorem flushAll (mirrors : Mirrors [] store bpm) :
    Mirrors [] store (bpmFlushAll bpm) ∧ FramesKept bpm (bpmFlushAll bpm) ∧
      ∀ pid page, store.pages pid = some page →
        (bpmFlushAll bpm).diskManager.pageAt pid = some page := by
  have inside : ∀ frame ∈ List.range bpm.poolSize, frame < bpm.poolSize :=
    fun frame member => List.mem_range.mp member
  obtain ⟨still, kept, clean⟩ := mirrors.flushFrames (List.range bpm.poolSize) inside
  refine ⟨still, kept, fun pid page used => ?_⟩
  obtain ⟨free, cold, hot, settled, -⟩ := still.room
  obtain ⟨frame, found, rfl⟩ := still.held pid page used
  obtain ⟨below, holds, valid⟩ := settled.of_get found
  have same := bpmFlushAll_sameRoles bpm
  refine still.clean pid frame found (by simp) (clean frame (.inl ?_) ?_)
  · exact List.mem_range.mpr (same.poolSize ▸ below)
  · exact same.pageId frame ▸ holds ▸ valid

end Mirrors

end MiniSqlite.Buffer
