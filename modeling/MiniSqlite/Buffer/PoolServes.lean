import MiniSqlite.Buffer.FrameRoles
import MiniSqlite.Buffer.PagePool
import MiniSqlite.Storage.DiskContents

/-!
# Pools that serve the pages of a file

`Serving` lists what client code may rely on when a pool and a disk manager hold
the same pages: what one call returns on the pool follows from what the file
holds. Two pools have such a relation to a file: the ideal `PageStore`, and the
real pool as long as it has free frames, which is what `SteadyPool` makes of it.
-/

namespace MiniSqlite.Buffer

open MiniSqlite.Common MiniSqlite.Std MiniSqlite.Storage

open PagePool (fetchPage newPage unpinPage data setData)

/-- A pool and a disk manager with the same pages. A frame given for a page shows it
from then on. -/
structure Serving (Pool Frame : Type) [PagePool Pool Frame] where
  Serves : Pool → DiskManager → Prop
  /-- The frame shows the page. -/
  Shows : Pool → PageId → Frame → Prop
  healthy : ∀ {pool dm}, Serves pool dm → Healthy dm []
  data_eq : ∀ {pool dm pid frame}, Serves pool dm → Shows pool pid frame →
    dm.pageAt pid = some (data pool frame)
  pageId_eq : ∀ {pool dm pid frame}, Serves pool dm → Shows pool pid frame →
    PagePool.pageId pool frame = pid
  fetch : ∀ {pool dm} pid {page}, Serves pool dm → dm.pageAt pid = some page →
    fetchPage pool pid = .error .eviction ∨ ∃ after frame,
      fetchPage pool pid = .ok (after, some frame) ∧ Serves after dm ∧ Shows after pid frame ∧
        ∀ other holder, Shows pool other holder → Shows after other holder
  fetch_none : ∀ {pool dm} pid, Serves pool dm → dm.pageAt pid = none → pid ≠ 0 →
    fetchPage pool pid = .error .eviction ∨ ∃ after,
      fetchPage pool pid = .ok (after, none) ∧ Serves after dm
  unpin : ∀ {pool dm} pid isDirty, Serves pool dm →
    ∃ after, unpinPage pool pid isDirty = .ok after ∧ Serves after dm ∧
      ∀ other holder, Shows pool other holder → Shows after other holder
  setData : ∀ {pool dm pid frame} page, Serves pool dm → Shows pool pid frame →
    Serves (setData pool frame page) (dm.written pid page) ∧
      ∀ other holder, Shows pool other holder → Shows (PagePool.setData pool frame page) other holder
  setData_same : ∀ {pool dm pid frame}, Serves pool dm → Shows pool pid frame →
    PagePool.setData pool frame (data pool frame) = pool
  new : ∀ {pool dm}, Serves pool dm →
    newPage pool = .error .eviction ∨
      newPage pool = .error .overflow ∧ diskManagerAllocatePage dm = .error .overflow ∨
      ∃ after dm' frame, newPage pool = .ok (after, some (dm.pageCount, frame)) ∧
        diskManagerAllocatePage dm = .ok (dm.pageCount.toInt, dm') ∧ Serves after dm' ∧
        Shows after dm.pageCount frame ∧
        (∀ other holder, Shows pool other holder → Shows after other holder) ∧
        ∀ other, dm'.pageAt other =
          if other = dm.pageCount then some zeroPage else dm.pageAt other

/-! ## The ideal pool -/

/-- The ids a file has still to give away, in order. -/
def freshIds (pageCount : Int32) : List PageId :=
  (List.range' pageCount.toInt.toNat (2 ^ 31 - 1 - pageCount.toInt.toNat)).map Int32.ofNat

theorem freshIds_wrapped {pageCount : Int32} (wrapped : pageCount + 1 < pageCount) :
    freshIds pageCount = [] := by
  have last : pageCount.toInt = 2 ^ 31 - 1 := by
    have := pageCount.toInt_lt
    have := pageCount.le_toInt
    by_contra differs
    rw [Int32.lt_iff_toInt_lt, Int32.toInt_add, show (1 : Int32).toInt = 1 by decide,
      Int.bmod_eq_of_le (by omega) (by omega)] at wrapped
    omega
  rw [freshIds, last]
  rfl

theorem freshIds_cons {pageCount : Int32} (positive : 0 < pageCount)
    (grown : pageCount < pageCount + 1) :
    freshIds pageCount = pageCount :: freshIds (pageCount + 1) := by
  have zero : (0 : Int32).toInt = 0 := by decide
  rw [Int32.lt_iff_toInt_lt, zero] at positive
  have next : (pageCount + 1).toInt = pageCount.toInt + 1 := by
    have := pageCount.toInt_lt
    rw [Int32.lt_iff_toInt_lt] at grown
    rw [Int32.toInt_add, show (1 : Int32).toInt = 1 by decide] at grown ⊢
    by_contra differs
    have last : pageCount.toInt = 2 ^ 31 - 1 := by
      by_contra small
      exact differs (Int.bmod_eq_of_le (by omega) (by omega))
    rw [last] at grown
    exact absurd grown (by decide)
  have small := (pageCount + 1).toInt_lt
  have count : 2 ^ 31 - 1 - pageCount.toInt.toNat =
      2 ^ 31 - 1 - (pageCount.toInt + 1).toNat + 1 := by omega
  have successor : pageCount.toInt.toNat + 1 = (pageCount.toInt + 1).toNat := by omega
  have here : Int32.ofNat pageCount.toInt.toNat = pageCount := by
    refine Int32.toInt_inj.mp ?_
    rw [Int32.toInt_ofNat_of_lt (by omega)]
    omega
  rw [freshIds, freshIds, next, count, List.range'_succ, List.map_cons, successor, here]

/-- The store has the pages of the file and will give away the same ids. -/
structure StoreServes (store : PageStore) (dm : DiskManager) : Prop where
  healthy : Healthy dm []
  pages : ∀ pid, store.pages pid = dm.pageAt pid
  fresh : store.fresh = freshIds dm.pageCount

theorem PageStore.set_same {store : PageStore} {pid : PageId} {page : Page}
    (used : store.pages pid = some page) : store.set pid page = store := by
  have pages : (store.set pid page).pages = store.pages := by
    funext other
    rw [PageStore.set_pages used]
    split
    · rename_i same
      rw [same, used]
    · rfl
  have fresh := PageStore.set_fresh store pid page
  revert pages fresh
  cases store.set pid page
  cases store
  simp only [PageStore.mk.injEq]
  exact fun pages fresh => ⟨pages, fresh⟩

/-- The ideal pool serves a file. -/
def storeServing : Serving PageStore PageId where
  Serves := StoreServes
  Shows store pid frame := frame = pid ∧ (store.pages pid).isSome = true
  healthy serves := serves.healthy
  data_eq := by
    rintro store dm pid frame serves ⟨rfl, used⟩
    obtain ⟨page, used⟩ := Option.isSome_iff_exists.mp used
    rw [← serves.pages, used]
    show some page = some ((store.pages frame).getD zeroPage)
    rw [used]
    rfl
  pageId_eq := by
    rintro store dm pid frame _ ⟨rfl, _⟩
    rfl
  fetch := by
    intro store dm pid page serves present
    have used : store.pages pid = some page := (serves.pages pid).trans present
    refine .inr ⟨store, pid, ?_, serves, ⟨rfl, by rw [used]; rfl⟩, fun _ _ shows => shows⟩
    show Except.ok (store, (store.pages pid).map fun _ => pid) = _
    rw [used]
    rfl
  fetch_none := by
    intro store dm pid serves absent _
    refine .inr ⟨store, ?_, serves⟩
    show Except.ok (store, (store.pages pid).map fun _ => pid) = _
    rw [serves.pages, absent]
    rfl
  unpin pid isDirty serves := ⟨_, rfl, serves, fun _ _ shows => shows⟩
  setData := by
    rintro store dm pid frame page serves ⟨rfl, used⟩
    obtain ⟨old, used⟩ := Option.isSome_iff_exists.mp used
    obtain ⟨positive, below, _⟩ := DiskManager.pageAt_inside ((serves.pages frame).symm.trans used)
    have pages := PageStore.set_pages used page
    refine ⟨⟨serves.healthy.written (by simp) page, ?_, ?_⟩, ?_⟩
    · intro other
      rw [serves.healthy.pageAt_written positive below, ← serves.pages]
      exact pages other
    · exact (PageStore.set_fresh store frame page).trans serves.fresh
    · rintro other holder ⟨rfl, otherUsed⟩
      refine ⟨rfl, ?_⟩
      show ((store.set frame page).pages holder).isSome = true
      rw [pages]
      split
      · rfl
      · exact otherUsed
  setData_same := by
    rintro store dm pid frame serves ⟨rfl, used⟩
    obtain ⟨page, used⟩ := Option.isSome_iff_exists.mp used
    show store.set frame ((store.pages frame).getD zeroPage) = store
    rw [used]
    exact PageStore.set_same used
  new := by
    intro store dm serves
    rcases serves.healthy.allocate_next with ⟨overflow, wrapped⟩ |
      ⟨dm', allocated, healthy, grown, count, pageAt⟩
    · refine .inr (.inl ⟨?_, overflow⟩)
      have none_left := serves.fresh.trans (freshIds_wrapped wrapped)
      show (store.allocate >>= _) = _
      rw [PageStore.allocate_nil none_left]
      rfl
    · have supply := serves.fresh.trans (freshIds_cons serves.healthy.nonempty (count ▸ grown))
      obtain ⟨after, created, fresh, pages⟩ := PageStore.allocate_cons supply
      have pagesAt : ∀ other, after.pages other = dm'.pageAt other := by
        intro other
        rw [pages, pageAt, serves.pages]
      refine .inr (.inr ⟨after, dm', dm.pageCount, ?_, allocated, ⟨healthy, pagesAt, ?_⟩, ?_, ?_,
        pageAt⟩)
      · show (store.allocate >>= _) = _
        rw [created]
        rfl
      · rw [fresh, count]
      · exact ⟨rfl, by rw [pages, if_pos rfl]; rfl⟩
      · rintro other holder ⟨rfl, used⟩
        refine ⟨rfl, ?_⟩
        rw [pages]
        split
        · rfl
        · exact used

/-! ## The real pool without evictions -/

/-- A buffer pool of which it is assumed that it never evicts. -/
structure SteadyPool where
  bpm : BufferPoolManager

/-- The calls of the real pool. One that needs a frame when none is free is a fault. -/
instance : PagePool SteadyPool FrameId where
  fetchPage pool pid :=
    if pool.bpm.pageTable.hashmapGet pid = none ∧ pool.bpm.freeList.size = 0 then .error .eviction
    else do
      let (bpm, frame) ← bpmFetchPage pool.bpm pid
      return (⟨bpm⟩, frame)
  newPage pool :=
    if pool.bpm.freeList.size = 0 then .error .eviction
    else do
      let (bpm, created) ← bpmNewPage pool.bpm
      return (⟨bpm⟩, created)
  unpinPage pool pid isDirty := do
    let (bpm, _) ← bpmUnpinPage pool.bpm pid isDirty
    return ⟨bpm⟩
  data pool frame := (pool.bpm.pages frame).data
  setData pool frame page := ⟨pool.bpm.setPage frame { pool.bpm.pages frame with data := page }⟩
  pageId pool frame := (pool.bpm.pages frame).pageId

/-- The frames show the pages of the file, and pages in no frame are on the pool's disk. -/
structure SteadyServes (pool : SteadyPool) (dm : DiskManager) : Prop where
  settled : ∃ free cold hot, Settled pool.bpm free cold hot
  healthy : Healthy dm []
  healthyDisk : Healthy pool.bpm.diskManager []
  pageCount : pool.bpm.diskManager.pageCount = dm.pageCount
  resident : ∀ frame < pool.bpm.poolSize, (pool.bpm.pages frame).pageId ≠ invalidPageId →
    dm.pageAt (pool.bpm.pages frame).pageId = some (pool.bpm.pages frame).data
  stored : ∀ pid, (∀ frame < pool.bpm.poolSize, (pool.bpm.pages frame).pageId ≠ pid) →
    pool.bpm.diskManager.pageAt pid = dm.pageAt pid

variable {bpm after : BufferPoolManager} {dm : DiskManager}

/-- A pool that shows the same pages serves the same file. -/
theorem SteadyServes.congr (serves : SteadyServes ⟨bpm⟩ dm)
    (settled : ∃ free cold hot, Settled after free cold hot) (poolSize : after.poolSize = bpm.poolSize)
    (disk : after.diskManager = bpm.diskManager)
    (pages : ∀ frame, (after.pages frame).pageId = (bpm.pages frame).pageId ∧
      (after.pages frame).data = (bpm.pages frame).data) : SteadyServes ⟨after⟩ dm where
  settled := settled
  healthy := serves.healthy
  healthyDisk := by rw [disk]; exact serves.healthyDisk
  pageCount := by rw [disk]; exact serves.pageCount
  resident frame inside := by
    rw [(pages frame).1, (pages frame).2]
    exact serves.resident frame (poolSize ▸ inside)
  stored pid absent := by
    rw [disk]
    exact serves.stored pid fun frame inside => (pages frame).1 ▸ absent frame (poolSize ▸ inside)

/-- A page put into a frame without a page. -/
theorem SteadyServes.install {frame : FrameId} {data : Page} {pid : PageId}
    (settled : ∃ free cold hot, Settled (installed after frame ⟨data, pid, 1, false⟩) free cold hot)
    (healthy : Healthy dm []) (healthyDisk : Healthy after.diskManager [])
    (pageCount : after.diskManager.pageCount = dm.pageCount)
    (present : dm.pageAt pid = some data)
    (resident : ∀ other < after.poolSize, other ≠ frame →
      (after.pages other).pageId ≠ invalidPageId →
      dm.pageAt (after.pages other).pageId = some (after.pages other).data)
    (stored : ∀ other, other ≠ pid →
      (∀ holder < after.poolSize, holder ≠ frame → (after.pages holder).pageId ≠ other) →
      after.diskManager.pageAt other = dm.pageAt other) (inside : frame < after.poolSize) :
    SteadyServes ⟨installed after frame ⟨data, pid, 1, false⟩⟩ dm where
  settled := settled
  healthy := healthy
  healthyDisk := healthyDisk
  pageCount := pageCount
  resident other otherInside := by
    by_cases isFrame : other = frame
    · intro _
      simpa [installed, BufferPoolManager.setPage, isFrame] using present
    · simpa [installed, BufferPoolManager.setPage, isFrame] using
        resident other otherInside isFrame
  stored other absent := by
    refine stored other ?_ ?_
    · rintro rfl
      have := absent frame inside
      simp [installed, BufferPoolManager.setPage] at this
    · intro holder holderInside isOther
      simpa [installed, BufferPoolManager.setPage, isOther] using absent holder holderInside

/-- In a frame without a page there is no page to lose. -/
theorem stored_of_unheld {frame : FrameId} {pid : PageId} (valid : pid ≠ invalidPageId)
    (unheld : (bpm.pages frame).pageId = invalidPageId)
    (absent : ∀ holder < bpm.poolSize, holder ≠ frame → (bpm.pages holder).pageId ≠ pid) :
    ∀ holder < bpm.poolSize, (bpm.pages holder).pageId ≠ pid := by
  intro holder inside
  by_cases isFrame : holder = frame
  · rw [isFrame, unheld]
    exact Ne.symm valid
  · exact absent holder inside isFrame

theorem get_put_of_get {table : Hashmap pageKeys FrameId} {pid other : PageId}
    {frame holder : FrameId} (missing : table.hashmapGet pid = none)
    (found : table.hashmapGet other = some holder) :
    (table.hashmapPut pid frame).hashmapGet other = some holder := by
  have differ : pid ≠ other := by
    rintro rfl
    rw [missing] at found
    exact absurd found (by simp)
  rw [Hashmap.hashmapGet_put]
  simp only [pageKeys, HashKey.ofEq_equalFn, differ, decide_false, Bool.false_eq_true, if_false]
  exact found

theorem SteadyServes.fetch_present {pid : PageId} {page : Page} (serves : SteadyServes ⟨bpm⟩ dm)
    (present : dm.pageAt pid = some page) :
    PagePool.fetchPage (SteadyPool.mk bpm) pid = .error .eviction ∨ ∃ after frame,
      PagePool.fetchPage (SteadyPool.mk bpm) pid = .ok (after, some frame) ∧
        SteadyServes after dm ∧ after.bpm.pageTable.hashmapGet pid = some frame ∧
        ∀ other holder, bpm.pageTable.hashmapGet other = some holder →
          after.bpm.pageTable.hashmapGet other = some holder := by
  obtain ⟨free, cold, hot, settled⟩ := serves.settled
  by_cases blocked : bpm.pageTable.hashmapGet pid = none ∧ bpm.freeList.size = 0
  · exact .inl (if_pos blocked)
  · refine .inr ?_
    have unblocked : ∀ {after : BufferPoolManager} {frame : Option FrameId},
        bpmFetchPage bpm pid = .ok (after, frame) →
        PagePool.fetchPage (SteadyPool.mk bpm) pid = .ok (⟨after⟩, frame) := by
      intro after frame fetched
      show (if _ then _ else _) = _
      rw [if_neg blocked, fetched]
      rfl
    cases found : bpm.pageTable.hashmapGet pid with
    | some frame =>
        obtain ⟨replacer, fetched, sound⟩ := settled.toPoolSound.bpmFetchPage_hit found
        refine ⟨_, frame, unblocked fetched, serves.congr ⟨free, _, _, sound, ?_⟩ rfl rfl ?_, found,
          fun _ _ shows => shows⟩
        · exact fun other member =>
            (repinned_pageId _ _ replacer other).trans (settled.freeUnheld other member)
        · intro other
          by_cases isFrame : other = frame <;>
            simp [repinned, BufferPoolManager.setPage, isFrame]
    | none =>
        have nonempty : bpm.freeList.size ≠ 0 := fun empty => blocked ⟨found, empty⟩
        rw [settled.toFreeHolds.size] at nonempty
        obtain ⟨frame, rest, rfl⟩ := List.exists_cons_of_length_pos (Nat.pos_of_ne_zero nonempty)
        have unheld := settled.freeUnheld frame List.mem_cons_self
        obtain ⟨freeNodes, freeList, take, taken⟩ := settled.toPoolSound.takeFrame_cons unheld
        have valid := DiskManager.pageAt_valid present
        have onDisk := (serves.stored pid fun other inside =>
          settled.of_get_none found valid inside).trans present
        have read := serves.healthyDisk.read_pageAt onDisk
        have valid' : (PageT.mk page pid 1 false).pageId ≠ invalidPageId := valid
        have stays := settled.install bpm.diskManager taken valid' (by simp) found
        refine ⟨_, frame, unblocked (bpmFetchPage_read found take read),
          .install stays.1 serves.healthy serves.healthyDisk serves.pageCount present
            (fun other inside _ => serves.resident other inside) ?_ taken.frameInside, ?_, ?_⟩
        · intro other _ absent
          by_cases isInvalid : other = invalidPageId
          · subst isInvalid
            rw [DiskManager.pageAt_outside (fun inside => absurd inside.1 (by decide)),
              DiskManager.pageAt_outside (fun inside => absurd inside.1 (by decide))]
          · exact serves.stored other (stored_of_unheld isInvalid unheld absent)
        · show (Hashmap.hashmapPut _ _ frame).hashmapGet pid = _
          rw [Hashmap.hashmapGet_put]
          simp [pageKeys]
        · exact fun other holder shows => get_put_of_get found shows

theorem SteadyServes.fetch_missing {pid : PageId} (serves : SteadyServes ⟨bpm⟩ dm)
    (absent : dm.pageAt pid = none) (notHeader : pid ≠ 0) :
    PagePool.fetchPage (SteadyPool.mk bpm) pid = .error .eviction ∨ ∃ after,
      PagePool.fetchPage (SteadyPool.mk bpm) pid = .ok (after, none) ∧ SteadyServes after dm := by
  obtain ⟨free, cold, hot, settled⟩ := serves.settled
  have found : bpm.pageTable.hashmapGet pid = none := by
    cases found : bpm.pageTable.hashmapGet pid with
    | none => rfl
    | some frame =>
        obtain ⟨inside, holds, valid⟩ := settled.of_get found
        have present := serves.resident frame inside (holds.symm ▸ valid)
        rw [holds, absent] at present
        exact absurd present (by simp)
  by_cases empty : bpm.freeList.size = 0
  · exact .inl (if_pos ⟨found, empty⟩)
  · rw [settled.toFreeHolds.size] at empty
    obtain ⟨frame, rest, rfl⟩ := List.exists_cons_of_length_pos (Nat.pos_of_ne_zero empty)
    have unheld := settled.freeUnheld frame List.mem_cons_self
    obtain ⟨freeNodes, freeList, take, taken⟩ := settled.toPoolSound.takeFrame_cons unheld
    have missing := serves.healthy.pageAt_missing absent notHeader
    rw [← serves.pageCount] at missing
    have read := serves.healthyDisk.readPage_missing missing
    have notFree := (List.nodup_cons.mp settled.toFreeHolds.nodup).1
    obtain ⟨nodes, list, pushed, sound⟩ := taken.putBack notFree
    refine .inr ⟨⟨withFree (withFree bpm freeNodes freeList) nodes list⟩, ?_,
      serves.congr ⟨_, cold, hot, sound, ?_⟩ rfl rfl fun _ => ⟨rfl, rfl⟩⟩
    · have free : ¬ (bpm.pageTable.hashmapGet pid = none ∧ bpm.freeList.size = 0) := by
        rw [settled.toFreeHolds.size]
        simp
      show (if _ then _ else _) = _
      rw [if_neg free, bpmFetchPage_unreadable found take read pushed]
      rfl
    · intro other member
      refine settled.freeUnheld other ?_
      simpa [or_comm] using member

theorem SteadyServes.unpin (serves : SteadyServes ⟨bpm⟩ dm) (pid : PageId) (isDirty : Bool) :
    ∃ after, PagePool.unpinPage (SteadyPool.mk bpm) pid isDirty = .ok after ∧
      SteadyServes after dm ∧ after.bpm.pageTable = bpm.pageTable := by
  obtain ⟨free, cold, hot, settled⟩ := serves.settled
  by_cases refused : ∀ frame, bpm.pageTable.hashmapGet pid = some frame →
      (bpm.pages frame).pinCount = 0
  · refine ⟨⟨bpm⟩, ?_, serves, rfl⟩
    show (bpmUnpinPage bpm pid isDirty >>= _) = _
    rw [bpmUnpinPage_refused isDirty refused]
    rfl
  · push Not at refused
    obtain ⟨frame, found, pinned⟩ := refused
    obtain ⟨replacer, cold', hot', unpinned, sound⟩ :=
      settled.toPoolSound.bpmUnpinPage_pinned isDirty found pinned
    refine ⟨⟨_⟩, ?_, serves.congr ⟨free, cold', hot', sound, ?_⟩ rfl rfl ?_, rfl⟩
    · show (bpmUnpinPage bpm pid isDirty >>= _) = _
      rw [unpinned]
      rfl
    · exact fun other member =>
        (repinned_pageId _ _ replacer other).trans (settled.freeUnheld other member)
    · intro other
      by_cases isFrame : other = frame <;>
        simp [repinned, BufferPoolManager.setPage, releasedPage, isFrame]

theorem SteadyServes.setData {pid : PageId} {frame : FrameId} (serves : SteadyServes ⟨bpm⟩ dm)
    (found : bpm.pageTable.hashmapGet pid = some frame) (page : Page) :
    SteadyServes ⟨bpm.setPage frame { bpm.pages frame with data := page }⟩ (dm.written pid page) := by
  obtain ⟨free, cold, hot, settled⟩ := serves.settled
  obtain ⟨inside, (holds : (bpm.pages frame).pageId = pid), valid⟩ := settled.of_get found
  have present := serves.resident frame inside (holds.symm ▸ valid)
  obtain ⟨positive, below, _⟩ := DiskManager.pageAt_inside (holds ▸ present)
  have pageAt := serves.healthy.pageAt_written positive below page
  have same := sameRoles_setPage bpm frame page (bpm.pages frame).isDirty
  refine ⟨⟨free, cold, hot, settled.congr same⟩, serves.healthy.written (by simp) page,
    serves.healthyDisk, serves.pageCount, ?_, ?_⟩
  · intro other otherInside
    rw [pageAt]
    by_cases isFrame : other = frame
    · simp [BufferPoolManager.setPage, isFrame, holds]
    · intro otherValid
      have differ : (bpm.pages other).pageId ≠ pid :=
        fun samePid => isFrame (settled.unique found other otherInside samePid)
      simp only [BufferPoolManager.setPage, if_neg isFrame] at otherValid ⊢
      rw [if_neg differ]
      exact serves.resident other otherInside otherValid
  · intro other absent
    have absentBefore : ∀ holder < bpm.poolSize, (bpm.pages holder).pageId ≠ other := by
      intro holder holderInside
      have := absent holder holderInside
      rwa [same.pageId] at this
    have differ : other ≠ pid := fun isPid => absentBefore frame inside (holds.trans isPid.symm)
    rw [pageAt, if_neg differ]
    exact serves.stored other absentBefore

theorem SteadyServes.new (serves : SteadyServes ⟨bpm⟩ dm) :
    PagePool.newPage (SteadyPool.mk bpm) = .error .eviction ∨
      PagePool.newPage (SteadyPool.mk bpm) = .error .overflow ∧
        diskManagerAllocatePage dm = .error .overflow ∨
      ∃ after dm' frame, PagePool.newPage (SteadyPool.mk bpm) =
          .ok (after, some (dm.pageCount, frame)) ∧
        diskManagerAllocatePage dm = .ok (dm.pageCount.toInt, dm') ∧ SteadyServes after dm' ∧
        after.bpm.pageTable.hashmapGet dm.pageCount = some frame ∧
        (∀ other holder, bpm.pageTable.hashmapGet other = some holder →
          after.bpm.pageTable.hashmapGet other = some holder) ∧
        ∀ other, dm'.pageAt other =
          if other = dm.pageCount then some zeroPage else dm.pageAt other := by
  obtain ⟨free, cold, hot, settled⟩ := serves.settled
  by_cases empty : bpm.freeList.size = 0
  · exact .inl (if_pos empty)
  · refine .inr ?_
    have unblocked : PagePool.newPage (SteadyPool.mk bpm) =
        (bpmNewPage bpm >>= fun (bpm, created) => pure (⟨bpm⟩, created)) := if_neg empty
    rw [unblocked]
    rcases serves.healthy.allocate_next with ⟨overflow, wrapped⟩ |
      ⟨dm', allocated, healthy, grown, count, pageAt⟩
    · rcases serves.healthyDisk.allocate_next with ⟨overflow', _⟩ | ⟨_, _, _, grown, count, _⟩
      · refine .inl ⟨?_, overflow⟩
        simp only [bpmNewPage, overflow', bind, Except.bind]
      · rw [count, serves.pageCount] at grown
        exact absurd grown (Int32.lt_asymm wrapped)
    · rcases serves.healthyDisk.allocate_next with ⟨_, wrapped⟩ |
        ⟨disk, allocated', healthyDisk, _, count', diskAt⟩
      · rw [serves.pageCount] at wrapped
        exact absurd (count ▸ grown) (Int32.lt_asymm wrapped)
      · rw [serves.pageCount] at allocated' count' diskAt
        refine .inr ?_
        rw [settled.toFreeHolds.size] at empty
        obtain ⟨frame, rest, rfl⟩ := List.exists_cons_of_length_pos (Nat.pos_of_ne_zero empty)
        have now := settled.congr (sameRoles_withDisk bpm disk)
        have unheld := now.freeUnheld frame List.mem_cons_self
        obtain ⟨freeNodes, freeList, take, taken⟩ := now.toPoolSound.takeFrame_cons unheld
        have positive := serves.healthy.nonempty
        have nonneg : ¬ dm.pageCount.toInt < 0 := by
          have := Int32.lt_iff_toInt_lt.mp positive
          have zero : (0 : Int32).toInt = 0 := by decide
          omega
        have samePid : Int32.ofInt dm.pageCount.toInt = dm.pageCount :=
          Int32.ofInt_toInt dm.pageCount
        have valid : dm.pageCount ≠ invalidPageId := by
          intro same
          rw [same] at positive
          exact absurd positive (by decide)
        have freshPage : dm.pageAt dm.pageCount = none :=
          DiskManager.pageAt_outside fun inside => Int32.lt_irrefl inside.2
        have notResident : ∀ other < bpm.poolSize, (bpm.pages other).pageId ≠ dm.pageCount := by
          intro other inside samePage
          have present := serves.resident other inside (samePage.symm ▸ valid)
          rw [samePage, freshPage] at present
          exact absurd present (by simp)
        have missing : bpm.pageTable.hashmapGet dm.pageCount = none := settled.get_none notResident
        have below : dm.pageCount < disk.pageCount := by
          rw [count', ← count]
          exact grown
        have blank := healthyDisk.writePage (Int32.le_of_lt positive) below zeroPage
        have blankAt := healthyDisk.pageAt_written positive below zeroPage
        have created := bpmNewPage_taken allocated' nonneg take
        rw [samePid] at created
        have blank' : ((diskManagerWritePage dm.pageCount zeroPage).exec
            (withFree { bpm with diskManager := disk } freeNodes freeList).diskManager).2 =
              disk.written dm.pageCount zeroPage := congrArg Prod.snd blank
        rw [blank'] at created
        have valid' : (PageT.mk zeroPage dm.pageCount 1 false).pageId ≠ invalidPageId := valid
        have stays := now.install (disk.written dm.pageCount zeroPage) taken valid' (by simp)
          missing
        refine ⟨⟨_⟩, dm', frame, ?_, allocated, .install stays.1 healthy
          (healthyDisk.written (by simp) zeroPage) (count'.trans count.symm) ?_ ?_ ?_
          taken.frameInside, ?_, ?_, pageAt⟩
        · rw [created]
          rfl
        · rw [pageAt, if_pos rfl]
        · intro other inside _ held
          show dm'.pageAt (bpm.pages other).pageId = some (bpm.pages other).data
          rw [pageAt, if_neg (notResident other inside)]
          exact serves.resident other inside held
        · intro other differ absent
          show (disk.written dm.pageCount zeroPage).pageAt other = _
          rw [blankAt, if_neg differ, diskAt, if_neg differ, pageAt, if_neg differ]
          by_cases isInvalid : other = invalidPageId
          · subst isInvalid
            rw [DiskManager.pageAt_outside (fun inside => absurd inside.1 (by decide)),
              DiskManager.pageAt_outside (fun inside => absurd inside.1 (by decide))]
          · exact serves.stored other (stored_of_unheld isInvalid unheld absent)
        · show (Hashmap.hashmapPut _ _ frame).hashmapGet _ = _
          rw [Hashmap.hashmapGet_put]
          simp [pageKeys]
        · exact fun other holder shows => get_put_of_get missing shows

theorem setPage_same (bpm : BufferPoolManager) (frame : FrameId) :
    bpm.setPage frame (bpm.pages frame) = bpm := by
  have pages : (fun other => if other = frame then bpm.pages frame else bpm.pages other) =
      bpm.pages := by
    funext other
    split
    · rename_i same
      rw [same]
    · rfl
  unfold BufferPoolManager.setPage
  rw [pages]

/-- The real pool serves a file as long as it has free frames. -/
def steadyServing : Serving SteadyPool FrameId where
  Serves := SteadyServes
  Shows pool pid frame := pool.bpm.pageTable.hashmapGet pid = some frame
  healthy serves := serves.healthy
  data_eq := by
    intro pool dm pid frame serves found
    obtain ⟨free, cold, hot, settled⟩ := serves.settled
    obtain ⟨inside, holds, valid⟩ := settled.of_get found
    exact holds ▸ serves.resident frame inside (holds.symm ▸ valid)
  pageId_eq := by
    intro pool dm pid frame serves found
    obtain ⟨free, cold, hot, settled⟩ := serves.settled
    exact (settled.of_get found).2.1
  fetch pid _ serves present := serves.fetch_present present
  fetch_none pid serves absent notHeader := serves.fetch_missing absent notHeader
  unpin pid isDirty serves := by
    obtain ⟨after, unpinned, still, same⟩ := serves.unpin pid isDirty
    exact ⟨after, unpinned, still, fun _ _ shows => same ▸ shows⟩
  setData page serves found := ⟨serves.setData found page, fun _ _ shows => shows⟩
  setData_same := by
    intro pool dm pid frame _ _
    exact congrArg SteadyPool.mk (setPage_same pool.bpm frame)
  new serves := serves.new

end MiniSqlite.Buffer
