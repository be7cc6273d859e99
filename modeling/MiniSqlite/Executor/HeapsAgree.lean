import MiniSqlite.Buffer.PoolServes
import MiniSqlite.Executor.BpmHeapScan
import MiniSqlite.Std.Lockstep
import MiniSqlite.Storage.HeapFile

/-!
# The two heap implementations in lockstep

A heap over a pool that serves the pages of a file goes through the same motions
as the heap file over that file. Each function has one lemma that compares the
two; `heapCalls_lockstep` puts them together for a whole call.
-/

namespace MiniSqlite.Executor

open MiniSqlite.Common MiniSqlite.Std MiniSqlite.Storage MiniSqlite.Buffer

open PagePool (fetchPage newPage unpinPage data setData)

variable {Pool Frame : Type} [PagePool Pool Frame] (serving : Serving Pool Frame)
variable {pool : Pool} {dm : DiskManager}

/-- What a heap over a pool may do that a heap file cannot. -/
def Evicts (fault : Fault) : Prop := fault = .eviction

/-- The two heaps have the same pages. -/
structure Agree (bh : BpmHeap Pool) (hf : HeapFile) : Prop where
  serves : serving.Serves bh.bpm hf.dm
  first : bh.firstPageId = hf.firstPageId

theorem loadPage_present {pid : PageId} {page : Page} (healthy : Healthy dm [])
    (present : dm.pageAt pid = some page) : (loadPage pid).exec dm = (.ok page, dm) := by
  simp only [loadPage, pageAlloc, DiskM.exec_bind, exec_mayFail healthy.reliable,
    healthy.read_pageAt present]

theorem loadPage_missing {pid : PageId} (healthy : Healthy dm []) (absent : dm.pageAt pid = none)
    (notHeader : pid ≠ 0) : (loadPage pid).exec dm = (.error .pageNotFound, dm) := by
  simp only [loadPage, pageAlloc, DiskM.exec_bind, exec_mayFail healthy.reliable,
    healthy.readPage_missing (healthy.pageAt_missing absent notHeader)]

variable {serving}

/-- A page found by both heaps, or by neither. -/
def SameFound (serving : Serving Pool Frame) (pool : Pool) (dm : DiskManager) :
    Except ErrorCode (Option (PageId × Frame)) → Except ErrorCode (Option (PageId × Page)) → Prop
  | .ok none, .ok none => True
  | .ok (some (pid, frame)), .ok (some (other, pageBuf)) =>
      pid = other ∧ serving.Shows pool pid frame ∧ dm.pageAt pid = some pageBuf
  | _, _ => False

/-- The search loops find the same page. -/
theorem searchPages_lockstep {current : PageId} {chain : List PageId}
    (chained : Chained dm.pageAt current chain) (serves : serving.Serves pool dm)
    (tupleSize turns : Nat) :
    Lockstep Evicts
      (fun found other => serving.Serves found.1 dm ∧ other.1 = dm ∧
        SameFound serving found.1 dm found.2 other.2)
      (searchPages tupleSize turns pool current)
      (HeapFile.searchPages tupleSize turns dm current) := by
  induction turns generalizing pool current chain with
  | zero => exact .error _
  | succ turns ih =>
      rw [searchPages, HeapFile.searchPages]
      cases chain with
      | nil =>
          rw [if_pos (show current = invalidPageId from chained),
            if_pos (show current = invalidPageId from chained)]
          exact .ok ⟨serves, rfl, trivial⟩
      | cons head rest =>
          obtain ⟨rfl, page, present, next⟩ := chained
          have valid := DiskManager.pageAt_valid present
          rw [if_neg valid, if_neg valid, loadPage_present (serving.healthy serves) present]
          rcases serving.fetch current serves present with
            evicted | ⟨after, frame, fetched, still, shows, _⟩
          · rw [evicted]
            exact .excused rfl
          · rw [fetched]
            have same := serving.data_eq still shows
            rw [present, Option.some.injEq] at same
            simp only [bind, Except.bind, ← same]
            by_cases room : slottedPageFreeSpace page ≥ tupleSize + slotSize
            · rw [if_pos room, if_pos room]
              exact .ok ⟨still, rfl, rfl, shows, present⟩
            · rw [if_neg room, if_neg room]
              obtain ⟨later, unpinned, serves', _⟩ := serving.unpin current false still
              rw [unpinned]
              exact ih next serves'

/-- The linking loops change the last page of the chain alike. -/
theorem linkLast_lockstep {last : PageId} {chain : List PageId}
    (chained : Chained dm.pageAt last chain) (nonempty : chain ≠ []) (newPid : PageId)
    (serves : serving.Serves pool dm) (turns : Nat) :
    Lockstep Evicts
      (fun linked other => serving.Serves linked.1 other.1 ∧ linked.2 = .ok ∧ other.2 = .ok () ∧
        (∀ pid frame, serving.Shows pool pid frame → serving.Shows linked.1 pid frame) ∧
        ∀ pid, pid ∉ chain → other.1.pageAt pid = dm.pageAt pid)
      (linkLast newPid turns pool last) (HeapFile.linkLast newPid turns dm last) := by
  induction turns generalizing pool last chain with
  | zero => exact .error _
  | succ turns ih =>
      rw [linkLast, HeapFile.linkLast]
      cases chain with
      | nil => exact absurd rfl nonempty
      | cons head rest =>
          obtain ⟨rfl, page, present, next⟩ := chained
          have healthy := serving.healthy serves
          rw [healthy.read_pageAt present]
          rcases serving.fetch last serves present with
            evicted | ⟨after, frame, fetched, still, shows, kept⟩
          · rw [evicted]
            exact .excused rfl
          · rw [fetched]
            have same := serving.data_eq still shows
            rw [present, Option.some.injEq] at same
            simp only [bind, Except.bind, ← same]
            cases rest with
            | nil =>
                have ended : pageHeaderGetNextPage page = invalidPageId := next
                rw [if_pos ended, if_pos ended, healthy.write_pageAt present]
                obtain ⟨written, keptWriting⟩ :=
                  serving.setData (pageHeaderSetNextPage page newPid) still shows
                obtain ⟨later, unpinned, serves', keptUnpinning⟩ := serving.unpin last true written
                rw [unpinned]
                refine .ok ⟨serves', rfl, rfl, ?_, ?_⟩
                · exact fun pid holder held =>
                    keptUnpinning pid holder (keptWriting pid holder (kept pid holder held))
                · intro pid absent
                  obtain ⟨positive, below, _⟩ := DiskManager.pageAt_inside present
                  rw [healthy.pageAt_written positive below, if_neg (by simpa using absent)]
            | cons second rest =>
                have continues : pageHeaderGetNextPage page ≠ invalidPageId := by
                  obtain ⟨isSecond, _, secondPresent, _⟩ := next
                  rw [isSecond]
                  exact DiskManager.pageAt_valid secondPresent
                rw [if_neg continues, if_neg continues]
                obtain ⟨later, unpinned, serves', keptUnpinning⟩ := serving.unpin last false still
                rw [unpinned]
                refine (ih next (by simp) serves').mono ?_
                rintro linked other ⟨served, ok, ok', shown, others⟩
                refine ⟨served, ok, ok', ?_, ?_⟩
                · exact fun pid holder held =>
                    shown pid holder (keptUnpinning pid holder (kept pid holder held))
                · exact fun pid absent =>
                    others pid fun member => absent (List.mem_cons_of_mem _ member)

/-- Setting up and storing a page that was just allocated. -/
theorem newPage_lockstep (serves : serving.Serves pool dm) :
    Lockstep Evicts
      (fun created other => ∃ frame, created.2 = some (dm.pageCount, frame) ∧
        other.1 = dm.pageCount.toInt ∧ 0 < dm.pageCount ∧
        serving.Serves created.1 other.2 ∧ serving.Shows created.1 dm.pageCount frame ∧
        data created.1 frame = zeroPage ∧
        other.2.pageAt dm.pageCount = some zeroPage ∧
        ∀ pid page, dm.pageAt pid = some page →
          pid ≠ dm.pageCount ∧ other.2.pageAt pid = some page)
      (newPage pool) (diskManagerAllocatePage dm) := by
  rcases serving.new serves with evicted | ⟨overflow, overflow'⟩ |
    ⟨after, dm', frame, created, allocated, still, shows, _, pageAt⟩
  · rw [evicted]
    exact .excused rfl
  · rw [overflow, overflow']
    exact .error _
  · rw [created, allocated]
    have blank : dm'.pageAt dm.pageCount = some zeroPage := by rw [pageAt, if_pos rfl]
    have shown := serving.data_eq still shows
    rw [blank, Option.some.injEq] at shown
    refine .ok ⟨frame, rfl, rfl, (serving.healthy serves).nonempty, still, shows, shown.symm,
      blank, ?_⟩
    intro pid page present
    have differ : pid ≠ dm.pageCount := by
      rintro rfl
      exact Int32.lt_irrefl (DiskManager.pageAt_inside present).2.1
    exact ⟨differ, by rw [pageAt, if_neg differ, present]⟩

/-- Both heaps have a first page afterwards. -/
theorem ensureFirstPage_lockstep {bh : BpmHeap Pool} {hf : HeapFile} {chain : List PageId}
    (agree : Agree serving bh hf) (chained : Chained hf.dm.pageAt hf.firstPageId chain) :
    Lockstep Evicts
      (fun ensured other => Agree serving ensured.1 other.1 ∧ ensured.2 = .ok ∧
        other.2 = ErrorCode.ok.code ∧
        ∃ chain', chain' ≠ [] ∧ Chained other.1.dm.pageAt other.1.firstPageId chain')
      (ensureFirstPage bh) hf.ensureFirstPage := by
  unfold ensureFirstPage HeapFile.ensureFirstPage
  rw [agree.first]
  by_cases present : hf.firstPageId ≠ invalidPageId
  · rw [if_pos present, if_pos present]
    refine .ok ⟨agree, rfl, rfl, chain, ?_, chained⟩
    rintro rfl
    exact present chained
  · rw [if_neg present, if_neg present]
    refine (newPage_lockstep agree.serves).bind ?_
    rintro ⟨bpm, created⟩ ⟨pid, dm⟩ ⟨frame, rfl, rfl, positive, still, shows, blank, zeroed, _⟩
    have nonneg : ¬ hf.dm.pageCount.toInt < 0 :=
      Int.not_lt.mpr (Int32.le_iff_toInt_le.mp (Int32.le_of_lt positive))
    have healthy := serving.healthy still
    obtain ⟨written, _⟩ :=
      serving.setData (slottedPageInit zeroPage hf.dm.pageCount) still shows
    obtain ⟨later, unpinned, serves, _⟩ := serving.unpin hf.dm.pageCount true written
    dsimp only at blank zeroed nonneg still shows written unpinned ⊢
    rw [blank, unpinned, if_neg nonneg, Int32.ofInt_toInt]
    simp only [DiskM.exec_bind, loadPage_present healthy zeroed, healthy.write_pageAt zeroed]
    obtain ⟨_, below, _⟩ := DiskManager.pageAt_inside zeroed
    refine .ok ⟨⟨serves, rfl⟩, rfl, rfl, [hf.dm.pageCount], by simp, rfl,
      slottedPageInit zeroPage hf.dm.pageCount, ?_, getNextPage_init _ _⟩
    rw [healthy.pageAt_written positive below, if_pos rfl]

/-- A new page is stored and read back. -/
theorem storeNewPage_exec {pid : PageId} {page : Page} (healthy : Healthy dm [])
    (present : dm.pageAt pid = some page) :
    (HeapFile.storeNewPage pid).exec dm =
      (.ok (slottedPageInit zeroPage pid), dm.written pid (slottedPageInit zeroPage pid)) := by
  obtain ⟨positive, below, _⟩ := DiskManager.pageAt_inside present
  have stored : (dm.written pid (slottedPageInit zeroPage pid)).pageAt pid =
      some (slottedPageInit zeroPage pid) := by
    rw [healthy.pageAt_written positive below, if_pos rfl]
  simp only [HeapFile.storeNewPage, pageAlloc, DiskM.exec_bind, exec_mayFail healthy.reliable,
    healthy.write_pageAt present, (healthy.written (by simp) _).read_pageAt stored]

/-- Both heaps find a page, the same one with the same bytes. -/
theorem findPageWithSpace_lockstep {bh : BpmHeap Pool} {hf : HeapFile} {chain : List PageId}
    (agree : Agree serving bh hf) (chained : Chained hf.dm.pageAt hf.firstPageId chain)
    (tupleSize : Nat) :
    Lockstep Evicts
      (fun found other => Agree serving found.1 other.1 ∧
        ∃ pid frame pageBuf, found.2 = .ok (pid, frame) ∧
          other.2 = ((pid.toInt, some pageBuf) : Int × Option Page) ∧
          serving.Shows found.1.bpm pid frame ∧ other.1.dm.pageAt pid = some pageBuf)
      (findPageWithSpace bh tupleSize) (hf.findPageWithSpace tupleSize) := by
  unfold findPageWithSpace HeapFile.findPageWithSpace
  refine (ensureFirstPage_lockstep agree chained).bind ?_
  rintro ⟨bh, rc⟩ ⟨hf, code⟩ ⟨⟨serves, first⟩, rfl, rfl, chain, nonempty, chained⟩
  dsimp only at serves first chained ⊢
  rw [if_neg (by simp), if_neg (by simp), first]
  refine (searchPages_lockstep chained serves tupleSize maxPages).bind ?_
  rintro ⟨bpm, found⟩ ⟨dm, other⟩ ⟨serves, rfl, same⟩
  dsimp only at serves same ⊢
  match found, other, same with
  | .ok (some (pid, frame)), .ok (some (_, pageBuf)), ⟨rfl, shows, present⟩ =>
      exact .ok ⟨⟨serves, rfl⟩, pid, frame, pageBuf, rfl, rfl, shows, present⟩
  | .ok none, .ok none, _ =>
      refine (newPage_lockstep serves).bind ?_
      rintro ⟨bpm, created⟩ ⟨pid, dm⟩ ⟨frame, rfl, rfl, positive, still, shows, blank, zeroed, kept⟩
      have nonneg : ¬ hf.dm.pageCount.toInt < 0 :=
        Int.not_lt.mpr (Int32.le_iff_toInt_le.mp (Int32.le_of_lt positive))
      have healthy := serving.healthy still
      obtain ⟨newBuf, isNew⟩ : ∃ newBuf, newBuf = slottedPageInit zeroPage hf.dm.pageCount :=
        ⟨_, rfl⟩
      obtain ⟨written, showsWritten⟩ := serving.setData newBuf still shows
      obtain ⟨_, below, _⟩ := DiskManager.pageAt_inside zeroed
      have pageAt := healthy.pageAt_written positive below newBuf
      have stored : (dm.written hf.dm.pageCount newBuf).pageAt hf.dm.pageCount = some newBuf := by
        rw [pageAt, if_pos rfl]
      have healthyStored := serving.healthy written
      have rechained : Chained (dm.written hf.dm.pageCount newBuf).pageAt hf.firstPageId chain := by
        refine chained.congr fun pid _ page present => ⟨page, ?_, rfl⟩
        obtain ⟨differ, present'⟩ := kept pid page present
        rw [pageAt, if_neg differ, present']
      have absent : hf.dm.pageCount ∉ chain := by
        intro member
        obtain ⟨page, present⟩ := chained.used member
        exact (kept _ page present).1 rfl
      dsimp only at blank zeroed nonneg still shows written ⊢
      rw [blank, if_neg nonneg, Int32.ofInt_toInt, storeNewPage_exec healthy zeroed, ← isNew]
      simp only [pageAlloc, exec_mayFail healthyStored.reliable]
      refine (linkLast_lockstep rechained nonempty hf.dm.pageCount written maxPages).bind ?_
      rintro ⟨bpm', rc⟩ ⟨dm', linked⟩ ⟨serves', rfl, rfl, shown, others⟩
      dsimp only at serves' shown others ⊢
      rw [if_neg (by simp)]
      exact .ok ⟨⟨serves', rfl⟩, hf.dm.pageCount, frame, newBuf, rfl, rfl,
        shown _ _ (showsWritten _ _ shows), (others _ absent).trans stored⟩

/-! ## The operations -/

/-- Both heaps after a call that returned the same on both. -/
def SameAnswer (serving : Serving Pool Frame) (bh : BpmHeap Pool × HeapResult)
    (hf : HeapFile × HeapResult) : Prop :=
  bh.2 = hf.2 ∧ Agree serving bh.1 hf.1

theorem insert_lockstep {bh : BpmHeap Pool} {hf : HeapFile} {chain : List PageId}
    (agree : Agree serving bh hf) (chained : Chained hf.dm.pageAt hf.firstPageId chain)
    (tuple : List UInt8) :
    Lockstep Evicts (SameAnswer serving) (bpmHeapInsert bh tuple) (heapFileInsert hf tuple) := by
  unfold bpmHeapInsert heapFileInsert
  by_cases empty : tuple.length = 0
  · rw [if_pos empty, if_pos empty]
    exact .ok ⟨rfl, agree⟩
  · rw [if_neg empty, if_neg empty]
    refine (findPageWithSpace_lockstep agree chained tuple.length).bind ?_
    rintro ⟨⟨bpm, _⟩, found⟩ ⟨hf, other⟩
      ⟨⟨serves, rfl⟩, pid, frame, pageBuf, rfl, rfl, shows, present⟩
    have same := serving.data_eq serves shows
    rw [present, Option.some.injEq] at same
    obtain ⟨positive, _, _⟩ := DiskManager.pageAt_inside present
    have nonneg : ¬ pid.toInt < 0 :=
      Int.not_lt.mpr (Int32.le_iff_toInt_le.mp (Int32.le_of_lt positive))
    have noError : ¬ (slottedPageInsert pageBuf tuple).2 < 0 :=
      Int.not_lt.mpr (slottedPageInsert_nonneg pageBuf tuple)
    have healthy := serving.healthy serves
    obtain ⟨written, _⟩ := serving.setData (slottedPageInsert pageBuf tuple).1 serves shows
    obtain ⟨later, unpinned, serves', _⟩ := serving.unpin pid true written
    dsimp only at same unpinned ⊢
    rw [← same, if_neg nonneg, if_neg noError, if_neg noError, Int32.ofInt_toInt,
      healthy.write_pageAt present, unpinned]
    exact .ok ⟨rfl, serves', rfl⟩

theorem changeTuple_lockstep {bh : BpmHeap Pool} {hf : HeapFile}
    (agree : Agree serving bh hf) {rid : Rid} (notHeader : rid.pageId ≠ 0)
    {change : Page → Page × ErrorCode}
    (failed : ∀ page, (change page).2 ≠ .ok → (change page).1 = page) :
    Lockstep Evicts (SameAnswer serving) (changeTuple bh rid change)
      (.ok (hf.changeTuple rid change)) := by
  unfold changeTuple HeapFile.changeTuple
  by_cases bad : badRid rid = true
  · rw [if_pos bad, if_pos bad]
    exact .ok ⟨rfl, agree⟩
  · rw [if_neg bad, if_neg bad]
    have healthy := serving.healthy agree.serves
    cases present : hf.dm.pageAt rid.pageId with
    | none =>
        rw [loadPage_missing healthy present notHeader]
        rcases serving.fetch_none rid.pageId agree.serves present notHeader with
          evicted | ⟨after, fetched, still⟩
        · rw [evicted]
          exact .excused rfl
        · rw [fetched]
          exact .ok ⟨rfl, still, agree.first⟩
    | some pageBuf =>
        rw [loadPage_present healthy present]
        rcases serving.fetch rid.pageId agree.serves present with
          evicted | ⟨after, frame, fetched, still, shows, _⟩
        · rw [evicted]
          exact .excused rfl
        · have same := serving.data_eq still shows
          rw [present, Option.some.injEq] at same
          rw [fetched]
          simp only [bind, Except.bind, ← same]
          by_cases ok : (change pageBuf).2 = .ok
          · obtain ⟨written, _⟩ := serving.setData (change pageBuf).1 still shows
            obtain ⟨later, unpinned, serves, _⟩ := serving.unpin rid.pageId true written
            rw [if_neg (not_not.mpr ok), decide_eq_true ok, ok, unpinned, healthy.write_pageAt present]
            exact .ok ⟨rfl, serves, agree.first⟩
          · obtain ⟨later, unpinned, serves, _⟩ := serving.unpin rid.pageId false still
            rw [if_pos ok, failed pageBuf ok, decide_eq_false ok]
            rw [same, serving.setData_same still shows, unpinned]
            exact .ok ⟨rfl, serves, agree.first⟩

theorem get_lockstep {bh : BpmHeap Pool} {hf : HeapFile} (agree : Agree serving bh hf) {rid : Rid}
    (notHeader : rid.pageId ≠ 0) :
    Lockstep Evicts (SameAnswer serving) (bpmHeapCall bh (.get rid))
      (.ok (heapFileGet hf rid)) := by
  simp only [bpmHeapCall, bpmHeapGet, heapFileGet]
  by_cases bad : badRid rid = true
  · rw [if_pos bad, if_pos bad]
    exact .ok ⟨rfl, agree⟩
  · rw [if_neg bad, if_neg bad]
    have healthy := serving.healthy agree.serves
    cases present : hf.dm.pageAt rid.pageId with
    | none =>
        rw [loadPage_missing healthy present notHeader]
        rcases serving.fetch_none rid.pageId agree.serves present notHeader with
          evicted | ⟨after, fetched, still⟩
        · rw [evicted]
          exact .excused rfl
        · rw [fetched]
          exact .ok ⟨rfl, still, agree.first⟩
    | some pageBuf =>
        rw [loadPage_present healthy present]
        rcases serving.fetch rid.pageId agree.serves present with
          evicted | ⟨after, frame, fetched, still, shows, _⟩
        · rw [evicted]
          exact .excused rfl
        · have same := serving.data_eq still shows
          rw [present, Option.some.injEq] at same
          obtain ⟨later, unpinned, serves, _⟩ := serving.unpin rid.pageId false still
          rw [fetched]
          simp only [bind, Except.bind, ← same]
          cases slottedPageGet pageBuf rid.slotId with
          | error rc =>
              simp only [unpinned]
              exact .ok ⟨rfl, serves, agree.first⟩
          | ok bytes =>
              simp only [pure, Except.pure, bpmHeapReleaseGet, serving.pageId_eq still shows,
                unpinned, bind, Except.bind]
              exact .ok ⟨rfl, serves, agree.first⟩

/-! ## The iterators -/

/-- The iterators stand at the same slot of the same page. -/
def SameIter (serving : Serving Pool Frame) (pool : Pool) (dm : DiskManager)
    (it : BpmHeapIter Frame) (other : HeapIter) : Prop :=
  it.currentPageId = other.currentPageId ∧
    match it.currentPage, other.pageBuf with
    | none, none => True
    | some frame, some pageBuf => it.currentSlot = other.currentSlot ∧
        serving.Shows pool it.currentPageId frame ∧ dm.pageAt it.currentPageId = some pageBuf
    | _, _ => False

/-- Both iterators read the page they stand at. -/
theorem loadCurrent_lockstep {it : BpmHeapIter Frame} {other : HeapIter}
    (serves : serving.Serves pool dm) (same : SameIter serving pool dm it other) {page : Page}
    (present : dm.pageAt it.currentPageId = some page) :
    pinCurrent pool it = .error .eviction ∨ ∃ after frame slot,
      pinCurrent pool it = .ok (after, some (frame, slot)) ∧
        loadCurrent dm other = (.ok (page, slot), dm) ∧ serving.Serves after dm ∧
        serving.Shows after it.currentPageId frame := by
  obtain ⟨samePage, loaded⟩ := same
  unfold pinCurrent loadCurrent
  match pinned : it.currentPage, buffered : other.pageBuf, loaded with
  | none, none, _ =>
      rcases serving.fetch it.currentPageId serves present with
        evicted | ⟨after, frame, fetched, still, shows, _⟩
      · exact .inl (by rw [evicted]; rfl)
      · refine .inr ⟨after, frame, 0, by rw [fetched]; rfl, ?_, still, shows⟩
        dsimp only
        rw [← samePage, loadPage_present (serving.healthy serves) present]
  | some frame, some pageBuf, ⟨sameSlot, shows, held⟩ =>
      rw [held, Option.some.injEq] at present
      exact .inr ⟨pool, frame, it.currentSlot, rfl, by rw [present, sameSlot], serves, shows⟩

theorem iterNext_lockstep {it : BpmHeapIter Frame} {other : HeapIter} {chain : List PageId}
    (serves : serving.Serves pool dm) (chained : Chained dm.pageAt it.currentPageId chain)
    (same : SameIter serving pool dm it other) (turns : Nat) :
    Lockstep Evicts
      (fun next following => serving.Serves next.1 dm ∧ following.1 = dm ∧
        SameIter serving next.1 dm next.2.1 following.2.1 ∧ next.2.2 = following.2.2 ∧
        ∃ chain', Chained dm.pageAt next.2.1.currentPageId chain')
      (bpmHeapIterNext turns pool it) (heapIterNext turns dm other) := by
  induction turns generalizing pool it other chain with
  | zero => exact .error _
  | succ turns ih =>
      rw [bpmHeapIterNext, heapIterNext, ← same.1]
      cases chain with
      | nil =>
          have ended : it.currentPageId = invalidPageId := chained
          rw [if_pos ended, if_pos ended]
          exact .ok ⟨serves, rfl, same, rfl, [], chained⟩
      | cons head rest =>
          obtain ⟨here, page, present, next⟩ := id chained
          rw [← here] at present
          have valid := DiskManager.pageAt_valid present
          rw [if_neg valid, if_neg valid]
          rcases loadCurrent_lockstep serves same present with
            evicted | ⟨after, frame, slot, pinned, loaded, still, shows⟩
          · rw [evicted]
            exact .excused rfl
          · have data := serving.data_eq still shows
            rw [present, Option.some.injEq] at data
            rw [pinned, loaded]
            simp only [bind, Except.bind, ← data]
            cases nextLiveSlot page (pageHeaderGetNumTuples page - slot) slot with
            | some live =>
                exact .ok ⟨still, rfl, ⟨rfl, rfl, shows, present⟩, rfl, head :: rest, chained⟩
            | none =>
                obtain ⟨later, unpinned, serves', _⟩ := serving.unpin it.currentPageId false still
                simp only [unpinned]
                exact ih serves' next ⟨rfl, trivial⟩

theorem iterRows_lockstep {it : BpmHeapIter Frame} {other : HeapIter} {chain : List PageId}
    (serves : serving.Serves pool dm) (chained : Chained dm.pageAt it.currentPageId chain)
    (same : SameIter serving pool dm it other) (turns : Nat) :
    Lockstep Evicts
      (fun rows others => serving.Serves rows.1 dm ∧ others.1 = dm ∧ rows.2.2 = others.2)
      (iterRows turns pool it) (heapIterRows turns dm other) := by
  induction turns generalizing pool it other chain with
  | zero => exact .error _
  | succ turns ih =>
      rw [iterRows, heapIterRows]
      refine (iterNext_lockstep serves chained same maxPages).bind ?_
      rintro ⟨after, next, outcome⟩ ⟨_, following, _⟩ ⟨still, rfl, sameNext, rfl, _, rest⟩
      dsimp only at still sameNext rest ⊢
      cases outcome with
      | error rc => exact .ok ⟨still, rfl, rfl⟩
      | ok row =>
          refine (ih still rest sameNext).bind ?_
          rintro ⟨later, last, more, rc⟩ ⟨_, _, _⟩ ⟨served, rfl, sameRows⟩
          obtain ⟨rfl, rfl⟩ := Prod.mk.inj sameRows
          exact .ok ⟨served, rfl, rfl⟩

theorem scan_lockstep {bh : BpmHeap Pool} {hf : HeapFile} {chain : List PageId}
    (agree : Agree serving bh hf) (chained : Chained hf.dm.pageAt hf.firstPageId chain) :
    Lockstep Evicts (SameAnswer serving) (bpmHeapScan bh) (heapFileScan hf) := by
  unfold bpmHeapScan heapFileScan
  have start : Chained hf.dm.pageAt bh.firstPageId chain := agree.first.symm ▸ chained
  have same : SameIter serving bh.bpm hf.dm (bpmHeapIterInit bh) (heapIterInit hf) :=
    ⟨agree.first, trivial⟩
  refine (iterRows_lockstep agree.serves start same maxRids).bind ?_
  rintro ⟨pool, it, rows, rc⟩ ⟨dm, _, _⟩ ⟨serves, (sameDisk : dm = hf.dm), sameRows⟩
  obtain ⟨rfl, rfl⟩ := Prod.mk.inj sameRows
  subst sameDisk
  dsimp only at serves ⊢
  unfold bpmHeapIterDestroy
  cases it.currentPage with
  | none => exact .ok ⟨rfl, serves, agree.first⟩
  | some frame =>
      obtain ⟨later, unpinned, serves', _⟩ := serving.unpin it.currentPageId false serves
      simp only [unpinned]
      exact .ok ⟨rfl, serves', agree.first⟩

/-- Any call does the same on both heaps. -/
theorem heapCalls_lockstep {bh : BpmHeap Pool} {hf : HeapFile} {chain : List PageId}
    (agree : Agree serving bh hf) (chained : Chained hf.dm.pageAt hf.firstPageId chain)
    {op : HeapOp} (notHeader : ∀ rid, op.rid? = some rid → rid.pageId ≠ 0) :
    Lockstep Evicts (SameAnswer serving) (bpmHeapCall bh op) (heapFileCall hf op) := by
  cases op with
  | insert tuple => exact insert_lockstep agree chained tuple.1
  | delete rid =>
      exact changeTuple_lockstep agree (notHeader rid rfl) fun _ => slottedPageDelete_failed
  | update rid newData =>
      show Lockstep _ _ (bpmHeapUpdate bh rid newData.1) (.ok (heapFileUpdate hf rid newData.1))
      unfold bpmHeapUpdate heapFileUpdate
      by_cases empty : newData.1.length = 0
      · rw [if_pos empty, if_pos empty]
        exact .ok ⟨rfl, agree⟩
      · rw [if_neg empty, if_neg empty]
        exact changeTuple_lockstep agree (notHeader rid rfl) fun _ => slottedPageUpdate_failed
  | get rid => exact get_lockstep agree (notHeader rid rfl)
  | scan => exact scan_lockstep agree chained

end MiniSqlite.Executor
