import MiniSqlite.Buffer.AllocatedPages
import MiniSqlite.Buffer.PoolServes

/-!
# Counting pins

`PinCounting` is what the three calls of a pool do to the pin counts of its pages, and to
what a fetch would show. The real pool keeps to it as long as it has free frames, over a
file from which no page was given back: the pages given back are those for which
`bpm_new_page` found no frame.
-/

namespace MiniSqlite.Buffer

open MiniSqlite.Common MiniSqlite.Std MiniSqlite.Storage

open PagePool (fetchPage newPage unpinPage data setData)

/-- The pins after one more of a page. -/
def pinned (pins : PageId → Nat) (pid : PageId) : PageId → Nat :=
  Function.update pins pid (pins pid + 1)

/-- The pins after one fewer of a page. -/
def unpinned (pins : PageId → Nat) (pid : PageId) : PageId → Nat :=
  Function.update pins pid (pins pid - 1)

@[simp] theorem unpinned_pinned (pins : PageId → Nat) (pid : PageId) :
    unpinned (pinned pins pid) pid = pins := by
  simp [unpinned, pinned]

theorem pinned_ne (pins : PageId → Nat) (pid : PageId) : pinned pins pid ≠ pins := by
  intro same
  have here := congrFun same pid
  simp [pinned] at here

/-- A page pinned before another and unpinned after it. -/
theorem unpinned_pinned_comm (pins : PageId → Nat) (pid other : PageId) :
    unpinned (pinned (pinned pins pid) other) pid = pinned pins other := by
  funext page
  by_cases first : page = pid
  · subst first
    by_cases second : page = other
    · subst second
      simp [unpinned, pinned]
    · simp [unpinned, pinned, second]
  · by_cases second : page = other
    · subst second
      simp [unpinned, pinned, first]
    · simp [unpinned, pinned, first, second]

/-- The pins of a pool's pages, and what a fetch of a page would show. A page is fetched
if and only if it would be shown. -/
structure PinCounting (Pool Frame : Type) [PagePool Pool Frame] where
  Sound : Pool → Prop
  pins : Pool → PageId → Nat
  shown : Pool → PageId → Option Page
  fetch_none : ∀ {pool after pid}, Sound pool → fetchPage pool pid = .ok (after, none) →
    Sound after ∧ shown after = shown pool ∧ pins after = pins pool ∧ shown pool pid = none
  fetch_some : ∀ {pool after pid frame}, Sound pool →
    fetchPage pool pid = .ok (after, some frame) →
    Sound after ∧ shown after = shown pool ∧ pins after = pinned (pins pool) pid ∧
      shown pool pid = some (data after frame)
  new_none : ∀ {pool after}, Sound pool → newPage pool = .ok (after, none) →
    Sound after ∧ pins after = pins pool
  /-- A new page had no pins and has one. -/
  new_some : ∀ {pool after pid frame}, Sound pool → newPage pool = .ok (after, some (pid, frame)) →
    Sound after ∧ pins pool pid = 0 ∧ pins after = pinned (pins pool) pid
  unpin : ∀ {pool after pid isDirty}, Sound pool → unpinPage pool pid isDirty = .ok after →
    Sound after ∧ shown after = shown pool ∧ pins after = unpinned (pins pool) pid
  setData : ∀ {pool} frame page, Sound pool →
    Sound (PagePool.setData pool frame page) ∧ pins (PagePool.setData pool frame page) = pins pool

/-! ## The real pool without evictions -/

/-- The pin count of a page: that of its frame, and none without a frame. -/
def BufferPoolManager.pinCount (bpm : BufferPoolManager) (pid : PageId) : Nat :=
  match bpm.pageTable.hashmapGet pid with
  | some frame => (bpm.pages frame).pinCount
  | none => 0

/-- What a fetch of a page shows: the bytes in its frame, or those on disk. -/
def BufferPoolManager.shown (bpm : BufferPoolManager) (pid : PageId) : Option Page :=
  match bpm.pageTable.hashmapGet pid with
  | some frame => some (bpm.pages frame).data
  | none => ((diskManagerReadPage pid).exec bpm.diskManager).1.toOption

/-- The structures of the pool agree, and no page of the file was given back. -/
def SteadyPool.Sound (pool : SteadyPool) : Prop :=
  (∃ free cold hot, Settled pool.bpm free cold hot) ∧ FreedKept pool.bpm []

variable {bpm : BufferPoolManager} {frame : FrameId}

/-- Another record in the frame of a page changes the pins of this page only. -/
theorem pinCount_setPage (sound : ∃ free cold hot, Settled bpm free cold hot) {pid : PageId}
    (found : bpm.pageTable.hashmapGet pid = some frame) (page : PageT) (replacer : LruReplacer) :
    (repinned bpm frame page replacer).pinCount =
      Function.update bpm.pinCount pid page.pinCount := by
  obtain ⟨free, cold, hot, settled⟩ := sound
  obtain ⟨inside, holds, valid⟩ := settled.of_get found
  funext other
  show (match bpm.pageTable.hashmapGet other with
    | some holder => ((bpm.setPage frame page).pages holder).pinCount
    | none => 0) = _
  by_cases same : other = pid
  · subst same
    simp [found, BufferPoolManager.setPage]
  · rw [Function.update_of_ne same]
    unfold BufferPoolManager.pinCount
    cases elsewhere : bpm.pageTable.hashmapGet other with
    | none => rfl
    | some holder =>
        have differ : holder ≠ frame := by
          rintro rfl
          exact same ((settled.of_get elsewhere).2.1.symm.trans holds)
        simp [BufferPoolManager.setPage, differ]

theorem shown_repinned (pinCount : Nat) (isDirty : Bool) (replacer : LruReplacer) :
    (repinned bpm frame { bpm.pages frame with pinCount := pinCount, isDirty := isDirty }
      replacer).shown = bpm.shown := by
  funext other
  show (match bpm.pageTable.hashmapGet other with
    | some holder => some ((bpm.setPage frame _).pages holder).data
    | none => _) = _
  unfold BufferPoolManager.shown
  cases bpm.pageTable.hashmapGet other with
  | none => rfl
  | some holder =>
      by_cases same : holder = frame <;> simp [BufferPoolManager.setPage, same]

/-- A page put into a free frame has one pin, and is shown as it was if it was read. -/
theorem pinCount_installed {middle : BufferPoolManager} {free cold hot : List FrameId}
    (settled : Settled bpm free cold hot) (unheld : (bpm.pages frame).pageId = invalidPageId)
    (pages : middle.pages = bpm.pages) (table : middle.pageTable = bpm.pageTable) {pid : PageId}
    (absent : bpm.pageTable.hashmapGet pid = none) (page : Page) :
    (installed middle frame ⟨page, pid, 1, false⟩).pinCount = pinned bpm.pinCount pid ∧
      ∀ other ≠ pid, (installed middle frame ⟨page, pid, 1, false⟩).shown other =
        { bpm with diskManager := middle.diskManager }.shown other := by
  have get : ∀ other, (installed middle frame ⟨page, pid, 1, false⟩).pageTable.hashmapGet other =
      if other = pid then some frame else bpm.pageTable.hashmapGet other := by
    intro other
    show (Hashmap.hashmapPut _ pid frame).hashmapGet other = _
    rw [Hashmap.hashmapGet_put, table]
    simp [pageKeys, eq_comm]
  have elsewhere : ∀ other holder, bpm.pageTable.hashmapGet other = some holder →
      (installed middle frame ⟨page, pid, 1, false⟩).pages holder = bpm.pages holder := by
    intro other holder found
    have differ : holder ≠ frame := by
      rintro rfl
      exact (settled.of_get found).2.2 ((settled.of_get found).2.1.symm.trans unheld)
    simp [installed, BufferPoolManager.setPage, differ, pages]
  constructor
  · funext other
    unfold BufferPoolManager.pinCount pinned
    rw [get]
    by_cases same : other = pid
    · subst same
      simp [absent, installed, BufferPoolManager.setPage]
    · rw [if_neg same, Function.update_of_ne same]
      cases found : bpm.pageTable.hashmapGet other with
      | none => rfl
      | some holder => exact congrArg PageT.pinCount (elsewhere other holder found)
  · intro other differ
    unfold BufferPoolManager.shown
    rw [get, if_neg differ]
    dsimp only
    cases found : bpm.pageTable.hashmapGet other with
    | none => rfl
    | some holder => exact congrArg (fun page => some (PageT.data page)) (elsewhere other holder found)

/-- What a fetch that returns does to a sound pool. -/
def FetchCounted (pool after : SteadyPool) (pid : PageId) (fetched : Option FrameId) : Prop :=
  after.Sound ∧ after.bpm.shown = pool.bpm.shown ∧
    match fetched with
    | none => after.bpm.pinCount = pool.bpm.pinCount ∧ pool.bpm.shown pid = none
    | some frame => after.bpm.pinCount = pinned pool.bpm.pinCount pid ∧
        pool.bpm.shown pid = some (after.bpm.pages frame).data

/-- A fetch of a page in the pool. -/
theorem SteadyPool.Sound.fetch_hit {pool : SteadyPool} (sound : pool.Sound) {pid : PageId}
    {after : BufferPoolManager} {fetched : Option FrameId}
    (found : pool.bpm.pageTable.hashmapGet pid = some frame)
    (called : bpmFetchPage pool.bpm pid = .ok (after, fetched)) :
    FetchCounted pool ⟨after⟩ pid fetched := by
  obtain ⟨⟨free, cold, hot, settled⟩, kept⟩ := sound
  obtain ⟨inside, holds, valid⟩ := settled.of_get found
  obtain ⟨replacer, fetches, sound⟩ := settled.toPoolSound.bpmFetchPage_hit found
  rw [fetches] at called
  obtain ⟨rfl, rfl⟩ := Prod.mk.inj (Except.ok.inj called)
  have stays : Settled _ free _ _ := ⟨sound, fun other member =>
    (repinned_pageId _ _ replacer other).trans (settled.freeUnheld other member)⟩
  refine ⟨⟨⟨free, _, _, stays⟩, ?_⟩, shown_repinned _ _ replacer, ?_, ?_⟩
  · exact kept.bpmFetchPage (by simp) fetches
  · rw [pinCount_setPage ⟨free, cold, hot, settled⟩ found, pinned]
    simp [BufferPoolManager.pinCount, found]
  · simp [BufferPoolManager.shown, found, repinned, BufferPoolManager.setPage]

/-- A fetch that needs a free frame. -/
theorem SteadyPool.Sound.fetch_miss {pool : SteadyPool} (sound : pool.Sound) {pid : PageId}
    {after : BufferPoolManager} {fetched : Option FrameId}
    (missing : pool.bpm.pageTable.hashmapGet pid = none) (roomy : pool.bpm.freeList.size ≠ 0)
    (called : bpmFetchPage pool.bpm pid = .ok (after, fetched)) :
    FetchCounted pool ⟨after⟩ pid fetched := by
  obtain ⟨⟨free, cold, hot, settled⟩, kept⟩ := sound
  rw [settled.toFreeHolds.size] at roomy
  obtain ⟨frame, rest, rfl⟩ := List.exists_cons_of_length_pos (Nat.pos_of_ne_zero roomy)
  have unheld := settled.freeUnheld frame List.mem_cons_self
  obtain ⟨freeNodes, freeList, take, taken⟩ := settled.toPoolSound.takeFrame_cons unheld
  have keptAfter := kept.bpmFetchPage (by simp) called
  rcases kept.healthy.exec_read pid with unreadable | ⟨_, page, read⟩
  · have notFree := (List.nodup_cons.mp settled.toFreeHolds.nodup).1
    obtain ⟨nodes, list, pushed, sound⟩ := taken.putBack notFree
    rw [bpmFetchPage_unreadable missing take unreadable pushed] at called
    obtain ⟨rfl, rfl⟩ := Prod.mk.inj (Except.ok.inj called)
    have stays : Settled _ (rest ++ [frame]) cold hot := ⟨sound, fun other member =>
      settled.freeUnheld other (by simpa [or_comm] using member)⟩
    refine ⟨⟨⟨_, cold, hot, stays⟩, keptAfter⟩, rfl, rfl, ?_⟩
    simp [BufferPoolManager.shown, missing, unreadable, Except.toOption]
  · rw [bpmFetchPage_read missing take read] at called
    obtain ⟨rfl, rfl⟩ := Prod.mk.inj (Except.ok.inj called)
    have valid : (PageT.mk page pid 1 false).pageId ≠ invalidPageId :=
      diskManagerReadPage_valid read
    obtain ⟨pins, others⟩ := @pinCount_installed _ _ (withFree pool.bpm freeNodes freeList) _ _ _
      settled unheld rfl rfl _ missing page
    have here : pool.bpm.shown pid = some page := by
      simp [BufferPoolManager.shown, missing, read, Except.toOption]
    refine ⟨⟨(settled.install pool.bpm.diskManager taken valid (by simp) missing).1, keptAfter⟩, ?_,
      pins, ?_⟩
    · funext other
      by_cases same : other = pid
      · subst same
        rw [here]
        have get : (Hashmap.hashmapPut pool.bpm.pageTable other frame).hashmapGet other =
            some frame := by
          rw [Hashmap.hashmapGet_put]
          simp [pageKeys]
        show (match (Hashmap.hashmapPut pool.bpm.pageTable other frame).hashmapGet other with
          | some holder => some _
          | none => _) = _
        rw [get]
        simp [installed, BufferPoolManager.setPage]
      · exact others other same
    · rw [here]
      simp [installed, BufferPoolManager.setPage]

/-- A fetch on the pool that is assumed not to evict. -/
theorem SteadyPool.Sound.fetch {pool after : SteadyPool} (sound : pool.Sound) {pid : PageId}
    {fetched : Option FrameId} (called : fetchPage pool pid = .ok (after, fetched)) :
    FetchCounted pool after pid fetched := by
  change (if _ then _ else _) = _ at called
  split at called
  · cases called
  · rename_i spared
    obtain ⟨⟨bpm, frame⟩, fetches, returned⟩ := Returning.returned called
    obtain ⟨rfl, rfl⟩ := Prod.mk.inj (Except.ok.inj returned)
    cases found : pool.bpm.pageTable.hashmapGet pid with
    | some frame => exact sound.fetch_hit found fetches
    | none => exact sound.fetch_miss found (fun full => spared ⟨found, full⟩) fetches

/-- A new page. -/
theorem SteadyPool.Sound.new {pool : SteadyPool} (sound : pool.Sound) {after : BufferPoolManager}
    {created : Option (PageId × FrameId)} (roomy : pool.bpm.freeList.size ≠ 0)
    (called : bpmNewPage pool.bpm = .ok (after, created)) :
    SteadyPool.Sound ⟨after⟩ ∧ ∃ pid frame, created = some (pid, frame) ∧
      pool.bpm.pinCount pid = 0 ∧ after.pinCount = pinned pool.bpm.pinCount pid := by
  obtain ⟨⟨free, cold, hot, settled⟩, kept⟩ := sound
  rw [settled.toFreeHolds.size] at roomy
  obtain ⟨frame, rest, rfl⟩ := List.exists_cons_of_length_pos (Nat.pos_of_ne_zero roomy)
  obtain ⟨⟨newPid, dm⟩, allocated, -⟩ := Returning.returned called
  obtain ⟨pid, freed, rfl, allocates⟩ := kept.healthy.allocates allocated
  obtain rfl : freed = [] := List.subset_nil.mp allocates.sublist
  have nonneg : ¬ pid.toInt < 0 := by
    have positive := Int32.lt_iff_toInt_lt.mp allocates.positive
    have zero : (0 : Int32).toInt = 0 := by decide
    omega
  have valid : pid ≠ invalidPageId := by
    rintro rfl
    exact absurd allocates.positive (by decide)
  have missing : pool.bpm.pageTable.hashmapGet pid = none :=
    settled.get_none fun other _ same => allocates.new (same ▸ kept.kept other)
  have now := settled.congr (sameRoles_withDisk pool.bpm dm)
  have unheld := settled.freeUnheld frame List.mem_cons_self
  obtain ⟨freeNodes, freeList, take, taken⟩ := now.toPoolSound.takeFrame_cons unheld
  have creates := bpmNewPage_taken allocated nonneg take
  rw [called, Int32.ofInt_toInt] at creates
  obtain ⟨rfl, rfl⟩ := Prod.mk.inj (Except.ok.inj creates)
  have moved : FreedKept { pool.bpm with diskManager := dm } [] :=
    ⟨allocates.healthy, fun other => (allocates.pages _).mpr (.inr (kept.kept other))⟩
  obtain ⟨written, count⟩ := allocates.healthy.exec_write allocates.notMem zeroPage
  have blank := @FreedKept.setPage _ _ moved ⟨zeroPage, pid, 1, false⟩ frame allocates.below (by simp)
  refine ⟨⟨(now.install _ taken valid (by simp) missing).1, written, fun other => ?_⟩, pid, frame,
    rfl, by simp [BufferPoolManager.pinCount, missing],
    (@pinCount_installed _ _ _ _ _ _ settled unheld rfl rfl _ missing zeroPage).1⟩
  show _ < ((diskManagerWritePage pid zeroPage).exec dm).2.pageCount ∧ _
  rw [count]
  exact blank.kept other

/-- A new page on the pool that is assumed not to evict. -/
theorem SteadyPool.Sound.newPage {pool after : SteadyPool} (sound : pool.Sound)
    {created : Option (PageId × FrameId)} (called : PagePool.newPage pool = .ok (after, created)) :
    after.Sound ∧ ∃ pid frame, created = some (pid, frame) ∧
      pool.bpm.pinCount pid = 0 ∧ after.bpm.pinCount = pinned pool.bpm.pinCount pid := by
  change (if _ then _ else _) = _ at called
  split at called
  · cases called
  · rename_i roomy
    obtain ⟨⟨bpm, created'⟩, creates, returned⟩ := Returning.returned called
    obtain ⟨rfl, rfl⟩ := Prod.mk.inj (Except.ok.inj returned)
    exact sound.new roomy creates

/-- An unpin, of a page that is pinned or not. -/
theorem SteadyPool.Sound.unpin {pool : SteadyPool} (sound : pool.Sound) {pid : PageId}
    {isDirty : Bool} {after : BufferPoolManager} {rc : Int}
    (called : bpmUnpinPage pool.bpm pid isDirty = .ok (after, rc)) :
    SteadyPool.Sound ⟨after⟩ ∧ after.shown = pool.bpm.shown ∧
      after.pinCount = unpinned pool.bpm.pinCount pid := by
  obtain ⟨⟨free, cold, hot, settled⟩, kept⟩ := sound
  obtain ⟨-, keptAfter⟩ := kept.bpmUnpinPage called
  by_cases refused : ∀ frame, pool.bpm.pageTable.hashmapGet pid = some frame →
      (pool.bpm.pages frame).pinCount = 0
  · rw [bpmUnpinPage_refused isDirty refused] at called
    obtain ⟨rfl, -⟩ := Prod.mk.inj (Except.ok.inj called)
    have unheld : pool.bpm.pinCount pid = 0 := by
      unfold BufferPoolManager.pinCount
      cases found : pool.bpm.pageTable.hashmapGet pid with
      | none => rfl
      | some frame => exact refused frame found
    refine ⟨⟨⟨free, cold, hot, settled⟩, keptAfter⟩, rfl, ?_⟩
    rw [unpinned, unheld, Nat.zero_sub, ← unheld, Function.update_eq_self]
  · push Not at refused
    obtain ⟨frame, found, pins⟩ := refused
    obtain ⟨replacer, cold', hot', unpins, sound⟩ :=
      settled.toPoolSound.bpmUnpinPage_pinned isDirty found pins
    rw [unpins] at called
    obtain ⟨rfl, -⟩ := Prod.mk.inj (Except.ok.inj called)
    have stays : Settled _ free cold' hot' := ⟨sound, fun other member =>
      (repinned_pageId _ _ replacer other).trans (settled.freeUnheld other member)⟩
    refine ⟨⟨⟨free, cold', hot', stays⟩, keptAfter⟩, shown_repinned _ _ replacer, ?_⟩
    rw [pinCount_setPage ⟨free, cold, hot, settled⟩ found, unpinned]
    simp [BufferPoolManager.pinCount, releasedPage, found]

/-- The real pool counts pins as long as it has free frames. -/
def steadyPins : PinCounting SteadyPool FrameId where
  Sound := SteadyPool.Sound
  pins pool := pool.bpm.pinCount
  shown pool := pool.bpm.shown
  fetch_none sound called := by
    obtain ⟨sound, shown, pins, absent⟩ := sound.fetch called
    exact ⟨sound, shown, pins, absent⟩
  fetch_some sound called := by
    obtain ⟨sound, shown, pins, present⟩ := sound.fetch called
    exact ⟨sound, shown, pins, present⟩
  new_none sound called := by
    obtain ⟨_, _, _, created, _⟩ := sound.newPage called
    cases created
  new_some sound called := by
    obtain ⟨sound, _, _, created, fresh, pins⟩ := sound.newPage called
    cases created
    exact ⟨sound, fresh, pins⟩
  unpin sound called := by
    obtain ⟨⟨bpm, rc⟩, unpins, returned⟩ := Returning.returned called
    obtain rfl := Except.ok.inj returned
    exact sound.unpin unpins
  setData := by
    rintro pool frame page ⟨⟨free, cold, hot, settled⟩, kept⟩
    have same := sameRoles_setPage pool.bpm frame page (pool.bpm.pages frame).isDirty
    have written := @FreedKept.setPage _ _ kept { pool.bpm.pages frame with data := page } frame
      (kept.kept frame).1 (kept.kept frame).2
    refine ⟨⟨⟨free, cold, hot, settled.congr same⟩, written⟩, ?_⟩
    funext pid
    show (match pool.bpm.pageTable.hashmapGet pid with
      | some holder => ((pool.bpm.setPage frame _).pages holder).pinCount
      | none => 0) = _
    unfold BufferPoolManager.pinCount
    cases pool.bpm.pageTable.hashmapGet pid with
    | none => rfl
    | some holder => exact same.pinCount holder

end MiniSqlite.Buffer
