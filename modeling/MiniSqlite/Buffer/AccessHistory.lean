import MiniSqlite.Buffer.PoolContents

/-!
# Which pages the pool evicts

LRU-2 asks how often a page was used since it was loaded. `lru_replacer_pin`
frees the entry of a frame with its count, so that every unpin is the first one
to the replacer: its hot list stays empty and the pool evicts the page that was
unpinned longest ago. `AccessHistory` keeps beside the pool what LRU-2 needs to
know.
-/

namespace MiniSqlite.Buffer

open MiniSqlite.Common MiniSqlite.Std MiniSqlite.Storage

/-! ## Histories -/

/-- The pins of a page in the pool. -/
def pinsOf (bpm : BufferPoolManager) (pageId : PageId) : Option Nat :=
  (bpm.pageTable.hashmapGet pageId).map fun frameId => (bpm.pages frameId).pinCount

/-- The page lost its last pin. -/
def fullyUnpinned (before after : BufferPoolManager) (pageId : PageId) : Bool :=
  match pinsOf before pageId, pinsOf after pageId with
  | some (_ + 1), some 0 => true
  | _, _ => false

/-- How often each page lost its last pin since it was loaded, and when it last did. -/
structure AccessHistory where
  accesses : PageId → Nat
  lastUnpin : PageId → Nat
  clock : Nat

/-- The history after a call. -/
def AccessHistory.observe (history : AccessHistory) (before after : BufferPoolManager) :
    AccessHistory where
  accesses pageId :=
    if (pinsOf before pageId).isNone then 0
    else if fullyUnpinned before after pageId then history.accesses pageId + 1
    else history.accesses pageId
  lastUnpin pageId :=
    if fullyUnpinned before after pageId then history.clock else history.lastUnpin pageId
  clock := history.clock + 1

/-- A pool with its history. -/
structure TracedPool where
  bpm : BufferPoolManager
  history : AccessHistory

/-- The pool and its history after a call; a fault changes nothing. -/
def tracedStep (pool : TracedPool) (op : BpmOp) : TracedPool :=
  match bpmCall pool.bpm op with
  | .ok after => ⟨after, pool.history.observe pool.bpm after⟩
  | .error _ => pool

/-! ## LRU-2 -/

/-- The page is in the pool and nobody has pinned it. -/
abbrev Unpinned (bpm : BufferPoolManager) (pageId : PageId) : Prop := pinsOf bpm pageId = some 0

/-- The page was in the pool and is no more. -/
def Evicted (before after : BufferPoolManager) (pageId : PageId) : Prop :=
  pinsOf before pageId ≠ none ∧ pinsOf after pageId = none

/-- Both pages were used once, or both more often. -/
def AccessHistory.SameClass (history : AccessHistory) (first second : PageId) : Prop :=
  history.accesses first = 1 ∧ history.accesses second = 1 ∨
    2 ≤ history.accesses first ∧ 2 ≤ history.accesses second

/-- LRU-2 may choose the page: it was used once or no unpinned page was, and of the pages
like it none was unpinned before it. -/
structure Lru2Victim (pool : TracedPool) (victim : PageId) : Prop where
  unpinned : Unpinned pool.bpm victim
  spares : 2 ≤ pool.history.accesses victim →
    ∀ other, Unpinned pool.bpm other → pool.history.accesses other ≠ 1
  oldest : ∀ other, Unpinned pool.bpm other → pool.history.SameClass victim other →
    pool.history.lastUnpin victim ≤ pool.history.lastUnpin other

/-- A call evicts only what LRU-2 may choose. Page ids may run out. -/
def ObeysLru2 (pool : TracedPool) (op : BpmOp) : Prop :=
  match bpmCall pool.bpm op with
  | .ok after => ∀ victim, Evicted pool.bpm after victim → Lru2Victim pool victim
  | .error fault => fault = .overflow

/-! ## When the pool obeys -/

/-- The call needs a frame for a page, and gets one by an eviction. -/
def evictsFor (bpm : BufferPoolManager) : BpmOp → Bool
  | .fetch pageId => (bpm.pageTable.hashmapGet pageId).isNone && evicts bpm
  | .new =>
      match diskManagerAllocatePage bpm.diskManager with
      | .ok (newPid, _) => 0 ≤ newPid && evicts bpm
      | .error _ => false
  | _ => false

/-- The page a fetch evicts for can be read once the victim has been written back. -/
def readsAfterEviction (bpm : BufferPoolManager) (pageId : PageId) : Bool :=
  match evictPage bpm with
  | .ok (after, _) => ((diskManagerReadPage pageId).exec after.diskManager).1.isOk
  | .error _ => false

/-- A frame from the free list holds no page, a page that one was evicted for can be read,
and the disk manager gives no new page the id of one in the pool. -/
def undisturbed (bpm : BufferPoolManager) : BpmOp → Bool
  | .fetch pageId => (bpm.pageTable.hashmapGet pageId).isSome ||
      firstFreeUnheld bpm && (!evicts bpm || readsAfterEviction bpm pageId)
  | .new =>
      match diskManagerAllocatePage bpm.diskManager with
      | .ok (newPid, _) => newPid < 0 ||
          firstFreeUnheld bpm && (bpm.pageTable.hashmapGet (Int32.ofInt newPid)).isNone
      | .error _ => true
  | _ => true

/-- If a page is evicted, the unpinned page that was unpinned longest ago was used once, or no
unpinned page was used only once. -/
def OldestUsedOnce (pool : TracedPool) (op : BpmOp) : Prop :=
  evictsFor pool.bpm op = true → ∀ oldest, Unpinned pool.bpm oldest →
    (∀ other, Unpinned pool.bpm other →
      pool.history.lastUnpin oldest ≤ pool.history.lastUnpin other) →
    pool.history.accesses oldest = 1 ∨
      ∀ other, Unpinned pool.bpm other → pool.history.accesses other ≠ 1

/-! ## One call -/

variable {bpm after : BufferPoolManager} {frame : FrameId} {free cold : List FrameId}

/-- What a call does to the frames that wait for an eviction, most recent first. -/
inductive QueueStep (evicting : Prop) (bpm after : BufferPoolManager) (cold : List FrameId) :
    List FrameId → Prop where
  /-- Some frames leave, but all pages stay where they are. -/
  | kept {cold' : List FrameId} (spared : ¬evicting) (sublist : cold'.Sublist cold)
      (pages : ∀ frame, (bpm.pages frame).pageId ≠ invalidPageId →
        (after.pages frame).pageId = (bpm.pages frame).pageId) :
      QueueStep evicting bpm after cold cold'
  /-- A frame that was pinned enters. -/
  | entered {frame : FrameId} (spared : ¬evicting) (pinned : (bpm.pages frame).pinCount ≠ 0)
      (pages : ∀ frame, (after.pages frame).pageId = (bpm.pages frame).pageId) :
      QueueStep evicting bpm after cold (frame :: cold)
  /-- The frame that has waited longest gets another page. -/
  | evicted {victim : FrameId} (needed : evicting) (last : cold.getLast? = some victim)
      (gone : (after.pages victim).pageId ≠ (bpm.pages victim).pageId)
      (pages : ∀ frame ≠ victim, (after.pages frame).pageId = (bpm.pages frame).pageId) :
      QueueStep evicting bpm after cold (cold.erase victim)

/-- A call leaves a sound pool and moves its queue, or page ids run out. -/
def MovesQueue (evicting : Prop) (bpm : BufferPoolManager) (cold : List FrameId)
    (outcome : Except Fault BufferPoolManager) : Prop :=
  match outcome with
  | .ok after => after.poolSize = bpm.poolSize ∧ ∃ free' cold', PoolSound after free' cold' [] ∧
      QueueStep evicting bpm after cold cold'
  | .error fault => fault = .overflow ∧ ¬evicting

theorem MovesQueue.withDisk {evicting : Prop} {dm : DiskManager}
    (moves : MovesQueue evicting { bpm with diskManager := dm } cold (.ok after)) :
    MovesQueue evicting bpm cold (.ok after) := by
  obtain ⟨size, free', cold', sound, step⟩ := moves
  refine ⟨size, free', cold', sound, ?_⟩
  cases step with
  | kept spared sublist pages => exact .kept spared sublist pages
  | entered spared pinned pages => exact .entered spared pinned pages
  | evicted needed last gone pages => exact .evicted needed last gone pages

theorem installed_pageId (page : PageT) (other : FrameId) :
    ((installed bpm frame page).pages other).pageId =
      if other = frame then page.pageId else (bpm.pages other).pageId := by
  by_cases isFrame : other = frame <;> simp [installed, BufferPoolManager.setPage, isFrame]

/-- The pool finds the frame it will use, and what it has done by then. -/
inductive FrameFound (evicting : Prop) (bpm : BufferPoolManager) (cold : List FrameId) :
    Prop where
  | full (spared : ¬evicting) (found : takeFrame bpm = .ok (bpm, none))
  | free {middle : BufferPoolManager} {frame : FrameId} {rest : List FrameId} (spared : ¬evicting)
      (found : takeFrame bpm = .ok (middle, some frame)) (taken : FrameTaken middle frame rest cold [])
      (size : middle.poolSize = bpm.poolSize) (pages : middle.pages = bpm.pages)
      (table : middle.pageTable = bpm.pageTable)
      (spare : frame ∉ rest)
  | victim {middle : BufferPoolManager} {victim : FrameId} (needed : evicting)
      (found : takeFrame bpm = .ok (middle, some victim))
      (evicts : evictPage bpm = .ok (middle, some victim)) (last : cold.getLast? = some victim)
      (taken : FrameTaken middle victim [victim] (cold.erase victim) [])
      (size : middle.poolSize = bpm.poolSize)
      (pages : ∀ other ≠ victim, (middle.pages other).pageId = (bpm.pages other).pageId)
      (table : ∀ pid, bpm.pageTable.hashmapGet pid = none → middle.pageTable.hashmapGet pid = none)
      (held : bpm.pageTable.hashmapGet (bpm.pages victim).pageId ≠ none)

theorem PoolSound.frameFound (sound : PoolSound bpm free cold [])
    (unheld : firstFreeUnheld bpm = true) : FrameFound (evicts bpm = true) bpm cold := by
  cases free with
  | cons frame rest =>
      obtain ⟨freeNodes, freeList, take, taken⟩ :=
        sound.takeFrame_cons (sound.toFreeHolds.firstFreeUnheld_cons unheld)
      refine .free (fun evicting => ?_) take taken rfl rfl rfl
        (List.nodup_cons.mp sound.toFreeHolds.nodup).1
      exact absurd (sound.evicts_iff.mp evicting).1 (by simp)
  | nil =>
      cases victim : lruVictim cold [] with
      | none =>
          refine .full (fun evicting => ?_) (sound.takeFrame_none victim)
          obtain ⟨-, frame, some⟩ := sound.evicts_iff.mp evicting
          rw [victim] at some
          cases some
      | some frame =>
          obtain ⟨replacer, freeNodes, freeList, take, taken⟩ := sound.takeFrame_victim victim
          obtain ⟨inside, valid, -⟩ := (sound.candidateIff frame).mp (lruVictim_mem victim)
          have evicts : evictPage bpm =
              .ok (Buffer.withFree (Buffer.evicted bpm frame replacer) freeNodes freeList,
                some frame) := by
            rw [← take]
            simp only [takeFrame, sound.toFreeHolds.findFreeFrame_nil, bind, Except.bind]
          have last : cold.getLast? = some frame := by
            rw [lruVictim] at victim
            split at victim
            · rename_i found
              rw [found, Option.some.inj victim]
            · cases victim
          refine .victim (sound.evicts_iff.mpr ⟨rfl, frame, victim⟩) take evicts last taken
            (writeIfDirty_sameRoles { bpm with replacer := replacer } frame).poolSize
            (fun other differ => (evicted_other bpm replacer differ).1) (fun pid absent => ?_) ?_
          · have same := (writeIfDirty_sameRoles { bpm with replacer := replacer } frame).pageTable
            show ((writeIfDirty { bpm with replacer := replacer } frame).pageTable.hashmapRemove
              _).hashmapGet pid = none
            rw [Hashmap.hashmapGet_remove, same]
            split
            · rfl
            · exact absent
          · rw [(sound.tableIff _ frame).mpr ⟨inside, rfl, valid⟩]
            simp

/-- A page put into the frame that was found. -/
theorem FrameFound.install {evicting : Prop} {middle : BufferPoolManager} {page : PageT}
    {dm : DiskManager} (valid : page.pageId ≠ invalidPageId) (pinned : page.pinCount ≠ 0)
    (absent : bpm.pageTable.hashmapGet page.pageId = none)
    (found : FrameFound evicting bpm cold) (take : takeFrame bpm = .ok (middle, some frame)) :
    MovesQueue evicting bpm cold
      (.ok (installed { middle with diskManager := dm } frame page)) := by
  cases found with
  | full spared found => rw [found] at take; cases take
  | @free other holder rest spared found taken size pages table spare =>
      rw [found] at take
      cases take
      have withDisk := taken.congr (sameRoles_withDisk _ dm)
      refine ⟨size, _, _, withDisk.install valid pinned (by rw [← absent, ← table]), ?_⟩
      refine .kept spared (List.Sublist.refl _) fun other held => ?_
      rw [installed_pageId]
      dsimp only
      by_cases isFrame : other = frame
      · subst isFrame
        rw [← pages] at held
        exact absurd taken.unheld held
      · rw [if_neg isFrame, pages]
  | @victim other holder needed found evicts last taken size pages table held =>
      rw [found] at take
      cases take
      have withDisk := taken.congr (sameRoles_withDisk _ dm)
      refine ⟨size, _, _, withDisk.install valid pinned (table _ absent),
        .evicted needed last ?_ ?_⟩
      · rw [installed_pageId, if_pos rfl]
        intro same
        rw [same] at absent
        exact held absent
      · intro other differ
        rw [installed_pageId, if_neg differ]
        exact pages other differ

/-- Only the disk manager has changed. -/
theorem PoolSound.movesQueue_disk {evicting : Prop} (sound : PoolSound bpm free cold [])
    (spared : ¬evicting) (same : SameRoles bpm after) : MovesQueue evicting bpm cold (.ok after) :=
  ⟨same.poolSize, _, _, sound.congr same,
    .kept spared (List.Sublist.refl _) fun frame _ => same.pageId frame⟩

theorem PoolSound.fetch_moves (sound : PoolSound bpm free cold []) {pid : PageId}
    (still : undisturbed bpm (.fetch pid) = true) :
    MovesQueue (evictsFor bpm (.fetch pid) = true) bpm cold (bpmCall bpm (.fetch pid)) := by
  cases present : bpm.pageTable.hashmapGet pid with
  | some frame =>
      obtain ⟨replacer, fetched, now⟩ := sound.bpmFetchPage_hit present
      rw [bpmCall, fetched]
      exact ⟨rfl, _, _, now, .kept (by simp [evictsFor, present]) List.erase_sublist fun other _ =>
        repinned_pageId _ _ replacer other⟩
  | none =>
      obtain ⟨unheld, reads⟩ : firstFreeUnheld bpm = true ∧
          (evicts bpm = false ∨ readsAfterEviction bpm pid = true) := by
        simpa [undisturbed, present] using still
      have evicting : (evictsFor bpm (.fetch pid) = true) = (evicts bpm = true) := by
        simp [evictsFor, present]
      have found := sound.frameFound unheld
      rw [evicting]
      have whole := found
      cases found with
      | full spared full =>
          rw [bpmCall, bpmFetchPage_full present full]
          exact sound.movesQueue_disk spared (SameRoles.refl bpm)
      | @free middle frame rest spared take taken size pages table spare =>
          rcases read : (diskManagerReadPage pid).exec middle.diskManager with ⟨rc | data, dm⟩
          · obtain ⟨nodes, list, pushed, now⟩ :=
              (taken.congr (sameRoles_withDisk _ dm)).putBack spare
            rw [bpmCall, bpmFetchPage_unreadable present take read pushed]
            refine ⟨size, _, _, now, .kept spared (List.Sublist.refl _) fun other _ => ?_⟩
            exact congrArg (fun pages => (pages other).pageId) pages
          · rw [bpmCall, bpmFetchPage_read present take read]
            exact whole.install (diskManagerReadPage_valid read) (by simp) present take
      | @victim middle victim needed take evicts last taken size pages table held =>
          have readable := reads.resolve_left (by simp [needed])
          simp only [readsAfterEviction, evicts] at readable
          rcases read : (diskManagerReadPage pid).exec middle.diskManager with ⟨rc | data, dm⟩
          · rw [read] at readable
            cases readable
          · rw [bpmCall, bpmFetchPage_read present take read]
            exact whole.install (diskManagerReadPage_valid read) (by simp) present take

theorem PoolSound.new_moves (sound : PoolSound bpm free cold [])
    (still : undisturbed bpm .new = true) :
    MovesQueue (evictsFor bpm .new = true) bpm cold (bpmCall bpm .new) := by
  rw [undisturbed] at still
  rw [evictsFor]
  cases allocated : diskManagerAllocatePage bpm.diskManager with
  | error fault =>
      have failed : bpmCall bpm .new = .error fault := by
        simp only [bpmCall, bpmNewPage, allocated, bind, Except.bind, Except.map]
      rw [failed]
      exact ⟨diskManagerAllocatePage_error allocated, by simp⟩
  | ok result =>
      obtain ⟨newPid, dm⟩ := result
      simp only [allocated] at still
      have same := sameRoles_withDisk bpm dm
      by_cases negative : newPid < 0
      · rw [bpmCall, bpmNewPage_refused allocated negative]
        exact sound.movesQueue_disk (by simp [negative]) same
      · have nonneg : 0 ≤ newPid := by omega
        obtain ⟨unheld, absent⟩ : firstFreeUnheld bpm = true ∧
            bpm.pageTable.hashmapGet (Int32.ofInt newPid) = none := by
          simpa [negative] using still
        have evicting : ((decide (0 ≤ newPid) && evicts bpm) = true) = (evicts bpm = true) := by
          simp [nonneg]
        have now := sound.congr same
        have found := now.frameFound unheld
        simp only [evicting]
        have whole := found
        cases found with
        | full spared full =>
            rw [bpmCall, bpmNewPage_full allocated negative full]
            exact sound.movesQueue_disk spared (sameRoles_withDisk bpm _)
        | @free middle frame rest spared take taken size pages table spare =>
            rw [bpmCall, bpmNewPage_taken allocated negative take]
            exact (whole.install (diskManagerAllocatePage_valid allocated nonneg) (by simp) absent
              take).withDisk
        | @victim middle victim needed take evicts last taken size pages table held =>
            rw [bpmCall, bpmNewPage_taken allocated negative take]
            exact (whole.install (diskManagerAllocatePage_valid allocated nonneg) (by simp) absent
              take).withDisk

theorem PoolSound.unpin_moves (sound : PoolSound bpm free cold []) (pid : PageId)
    (isDirty : Bool) :
    MovesQueue (evictsFor bpm (.unpin pid isDirty) = true) bpm cold
      (bpmCall bpm (.unpin pid isDirty)) := by
  have spared : ¬evictsFor bpm (.unpin pid isDirty) = true := Bool.false_ne_true
  by_cases refused : ∀ frame, bpm.pageTable.hashmapGet pid = some frame →
      (bpm.pages frame).pinCount = 0
  · rw [bpmCall, bpmUnpinPage_refused isDirty refused]
    exact sound.movesQueue_disk spared (SameRoles.refl bpm)
  · push Not at refused
    obtain ⟨frame, found, pinned⟩ := refused
    by_cases last : (bpm.pages frame).pinCount - 1 = 0
    · obtain ⟨replacer, ran, now⟩ := sound.bpmUnpinPage_last isDirty found pinned last
      rw [bpmCall, ran]
      exact ⟨rfl, _, _, now, .entered spared pinned
        fun other => repinned_pageId _ _ replacer other⟩
    · obtain ⟨ran, now⟩ := sound.bpmUnpinPage_still isDirty found pinned last
      rw [bpmCall, ran]
      exact ⟨rfl, _, _, now, .kept spared (List.Sublist.refl _)
        fun other _ => repinned_pageId _ _ bpm.replacer other⟩

/-- Every call that is not disturbed leaves a sound pool and moves its queue. -/
theorem PoolSound.call_moves (sound : PoolSound bpm free cold []) {op : BpmOp}
    (still : undisturbed bpm op = true) :
    MovesQueue (evictsFor bpm op = true) bpm cold (bpmCall bpm op) := by
  cases op with
  | fetch pageId => exact sound.fetch_moves still
  | new => exact sound.new_moves still
  | unpin pageId isDirty => exact sound.unpin_moves pageId isDirty
  | flush pageId => exact sound.movesQueue_disk Bool.false_ne_true (bpmFlushPage_sameRoles bpm pageId)
  | flushAll => exact sound.movesQueue_disk Bool.false_ne_true (bpmFlushAll_sameRoles bpm)

/-! ## What the history says of the queue -/

theorem pinsOf_eq_some {pid : PageId} {pins : Nat} : pinsOf bpm pid = some pins ↔
    ∃ frame, bpm.pageTable.hashmapGet pid = some frame ∧ (bpm.pages frame).pinCount = pins :=
  Option.map_eq_some_iff

/-- The pages of the frames that wait are the unpinned ones. -/
theorem PoolSound.unpinned_iff (sound : PoolSound bpm free cold []) {pid : PageId} :
    Unpinned bpm pid ↔ ∃ frame ∈ cold, (bpm.pages frame).pageId = pid := by
  rw [Unpinned, pinsOf_eq_some]
  constructor
  · rintro ⟨frame, found, unpinned⟩
    obtain ⟨inside, holds, valid⟩ := sound.of_get found
    have member := (sound.candidateIff frame).mpr ⟨inside, holds.symm ▸ valid, unpinned⟩
    exact ⟨frame, by simpa using member, holds⟩
  · rintro ⟨frame, member, rfl⟩
    obtain ⟨inside, valid, unpinned⟩ :=
      (sound.candidateIff frame).mp (List.mem_append_left _ member)
    exact ⟨frame, (sound.tableIff _ frame).mpr ⟨inside, rfl, valid⟩, unpinned⟩

/-- The page is in the pool. -/
theorem PoolSound.pinsOf_ne_none (sound : PoolSound bpm free cold []) {pid : PageId} :
    pinsOf bpm pid ≠ none ↔
      pid ≠ invalidPageId ∧ ∃ frame < bpm.poolSize, (bpm.pages frame).pageId = pid := by
  rw [Option.ne_none_iff_exists']
  simp only [pinsOf_eq_some]
  constructor
  · rintro ⟨pins, frame, found, -⟩
    obtain ⟨inside, holds, valid⟩ := sound.of_get found
    exact ⟨valid, frame, inside, holds⟩
  · rintro ⟨valid, frame, inside, holds⟩
    exact ⟨_, frame, (sound.tableIff pid frame).mpr ⟨inside, holds, valid⟩, rfl⟩

variable {pool : TracedPool}

/-- The waiting frames are in the order of their last unpins, and their pages were used. -/
structure Traced (pool : TracedPool) (free cold : List FrameId) : Prop where
  sound : PoolSound pool.bpm free cold []
  ordered : cold.Pairwise fun first second =>
    pool.history.lastUnpin (pool.bpm.pages second).pageId <
      pool.history.lastUnpin (pool.bpm.pages first).pageId
  past : ∀ frame ∈ cold,
    pool.history.lastUnpin (pool.bpm.pages frame).pageId < pool.history.clock
  used : ∀ frame ∈ cold, 1 ≤ pool.history.accesses (pool.bpm.pages frame).pageId

/-- A page that nobody had pinned keeps its history. -/
theorem Traced.unchanged (traced : Traced pool free cold) (member : frame ∈ cold) :
    (pool.history.observe pool.bpm after).accesses (pool.bpm.pages frame).pageId =
        pool.history.accesses (pool.bpm.pages frame).pageId ∧
      (pool.history.observe pool.bpm after).lastUnpin (pool.bpm.pages frame).pageId =
        pool.history.lastUnpin (pool.bpm.pages frame).pageId := by
  have unpinned : pinsOf pool.bpm (pool.bpm.pages frame).pageId = some 0 :=
    traced.sound.unpinned_iff.mpr ⟨frame, member, rfl⟩
  have still : fullyUnpinned pool.bpm after (pool.bpm.pages frame).pageId = false := by
    rw [fullyUnpinned, unpinned]
  simp [AccessHistory.observe, unpinned, still]

/-- Frames that go on waiting keep their order. -/
theorem Traced.keep (traced : Traced pool free cold) {free' cold' : List FrameId}
    (sound : PoolSound after free' cold' []) (sublist : cold'.Sublist cold)
    (pages : ∀ frame ∈ cold', (after.pages frame).pageId = (pool.bpm.pages frame).pageId) :
    Traced ⟨after, pool.history.observe pool.bpm after⟩ free' cold' := by
  refine ⟨sound, ?_, fun frame member => ?_, fun frame member => ?_⟩
  · refine (traced.ordered.sublist sublist).imp_of_mem fun firstIn secondIn earlier => ?_
    dsimp only
    rw [pages _ firstIn, pages _ secondIn, (traced.unchanged (sublist.subset firstIn)).2,
      (traced.unchanged (sublist.subset secondIn)).2]
    exact earlier
  · dsimp only
    rw [pages frame member, (traced.unchanged (sublist.subset member)).2]
    exact Nat.lt_succ_of_lt (traced.past frame (sublist.subset member))
  · dsimp only
    rw [pages frame member, (traced.unchanged (sublist.subset member)).1]
    exact traced.used frame (sublist.subset member)

/-- A frame that enters was unpinned last. -/
theorem Traced.enter (traced : Traced pool free cold) {free' : List FrameId}
    (sound : PoolSound after free' (frame :: cold) [])
    (pinned : (pool.bpm.pages frame).pinCount ≠ 0)
    (size : after.poolSize = pool.bpm.poolSize)
    (pages : ∀ other, (after.pages other).pageId = (pool.bpm.pages other).pageId) :
    Traced ⟨after, pool.history.observe pool.bpm after⟩ free' (frame :: cold) := by
  obtain ⟨inside, valid, -⟩ := (sound.candidateIff frame).mp (by simp)
  rw [pages] at valid
  rw [size] at inside
  have before : pinsOf pool.bpm (pool.bpm.pages frame).pageId =
      some (pool.bpm.pages frame).pinCount :=
    pinsOf_eq_some.mpr ⟨frame, (traced.sound.tableIff _ frame).mpr ⟨inside, rfl, valid⟩, rfl⟩
  have now : pinsOf after (pool.bpm.pages frame).pageId = some 0 :=
    sound.unpinned_iff.mpr ⟨frame, List.mem_cons_self, pages frame⟩
  have lost : fullyUnpinned pool.bpm after (pool.bpm.pages frame).pageId = true := by
    obtain ⟨pins, more⟩ := Nat.exists_eq_succ_of_ne_zero pinned
    rw [fullyUnpinned, before, now, more]
    rfl
  have latest : (pool.history.observe pool.bpm after).lastUnpin (pool.bpm.pages frame).pageId =
      pool.history.clock := by
    simp [AccessHistory.observe, lost]
  have others : ∀ other ∈ cold, (pool.history.observe pool.bpm after).lastUnpin
      (after.pages other).pageId < pool.history.clock := by
    intro other member
    rw [pages, (traced.unchanged member).2]
    exact traced.past other member
  refine ⟨sound, List.pairwise_cons.mpr ⟨fun other member => ?_, ?_⟩, fun other member => ?_,
    fun other member => ?_⟩
  · dsimp only
    rw [pages frame, latest]
    exact others other member
  · refine traced.ordered.imp_of_mem fun firstIn secondIn earlier => ?_
    dsimp only
    rw [pages, pages, (traced.unchanged firstIn).2, (traced.unchanged secondIn).2]
    exact earlier
  · rcases List.mem_cons.mp member with rfl | member
    · dsimp only
      rw [pages, latest]
      exact Nat.lt_succ_self _
    · exact Nat.lt_succ_of_lt (others other member)
  · dsimp only
    rw [pages]
    rcases List.mem_cons.mp member with rfl | member
    · simp [AccessHistory.observe, before, lost]
    · rw [(traced.unchanged member).1]
      exact traced.used other member

/-- Every call that is not disturbed keeps the invariant. -/
theorem Traced.step (traced : Traced pool free cold) {op : BpmOp}
    (still : undisturbed pool.bpm op = true) :
    ∃ free' cold', Traced (tracedStep pool op) free' cold' := by
  have moves := traced.sound.call_moves still
  rw [tracedStep]
  cases called : bpmCall pool.bpm op with
  | error fault => exact ⟨free, cold, traced⟩
  | ok after =>
      rw [called] at moves
      obtain ⟨size, free', cold', sound, step⟩ := moves
      refine ⟨free', cold', ?_⟩
      cases step with
      | kept spared sublist pages =>
          refine traced.keep sound sublist fun frame member => pages frame ?_
          exact ((traced.sound.candidateIff frame).mp
            (List.mem_append_left _ (sublist.subset member))).2.1
      | entered spared pinned pages => exact traced.enter sound pinned size pages
      | @evicted victim needed last gone pages =>
          refine traced.keep sound List.erase_sublist fun frame member => pages frame ?_
          rintro rfl
          have nodup := (List.nodup_append.mp traced.sound.replacer.nodup).1
          exact (nodup.mem_erase_iff.mp member).1 rfl

/-- The last frame of an ordered queue comes behind every other. -/
theorem pairwise_getLast {α : Type} {related : α → α → Prop} {items : List α} {last item : α}
    (ordered : items.Pairwise related) (isLast : items.getLast? = some last) (member : item ∈ items)
    (differ : item ≠ last) : related item last := by
  obtain ⟨front, rfl⟩ := List.getLast?_eq_some_iff.mp isLast
  rcases List.mem_append.mp member with inFront | here
  · exact (List.pairwise_append.mp ordered).2.2 item inFront last (by simp)
  · exact absurd (List.mem_singleton.mp here) differ

/-- The page that waits longest is the only oldest one. -/
theorem Traced.oldest (traced : Traced pool free cold) {victim : FrameId}
    (last : cold.getLast? = some victim) {other : PageId} (unpinned : Unpinned pool.bpm other)
    (differ : other ≠ (pool.bpm.pages victim).pageId) :
    pool.history.lastUnpin (pool.bpm.pages victim).pageId < pool.history.lastUnpin other := by
  obtain ⟨frame, member, rfl⟩ := traced.sound.unpinned_iff.mp unpinned
  have earlier := pairwise_getLast traced.ordered last member fun same => differ (by rw [same])
  exact earlier

/-- LRU-2 may choose the page that waits longest if it was used once or no page was. -/
theorem Traced.lru2Victim_iff (traced : Traced pool free cold) {victim : FrameId}
    (last : cold.getLast? = some victim) :
    Lru2Victim pool (pool.bpm.pages victim).pageId ↔
      pool.history.accesses (pool.bpm.pages victim).pageId = 1 ∨
        ∀ other, Unpinned pool.bpm other → pool.history.accesses other ≠ 1 := by
  have member := List.mem_of_getLast? last
  have used := traced.used victim member
  constructor
  · intro chosen
    by_cases once : pool.history.accesses (pool.bpm.pages victim).pageId = 1
    · exact .inl once
    · exact .inr (chosen.spares (by omega))
  · intro condition
    refine ⟨traced.sound.unpinned_iff.mpr ⟨victim, member, rfl⟩, fun often => ?_,
      fun other unpinned _ => ?_⟩
    · exact condition.resolve_left (by omega)
    · by_cases same : other = (pool.bpm.pages victim).pageId
      · rw [same]
      · exact Nat.le_of_lt (traced.oldest last unpinned same)

/-- Pages stay in the pool where no frame is evicted. -/
theorem PoolSound.not_evicted {free' cold' : List FrameId} (sound : PoolSound bpm free cold [])
    (now : PoolSound after free' cold' []) (size : after.poolSize = bpm.poolSize)
    (pages : ∀ frame, (bpm.pages frame).pageId ≠ invalidPageId →
      (after.pages frame).pageId = (bpm.pages frame).pageId) (pid : PageId) :
    ¬Evicted bpm after pid := by
  rintro ⟨present, absent⟩
  obtain ⟨valid, frame, inside, rfl⟩ := sound.pinsOf_ne_none.mp present
  exact now.pinsOf_ne_none.mpr ⟨valid, frame, size ▸ inside, pages frame valid⟩ absent

/-- Exactly the page of the frame that waited longest is evicted. -/
theorem PoolSound.evicted_iff {free' cold' : List FrameId} {victim : FrameId}
    (sound : PoolSound bpm free cold []) (now : PoolSound after free' cold' [])
    (size : after.poolSize = bpm.poolSize) (last : cold.getLast? = some victim)
    (gone : (after.pages victim).pageId ≠ (bpm.pages victim).pageId)
    (pages : ∀ frame ≠ victim, (after.pages frame).pageId = (bpm.pages frame).pageId)
    (pid : PageId) : Evicted bpm after pid ↔ pid = (bpm.pages victim).pageId := by
  obtain ⟨inside, held, -⟩ :=
    (sound.candidateIff victim).mp (List.mem_append_left _ (List.mem_of_getLast? last))
  constructor
  · rintro ⟨present, absent⟩
    obtain ⟨valid, frame, frameInside, rfl⟩ := sound.pinsOf_ne_none.mp present
    by_cases isVictim : frame = victim
    · rw [isVictim]
    · exact absurd absent
        (now.pinsOf_ne_none.mpr ⟨valid, frame, size ▸ frameInside, pages frame isVictim⟩)
  · rintro rfl
    refine ⟨sound.pinsOf_ne_none.mpr ⟨held, victim, inside, rfl⟩, ?_⟩
    by_contra present
    obtain ⟨-, frame, frameInside, same⟩ := now.pinsOf_ne_none.mp present
    by_cases isVictim : frame = victim
    · exact gone (isVictim ▸ same)
    · have found := (sound.tableIff _ victim).mpr ⟨inside, rfl, held⟩
      rw [pages frame isVictim] at same
      exact isVictim (sound.unique found frame (size ▸ frameInside) same)

/-- A call that is not disturbed obeys LRU-2 exactly if the oldest page was used once or no
page was. -/
theorem Traced.obeys_iff (traced : Traced pool free cold) {op : BpmOp}
    (still : undisturbed pool.bpm op = true) : ObeysLru2 pool op ↔ OldestUsedOnce pool op := by
  have moves := traced.sound.call_moves still
  rw [ObeysLru2, OldestUsedOnce]
  cases called : bpmCall pool.bpm op with
  | error fault =>
      rw [called] at moves
      exact iff_of_true moves.1 fun evicts => absurd evicts moves.2
  | ok after =>
      rw [called] at moves
      obtain ⟨size, free', cold', sound, step⟩ := moves
      dsimp only
      cases step with
      | kept spared sublist pages =>
          exact iff_of_true (fun victim evicted =>
            absurd evicted (traced.sound.not_evicted sound size pages victim))
            fun evicts => absurd evicts spared
      | entered spared pinned pages =>
          exact iff_of_true (fun victim evicted =>
            absurd evicted (traced.sound.not_evicted sound size (fun frame _ => pages frame) victim))
            fun evicts => absurd evicts spared
      | @evicted victim needed last gone pages =>
          have evicted := traced.sound.evicted_iff sound size last gone pages
          have here := traced.sound.unpinned_iff.mpr ⟨victim, List.mem_of_getLast? last, rfl⟩
          simp only [evicted, forall_eq, traced.lru2Victim_iff last]
          constructor
          · intro condition _ oldest unpinned least
            by_cases same : oldest = (pool.bpm.pages victim).pageId
            · rw [same]
              exact condition
            · have earlier := traced.oldest last unpinned same
              have later := least _ here
              omega
          · intro condition
            refine condition needed _ here fun other unpinned => ?_
            by_cases same : other = (pool.bpm.pages victim).pageId
            · rw [same]
            · exact Nat.le_of_lt (traced.oldest last unpinned same)

/-- The history of a fresh pool. -/
def noAccesses : AccessHistory := ⟨fun _ => 0, fun _ => 0, 0⟩

/-- Along every run of a fresh pool that nothing disturbs, the pool obeys LRU-2 exactly if at
each eviction the page unpinned longest ago was used once or no unpinned page was. -/
theorem obeysLru2_iff_oldestUsedOnce (poolSize : Nat) (dm : DiskManager) {bpm : BufferPoolManager}
    (init : bpmInit poolSize dm = .ok bpm) {ops : List BpmOp}
    (still : EachStep tracedStep (fun pool op => undisturbed pool.bpm op = true)
      ⟨bpm, noAccesses⟩ ops) :
    EachStep tracedStep ObeysLru2 ⟨bpm, noAccesses⟩ ops ↔
      EachStep tracedStep OldestUsedOnce ⟨bpm, noAccesses⟩ ops := by
  obtain ⟨fresh, init', sound, -⟩ := bpmInit_sound poolSize dm
  rw [init] at init'
  cases init'
  have initial : ∃ free cold, Traced ⟨bpm, noAccesses⟩ free cold :=
    ⟨_, [], sound, .nil, by simp, by simp⟩
  refine @eachStep_iff_of_assumed _ _ tracedStep _ OldestUsedOnce ObeysLru2
    (fun pool => ∃ free cold, Traced pool free cold) ?_ ?_ _ _ initial still
  · rintro pool op ⟨free, cold, traced⟩ still -
    exact traced.step still
  · rintro pool op ⟨free, cold, traced⟩ still
    exact traced.obeys_iff still

/-- A page that a call loses is one that LRU-2 may choose. -/
theorem ObeysLru2.lost {op : BpmOp} (obeys : ObeysLru2 pool op) {pid : PageId}
    (present : (pinsOf pool.bpm pid).isSome)
    (absent : ((bpmCall pool.bpm op).toOption.map fun after => pinsOf after pid) = some none) :
    Lru2Victim pool pid := by
  rw [ObeysLru2] at obeys
  cases called : bpmCall pool.bpm op with
  | error fault =>
      rw [called] at absent
      cases absent
  | ok after =>
      rw [called] at obeys absent
      exact obeys pid ⟨Option.isSome_iff_ne_none.mp present, Option.some.inj absent⟩

/-- Two pages, the first used twice before the second was used once. -/
def twiceThenOnce : List BpmOp :=
  [.new, .unpin 1 false, .fetch 1, .unpin 1 false, .new, .unpin 2 false]

theorem obeysLru2_iff_oldestUsedOnce_twice : ∃ bpm, bpmInit 2 diskManagerCreate = .ok bpm ∧
    (EachStep tracedStep ObeysLru2 ⟨bpm, noAccesses⟩ (twiceThenOnce ++ [.new]) ↔
      EachStep tracedStep OldestUsedOnce ⟨bpm, noAccesses⟩ (twiceThenOnce ++ [.new])) :=
  ⟨_, rfl, obeysLru2_iff_oldestUsedOnce 2 diskManagerCreate rfl
    ⟨by decide +kernel, by decide +kernel, by decide +kernel, by decide +kernel,
      by decide +kernel, by decide +kernel, by decide +kernel, trivial⟩⟩

/-- The page used twice is evicted for a third one. -/
theorem usedTwice_evicted : ¬∀ (poolSize : Nat) (dm : DiskManager) (bpm : BufferPoolManager)
    (ops : List BpmOp), bpmInit poolSize dm = .ok bpm →
      EachStep tracedStep ObeysLru2 ⟨bpm, noAccesses⟩ ops := by
  intro claimed
  have steps := eachStep_append.mp (claimed 2 diskManagerCreate _ (twiceThenOnce ++ [.new]) rfl)
  have chosen := @ObeysLru2.lost _ _ steps.2.1 1 (by decide +kernel) (by decide +kernel)
  exact chosen.spares (by decide +kernel) 2 (by decide +kernel) (by decide +kernel)

end MiniSqlite.Buffer
