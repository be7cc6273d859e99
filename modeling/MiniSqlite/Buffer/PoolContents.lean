import MiniSqlite.Buffer.PoolClients

/-!
# The pool as a map from page ids to bytes

Clients of a pool on a disk without failures read what was last written, as long
as no page is put into a frame that still holds another one. `evict_page` leaves
such a frame on the free list, so this ends with the first miss after an
eviction.
-/

namespace MiniSqlite.Buffer

open MiniSqlite.Common MiniSqlite.Std MiniSqlite.Storage

/-- What every client sees through the pointers it holds. -/
structure ShowsContents (system : PoolSystem) : Prop where
  shows : ∀ entry ∈ system.clients.held,
    system.clients.content entry.1 = some (system.bpm.pages entry.2).data
  apart : ∀ first ∈ system.clients.held, ∀ second ∈ system.clients.held,
    first.2 = second.2 → first.1 = second.1

/-- What a step promises beyond that: a fetch gives the bytes last written, and after a
flush of all pages they are on disk. -/
def Promised (before : PoolClients) (after : PoolSystem) (fetched : Option FrameId) :
    ClientOp → Prop
  | .fetch pageId => ∀ frame, fetched = some frame →
      before.content pageId = some (after.bpm.pages frame).data
  | .flushAll => ∀ pageId bytes, before.content pageId = some bytes →
      after.bpm.diskManager.file.page pageId = some bytes
  | _ => True

/-- The step ends as it would with a map from page ids to bytes, unless page ids
have run out. -/
def ActsAsMap (system : PoolSystem) (op : ClientOp) : Prop :=
  match clientCall system op with
  | .ok (after, fetched) => ShowsContents after ∧ Promised system.clients after fetched op
  | .error fault => fault = .overflow

/-- A frame taken from the free list now would hold no page. -/
def firstFreeUnheld (bpm : BufferPoolManager) : Bool :=
  match (freeFrames bpm).head? with
  | some frame => (bpm.pages frame).pageId == invalidPageId
  | none => true

/-- The file does not have the page. -/
def notInFile (bpm : BufferPoolManager) (pageId : PageId) : Bool :=
  pageId < 0 || bpm.diskManager.pageCount ≤ pageId

/-- A page that is not in the pool gets a frame without a page, and no page is evicted
for one that the file does not have. Clients keep to pages of their own, hold what
they use, and report what they wrote before the last unpin or a flush of all pages. -/
def usesUnheldFrames (system : PoolSystem) : ClientOp → Bool
  | .fetch pageId => (system.bpm.pageTable.hashmapGet pageId).isSome ||
      firstFreeUnheld system.bpm && ((system.clients.content pageId).isSome ||
        notInFile system.bpm pageId && !evicts system.bpm)
  | .new => firstFreeUnheld system.bpm
  | .write pageId frame _ => system.clients.held.contains (pageId, frame)
  | .unpin pageId isDirty => 0 < system.clients.pins pageId &&
      (1 < system.clients.pins pageId || isDirty || !system.clients.unreported.contains pageId)
  | .flush _ => true
  | .flushAll => system.clients.unreported.isEmpty

/-! ## One step -/

/-- The pool is a cache of the clients' pages, over a disk that cannot fail. -/
structure Cached (system : PoolSystem) (free cold hot : List FrameId) (freed : List PageId) :
    Prop where
  sound : PoolSound system.bpm free cold hot
  faithful : Faithful system.bpm system.clients freed
  healthy : Healthy system.bpm.diskManager freed

variable {bpm : BufferPoolManager} {frame : FrameId} {free cold hot : List FrameId}
variable {clients : PoolClients} {unused freed : List PageId} {system : PoolSystem}

theorem Faithful.showsContents (faithful : Faithful bpm clients unused) :
    ShowsContents ⟨bpm, clients⟩ where
  shows entry member := by
    obtain ⟨inside, holds, valid⟩ := faithful.held entry member
    exact holds ▸ faithful.resident entry.2 inside (holds.symm ▸ valid)
  apart first firstMem second secondMem same := by
    rw [← (faithful.held first firstMem).2.1, ← (faithful.held second secondMem).2.1, same]

theorem FreeHolds.firstFreeUnheld_cons (holds : FreeHolds bpm (frame :: free))
    (unheld : firstFreeUnheld bpm = true) : (bpm.pages frame).pageId = invalidPageId := by
  simpa [firstFreeUnheld, holds.freeFrames_eq] using unheld

/-- A frame taken for a page leaves the pool a cache of the others. -/
structure Taken (bpm middle : BufferPoolManager) (frame : FrameId) (free cold hot : List FrameId)
    (clients : PoolClients) (unused freed : List PageId) : Prop where
  taken : FrameTaken middle frame free cold hot
  faithful : Faithful middle clients unused
  healthy : Healthy middle.diskManager freed
  pageCount : middle.diskManager.pageCount = bpm.diskManager.pageCount
  absent : ∀ pid, pid ≠ invalidPageId → (∀ other < bpm.poolSize, (bpm.pages other).pageId ≠ pid) →
    ∀ other < middle.poolSize, (middle.pages other).pageId ≠ pid
  putBack : evicts bpm = false → frame ∉ free

theorem PoolSound.take (sound : PoolSound bpm free cold hot)
    (faithful : Faithful bpm clients unused) (healthy : Healthy bpm.diskManager freed)
    (listed : freed ⊆ unused) (unheld : firstFreeUnheld bpm = true) :
    takeFrame bpm = .ok (bpm, none) ∨ ∃ middle frame free' cold' hot',
      takeFrame bpm = .ok (middle, some frame) ∧
        Taken bpm middle frame free' cold' hot' clients unused freed := by
  cases free with
  | cons frame rest =>
      obtain ⟨freeNodes, freeList, take, taken⟩ :=
        sound.takeFrame_cons (sound.toFreeHolds.firstFreeUnheld_cons unheld)
      refine .inr ⟨_, frame, rest, cold, hot, take, taken, faithful.congr rfl rfl rfl, healthy, rfl,
        fun _ _ absent => absent, fun _ => ?_⟩
      exact (List.nodup_cons.mp sound.toFreeHolds.nodup).1
  | nil =>
      cases victim : lruVictim cold hot with
      | none => exact .inl (sound.takeFrame_none victim)
      | some frame =>
          obtain ⟨replacer, freeNodes, freeList, take, taken⟩ := sound.takeFrame_victim victim
          obtain ⟨inside, valid, unpinned⟩ := (sound.candidateIff frame).mp (lruVictim_mem victim)
          obtain ⟨kept, stillHealthy, count⟩ :=
            faithful.evicted healthy listed inside valid unpinned replacer
          refine .inr ⟨_, frame, _, _, _, take, taken, kept.congr rfl rfl rfl, stillHealthy, count,
            ?_, ?_⟩
          · intro pid pidValid absent other otherInside
            have same := (writeIfDirty_sameRoles { bpm with replacer := replacer } frame).poolSize
            show ((evicted bpm frame replacer).pages other).pageId ≠ pid
            by_cases isFrame : other = frame
            · rw [isFrame, (evicted_here bpm frame replacer).1]
              exact Ne.symm pidValid
            · rw [(evicted_other bpm replacer isFrame).1]
              exact absent other (same ▸ otherInside)
          · intro notEvicting
            have := sound.evicts_iff.mpr ⟨rfl, frame, victim⟩
            rw [notEvicting] at this
            exact absurd this (by simp)

/-- What a step that keeps to the rules leaves behind. -/
def StaysCached (system : PoolSystem) (op : ClientOp) : Prop :=
  match clientCall system op with
  | .ok (after, fetched) => (∃ free cold hot freed, Cached after free cold hot freed) ∧
      Promised system.clients after fetched op
  | .error fault => fault = .overflow

theorem StaysCached.kept {op : ClientOp} (stays : StaysCached system op)
    (before : ∃ free cold hot freed, Cached system free cold hot freed) :
    ∃ free cold hot freed, Cached (clientStep system op) free cold hot freed := by
  unfold StaysCached at stays
  unfold clientStep
  generalize clientCall system op = outcome at stays ⊢
  cases outcome with
  | ok called => exact stays.1
  | error fault => exact before

theorem StaysCached.actsAsMap {op : ClientOp} (stays : StaysCached system op) :
    ActsAsMap system op := by
  unfold StaysCached at stays
  unfold ActsAsMap
  split at stays
  · obtain ⟨⟨_, _, _, _, cached⟩, promised⟩ := stays
    exact ⟨cached.faithful.showsContents, promised⟩
  · exact stays

theorem StaysCached.of_ok {op : ClientOp} {after : PoolSystem} {fetched : Option FrameId}
    (called : clientCall system op = .ok (after, fetched)) (cached : Cached after free cold hot freed)
    (promised : Promised system.clients after fetched op) : StaysCached system op := by
  unfold StaysCached
  rw [called]
  exact ⟨⟨free, cold, hot, freed, cached⟩, promised⟩

theorem Cached.fetch_hit (cached : Cached system free cold hot freed) {pid : PageId}
    (found : system.bpm.pageTable.hashmapGet pid = some frame) :
    StaysCached system (.fetch pid) := by
  obtain ⟨inside, holds, valid⟩ := cached.sound.of_get found
  obtain ⟨replacer, fetched, sound⟩ := cached.sound.bpmFetchPage_hit found
  have called : clientCall system (.fetch pid) = .ok (⟨repinned system.bpm frame
      { system.bpm.pages frame with pinCount := (system.bpm.pages frame).pinCount + 1 } replacer,
      system.clients.pin pid frame⟩, some frame) := by
    simp only [clientCall, fetched, bind, Except.bind, pure, Except.pure]
  refine .of_ok called ⟨sound, ?_, cached.healthy⟩ ?_
  · exact cached.faithful.pin inside holds valid (cached.sound.unique found) replacer
  · rintro other ⟨⟩
    have present := cached.faithful.resident frame inside (holds.symm ▸ valid)
    simpa [repinned, BufferPoolManager.setPage, holds] using present

theorem Cached.fetch_miss (cached : Cached system free cold hot freed) {pid : PageId}
    (missing : system.bpm.pageTable.hashmapGet pid = none)
    (unheld : firstFreeUnheld system.bpm = true)
    (readable : (system.clients.content pid).isSome = true ∨
      notInFile system.bpm pid = true ∧ evicts system.bpm = false) :
    StaysCached system (.fetch pid) := by
  rcases cached.sound.take cached.faithful cached.healthy (List.Subset.refl _) unheld with
    full | ⟨middle, frame, free', cold', hot', take, taken⟩
  · have called : clientCall system (.fetch pid) = .ok (system, none) := by
      simp only [clientCall, bpmFetchPage_full missing full, bind, Except.bind, pure, Except.pure]
    exact .of_ok called cached (by rintro frame ⟨⟩)
  · rcases readable with present | ⟨beyond, notEvicting⟩
    · obtain ⟨positive, below, _⟩ := (cached.faithful.live pid).mp present
      obtain ⟨bytes, present⟩ := Option.isSome_iff_exists.mp present
      have valid : pid ≠ invalidPageId := by
        rintro rfl
        exact absurd positive (by decide)
      have absent := taken.absent pid valid
        fun other inside => cached.sound.of_get_none missing valid inside
      have onDisk := taken.faithful.stored pid bytes present absent
      have read := taken.healthy.readPage (Int32.le_of_lt positive) (taken.pageCount ▸ below) onDisk
      have called : clientCall system (.fetch pid) =
          .ok (⟨installed middle frame ⟨bytes, pid, 1, false⟩, system.clients.pin pid frame⟩,
            some frame) := by
        simp only [clientCall, bpmFetchPage_read missing take read, bind, Except.bind, pure,
          Except.pure]
      refine .of_ok called ⟨taken.taken.install valid (by simp) (taken.taken.get_none absent), ?_,
        taken.healthy⟩ ?_
      · exact taken.faithful.install taken.taken.frameInside valid taken.taken.unheld absent present
          onDisk
      · rintro other ⟨⟩
        simpa [installed, BufferPoolManager.setPage] using present
    · have outside : pid < 0 ∨ middle.diskManager.pageCount ≤ pid := by
        rw [taken.pageCount]
        simpa [notInFile] using beyond
      have read := taken.healthy.readPage_missing outside
      obtain ⟨nodes, list, pushed, sound⟩ := taken.taken.putBack (taken.putBack notEvicting)
      have called : clientCall system (.fetch pid) =
          .ok (⟨withFree middle nodes list, system.clients⟩, none) := by
        simp only [clientCall, bpmFetchPage_unreadable missing take read pushed, bind, Except.bind,
          pure, Except.pure]
      exact .of_ok called ⟨sound, taken.faithful.congr rfl rfl rfl, taken.healthy⟩
        (by rintro frame ⟨⟩)

theorem Cached.new (cached : Cached system free cold hot freed)
    (unheld : firstFreeUnheld system.bpm = true) : StaysCached system .new := by
  rcases cached.faithful.allocate cached.healthy with
    overflow | ⟨pid, dm, freed', allocated, healthy, faithful, positive, below, notFreed, zeroed⟩
  · simp only [StaysCached, clientCall, bpmNewPage, overflow, bind, Except.bind]
  · have nonneg : ¬ pid.toInt < 0 := by
      have := Int32.lt_iff_toInt_lt.mp positive
      have zero : (0 : Int32).toInt = 0 := by decide
      omega
    have samePid : Int32.ofInt pid.toInt = pid := Int32.ofInt_toInt pid
    have valid : pid ≠ invalidPageId := by
      rintro rfl
      exact absurd positive (by decide)
    have notResident : ∀ other < system.bpm.poolSize, (system.bpm.pages other).pageId ≠ pid := by
      intro other inside same
      have := faithful.not_unused inside (same.symm ▸ valid)
      exact this.2.2 (same ▸ List.mem_cons_self)
    have sound := cached.sound.congr (sameRoles_withDisk system.bpm dm)
    rcases sound.take faithful healthy (List.subset_cons_self pid freed') unheld with
      full | ⟨middle, frame, free', cold', hot', take, taken⟩
    · obtain ⟨undone, deallocated, stillHealthy, kept, count⟩ :=
        healthy.deallocate positive below notFreed
      have called : clientCall system .new =
          .ok (⟨{ system.bpm with diskManager := undone }, system.clients⟩, none) := by
        simp only [clientCall, bpmNewPage_full allocated nonneg full, samePid, deallocated, bind,
          Except.bind, pure, Except.pure]
      refine .of_ok called ⟨sound.congr (sameRoles_withDisk _ undone), ?_, stillHealthy⟩ trivial
      refine faithful.withDisk ?_ fun other => by rw [count]
      intro other page present onDisk
      obtain ⟨otherPositive, _, notUnused⟩ := (faithful.live other).mp present
      refine kept.others other page ?_ ?_ onDisk
      · rintro rfl
        exact Int32.lt_irrefl otherPositive
      · rintro rfl
        exact notUnused List.mem_cons_self
    · have belowStill : pid < middle.diskManager.pageCount := taken.pageCount ▸ below
      have blank := taken.healthy.writePage (Int32.le_of_lt positive) belowStill zeroPage
      let written := middle.diskManager.written pid zeroPage
      have onDisk : written.file.page pid = some zeroPage := DbFile.page_write_same _ _ _
      have kept : Faithful { middle with diskManager := written } system.clients (pid :: freed') := by
        refine taken.faithful.withDisk ?_ fun _ => Iff.rfl
        intro other page present otherOnDisk
        refine DbFile.page_write_other otherOnDisk ?_ _
        rintro rfl
        exact ((taken.faithful.live other).mp present).2.2 List.mem_cons_self
      have adopted := kept.adopt positive belowStill notFreed onDisk
      have absent := taken.absent pid valid notResident
      have called : clientCall system .new =
          .ok (⟨installed { middle with diskManager := written } frame ⟨zeroPage, pid, 1, false⟩,
            (system.clients.setContent pid zeroPage).pin pid frame⟩, some frame) := by
        simp only [clientCall, bpmNewPage_taken allocated nonneg take, samePid, blank, bind,
          Except.bind, pure, Except.pure, written]
      have takenStill := taken.taken.congr (sameRoles_withDisk middle written)
      refine .of_ok called ⟨takenStill.install valid (by simp) (takenStill.get_none absent), ?_,
        taken.healthy.written notFreed zeroPage⟩ trivial
      refine adopted.install taken.taken.frameInside valid taken.taken.unheld absent ?_ onDisk
      simp [PoolClients.setContent]

theorem Cached.unpin (cached : Cached system free cold hot freed) {pid : PageId} {isDirty : Bool}
    (keeps : usesUnheldFrames system (.unpin pid isDirty) = true) :
    StaysCached system (.unpin pid isDirty) := by
  simp only [usesUnheldFrames, Bool.and_eq_true, Bool.or_eq_true, decide_eq_true_eq,
    Bool.not_eq_true', List.contains_eq_mem, decide_eq_false_iff_not] at keeps
  obtain ⟨positive, last⟩ := keeps
  obtain ⟨entry, member, isPage⟩ := List.countP_pos_iff.mp positive
  have samePid : entry.1 = pid := by simpa using isPage
  obtain ⟨inside, holds, valid⟩ := cached.faithful.held entry member
  rw [samePid] at holds valid
  have found := (cached.sound.tableIff pid entry.2).mpr ⟨inside, holds, valid⟩
  have pinned : (system.bpm.pages entry.2).pinCount ≠ 0 := by
    rw [cached.faithful.pins entry.2 inside (holds.symm ▸ valid), holds]
    omega
  obtain ⟨replacer, cold', hot', unpinned, sound⟩ :=
    cached.sound.bpmUnpinPage_pinned isDirty found pinned
  have called : clientCall system (.unpin pid isDirty) = .ok (⟨repinned system.bpm entry.2
      (releasedPage system.bpm entry.2 isDirty) replacer,
      system.clients.unpin pid isDirty⟩, none) := by
    simp only [clientCall, unpinned, bind, Except.bind, pure, Except.pure, if_true]
  refine .of_ok called ⟨sound, ?_, cached.healthy⟩ trivial
  refine cached.faithful.unpin holds (cached.sound.unique found) isDirty ?_ replacer
  intro few
  rcases last with (many | dirty) | reported
  · omega
  · exact .inl dirty
  · exact .inr reported

theorem Cached.write (cached : Cached system free cold hot freed) {pid : PageId} {data : Page}
    (member : (pid, frame) ∈ system.clients.held) : StaysCached system (.write pid frame data) := by
  obtain ⟨inside, holds, valid⟩ := cached.faithful.held (pid, frame) member
  have found := (cached.sound.tableIff pid frame).mpr ⟨inside, holds, valid⟩
  have pinned : 0 < system.clients.pins pid := List.countP_pos_iff.mpr ⟨_, member, by simp⟩
  exact .of_ok rfl ⟨cached.sound.congr (sameRoles_setPage system.bpm frame data _),
    cached.faithful.write data inside holds valid pinned (cached.sound.unique found),
    cached.healthy⟩ trivial

theorem Cached.flush (cached : Cached system free cold hot freed) (pid : PageId) :
    StaysCached system (.flush pid) := by
  have sound := cached.sound.congr (bpmFlushPage_sameRoles system.bpm pid)
  have kept : Faithful (bpmFlushPage system.bpm pid).1 system.clients freed ∧
      Healthy (bpmFlushPage system.bpm pid).1.diskManager freed := by
    cases found : system.bpm.pageTable.hashmapGet pid with
    | none =>
        simp only [bpmFlushPage, found]
        exact ⟨cached.faithful, cached.healthy⟩
    | some frame =>
        obtain ⟨inside, holds, valid⟩ := cached.sound.of_get found
        subst holds
        obtain ⟨written, healthy⟩ :=
          cached.faithful.writePage cached.healthy (List.Subset.refl _) inside valid
        simp only [bpmFlushPage, found, written]
        exact ⟨cached.faithful.cleaned inside valid, healthy⟩
  exact .of_ok rfl ⟨sound, kept.1, kept.2⟩ trivial

theorem Cached.flushAll (cached : Cached system free cold hot freed)
    (reported : system.clients.unreported = []) : StaysCached system .flushAll := by
  have same := bpmFlushAll_sameRoles system.bpm
  obtain ⟨faithful, healthy, clean⟩ := cached.faithful.flushFrames
    (List.range system.bpm.poolSize) (fun _ => List.mem_range.mp) cached.healthy
  rw [← bpmFlushAll] at faithful healthy clean
  refine .of_ok rfl ⟨cached.sound.congr same, faithful, healthy⟩ ?_
  intro pid bytes present
  by_cases resident : ∀ frame < (bpmFlushAll system.bpm).poolSize,
      ((bpmFlushAll system.bpm).pages frame).pageId ≠ pid
  · exact faithful.stored pid bytes present resident
  · push Not at resident
    obtain ⟨frame, inside, holds⟩ := resident
    have positive := ((faithful.live pid).mp (by rw [present]; rfl)).1
    have valid : pid ≠ invalidPageId := by
      rintro rfl
      exact absurd positive (by decide)
    subst holds
    have shown := faithful.resident frame inside valid
    rw [present] at shown
    rw [shown]
    refine faithful.clean frame inside valid (clean frame (.inl ?_) ?_) ?_
    · exact List.mem_range.mpr (same.poolSize ▸ inside)
    · exact (same.pageId frame) ▸ valid
    · rw [reported]
      simp

/-- A step that keeps to the rules leaves the pool a cache. -/
theorem Cached.step (cached : Cached system free cold hot freed) {op : ClientOp}
    (keeps : usesUnheldFrames system op = true) : StaysCached system op := by
  cases op with
  | fetch pid =>
      cases found : system.bpm.pageTable.hashmapGet pid with
      | some frame => exact cached.fetch_hit found
      | none =>
          simp only [usesUnheldFrames, found, Option.isSome_none, Bool.false_or, Bool.and_eq_true,
            Bool.or_eq_true, Bool.not_eq_true'] at keeps
          exact cached.fetch_miss found keeps.1 keeps.2
  | new => exact cached.new keeps
  | write pid frame data => exact cached.write (List.contains_iff_mem.mp keeps)
  | unpin pid isDirty => exact cached.unpin keeps
  | flush pid => exact cached.flush pid
  | flushAll => exact cached.flushAll (List.isEmpty_iff.mp keeps)

/-! ## Runs -/

/-- The bytes of the pages a disk manager has given away. -/
def startContent (dm : DiskManager) (freed : List PageId) (pid : PageId) : Option Page :=
  if 0 < pid ∧ pid < dm.pageCount ∧ pid ∉ freed then dm.file.page pid else none

/-- Clients before their first call. -/
def newClients (dm : DiskManager) (freed : List PageId) : PoolClients where
  held := []
  content := startContent dm freed
  unreported := []

/-- In every run of a fresh pool over a disk that does not fail, the pool acts as a map
from page ids to bytes if every step puts pages only into frames without a page. -/
theorem actsAsMap_of_usesUnheldFrames (poolSize : Nat) {dm : DiskManager} {freed : List PageId}
    (healthy : Healthy dm freed) {bpm : BufferPoolManager} (init : bpmInit poolSize dm = .ok bpm)
    (ops : List ClientOp)
    (keeps : EachStep clientStep (fun system op => usesUnheldFrames system op = true)
      ⟨bpm, newClients dm freed⟩ ops) :
    EachStep clientStep ActsAsMap ⟨bpm, newClients dm freed⟩ ops := by
  obtain ⟨fresh, init', sound, size, disk, pages⟩ := bpmInit_sound poolSize dm
  rw [init] at init'
  cases init'
  have content : ∀ pid, ((newClients dm freed).content pid).isSome = true ↔
      0 < pid ∧ pid < dm.pageCount ∧ pid ∉ freed := by
    intro pid
    unfold newClients startContent
    constructor
    · intro present
      by_contra notLive
      simp [if_neg notLive] at present
    · intro live
      obtain ⟨page, present⟩ := healthy.stored pid (Int32.le_of_lt live.1) live.2.1
      simp [live, present]
  have faithful : Faithful bpm (newClients dm freed) freed := by
    refine ⟨disk.symm ▸ content, ?_, ?_, ?_, ?_, by simp [newClients], by simp [newClients]⟩
    · intro frame _ held
      exact absurd (by rw [pages]) held
    · intro frame _ held
      exact absurd (by rw [pages]) held
    · intro pid bytes present _
      have live := (content pid).mp (by rw [present]; rfl)
      rw [disk]
      simpa [newClients, startContent, live] using present
    · intro frame _ held
      exact absurd (by rw [pages]) held
  have cached : ∃ free cold hot freed', Cached ⟨bpm, newClients dm freed⟩ free cold hot freed' :=
    ⟨_, _, _, freed, sound, faithful, disk.symm ▸ healthy⟩
  have preserved : ∀ system op, (∃ free cold hot freed', Cached system free cold hot freed') →
      usesUnheldFrames system op = true →
        ∃ free cold hot freed', Cached (clientStep system op) free cold hot freed' := by
    rintro system op ⟨free, cold, hot, freed', cached⟩ keeps
    exact (cached.step keeps).kept ⟨free, cold, hot, freed', cached⟩
  refine keeps.of_invariant preserved ?_ cached
  rintro system op ⟨free, cold, hot, freed', cached⟩ keeps
  exact (cached.step keeps).actsAsMap

/-- A page written, evicted and flushed in a pool of one frame. -/
theorem actsAsMap_of_usesUnheldFrames_eviction : ∃ bpm, bpmInit 1 diskManagerCreate = .ok bpm ∧
    EachStep clientStep ActsAsMap ⟨bpm, newClients diskManagerCreate []⟩
      [.new, .write 1 0 (fun _ => 1), .unpin 1 true, .new, .unpin 2 false, .flushAll] :=
  ⟨_, rfl, actsAsMap_of_usesUnheldFrames 1 diskManagerCreate_healthy rfl _
    ⟨by decide +kernel, by decide +kernel, by decide +kernel, by decide +kernel,
      by decide +kernel, by decide +kernel, trivial⟩⟩

/-- In a pool of one frame, the first page created after an eviction is put into the
frame that a client still holds for another page. -/
theorem second_miss_shares_frame : ∃ bpm, bpmInit 1 diskManagerCreate = .ok bpm ∧
    ¬ ShowsContents (run clientStep ⟨bpm, newClients diskManagerCreate []⟩
      [.new, .unpin 1 true, .new, .new]) := by
  refine ⟨_, rfl, fun shown => ?_⟩
  have same := shown.apart (3, 0) (by decide +kernel) (2, 0) (by decide +kernel) rfl
  exact absurd same (by decide)

end MiniSqlite.Buffer
