import MiniSqlite.Buffer.BufferPoolManager

/-!
# What the structures of a buffer pool say about a frame

A frame is described in four places: its metadata, the page table, the replacer
and the free list. `PoolSound` says that the page table and the replacer agree
with the metadata and that a frame without a page is on the free list. It leaves
open whether a frame on the free list also holds a page: `evict_page` puts its
frame there and then hands it out. Each function of the pool has one lemma that
says what it returns and that `PoolSound` still holds.
-/

namespace MiniSqlite.Buffer

open MiniSqlite.Common MiniSqlite.Std MiniSqlite.Storage

variable {bpm after : BufferPoolManager} {frame : FrameId} {free cold hot : List FrameId}

/-- The page table and the replacer agree with the frames' page ids and pins. -/
structure FramesSound (bpm : BufferPoolManager) (cold hot : List FrameId) : Prop where
  replacer : LruHolds bpm.replacer cold hot
  tableIff : ∀ pid frame, bpm.pageTable.hashmapGet pid = some frame ↔
    frame < bpm.poolSize ∧ (bpm.pages frame).pageId = pid ∧ pid ≠ invalidPageId
  candidateIff : ∀ frame, frame ∈ cold ++ hot ↔
    frame < bpm.poolSize ∧ (bpm.pages frame).pageId ≠ invalidPageId ∧
      (bpm.pages frame).pinCount = 0
  unheldUnpinned : ∀ frame < bpm.poolSize, (bpm.pages frame).pageId = invalidPageId →
    (bpm.pages frame).pinCount = 0

/-- The free list holds `free`, all of them frames of the pool. -/
structure FreeHolds (bpm : BufferPoolManager) (free : List FrameId) : Prop where
  sentinel : bpm.freeList.sentinel = .sentinel
  list : ListHolds bpm.freeNodes bpm.freeList (free.map .frame)
  inside : ∀ frame ∈ free, frame < bpm.poolSize

/-- All structures agree: every frame without a page is on the free list. -/
structure PoolSound (bpm : BufferPoolManager) (free cold hot : List FrameId) : Prop extends
    FramesSound bpm cold hot, FreeHolds bpm free where
  unheldFree : ∀ frame < bpm.poolSize, (bpm.pages frame).pageId = invalidPageId → frame ∈ free

/-- The pool while it looks for a page to put into `frame`. -/
structure FrameTaken (bpm : BufferPoolManager) (frame : FrameId) (free cold hot : List FrameId) :
    Prop extends FramesSound bpm cold hot, FreeHolds bpm free where
  frameInside : frame < bpm.poolSize
  unheld : (bpm.pages frame).pageId = invalidPageId
  unheldFree : ∀ other < bpm.poolSize, (bpm.pages other).pageId = invalidPageId →
    other = frame ∨ other ∈ free

theorem FreeHolds.nodup (holds : FreeHolds bpm free) : free.Nodup :=
  (List.nodup_cons.mp holds.list.ring.nodup).2.of_map _

theorem LruHolds.nodup {replacer : LruReplacer} (holds : LruHolds replacer cold hot) :
    (cold ++ hot).Nodup := by
  obtain ⟨_, holds⟩ := holds
  exact holds.nodup

/-- The frame of a page is in the pool and holds it. -/
theorem FramesSound.of_get {pid : PageId} (sound : FramesSound bpm cold hot)
    (found : bpm.pageTable.hashmapGet pid = some frame) :
    frame < bpm.poolSize ∧ (bpm.pages frame).pageId = pid ∧ pid ≠ invalidPageId :=
  (sound.tableIff pid frame).mp found

/-- A page that the table does not find is in no frame. -/
theorem FramesSound.of_get_none {pid : PageId} (sound : FramesSound bpm cold hot)
    (absent : bpm.pageTable.hashmapGet pid = none) (valid : pid ≠ invalidPageId)
    (inside : frame < bpm.poolSize) : (bpm.pages frame).pageId ≠ pid := by
  intro holds
  have found := (sound.tableIff pid frame).mpr ⟨inside, holds, valid⟩
  rw [absent] at found
  exact absurd found (by simp)

theorem FramesSound.get_none {pid : PageId} (sound : FramesSound bpm cold hot)
    (absent : ∀ frame < bpm.poolSize, (bpm.pages frame).pageId ≠ pid) :
    bpm.pageTable.hashmapGet pid = none := by
  cases found : bpm.pageTable.hashmapGet pid with
  | none => rfl
  | some frame =>
      obtain ⟨inside, holds, _⟩ := sound.of_get found
      exact absurd holds (absent frame inside)

/-- A page is in one frame at most. -/
theorem FramesSound.unique {pid : PageId} (sound : FramesSound bpm cold hot)
    (found : bpm.pageTable.hashmapGet pid = some frame) :
    ∀ other < bpm.poolSize, (bpm.pages other).pageId = pid → other = frame := by
  intro other inside holds
  have valid := (sound.of_get found).2.2
  have here := (sound.tableIff pid other).mpr ⟨inside, holds, valid⟩
  rw [found] at here
  exact (Option.some.inj here).symm

/-! ## Calls that change no role -/

/-- Both pools give every frame the same roles. -/
structure SameRoles (before after : BufferPoolManager) : Prop where
  poolSize : after.poolSize = before.poolSize
  pageTable : after.pageTable = before.pageTable
  freeList : after.freeList = before.freeList
  freeNodes : after.freeNodes = before.freeNodes
  replacer : after.replacer = before.replacer
  pageId : ∀ frame, (after.pages frame).pageId = (before.pages frame).pageId
  pinCount : ∀ frame, (after.pages frame).pinCount = (before.pages frame).pinCount

theorem SameRoles.refl (bpm : BufferPoolManager) : SameRoles bpm bpm :=
  ⟨rfl, rfl, rfl, rfl, rfl, fun _ => rfl, fun _ => rfl⟩

theorem SameRoles.trans {middle : BufferPoolManager} (first : SameRoles bpm middle)
    (second : SameRoles middle after) : SameRoles bpm after where
  poolSize := second.poolSize.trans first.poolSize
  pageTable := second.pageTable.trans first.pageTable
  freeList := second.freeList.trans first.freeList
  freeNodes := second.freeNodes.trans first.freeNodes
  replacer := second.replacer.trans first.replacer
  pageId frame := (second.pageId frame).trans (first.pageId frame)
  pinCount frame := (second.pinCount frame).trans (first.pinCount frame)

theorem sameRoles_withDisk (bpm : BufferPoolManager) (dm : DiskManager) :
    SameRoles bpm { bpm with diskManager := dm } :=
  ⟨rfl, rfl, rfl, rfl, rfl, fun _ => rfl, fun _ => rfl⟩

theorem FramesSound.congr (sound : FramesSound bpm cold hot) (same : SameRoles bpm after) :
    FramesSound after cold hot where
  replacer := same.replacer ▸ sound.replacer
  tableIff pid frame := by
    rw [same.pageTable, same.poolSize, same.pageId]
    exact sound.tableIff pid frame
  candidateIff frame := by
    rw [same.poolSize, same.pageId, same.pinCount]
    exact sound.candidateIff frame
  unheldUnpinned frame inside := by
    rw [same.pageId, same.pinCount]
    exact sound.unheldUnpinned frame (same.poolSize ▸ inside)

theorem FreeHolds.congr (holds : FreeHolds bpm free) (same : SameRoles bpm after) :
    FreeHolds after free where
  sentinel := same.freeList ▸ holds.sentinel
  list := by
    rw [same.freeNodes, same.freeList]
    exact holds.list
  inside frame member := same.poolSize ▸ holds.inside frame member

theorem PoolSound.congr (sound : PoolSound bpm free cold hot) (same : SameRoles bpm after) :
    PoolSound after free cold hot where
  toFramesSound := sound.toFramesSound.congr same
  toFreeHolds := sound.toFreeHolds.congr same
  unheldFree frame inside := by
    rw [same.pageId]
    exact sound.unheldFree frame (same.poolSize ▸ inside)

theorem FrameTaken.congr (taken : FrameTaken bpm frame free cold hot)
    (same : SameRoles bpm after) : FrameTaken after frame free cold hot where
  toFramesSound := taken.toFramesSound.congr same
  toFreeHolds := taken.toFreeHolds.congr same
  frameInside := same.poolSize ▸ taken.frameInside
  unheld := (same.pageId frame).trans taken.unheld
  unheldFree other inside := by
    rw [same.pageId]
    exact taken.unheldFree other (same.poolSize ▸ inside)

/-- Exchanging a frame's bytes or its dirty flag changes no role. -/
theorem sameRoles_setPage (bpm : BufferPoolManager) (frame : FrameId) (data : Page)
    (isDirty : Bool) :
    SameRoles bpm (bpm.setPage frame { bpm.pages frame with data := data, isDirty := isDirty }) := by
  refine ⟨rfl, rfl, rfl, rfl, rfl, ?_, ?_⟩ <;>
  · intro other
    by_cases same : other = frame <;> simp [BufferPoolManager.setPage, same]

theorem writeIfDirty_sameRoles (bpm : BufferPoolManager) (frame : FrameId) :
    SameRoles bpm (writeIfDirty bpm frame) := by
  unfold writeIfDirty
  dsimp only
  split
  · exact (sameRoles_withDisk bpm _).trans (sameRoles_setPage _ frame _ false)
  · exact .refl bpm

theorem bpmFlushPage_sameRoles (bpm : BufferPoolManager) (pageId : PageId) :
    SameRoles bpm (bpmFlushPage bpm pageId).1 := by
  unfold bpmFlushPage
  split
  · exact .refl bpm
  · dsimp only
    split
    · exact (sameRoles_withDisk bpm _).trans (sameRoles_setPage _ _ _ false)
    · exact sameRoles_withDisk bpm _

theorem flushFrame_sameRoles (bpm : BufferPoolManager) (frame : FrameId) :
    SameRoles bpm (flushFrame bpm frame) := by
  unfold flushFrame
  split
  · exact writeIfDirty_sameRoles bpm frame
  · exact .refl bpm

theorem flushFrames_sameRoles (frames : List FrameId) (bpm : BufferPoolManager) :
    SameRoles bpm (frames.foldl flushFrame bpm) := by
  induction frames generalizing bpm with
  | nil => exact .refl bpm
  | cons frame frames ih => exact (flushFrame_sameRoles bpm frame).trans (ih _)

theorem bpmFlushAll_sameRoles (bpm : BufferPoolManager) : SameRoles bpm (bpmFlushAll bpm) :=
  flushFrames_sameRoles _ bpm

/-! ## The free list -/

/-- Only the free list differs. -/
def withFree (bpm : BufferPoolManager) (freeNodes : Links FreeNode) (freeList : ListT FreeNode) :
    BufferPoolManager :=
  { bpm with freeNodes := freeNodes, freeList := freeList }

theorem FramesSound.withFree (sound : FramesSound bpm cold hot) (freeNodes : Links FreeNode)
    (freeList : ListT FreeNode) : FramesSound (withFree bpm freeNodes freeList) cold hot :=
  ⟨sound.replacer, sound.tableIff, sound.candidateIff, sound.unheldUnpinned⟩

theorem notMem_sentinel_frames {frames : List FrameId} (absent : frame ∉ frames) :
    FreeNode.frame frame ∉ FreeNode.sentinel :: frames.map .frame := by
  simpa using absent

/-- A frame that is not on the free list can be put at its end. -/
theorem FreeHolds.pushFree (holds : FreeHolds bpm free) (inside : frame < bpm.poolSize)
    (absent : frame ∉ free) :
    ∃ freeNodes freeList, bpm.pushFree frame = .ok (withFree bpm freeNodes freeList) ∧
      FreeHolds (withFree bpm freeNodes freeList) (free ++ [frame]) := by
  have apart := notMem_sentinel_frames absent
  have cleared : ListHolds ((bpm.freeNodes.setPrev (.frame frame) none).setNext (.frame frame) none)
      bpm.freeList (free.map .frame) := by
    refine @ListHolds.frame _ _ _ _ _ [.frame frame] holds.list ?_ ?_
    · intro node outside
      have differ : node ≠ .frame frame := by simpa using outside
      simp [differ]
    · intro node member same
      rw [holds.sentinel, List.mem_singleton.mp same] at member
      exact apart member
  obtain ⟨links, pushed, list, _⟩ := cleared.pushBack (holds.sentinel ▸ apart)
  refine ⟨links, ⟨bpm.freeList.sentinel, bpm.freeList.size + 1⟩, ?_, holds.sentinel, ?_, ?_⟩
  · simp only [BufferPoolManager.pushFree, pushed, bind, Except.bind, pure, Except.pure, withFree]
  · rw [List.map_append]
    exact list
  · intro other member
    rcases List.mem_append.mp member with old | new
    · exact holds.inside other old
    · exact List.mem_singleton.mp new ▸ inside

/-- A frame that is the only one on the free list can be put there again. -/
theorem FreeHolds.pushFree_ok (holds : FreeHolds bpm [frame]) :
    ∃ after, bpm.pushFree frame = .ok after := by
  obtain ⟨_, ⟨_, last⟩⟩ := holds.list.ring.segment
  rw [holds.sentinel] at last
  simp [BufferPoolManager.pushFree, listPushBack, holds.sentinel, last, deref, bind, Except.bind,
    pure, Except.pure]

theorem FreeHolds.findFreeFrame_cons (holds : FreeHolds bpm (frame :: free)) :
    ∃ freeNodes freeList, findFreeFrame bpm = .ok (withFree bpm freeNodes freeList, some frame) ∧
      FreeHolds (withFree bpm freeNodes freeList) free := by
  obtain ⟨links, popped, list, _⟩ := holds.list.popFront
  refine ⟨links, ⟨bpm.freeList.sentinel, bpm.freeList.size - 1⟩, ?_, holds.sentinel, list,
    fun other member => holds.inside other (List.mem_cons_of_mem _ member)⟩
  simp only [findFreeFrame, popped, bind, Except.bind, pure, Except.pure, withFree]

theorem FreeHolds.findFreeFrame_nil (holds : FreeHolds bpm []) :
    findFreeFrame bpm = .ok (bpm, none) := by
  simp only [findFreeFrame, holds.list.popFront_nil, bind, Except.bind, pure, Except.pure]

/-! ## Taking a frame -/

/-- A frame taken from the free list, when it holds no page. -/
theorem PoolSound.takeFrame_cons (sound : PoolSound bpm (frame :: free) cold hot)
    (unheld : (bpm.pages frame).pageId = invalidPageId) :
    ∃ freeNodes freeList, takeFrame bpm = .ok (Buffer.withFree bpm freeNodes freeList, some frame) ∧
      FrameTaken (Buffer.withFree bpm freeNodes freeList) frame free cold hot := by
  obtain ⟨freeNodes, freeList, found, rest⟩ := sound.toFreeHolds.findFreeFrame_cons
  refine ⟨freeNodes, freeList, ?_, sound.toFramesSound.withFree _ _, rest,
    sound.inside frame List.mem_cons_self, unheld, ?_⟩
  · simp only [takeFrame, found, bind, Except.bind, pure, Except.pure]
  · intro other inside empty
    exact List.mem_cons.mp (sound.unheldFree other inside empty)

/-- No frame is free and none can be evicted. -/
theorem PoolSound.takeFrame_none (sound : PoolSound bpm [] cold hot)
    (noVictim : lruVictim cold hot = none) : takeFrame bpm = .ok (bpm, none) := by
  obtain ⟨replacer, victim, _, same⟩ := lruReplacerVictim_holds sound.replacer
  rw [noVictim] at victim
  rw [same noVictim] at victim
  simp only [takeFrame, sound.toFreeHolds.findFreeFrame_nil, evictPage, victim, bind, Except.bind,
    pure, Except.pure]

/-- The pool once the page of `frame` is written back and forgotten. -/
def evicted (bpm : BufferPoolManager) (frame : FrameId) (replacer : LruReplacer) :
    BufferPoolManager :=
  let bpm := writeIfDirty { bpm with replacer := replacer } frame
  let bpm := { bpm with pageTable := bpm.pageTable.hashmapRemove (bpm.pages frame).pageId }
  bpm.setPage frame
    { bpm.pages frame with pageId := invalidPageId, pinCount := 0, isDirty := false }

theorem evicted_other (bpm : BufferPoolManager) (replacer : LruReplacer) {frame other : FrameId}
    (differ : other ≠ frame) :
    ((evicted bpm frame replacer).pages other).pageId = (bpm.pages other).pageId ∧
      ((evicted bpm frame replacer).pages other).pinCount = (bpm.pages other).pinCount := by
  have same := writeIfDirty_sameRoles { bpm with replacer := replacer } frame
  have ids := same.pageId other
  have pins := same.pinCount other
  simpa [evicted, BufferPoolManager.setPage, differ] using ⟨ids, pins⟩

theorem evicted_here (bpm : BufferPoolManager) (frame : FrameId) (replacer : LruReplacer) :
    ((evicted bpm frame replacer).pages frame).pageId = invalidPageId ∧
      ((evicted bpm frame replacer).pages frame).pinCount = 0 := by
  simp [evicted, BufferPoolManager.setPage]

/-- Forgetting the page of a frame that the replacer gave up. -/
theorem FramesSound.forget (sound : FramesSound bpm cold hot) (member : frame ∈ cold ++ hot)
    {replacer : LruReplacer} (erased : LruHolds replacer (cold.erase frame) (hot.erase frame)) :
    FramesSound (evicted bpm frame replacer) (cold.erase frame) (hot.erase frame) := by
  obtain ⟨inside, held, _⟩ := (sound.candidateIff frame).mp member
  have same := writeIfDirty_sameRoles { bpm with replacer := replacer } frame
  have pages := fun other => @evicted_other bpm replacer frame other
  have here := evicted_here bpm frame replacer
  have size : (evicted bpm frame replacer).poolSize = bpm.poolSize := same.poolSize
  have table : ∀ pid, (evicted bpm frame replacer).pageTable.hashmapGet pid =
      if (bpm.pages frame).pageId = pid then none else bpm.pageTable.hashmapGet pid := by
    intro pid
    show (Hashmap.hashmapRemove _ _).hashmapGet pid = _
    rw [Hashmap.hashmapGet_remove, same.pageTable, same.pageId]
    simp [pageKeys]
  refine ⟨?_, ?_, ?_, ?_⟩
  · show LruHolds (writeIfDirty { bpm with replacer := replacer } frame).replacer _ _
    rw [same.replacer]
    exact erased
  · intro pid other
    rw [table, size]
    by_cases isFrame : other = frame
    · subst isFrame
      rw [here.1]
      have gone : ∀ valid : pid ≠ invalidPageId, ¬ invalidPageId = pid := fun valid => Ne.symm valid
      split
      · simp_all
      · rename_i other'
        constructor
        · intro found
          exact absurd (sound.of_get found).2.1 other'
        · rintro ⟨_, same', valid⟩
          exact absurd same' (gone valid)
    · rw [(pages other isFrame).1]
      split
      · rename_i samePid
        constructor
        · simp
        · rintro ⟨otherInside, holds, valid⟩
          have found := (sound.tableIff pid other).mpr ⟨otherInside, holds, valid⟩
          have found' := (sound.tableIff pid frame).mpr ⟨inside, samePid, valid⟩
          rw [found] at found'
          exact absurd (Option.some.inj found') isFrame
      · exact sound.tableIff pid other
  · intro other
    rw [mem_erase_both sound.replacer.nodup, size, sound.candidateIff other]
    by_cases isFrame : other = frame
    · subst isFrame
      simp [here.1]
    · rw [(pages other isFrame).1, (pages other isFrame).2]
      simp [isFrame]
  · intro other otherInside
    by_cases isFrame : other = frame
    · exact fun _ => isFrame ▸ here.2
    · rw [(pages other isFrame).1, (pages other isFrame).2]
      exact sound.unheldUnpinned other (size ▸ otherInside)

/-- A frame taken by evicting its page is left on the free list. -/
theorem PoolSound.takeFrame_victim (sound : PoolSound bpm [] cold hot)
    (victim : lruVictim cold hot = some frame) :
    ∃ replacer freeNodes freeList,
      takeFrame bpm = .ok (Buffer.withFree (evicted bpm frame replacer) freeNodes freeList,
        some frame) ∧
      FrameTaken (Buffer.withFree (evicted bpm frame replacer) freeNodes freeList) frame [frame]
        (cold.erase frame) (hot.erase frame) := by
  have member := lruVictim_mem victim
  have inside := ((sound.candidateIff frame).mp member).1
  obtain ⟨replacer, chosen, erased, _⟩ := lruReplacerVictim_holds sound.replacer
  rw [victim] at chosen
  have same := writeIfDirty_sameRoles { bpm with replacer := replacer } frame
  have free : FreeHolds (evicted bpm frame replacer) [] := by
    refine ⟨?_, ?_, by simp⟩
    · show (writeIfDirty { bpm with replacer := replacer } frame).freeList.sentinel = _
      rw [same.freeList]
      exact sound.sentinel
    · show ListHolds (writeIfDirty { bpm with replacer := replacer } frame).freeNodes
        (writeIfDirty { bpm with replacer := replacer } frame).freeList _
      rw [same.freeNodes, same.freeList]
      exact sound.list
  obtain ⟨freeNodes, freeList, pushed, now⟩ :=
    free.pushFree (show frame < (evicted bpm frame replacer).poolSize from same.poolSize ▸ inside)
      (by simp)
  have frames := sound.toFramesSound.forget member (erased frame victim)
  refine ⟨replacer, freeNodes, freeList, ?_, frames.withFree _ _, now, same.poolSize ▸ inside,
    ?_, ?_⟩
  · have pushed' : (evicted bpm frame replacer).pushFree frame =
      .ok (Buffer.withFree (evicted bpm frame replacer) freeNodes freeList) := pushed
    simp only [evicted] at pushed'
    simp only [takeFrame, sound.toFreeHolds.findFreeFrame_nil, evictPage, chosen, bind,
      Except.bind, pure, Except.pure, pushed', evicted]
  · simp [Buffer.withFree, evicted, BufferPoolManager.setPage]
  · intro other otherInside unheld
    by_cases isFrame : other = frame
    · exact .inl isFrame
    · have ids := same.pageId other
      have held : (bpm.pages other).pageId = invalidPageId := by
        simpa [Buffer.withFree, evicted, BufferPoolManager.setPage, isFrame, ids] using unheld
      exact absurd (sound.unheldFree other (same.poolSize ▸ otherInside) held) (by simp)

/-- The pool with a page put into a frame and into the page table. -/
def installed (bpm : BufferPoolManager) (frame : FrameId) (page : PageT) : BufferPoolManager :=
  { bpm.setPage frame page with pageTable := bpm.pageTable.hashmapPut page.pageId frame }

theorem FrameTaken.install (taken : FrameTaken bpm frame free cold hot) {page : PageT}
    (valid : page.pageId ≠ invalidPageId) (pinned : page.pinCount ≠ 0)
    (absent : bpm.pageTable.hashmapGet page.pageId = none) :
    PoolSound (installed bpm frame page) free cold hot := by
  have notCandidate : frame ∉ cold ++ hot :=
    fun member => ((taken.candidateIff frame).mp member).2.1 taken.unheld
  refine ⟨⟨taken.replacer, ?_, ?_, ?_⟩, ⟨taken.sentinel, taken.list, taken.inside⟩, ?_⟩
  · intro pid other
    simp only [installed]
    rw [Hashmap.hashmapGet_put]
    by_cases isFrame : other = frame
    · subst isFrame
      have inside := taken.frameInside
      by_cases samePid : page.pageId = pid
      · simp [pageKeys, BufferPoolManager.setPage, samePid, inside, samePid ▸ valid]
      · have notHere : bpm.pageTable.hashmapGet pid ≠ some other := by
          intro found
          have := taken.of_get found
          exact this.2.2 (this.2.1 ▸ taken.unheld)
        simp [pageKeys, BufferPoolManager.setPage, samePid]
        exact notHere
    · have differ : frame ≠ other := Ne.symm isFrame
      by_cases samePid : page.pageId = pid
      · have nowhere : other < bpm.poolSize → (bpm.pages other).pageId ≠ pid :=
          fun inside => taken.of_get_none (samePid ▸ absent) (samePid ▸ valid) inside
        simp [pageKeys, BufferPoolManager.setPage, samePid, isFrame, differ]
        exact fun inside holds => absurd holds (nowhere inside)
      · simpa [pageKeys, BufferPoolManager.setPage, samePid, isFrame] using taken.tableIff pid other
  · intro other
    by_cases isFrame : other = frame
    · subst isFrame
      simp [installed, BufferPoolManager.setPage, notCandidate, pinned]
    · simpa [installed, BufferPoolManager.setPage, isFrame] using taken.candidateIff other
  · intro other
    by_cases isFrame : other = frame
    · simp [installed, BufferPoolManager.setPage, isFrame, valid]
    · simpa [installed, BufferPoolManager.setPage, isFrame] using taken.unheldUnpinned other
  · intro other inside
    by_cases isFrame : other = frame
    · simp [installed, BufferPoolManager.setPage, isFrame, valid]
    · intro unheld
      have := taken.unheldFree other inside
      simp [isFrame] at this
      apply this
      simpa [installed, BufferPoolManager.setPage, isFrame] using unheld

/-- The frame taken put back on the free list. -/
theorem FrameTaken.putBack (taken : FrameTaken bpm frame free cold hot) (absent : frame ∉ free) :
    ∃ freeNodes freeList, bpm.pushFree frame = .ok (Buffer.withFree bpm freeNodes freeList) ∧
      PoolSound (Buffer.withFree bpm freeNodes freeList) (free ++ [frame]) cold hot := by
  obtain ⟨freeNodes, freeList, pushed, now⟩ := taken.toFreeHolds.pushFree taken.frameInside absent
  refine ⟨freeNodes, freeList, pushed, taken.toFramesSound.withFree _ _, now, ?_⟩
  intro other inside unheld
  rcases taken.unheldFree other inside unheld with same | member
  · simp [same]
  · exact List.mem_append_left _ member

/-! ## Pins -/

/-- The pool with another page record and the replacer told about its pins. -/
def repinned (bpm : BufferPoolManager) (frame : FrameId) (page : PageT) (replacer : LruReplacer) :
    BufferPoolManager :=
  { bpm.setPage frame page with replacer := replacer }

theorem PoolSound.repin (sound : PoolSound bpm free cold hot) (page : PageT)
    (samePid : page.pageId = (bpm.pages frame).pageId)
    (held : (bpm.pages frame).pageId ≠ invalidPageId) (inside : frame < bpm.poolSize)
    {replacer : LruReplacer} {cold' hot' : List FrameId} (holds : LruHolds replacer cold' hot')
    (members : ∀ other, other ∈ cold' ++ hot' ↔
      if other = frame then page.pinCount = 0 else other ∈ cold ++ hot) :
    PoolSound (repinned bpm frame page replacer) free cold' hot' := by
  have ids : ∀ other, ((repinned bpm frame page replacer).pages other).pageId =
      (bpm.pages other).pageId := by
    intro other
    by_cases isFrame : other = frame <;>
      simp [repinned, BufferPoolManager.setPage, isFrame, samePid]
  refine ⟨⟨holds, ?_, ?_, ?_⟩, ⟨sound.sentinel, sound.list, sound.inside⟩, ?_⟩
  · intro pid other
    rw [ids]
    exact sound.tableIff pid other
  · intro other
    rw [members, ids]
    by_cases isFrame : other = frame
    · simp [repinned, BufferPoolManager.setPage, isFrame, held, inside]
    · simpa [repinned, BufferPoolManager.setPage, isFrame] using sound.candidateIff other
  · intro other otherInside
    rw [ids]
    by_cases isFrame : other = frame
    · exact fun unheld => absurd (isFrame ▸ unheld) held
    · simpa [repinned, BufferPoolManager.setPage, isFrame] using
        sound.unheldUnpinned other otherInside
  · intro other otherInside
    rw [ids]
    exact sound.unheldFree other otherInside

/-! ## The operations -/

/-- A fetch of a page in the pool pins its frame. -/
theorem PoolSound.bpmFetchPage_hit (sound : PoolSound bpm free cold hot) {pid : PageId}
    (found : bpm.pageTable.hashmapGet pid = some frame) :
    ∃ replacer, bpmFetchPage bpm pid = .ok (repinned bpm frame
        { bpm.pages frame with pinCount := (bpm.pages frame).pinCount + 1 } replacer, some frame) ∧
      PoolSound (repinned bpm frame
        { bpm.pages frame with pinCount := (bpm.pages frame).pinCount + 1 } replacer) free
        (cold.erase frame) (hot.erase frame) := by
  obtain ⟨inside, holds, valid⟩ := sound.of_get found
  obtain ⟨replacer, pinned, erased⟩ := lruReplacerPin_holds sound.replacer frame
  refine ⟨replacer, ?_, sound.repin _ ?_ (holds ▸ valid) inside erased ?_⟩
  · simp only [bpmFetchPage, found, BufferPoolManager.setPage, pinned, bind, Except.bind, pure,
      Except.pure, repinned]
  · rfl
  · intro other
    rw [mem_erase_both sound.replacer.nodup]
    by_cases isFrame : other = frame <;> simp [isFrame]

theorem bpmFetchPage_full {pid : PageId} (absent : bpm.pageTable.hashmapGet pid = none)
    (full : takeFrame bpm = .ok (bpm, none)) : bpmFetchPage bpm pid = .ok (bpm, none) := by
  simp only [bpmFetchPage, absent, full, bind, Except.bind, pure, Except.pure]

/-- A fetch that has taken a frame and read the page. -/
theorem bpmFetchPage_read {middle : BufferPoolManager} {pid : PageId} {data : Page}
    {dm : DiskManager} (absent : bpm.pageTable.hashmapGet pid = none)
    (take : takeFrame bpm = .ok (middle, some frame))
    (read : (diskManagerReadPage pid).exec middle.diskManager = (.ok data, dm)) :
    bpmFetchPage bpm pid =
      .ok (installed { middle with diskManager := dm } frame ⟨data, pid, 1, false⟩, some frame) := by
  simp only [bpmFetchPage, absent, take, read, bind, Except.bind, pure, Except.pure, installed,
    BufferPoolManager.setPage]

/-- A fetch that has taken a frame and could not read the page. -/
theorem bpmFetchPage_unreadable {middle : BufferPoolManager} {pid : PageId} {rc : ErrorCode}
    {dm : DiskManager} (absent : bpm.pageTable.hashmapGet pid = none)
    (take : takeFrame bpm = .ok (middle, some frame))
    (read : (diskManagerReadPage pid).exec middle.diskManager = (.error rc, dm))
    (pushed : { middle with diskManager := dm }.pushFree frame = .ok after) :
    bpmFetchPage bpm pid = .ok (after, none) := by
  simp only [bpmFetchPage, absent, take, read, pushed, bind, Except.bind, pure, Except.pure]

theorem bpmNewPage_refused {newPid : Int} {dm : DiskManager}
    (allocated : diskManagerAllocatePage bpm.diskManager = .ok (newPid, dm)) (negative : newPid < 0) :
    bpmNewPage bpm = .ok ({ bpm with diskManager := dm }, none) := by
  simp only [bpmNewPage, allocated, if_pos negative, bind, Except.bind, pure, Except.pure]

/-- A new page for which no frame could be had. -/
theorem bpmNewPage_full {newPid : Int} {dm : DiskManager}
    (allocated : diskManagerAllocatePage bpm.diskManager = .ok (newPid, dm))
    (nonneg : ¬ newPid < 0)
    (full : takeFrame { bpm with diskManager := dm } = .ok ({ bpm with diskManager := dm }, none)) :
    bpmNewPage bpm = .ok ({ bpm with
      diskManager := ((diskManagerDeallocatePage (Int32.ofInt newPid)).exec dm).2 }, none) := by
  simp only [bpmNewPage, allocated, if_neg nonneg, full, bind, Except.bind, pure, Except.pure]

/-- A new page in the frame that was taken for it. -/
theorem bpmNewPage_taken {middle : BufferPoolManager} {newPid : Int} {dm : DiskManager}
    (allocated : diskManagerAllocatePage bpm.diskManager = .ok (newPid, dm))
    (nonneg : ¬ newPid < 0)
    (take : takeFrame { bpm with diskManager := dm } = .ok (middle, some frame)) :
    bpmNewPage bpm = .ok (installed { middle with diskManager :=
        ((diskManagerWritePage (Int32.ofInt newPid) zeroPage).exec middle.diskManager).2 } frame
      ⟨zeroPage, Int32.ofInt newPid, 1, false⟩, some (Int32.ofInt newPid, frame)) := by
  simp only [bpmNewPage, allocated, if_neg nonneg, take, bind, Except.bind, pure, Except.pure,
    installed, BufferPoolManager.setPage]

theorem bpmUnpinPage_refused {pid : PageId} (isDirty : Bool)
    (refused : ∀ frame, bpm.pageTable.hashmapGet pid = some frame → (bpm.pages frame).pinCount = 0) :
    bpmUnpinPage bpm pid isDirty = .ok (bpm, -1) := by
  unfold bpmUnpinPage
  split
  · rfl
  · rename_i frame found
    simp [refused frame found]

/-- The page record of `frame` with one pin less. -/
def releasedPage (bpm : BufferPoolManager) (frame : FrameId) (isDirty : Bool) : PageT :=
  { bpm.pages frame with
    pinCount := (bpm.pages frame).pinCount - 1
    isDirty := isDirty || (bpm.pages frame).isDirty }

/-- The last unpin of a page makes its frame the most recent candidate. -/
theorem PoolSound.bpmUnpinPage_last (sound : PoolSound bpm free cold hot) {pid : PageId}
    (isDirty : Bool) (found : bpm.pageTable.hashmapGet pid = some frame)
    (pinned : (bpm.pages frame).pinCount ≠ 0) (last : (bpm.pages frame).pinCount - 1 = 0) :
    ∃ replacer, bpmUnpinPage bpm pid isDirty =
        .ok (repinned bpm frame (releasedPage bpm frame isDirty) replacer, 0) ∧
      PoolSound (repinned bpm frame (releasedPage bpm frame isDirty) replacer) free
        (frame :: cold) hot := by
  obtain ⟨inside, holds, valid⟩ := sound.of_get found
  have absent : frame ∉ cold ++ hot :=
    fun member => pinned ((sound.candidateIff frame).mp member).2.2
  obtain ⟨replacer, entered, now⟩ := lruReplacerUnpin_first sound.replacer absent
  refine ⟨replacer, ?_, sound.repin (releasedPage bpm frame isDirty) rfl (holds ▸ valid) inside now
    fun other => ?_⟩
  · simp only [bpmUnpinPage, found, if_neg pinned, if_pos last, BufferPoolManager.setPage, entered,
      bind, Except.bind, pure, Except.pure, repinned, releasedPage]
  · by_cases isFrame : other = frame <;> simp [isFrame, last, releasedPage]

/-- An unpin of a page that stays pinned. -/
theorem PoolSound.bpmUnpinPage_still (sound : PoolSound bpm free cold hot) {pid : PageId}
    (isDirty : Bool) (found : bpm.pageTable.hashmapGet pid = some frame)
    (pinned : (bpm.pages frame).pinCount ≠ 0) (still : (bpm.pages frame).pinCount - 1 ≠ 0) :
    bpmUnpinPage bpm pid isDirty =
        .ok (repinned bpm frame (releasedPage bpm frame isDirty) bpm.replacer, 0) ∧
      PoolSound (repinned bpm frame (releasedPage bpm frame isDirty) bpm.replacer) free cold
        hot := by
  obtain ⟨inside, holds, valid⟩ := sound.of_get found
  have absent : frame ∉ cold ++ hot :=
    fun member => pinned ((sound.candidateIff frame).mp member).2.2
  refine ⟨?_, sound.repin (releasedPage bpm frame isDirty) rfl (holds ▸ valid) inside
    sound.replacer fun other => ?_⟩
  · simp only [bpmUnpinPage, found, if_neg pinned, if_neg still, BufferPoolManager.setPage, pure,
      Except.pure, repinned, releasedPage]
  · by_cases isFrame : other = frame
    · simpa [isFrame, still, releasedPage] using absent
    · simp [isFrame]

/-- An unpin of a pinned page. -/
theorem PoolSound.bpmUnpinPage_pinned (sound : PoolSound bpm free cold hot) {pid : PageId}
    (isDirty : Bool) (found : bpm.pageTable.hashmapGet pid = some frame)
    (pinned : (bpm.pages frame).pinCount ≠ 0) :
    ∃ replacer cold' hot',
      bpmUnpinPage bpm pid isDirty =
        .ok (repinned bpm frame (releasedPage bpm frame isDirty) replacer, 0) ∧
      PoolSound (repinned bpm frame (releasedPage bpm frame isDirty) replacer) free cold'
        hot' := by
  by_cases last : (bpm.pages frame).pinCount - 1 = 0
  · obtain ⟨replacer, ran, now⟩ := sound.bpmUnpinPage_last isDirty found pinned last
    exact ⟨replacer, _, _, ran, now⟩
  · exact ⟨_, _, _, sound.bpmUnpinPage_still isDirty found pinned last⟩

/-! ## A fresh pool -/

theorem initFreeList_holds (count : Nat) :
    ∃ freeNodes freeList, initFreeList count = .ok (freeNodes, freeList) ∧
      freeList.sentinel = .sentinel ∧
      ListHolds freeNodes freeList ((List.range count).map .frame) := by
  induction count with
  | zero => exact ⟨_, _, rfl, rfl, listInit_holds _ _⟩
  | succ count ih =>
      obtain ⟨freeNodes, freeList, init, sentinel, holds⟩ := ih
      have absent : FreeNode.frame count ∉ freeList.sentinel :: (List.range count).map .frame := by
        rw [sentinel]
        exact notMem_sentinel_frames (by simp)
      obtain ⟨links, pushed, list, _⟩ := holds.pushBack absent
      refine ⟨links, ⟨freeList.sentinel, freeList.size + 1⟩, ?_, sentinel, ?_⟩
      · simp only [initFreeList, init, bind, Except.bind, pushed]
      · rw [List.range_succ, List.map_append]
        exact list

/-- `bpm_init` leaves every frame free. -/
theorem bpmInit_sound (poolSize : Nat) (dm : DiskManager) :
    ∃ bpm, bpmInit poolSize dm = .ok bpm ∧ PoolSound bpm (List.range poolSize) [] [] ∧
      bpm.poolSize = poolSize ∧ bpm.diskManager = dm ∧
      ∀ frame, bpm.pages frame = ⟨zeroPage, invalidPageId, 0, false⟩ := by
  obtain ⟨freeNodes, freeList, init, sentinel, holds⟩ := initFreeList_holds poolSize
  refine ⟨_, by simp only [bpmInit, init, bind, Except.bind, pure, Except.pure]; rfl,
    ⟨⟨lruReplacerInit_holds poolSize, ?_, by simp, by simp⟩, ⟨sentinel, holds, by simp⟩, by simp⟩,
    rfl, rfl, fun _ => rfl⟩
  intro pid frame
  simp only [Hashmap.hashmapGet_init]
  constructor
  · simp
  · rintro ⟨_, same, valid⟩
    exact absurd same.symm valid

end MiniSqlite.Buffer
