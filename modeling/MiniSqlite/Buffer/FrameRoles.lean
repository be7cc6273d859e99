import MiniSqlite.Buffer.PoolSound
import MiniSqlite.Std.Run
import Mathlib.Data.List.Perm.Lattice

/-!
# The roles of frames

`OneRole` says that every frame of a buffer pool is either on the free list or
holds a page that the page table finds. A call leaves every frame in one role
unless it evicts a page, whose frame `evict_page` both frees and hands out, or
is given the id of a page that is already in the pool.
-/

namespace MiniSqlite.Buffer

open MiniSqlite.Common MiniSqlite.Std MiniSqlite.Storage

/-- A call on the pool. -/
inductive BpmOp where
  | fetch (pageId : PageId)
  | new
  | unpin (pageId : PageId) (isDirty : Bool)
  | flush (pageId : PageId)
  | flushAll

/-- The pool after a call. -/
def bpmCall (bpm : BufferPoolManager) : BpmOp → Except Fault BufferPoolManager
  | .fetch pageId => (bpmFetchPage bpm pageId).map Prod.fst
  | .new => (bpmNewPage bpm).map Prod.fst
  | .unpin pageId isDirty => (bpmUnpinPage bpm pageId isDirty).map Prod.fst
  | .flush pageId => .ok (bpmFlushPage bpm pageId).1
  | .flushAll => .ok (bpmFlushAll bpm)

/-- The frames met by following the free list for as many nodes as its size says. -/
def framesFrom (links : Links FreeNode) : Nat → Option FreeNode → List FrameId
  | count + 1, some (.frame frameId) =>
      frameId :: framesFrom links count (links.next (.frame frameId))
  | _, _ => []

/-- The frames on the free list. -/
def freeFrames (bpm : BufferPoolManager) : List FrameId :=
  framesFrom bpm.freeNodes bpm.freeList.size (bpm.freeNodes.next bpm.freeList.sentinel)

/-- The frame is one the replacer may evict. -/
def isCandidate (bpm : BufferPoolManager) (frameId : FrameId) : Bool :=
  (bpm.replacer.frameMap.hashmapGet frameId).isSome

/-- Every frame has exactly one role. -/
structure OneRole (bpm : BufferPoolManager) : Prop where
  /-- Free, exactly once, without a page, or holding the page the table finds there. -/
  role : ∀ frame < bpm.poolSize,
    ((freeFrames bpm).count frame = 1 ∧ (bpm.pages frame).pageId = invalidPageId ∧
        ∀ pid, bpm.pageTable.hashmapGet pid ≠ some frame) ∨
      (frame ∉ freeFrames bpm ∧ (bpm.pages frame).pageId ≠ invalidPageId ∧
        ∀ pid, bpm.pageTable.hashmapGet pid = some frame ↔ pid = (bpm.pages frame).pageId)
  freeInside : ∀ frame ∈ freeFrames bpm, frame < bpm.poolSize
  residentInside : ∀ pid frame, bpm.pageTable.hashmapGet pid = some frame → frame < bpm.poolSize
  counts : (freeFrames bpm).length + bpm.pageTable.size = bpm.poolSize
  injective : ∀ pid other frame, bpm.pageTable.hashmapGet pid = some frame →
    bpm.pageTable.hashmapGet other = some frame → pid = other
  pinned : ∀ frame < bpm.poolSize, 0 < (bpm.pages frame).pinCount →
    frame ∉ freeFrames bpm ∧ isCandidate bpm frame = false

/-- No pinned frame has been handed to another page. -/
def PinnedKept (before after : BufferPoolManager) : Prop :=
  ∀ frame < before.poolSize, 0 < (before.pages frame).pinCount →
    (after.pages frame).pageId = (before.pages frame).pageId

/-- The call ends with every frame in one role and pinned frames where they were,
unless page ids have run out. -/
def KeepsRoles (bpm : BufferPoolManager) (op : BpmOp) : Prop :=
  match bpmCall bpm op with
  | .ok after => OneRole after ∧ PinnedKept bpm after
  | .error fault => fault = .overflow

/-- Nothing is free and some page can be evicted. -/
def evicts (bpm : BufferPoolManager) : Bool :=
  bpm.freeList.size == 0 && 0 < bpm.replacer.size

/-- The call evicts no page and is not given the id of a page in the pool. -/
def SparesFrames (bpm : BufferPoolManager) : BpmOp → Prop
  | .fetch pageId => bpm.pageTable.hashmapGet pageId = none → evicts bpm = false
  | .new => ∀ newPid dm, diskManagerAllocatePage bpm.diskManager = .ok (newPid, dm) → 0 ≤ newPid →
      evicts bpm = false ∧
        (bpm.freeList.size ≠ 0 → bpm.pageTable.hashmapGet (Int32.ofInt newPid) = none)
  | _ => True

/-- The pool after a call, or as it was if the page count overflows. -/
def bpmStep (bpm : BufferPoolManager) (op : BpmOp) : BufferPoolManager :=
  match bpmCall bpm op with
  | .ok after => after
  | .error _ => bpm

/-! ## One role each -/

/-- All structures agree, and no frame on the free list holds a page. -/
structure Settled (bpm : BufferPoolManager) (free cold hot : List FrameId) : Prop extends
    PoolSound bpm free cold hot where
  freeUnheld : ∀ frame ∈ free, (bpm.pages frame).pageId = invalidPageId

variable {bpm after : BufferPoolManager} {frame : FrameId} {free cold hot : List FrameId}

theorem framesFrom_segment {links : Links FreeNode} {first last : FreeNode}
    {frames : List FrameId} (segment : Segment links first (frames.map .frame) last) :
    framesFrom links frames.length (links.next first) = frames := by
  induction frames generalizing first with
  | nil => simp [framesFrom]
  | cons frame frames ih =>
      obtain ⟨⟨next, _⟩, rest⟩ := segment
      rw [next]
      simp only [List.length_cons, framesFrom]
      rw [ih rest]

theorem FreeHolds.size (holds : FreeHolds bpm free) : bpm.freeList.size = free.length := by
  simpa using holds.list.size

theorem FreeHolds.freeFrames_eq (holds : FreeHolds bpm free) : freeFrames bpm = free := by
  unfold freeFrames
  rw [holds.size]
  exact framesFrom_segment holds.list.ring.segment

theorem LruHolds.mapped {replacer : LruReplacer} (holds : LruHolds replacer cold hot)
    (frame : FrameId) : (replacer.frameMap.hashmapGet frame).isSome = true ↔ frame ∈ cold ++ hot := by
  obtain ⟨address, holds⟩ := holds
  rw [holds.mapped]
  split <;> simp_all

theorem Settled.mem_free_iff (settled : Settled bpm free cold hot) : frame ∈ free ↔
    frame < bpm.poolSize ∧ (bpm.pages frame).pageId = invalidPageId :=
  ⟨fun member => ⟨settled.inside frame member, settled.freeUnheld frame member⟩,
    fun unheld => settled.unheldFree frame unheld.1 unheld.2⟩

theorem mem_entries_iff_get {pid : PageId} : (pid, frame) ∈ bpm.pageTable.entries ↔
    bpm.pageTable.hashmapGet pid = some frame := by
  constructor
  · exact fun member => Hashmap.hashmapGet_of_mem member
  · intro found
    obtain ⟨⟨key, value⟩, member, equal, rfl⟩ := Hashmap.exists_mem_of_hashmapGet found
    have same : key = pid := by simpa [pageKeys] using equal
    exact same ▸ member

/-- The page table has one entry for every frame that is not free. -/
theorem Settled.counts (settled : Settled bpm free cold hot) :
    free.length + bpm.pageTable.size = bpm.poolSize := by
  have holder : ∀ entry ∈ bpm.pageTable.entries, entry.2 < bpm.poolSize ∧
      (bpm.pages entry.2).pageId = entry.1 ∧ entry.1 ≠ invalidPageId :=
    fun entry member => settled.of_get (mem_entries_iff_get.mp member)
  have nodup : (bpm.pageTable.entries.map Prod.snd).Nodup := by
    rw [List.Nodup, List.pairwise_map]
    refine bpm.pageTable.entries_pairwise.imp_of_mem ?_
    intro first second firstMem secondMem differ same
    have ids : first.1 = second.1 := by
      rw [← (holder first firstMem).2.1, ← (holder second secondMem).2.1, same]
    simp [pageKeys, ids] at differ
  have apart : ∀ frame ∈ free, frame ∉ bpm.pageTable.entries.map Prod.snd := by
    intro frame member inTable
    obtain ⟨entry, entryMem, rfl⟩ := List.mem_map.mp inTable
    obtain ⟨_, ids, valid⟩ := holder entry entryMem
    exact valid (ids.symm.trans (settled.freeUnheld _ member))
  have all : (free ++ bpm.pageTable.entries.map Prod.snd).Perm (List.range bpm.poolSize) := by
    rw [List.perm_ext_iff_of_nodup _ List.nodup_range]
    · intro frame
      rw [List.mem_append, List.mem_range]
      constructor
      · rintro (isFree | inTable)
        · exact settled.inside frame isFree
        · obtain ⟨entry, entryMem, rfl⟩ := List.mem_map.mp inTable
          exact (holder entry entryMem).1
      · intro inside
        by_cases unheld : (bpm.pages frame).pageId = invalidPageId
        · exact .inl (settled.unheldFree frame inside unheld)
        · refine .inr (List.mem_map.mpr ⟨((bpm.pages frame).pageId, frame), ?_, rfl⟩)
          exact mem_entries_iff_get.mpr ((settled.tableIff _ frame).mpr ⟨inside, rfl, unheld⟩)
    · rw [List.nodup_append]
      refine ⟨settled.toFreeHolds.nodup, nodup, ?_⟩
      intro first firstMem second secondMem same
      exact apart first firstMem (same ▸ secondMem)
  have length := all.length_eq
  rw [List.length_append, List.length_map, List.length_range] at length
  rw [Hashmap.size_eq_length_entries]
  exact length

theorem Settled.oneRole (settled : Settled bpm free cold hot) : OneRole bpm := by
  have frames := settled.toFreeHolds.freeFrames_eq
  refine ⟨?_, ?_, ?_, ?_, ?_, ?_⟩
  · intro frame inside
    rw [frames]
    by_cases unheld : (bpm.pages frame).pageId = invalidPageId
    · have member := settled.mem_free_iff.mpr ⟨inside, unheld⟩
      refine .inl ⟨List.count_eq_one_of_mem settled.toFreeHolds.nodup member, unheld, ?_⟩
      intro pid found
      obtain ⟨_, ids, valid⟩ := settled.of_get found
      exact valid (ids.symm.trans unheld)
    · refine .inr ⟨fun member => unheld (settled.freeUnheld frame member), unheld, ?_⟩
      intro pid
      rw [settled.tableIff]
      constructor
      · exact fun found => found.2.1.symm
      · rintro rfl
        exact ⟨inside, rfl, unheld⟩
  · exact frames ▸ settled.inside
  · exact fun pid frame found => (settled.of_get found).1
  · rw [frames]
    exact settled.counts
  · intro pid other frame first second
    exact (settled.of_get first).2.1.symm.trans (settled.of_get second).2.1
  · intro frame inside pinned
    rw [frames]
    constructor
    · intro member
      have := settled.unheldUnpinned frame inside (settled.freeUnheld frame member)
      omega
    · rw [isCandidate, Bool.eq_false_iff, ne_eq, settled.replacer.mapped]
      intro member
      have := ((settled.candidateIff frame).mp member).2.2
      omega

/-! ## One call -/

theorem LruHolds.size {replacer : LruReplacer} (holds : LruHolds replacer cold hot) :
    replacer.size = cold.length + hot.length := by
  obtain ⟨_, holds⟩ := holds
  exact holds.size

theorem PoolSound.evicts_iff (sound : PoolSound bpm free cold hot) :
    evicts bpm = true ↔ free = [] ∧ ∃ frame, lruVictim cold hot = some frame := by
  have candidates : 0 < bpm.replacer.size ↔ ∃ frame, lruVictim cold hot = some frame := by
    rw [sound.replacer.size]
    constructor
    · intro positive
      cases victim : lruVictim cold hot with
      | some frame => exact ⟨frame, rfl⟩
      | none =>
          have empty := congrArg List.length (lruVictim_eq_none victim)
          simp at empty
          simp [empty] at positive
    · rintro ⟨frame, victim⟩
      have := List.length_pos_of_mem (lruVictim_mem victim)
      simpa using this
  simp [evicts, sound.toFreeHolds.size, candidates]

/-- Without an eviction, a page that is not in the pool gets a free frame or none. -/
theorem PoolSound.not_evicts (sound : PoolSound bpm free cold hot) (spared : evicts bpm = false) :
    (∃ frame rest, free = frame :: rest) ∨ free = [] ∧ takeFrame bpm = .ok (bpm, none) := by
  cases free with
  | cons frame rest => exact .inl ⟨frame, rest, rfl⟩
  | nil =>
      cases victim : lruVictim cold hot with
      | none => exact .inr ⟨rfl, sound.takeFrame_none victim⟩
      | some frame =>
          have := sound.evicts_iff.mpr ⟨rfl, frame, victim⟩
          rw [spared] at this
          exact absurd this (by simp)

theorem Settled.congr (settled : Settled bpm free cold hot) (same : SameRoles bpm after) :
    Settled after free cold hot where
  toPoolSound := settled.toPoolSound.congr same
  freeUnheld frame member := (same.pageId frame).trans (settled.freeUnheld frame member)

theorem SameRoles.pinnedKept (same : SameRoles bpm after) : PinnedKept bpm after :=
  fun frame _ _ => same.pageId frame

theorem repinned_pageId (pinCount : Nat) (isDirty : Bool) (replacer : LruReplacer)
    (other : FrameId) :
    ((repinned bpm frame { bpm.pages frame with pinCount := pinCount, isDirty := isDirty }
      replacer).pages other).pageId = (bpm.pages other).pageId := by
  by_cases isFrame : other = frame <;> simp [repinned, BufferPoolManager.setPage, isFrame]

/-- What a call that shares no frame leaves behind. -/
def StaysSettled (bpm : BufferPoolManager) (outcome : Except Fault BufferPoolManager) : Prop :=
  match outcome with
  | .ok after => (∃ free cold hot, Settled after free cold hot) ∧ PinnedKept bpm after
  | .error fault => fault = .overflow

/-- A page put into a free frame. -/
theorem Settled.install (settled : Settled bpm (frame :: free) cold hot)
    {freeNodes : Links FreeNode} {freeList : ListT FreeNode} (dm : DiskManager)
    (taken : FrameTaken (withFree bpm freeNodes freeList) frame free cold hot) {page : PageT}
    (valid : page.pageId ≠ invalidPageId) (pinned : page.pinCount ≠ 0)
    (absent : bpm.pageTable.hashmapGet page.pageId = none) :
    StaysSettled bpm
      (.ok (installed { withFree bpm freeNodes freeList with diskManager := dm } frame page)) := by
  have withDisk := taken.congr (sameRoles_withDisk _ dm)
  have notFree : ∀ other ∈ free, other ≠ frame :=
    fun other member same => (List.nodup_cons.mp settled.toFreeHolds.nodup).1 (same ▸ member)
  refine ⟨⟨free, cold, hot, withDisk.install valid pinned absent, ?_⟩, ?_⟩
  · intro other member
    have unheld := settled.freeUnheld other (List.mem_cons_of_mem _ member)
    simpa [installed, BufferPoolManager.setPage, withFree, notFree other member] using unheld
  · intro other inside pins
    have differ : other ≠ frame := by
      rintro rfl
      have := settled.unheldUnpinned other inside (settled.freeUnheld other List.mem_cons_self)
      omega
    simp [installed, BufferPoolManager.setPage, withFree, differ]

theorem Settled.fetch (settled : Settled bpm free cold hot) {pageId : PageId}
    (spared : SparesFrames bpm (.fetch pageId)) :
    StaysSettled bpm (bpmCall bpm (.fetch pageId)) := by
  cases found : bpm.pageTable.hashmapGet pageId with
  | some frame =>
      obtain ⟨replacer, fetched, sound⟩ := settled.toPoolSound.bpmFetchPage_hit found
      rw [bpmCall, fetched]
      refine ⟨⟨free, _, _, sound, ?_⟩, fun other _ _ => repinned_pageId _ _ replacer other⟩
      exact fun other member =>
        (repinned_pageId _ _ replacer other).trans (settled.freeUnheld other member)
  | none =>
      rcases settled.toPoolSound.not_evicts (spared found) with ⟨frame, rest, rfl⟩ | ⟨_, full⟩
      · obtain ⟨freeNodes, freeList, take, taken⟩ :=
          settled.toPoolSound.takeFrame_cons (settled.freeUnheld frame List.mem_cons_self)
        rcases read : (diskManagerReadPage pageId).exec bpm.diskManager with ⟨rc | data, dm⟩
        · have withDisk := taken.congr (sameRoles_withDisk _ dm)
          have notFree := (List.nodup_cons.mp settled.toFreeHolds.nodup).1
          obtain ⟨nodes, list, pushed, sound⟩ := withDisk.putBack notFree
          rw [bpmCall, bpmFetchPage_unreadable found take read pushed]
          refine ⟨⟨_, cold, hot, sound, ?_⟩, fun _ _ _ => rfl⟩
          intro other member
          refine settled.freeUnheld other ?_
          simpa [or_comm] using member
        · rw [bpmCall, bpmFetchPage_read found take read]
          exact settled.install dm taken (diskManagerReadPage_valid read) (by simp) found
      · rw [bpmCall, bpmFetchPage_full found full]
        exact ⟨⟨free, cold, hot, settled⟩, fun _ _ _ => rfl⟩

theorem Settled.new (settled : Settled bpm free cold hot) (spared : SparesFrames bpm .new) :
    StaysSettled bpm (bpmCall bpm .new) := by
  cases allocated : diskManagerAllocatePage bpm.diskManager with
  | error fault =>
      simp only [bpmCall, bpmNewPage, allocated, bind, Except.bind, Except.map]
      exact diskManagerAllocatePage_error allocated
  | ok result =>
      obtain ⟨newPid, dm⟩ := result
      have same := sameRoles_withDisk bpm dm
      by_cases negative : newPid < 0
      · rw [bpmCall, bpmNewPage_refused allocated negative]
        exact ⟨⟨free, cold, hot, settled.congr same⟩, same.pinnedKept⟩
      · have nonneg : 0 ≤ newPid := by omega
        have valid := diskManagerAllocatePage_valid allocated nonneg
        obtain ⟨spare, absent⟩ := spared newPid dm allocated nonneg
        have now := settled.congr same
        rcases now.toPoolSound.not_evicts spare with ⟨frame, rest, rfl⟩ | ⟨rfl, full⟩
        · obtain ⟨freeNodes, freeList, take, taken⟩ :=
            now.toPoolSound.takeFrame_cons (now.freeUnheld frame List.mem_cons_self)
          rw [bpmCall, bpmNewPage_taken allocated negative take]
          refine now.install _ taken valid (by simp) (absent ?_)
          rw [settled.toFreeHolds.size]
          simp
        · rw [bpmCall, bpmNewPage_full allocated negative full]
          have undone := sameRoles_withDisk bpm
            ((diskManagerDeallocatePage (Int32.ofInt newPid)).exec dm).2
          exact ⟨⟨[], cold, hot, settled.congr undone⟩, undone.pinnedKept⟩

theorem Settled.unpin (settled : Settled bpm free cold hot) (pageId : PageId) (isDirty : Bool) :
    StaysSettled bpm (bpmCall bpm (.unpin pageId isDirty)) := by
  by_cases refused : ∀ frame, bpm.pageTable.hashmapGet pageId = some frame →
      (bpm.pages frame).pinCount = 0
  · rw [bpmCall, bpmUnpinPage_refused isDirty refused]
    exact ⟨⟨free, cold, hot, settled⟩, fun _ _ _ => rfl⟩
  · push Not at refused
    obtain ⟨frame, found, pinned⟩ := refused
    obtain ⟨replacer, cold', hot', unpinned, sound⟩ :=
      settled.toPoolSound.bpmUnpinPage_pinned isDirty found pinned
    rw [bpmCall, unpinned]
    refine ⟨⟨free, cold', hot', sound, ?_⟩, fun other _ _ => repinned_pageId _ _ replacer other⟩
    exact fun other member =>
      (repinned_pageId _ _ replacer other).trans (settled.freeUnheld other member)

/-- A call that spares the frames leaves each of them in one role. -/
theorem Settled.call (settled : Settled bpm free cold hot) {op : BpmOp}
    (spared : SparesFrames bpm op) : StaysSettled bpm (bpmCall bpm op) := by
  cases op with
  | fetch pageId => exact settled.fetch spared
  | new => exact settled.new spared
  | unpin pageId isDirty => exact settled.unpin pageId isDirty
  | flush pageId =>
      have same := bpmFlushPage_sameRoles bpm pageId
      exact ⟨⟨free, cold, hot, settled.congr same⟩, same.pinnedKept⟩
  | flushAll =>
      have same := bpmFlushAll_sameRoles bpm
      exact ⟨⟨free, cold, hot, settled.congr same⟩, same.pinnedKept⟩

theorem StaysSettled.keepsRoles {op : BpmOp} (stays : StaysSettled bpm (bpmCall bpm op)) :
    KeepsRoles bpm op := by
  unfold KeepsRoles
  revert stays
  cases bpmCall bpm op with
  | ok after => exact fun ⟨⟨_, _, _, settled⟩, kept⟩ => ⟨settled.oneRole, kept⟩
  | error fault => exact id

/-! ## Frames with two roles -/

/-- A frame on the free list that holds a page breaks the rule. -/
theorem FreeHolds.not_oneRole (holds : FreeHolds bpm free) (member : frame ∈ free)
    (held : (bpm.pages frame).pageId ≠ invalidPageId) : ¬ OneRole bpm := by
  intro roles
  rcases roles.role frame (holds.inside frame member) with ⟨_, unheld, _⟩ | ⟨absent, _⟩
  · exact held unheld
  · exact absent (holds.freeFrames_eq.symm ▸ member)

/-- So does a frame put on the free list twice. -/
theorem FreeHolds.not_oneRole_twice (holds : FreeHolds bpm [frame])
    (pushed : bpm.pushFree frame = .ok after) : ¬ OneRole after := by
  obtain ⟨⟨next, prev⟩, ⟨back, last⟩⟩ := holds.list.ring.segment
  rw [holds.sentinel] at next prev back last
  have size := holds.size
  have pushed' := pushed
  simp [BufferPoolManager.pushFree, listPushBack, holds.sentinel, last, deref, bind, Except.bind,
    pure, Except.pure] at pushed'
  subst pushed'
  have twice : freeFrames { bpm with
      freeNodes := (((((bpm.freeNodes.setPrev (.frame frame) none).setNext (.frame frame)
        none).setPrev (.frame frame) (some (.frame frame))).setNext (.frame frame)
        (some .sentinel)).setNext (.frame frame) (some (.frame frame))).setPrev .sentinel
        (some (.frame frame))
      freeList := ⟨.sentinel, bpm.freeList.size + 1⟩ } = [frame, frame] := by
    simp [freeFrames, size, framesFrom, next]
  intro roles
  rcases roles.role frame (holds.inside frame List.mem_cons_self) with ⟨once, _⟩ | ⟨absent, _⟩
  · rw [twice] at once
    simp at once
  · rw [twice] at absent
    simp at absent

/-- So does a page table that finds a page in another frame than the one holding it. -/
theorem not_oneRole_moved {pid : PageId} {other : FrameId} (inside : frame < bpm.poolSize)
    (holds : (bpm.pages frame).pageId = pid) (valid : pid ≠ invalidPageId)
    (found : bpm.pageTable.hashmapGet pid = some other) (differ : other ≠ frame) :
    ¬ OneRole bpm := by
  intro roles
  rcases roles.role frame inside with ⟨_, unheld, _⟩ | ⟨_, _, table⟩
  · exact valid (holds.symm.trans unheld)
  · have here := (table pid).mpr holds.symm
    rw [found] at here
    exact differ (Option.some.inj here)

theorem bpmCall_fetch {pageId : PageId} {result : Option FrameId}
    (fetched : bpmFetchPage bpm pageId = .ok (after, result)) :
    bpmCall bpm (.fetch pageId) = .ok after := by
  rw [bpmCall, fetched]
  rfl

theorem bpmCall_new {result : Option (PageId × FrameId)}
    (created : bpmNewPage bpm = .ok (after, result)) : bpmCall bpm .new = .ok after := by
  rw [bpmCall, created]
  rfl

theorem not_keepsRoles {op : BpmOp} (called : bpmCall bpm op = .ok after)
    (broken : ¬ OneRole after) : ¬ KeepsRoles bpm op := by
  unfold KeepsRoles
  rw [called]
  exact fun kept => broken kept.1

/-- A page put into a frame that eviction left on the free list. -/
theorem FrameTaken.not_oneRole (taken : FrameTaken bpm frame free cold hot) (member : frame ∈ free)
    {page : PageT} (valid : page.pageId ≠ invalidPageId) : ¬ OneRole (installed bpm frame page) := by
  have holds : FreeHolds (installed bpm frame page) free :=
    ⟨taken.sentinel, taken.list, taken.inside⟩
  refine holds.not_oneRole member ?_
  simpa [installed, BufferPoolManager.setPage] using valid

theorem Settled.spares_fetch (settled : Settled bpm free cold hot) {pageId : PageId}
    (kept : KeepsRoles bpm (.fetch pageId)) : SparesFrames bpm (.fetch pageId) := by
  intro absent
  by_contra evicting
  rw [Bool.not_eq_false, settled.toPoolSound.evicts_iff] at evicting
  obtain ⟨rfl, frame, victim⟩ := evicting
  obtain ⟨replacer, freeNodes, freeList, take, taken⟩ :=
    settled.toPoolSound.takeFrame_victim victim
  rcases read : (diskManagerReadPage pageId).exec
    (withFree (evicted bpm frame replacer) freeNodes freeList).diskManager with ⟨rc | data, dm⟩
  · have withDisk := taken.congr (sameRoles_withDisk _ dm)
    obtain ⟨again, pushed⟩ := withDisk.toFreeHolds.pushFree_ok
    exact not_keepsRoles (bpmCall_fetch (bpmFetchPage_unreadable absent take read pushed))
      (withDisk.toFreeHolds.not_oneRole_twice pushed) kept
  · have withDisk := taken.congr (sameRoles_withDisk _ dm)
    exact not_keepsRoles (bpmCall_fetch (bpmFetchPage_read absent take read))
      (withDisk.not_oneRole List.mem_cons_self (diskManagerReadPage_valid read)) kept

theorem Settled.spares_new (settled : Settled bpm free cold hot) (kept : KeepsRoles bpm .new) :
    SparesFrames bpm .new := by
  intro newPid dm allocated nonneg
  have notNegative : ¬ newPid < 0 := by omega
  have valid := diskManagerAllocatePage_valid allocated nonneg
  have now := settled.congr (sameRoles_withDisk bpm dm)
  constructor
  · by_contra evicting
    rw [Bool.not_eq_false, settled.toPoolSound.evicts_iff] at evicting
    obtain ⟨rfl, frame, victim⟩ := evicting
    obtain ⟨replacer, freeNodes, freeList, take, taken⟩ := now.toPoolSound.takeFrame_victim victim
    have withDisk := taken.congr (sameRoles_withDisk _
      ((diskManagerWritePage (Int32.ofInt newPid) zeroPage).exec
        (withFree (evicted { bpm with diskManager := dm } frame replacer) freeNodes
          freeList).diskManager).2)
    refine not_keepsRoles (bpmCall_new (bpmNewPage_taken allocated notNegative take))
      (withDisk.not_oneRole List.mem_cons_self ?_) kept
    exact valid
  · intro nonempty
    rw [settled.toFreeHolds.size] at nonempty
    obtain ⟨frame, rest, rfl⟩ := List.exists_cons_of_length_pos (Nat.pos_of_ne_zero nonempty)
    by_contra resident
    obtain ⟨other, found⟩ := Option.ne_none_iff_exists'.mp resident
    obtain ⟨inside, holds, _⟩ := settled.of_get found
    have unheld := settled.freeUnheld frame List.mem_cons_self
    obtain ⟨freeNodes, freeList, take, _⟩ := now.toPoolSound.takeFrame_cons unheld
    have differ : frame ≠ other := by
      rintro rfl
      exact valid (holds.symm.trans unheld)
    refine not_keepsRoles (bpmCall_new (bpmNewPage_taken allocated notNegative take))
      (@not_oneRole_moved _ other (Int32.ofInt newPid) frame ?_ ?_ valid ?_ differ) kept
    · exact inside
    · simpa [installed, BufferPoolManager.setPage, withFree, Ne.symm differ] using holds
    · show (Hashmap.hashmapPut _ _ frame).hashmapGet _ = _
      rw [Hashmap.hashmapGet_put]
      simp [pageKeys]

/-- A call leaves every frame in one role exactly when it spares the frames. -/
theorem Settled.keepsRoles_iff (settled : Settled bpm free cold hot) (op : BpmOp) :
    KeepsRoles bpm op ↔ SparesFrames bpm op := by
  refine ⟨fun kept => ?_, fun spared => (settled.call spared).keepsRoles⟩
  cases op with
  | fetch pageId => exact settled.spares_fetch kept
  | new => exact settled.spares_new kept
  | _ => trivial

theorem Settled.step (settled : Settled bpm free cold hot) {op : BpmOp}
    (spared : SparesFrames bpm op) : ∃ free cold hot, Settled (bpmStep bpm op) free cold hot := by
  have stays := settled.call spared
  unfold bpmStep
  revert stays
  cases bpmCall bpm op with
  | ok after => exact fun stays => stays.1
  | error fault => exact fun _ => ⟨free, cold, hot, settled⟩

/-! ## Runs -/

/-- In every run of a fresh pool, of any size and over any disk, each call leaves
every frame in one role exactly when each call spares the frames. -/
theorem oneRole_iff_sparesFrames (poolSize : Nat) (dm : DiskManager) (ops : List BpmOp) :
    ∃ bpm, bpmInit poolSize dm = .ok bpm ∧ OneRole bpm ∧
      (EachStep bpmStep KeepsRoles bpm ops ↔ EachStep bpmStep SparesFrames bpm ops) := by
  obtain ⟨bpm, init, sound, _, _, pages⟩ := bpmInit_sound poolSize dm
  have settled : Settled bpm (List.range poolSize) [] [] :=
    ⟨sound, fun frame _ => by rw [pages]⟩
  refine ⟨bpm, init, settled.oneRole, ?_⟩
  refine @eachStep_iff _ _ bpmStep SparesFrames KeepsRoles
    (fun bpm => ∃ free cold hot, Settled bpm free cold hot) ?_ ?_ bpm ops ⟨_, _, _, settled⟩
  · rintro state op ⟨free, cold, hot, settled⟩ spared
    exact settled.step spared
  · rintro state op ⟨free, cold, hot, settled⟩
    exact settled.keepsRoles_iff op

/-- A pool of one frame over a new database file, in which a new page is evicted by another. -/
theorem evicting_new_doubles_frame : ∃ bpm, bpmInit 1 diskManagerCreate = .ok bpm ∧
    ¬ OneRole (run bpmStep bpm [.new, .unpin 1 false, .new]) := by
  refine ⟨_, rfl, fun roles => ?_⟩
  rcases roles.role 0 (by decide +kernel) with ⟨_, unheld, _⟩ | ⟨absent, _⟩
  · revert unheld
    decide +kernel
  · revert absent
    decide +kernel

end MiniSqlite.Buffer
