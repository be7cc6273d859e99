import MiniSqlite.Buffer.FrameRoles
import MiniSqlite.Storage.DiskContents

/-!
# Clients of a buffer pool

What clients see of a pool: the pages they hold pinned, each through the pointer
that fetched it, and the bytes last written to every page. `Faithful` is the
invariant that makes the pool a cache of those bytes: a frame shows the content
of its page, a clean frame agrees with the disk, and a page in no frame is on
disk.
-/

namespace MiniSqlite.Buffer

open MiniSqlite.Common MiniSqlite.Std MiniSqlite.Storage

/-- What the clients of a pool know. -/
structure PoolClients where
  /-- The pins outstanding, each with the frame its holder was given. -/
  held : List (PageId × FrameId)
  /-- The bytes last written to a page, for the pages that are the clients'. -/
  content : PageId → Option Page
  /-- Pages written to since they were last unpinned as dirty. -/
  unreported : List PageId

/-- A pool with its clients. -/
structure PoolSystem where
  bpm : BufferPoolManager
  clients : PoolClients

/-- A step of a client. -/
inductive ClientOp where
  | fetch (pageId : PageId)
  | new
  /-- Exchange the bytes of a page through the pointer held. -/
  | write (pageId : PageId) (frameId : FrameId) (data : Page)
  | unpin (pageId : PageId) (isDirty : Bool)
  | flush (pageId : PageId)
  | flushAll

namespace PoolClients

/-- A page is pinned for a client. -/
def pin (clients : PoolClients) (pageId : PageId) (frameId : FrameId) : PoolClients :=
  { clients with held := (pageId, frameId) :: clients.held }

/-- A page has other bytes. -/
def setContent (clients : PoolClients) (pageId : PageId) (data : Page) : PoolClients :=
  { clients with
    content := fun other => if other = pageId then some data else clients.content other }

/-- A client gives up its pin. -/
def unpin (clients : PoolClients) (pageId : PageId) (isDirty : Bool) : PoolClients where
  held := clients.held.eraseP fun entry => entry.1 == pageId
  content := clients.content
  unreported :=
    if isDirty then clients.unreported.filter (· != pageId) else clients.unreported

/-- How many pins of a page are outstanding. -/
def pins (clients : PoolClients) (pageId : PageId) : Nat :=
  clients.held.countP fun entry => entry.1 == pageId

@[simp] theorem pin_content (clients : PoolClients) (pageId : PageId) (frameId : FrameId) :
    (clients.pin pageId frameId).content = clients.content := rfl

@[simp] theorem unpin_content (clients : PoolClients) (pageId : PageId) (isDirty : Bool) :
    (clients.unpin pageId isDirty).content = clients.content := rfl

@[simp] theorem pin_unreported (clients : PoolClients) (pageId : PageId) (frameId : FrameId) :
    (clients.pin pageId frameId).unreported = clients.unreported := rfl

theorem pins_unpin (clients : PoolClients) (pageId other : PageId) (isDirty : Bool) :
    (clients.unpin pageId isDirty).pins other =
      clients.pins other - if pageId = other then 1 else 0 := by
  unfold unpin pins
  dsimp only
  induction clients.held with
  | nil => simp
  | cons entry held ih =>
      rw [List.eraseP_cons, List.countP_cons]
      by_cases isPage : entry.1 = pageId
      · by_cases same : pageId = other <;> simp [isPage, same]
      · simp only [beq_eq_false_iff_ne.mpr isPage, cond_false, List.countP_cons]
        rw [ih]
        by_cases same : pageId = other
        · have differ : entry.1 ≠ other := same ▸ isPage
          simp [differ]
        · simp [same]

theorem pins_pin (clients : PoolClients) (pageId other : PageId) (frameId : FrameId) :
    (clients.pin pageId frameId).pins other =
      clients.pins other + if pageId = other then 1 else 0 := by
  simp [pin, pins, List.countP_cons]

end PoolClients

/-- A step of a client, with the frame a page was fetched into. -/
def clientCall (system : PoolSystem) : ClientOp → Except Fault (PoolSystem × Option FrameId)
  | .fetch pageId => do
      let (bpm, frame) ← bpmFetchPage system.bpm pageId
      match frame with
      | some frame => return (⟨bpm, system.clients.pin pageId frame⟩, some frame)
      | none => return (⟨bpm, system.clients⟩, none)
  | .new => do
      let (bpm, created) ← bpmNewPage system.bpm
      match created with
      | some (pageId, frame) =>
          return (⟨bpm, (system.clients.setContent pageId zeroPage).pin pageId frame⟩, some frame)
      | none => return (⟨bpm, system.clients⟩, none)
  | .write pageId frameId data =>
      .ok (⟨system.bpm.setPage frameId { system.bpm.pages frameId with data := data },
        { system.clients.setContent pageId data with
          unreported := pageId :: system.clients.unreported }⟩, none)
  | .unpin pageId isDirty => do
      let (bpm, rc) ← bpmUnpinPage system.bpm pageId isDirty
      if rc = 0 then return (⟨bpm, system.clients.unpin pageId isDirty⟩, none)
      else return (⟨bpm, system.clients⟩, none)
  | .flush pageId => .ok (⟨(bpmFlushPage system.bpm pageId).1, system.clients⟩, none)
  | .flushAll => .ok (⟨bpmFlushAll system.bpm, system.clients⟩, none)

/-- The system after a step, or as it was if the page count overflows. -/
def clientStep (system : PoolSystem) (op : ClientOp) : PoolSystem :=
  match clientCall system op with
  | .ok (after, _) => after
  | .error _ => system

/-! ## A cache of the contents -/

/-- The pool caches what the clients have written. Pages in `unused` are not theirs. -/
structure Faithful (bpm : BufferPoolManager) (clients : PoolClients) (unused : List PageId) :
    Prop where
  live : ∀ pid, (clients.content pid).isSome = true ↔
    0 < pid ∧ pid < bpm.diskManager.pageCount ∧ pid ∉ unused
  resident : ∀ frame < bpm.poolSize, (bpm.pages frame).pageId ≠ invalidPageId →
    clients.content (bpm.pages frame).pageId = some (bpm.pages frame).data
  clean : ∀ frame < bpm.poolSize, (bpm.pages frame).pageId ≠ invalidPageId →
    (bpm.pages frame).isDirty = false → (bpm.pages frame).pageId ∉ clients.unreported →
    bpm.diskManager.file.page (bpm.pages frame).pageId = some (bpm.pages frame).data
  stored : ∀ pid bytes, clients.content pid = some bytes →
    (∀ frame < bpm.poolSize, (bpm.pages frame).pageId ≠ pid) →
    bpm.diskManager.file.page pid = some bytes
  pins : ∀ frame < bpm.poolSize, (bpm.pages frame).pageId ≠ invalidPageId →
    (bpm.pages frame).pinCount = clients.pins (bpm.pages frame).pageId
  held : ∀ entry ∈ clients.held, entry.2 < bpm.poolSize ∧
    (bpm.pages entry.2).pageId = entry.1 ∧ entry.1 ≠ invalidPageId
  reported : ∀ pid ∈ clients.unreported, 0 < clients.pins pid

variable {bpm after : BufferPoolManager} {frame : FrameId} {free cold hot : List FrameId}
variable {clients : PoolClients} {unused freed : List PageId}

theorem Faithful.not_unused (faithful : Faithful bpm clients unused) (inside : frame < bpm.poolSize)
    (valid : (bpm.pages frame).pageId ≠ invalidPageId) :
    0 < (bpm.pages frame).pageId ∧ (bpm.pages frame).pageId < bpm.diskManager.pageCount ∧
      (bpm.pages frame).pageId ∉ unused := by
  have present := faithful.resident frame inside valid
  exact (faithful.live _).mp (by rw [present]; rfl)

/-- A page that nobody holds and that is in no frame is on disk as last written. -/
theorem Faithful.pins_eq_zero (faithful : Faithful bpm clients unused) {pid : PageId}
    (absent : ∀ frame < bpm.poolSize, (bpm.pages frame).pageId ≠ pid) : clients.pins pid = 0 := by
  rw [PoolClients.pins, List.countP_eq_zero]
  intro entry member
  obtain ⟨inside, holds, _⟩ := faithful.held entry member
  have := absent entry.2 inside
  rw [holds] at this
  simpa using this

/-- Other free lists, page tables and replacers show the same contents. -/
theorem Faithful.congr (faithful : Faithful bpm clients unused)
    (poolSize : after.poolSize = bpm.poolSize) (pages : after.pages = bpm.pages)
    (disk : after.diskManager = bpm.diskManager) : Faithful after clients unused where
  live := by rw [disk]; exact faithful.live
  resident := by rw [poolSize, pages]; exact faithful.resident
  clean := by rw [poolSize, pages, disk]; exact faithful.clean
  stored := by rw [poolSize, pages, disk]; exact faithful.stored
  pins := by rw [poolSize, pages]; exact faithful.pins
  held := by rw [poolSize, pages]; exact faithful.held
  reported := faithful.reported

/-! ## Writing back -/

/-- Writing the content of a page to disk. -/
theorem Faithful.written (faithful : Faithful bpm clients unused) {pid : PageId} {bytes : Page}
    (present : clients.content pid = some bytes) :
    Faithful { bpm with diskManager := bpm.diskManager.written pid bytes } clients unused where
  live := faithful.live
  resident := faithful.resident
  clean frame inside valid notDirty reported := by
    by_cases same : (bpm.pages frame).pageId = pid
    · have shown := faithful.resident frame inside valid
      rw [same, present] at shown
      rw [same, ← shown]
      exact DbFile.page_write_same _ _ _
    · exact DbFile.page_write_other (faithful.clean frame inside valid notDirty reported) same _
  stored other otherBytes otherPresent absent := by
    by_cases same : other = pid
    · rw [same, present] at otherPresent
      rw [same, ← otherPresent]
      exact DbFile.page_write_same _ _ _
    · exact DbFile.page_write_other (faithful.stored other otherBytes otherPresent absent) same _
  pins := faithful.pins
  held := faithful.held
  reported := faithful.reported

/-- Changing the dirty flag of a frame whose bytes are on disk. -/
theorem Faithful.setDirty (faithful : Faithful bpm clients unused) (isDirty : Bool)
    (onDisk : isDirty = false → frame < bpm.poolSize →
      (bpm.pages frame).pageId ≠ invalidPageId → (bpm.pages frame).pageId ∉ clients.unreported →
      bpm.diskManager.file.page (bpm.pages frame).pageId = some (bpm.pages frame).data) :
    Faithful (bpm.setPage frame { bpm.pages frame with isDirty := isDirty }) clients unused := by
  have same : ∀ other,
      ((bpm.setPage frame { bpm.pages frame with isDirty := isDirty }).pages other).pageId =
        (bpm.pages other).pageId ∧
      ((bpm.setPage frame { bpm.pages frame with isDirty := isDirty }).pages other).data =
        (bpm.pages other).data ∧
      ((bpm.setPage frame { bpm.pages frame with isDirty := isDirty }).pages other).pinCount =
        (bpm.pages other).pinCount := by
    intro other
    by_cases isFrame : other = frame <;> simp [BufferPoolManager.setPage, isFrame]
  refine ⟨faithful.live, ?_, ?_, ?_, ?_, ?_, faithful.reported⟩
  · intro other inside
    rw [(same other).1, (same other).2.1]
    exact faithful.resident other inside
  · intro other inside
    rw [(same other).1, (same other).2.1]
    by_cases isFrame : other = frame
    · subst isFrame
      intro valid notDirty reported
      exact onDisk (by simpa [BufferPoolManager.setPage] using notDirty) inside valid reported
    · simpa [BufferPoolManager.setPage, isFrame] using faithful.clean other inside
  · intro pid bytes present absent
    exact faithful.stored pid bytes present fun other inside => (same other).1 ▸ absent other inside
  · intro other inside
    rw [(same other).1, (same other).2.2]
    exact faithful.pins other inside
  · intro entry member
    rw [(same entry.2).1]
    exact faithful.held entry member

/-- The disk manager accepts a page that a frame holds. -/
theorem Faithful.writePage (faithful : Faithful bpm clients unused)
    (healthy : Healthy bpm.diskManager freed) (listed : freed ⊆ unused) (inside : frame < bpm.poolSize)
    (valid : (bpm.pages frame).pageId ≠ invalidPageId) :
    (diskManagerWritePage (bpm.pages frame).pageId (bpm.pages frame).data).exec bpm.diskManager =
        (.ok (), bpm.diskManager.written (bpm.pages frame).pageId (bpm.pages frame).data) ∧
      Healthy (bpm.diskManager.written (bpm.pages frame).pageId (bpm.pages frame).data) freed := by
  obtain ⟨positive, below, notUnused⟩ := faithful.not_unused inside valid
  exact ⟨healthy.writePage (Int32.le_of_lt positive) below _,
    healthy.written (fun member => notUnused (listed member)) _⟩

/-- The pool after the page of a frame was written to disk and marked clean. -/
def cleaned (bpm : BufferPoolManager) (frame : FrameId) : BufferPoolManager :=
  { bpm with diskManager :=
      bpm.diskManager.written (bpm.pages frame).pageId (bpm.pages frame).data }.setPage frame
    { bpm.pages frame with isDirty := false }

theorem Faithful.cleaned (faithful : Faithful bpm clients unused) (inside : frame < bpm.poolSize)
    (valid : (bpm.pages frame).pageId ≠ invalidPageId) :
    Faithful (cleaned bpm frame) clients unused := by
  have onDisk := faithful.written (faithful.resident frame inside valid)
  exact onDisk.setDirty false fun _ _ _ _ => DbFile.page_write_same _ _ _

theorem Faithful.writeIfDirty_eq (faithful : Faithful bpm clients unused)
    (healthy : Healthy bpm.diskManager freed) (listed : freed ⊆ unused) (inside : frame < bpm.poolSize)
    (valid : (bpm.pages frame).pageId ≠ invalidPageId) :
    writeIfDirty bpm frame =
      if (bpm.pages frame).isDirty then Buffer.cleaned bpm frame else bpm := by
  simp only [writeIfDirty, (faithful.writePage healthy listed inside valid).1, Buffer.cleaned]

/-- What a frame that was dirty, if it was, is afterwards. -/
theorem Faithful.writeIfDirty (faithful : Faithful bpm clients unused)
    (healthy : Healthy bpm.diskManager freed) (listed : freed ⊆ unused)
    (inside : frame < bpm.poolSize) (valid : (bpm.pages frame).pageId ≠ invalidPageId) :
    Faithful (writeIfDirty bpm frame) clients unused ∧
      Healthy (Buffer.writeIfDirty bpm frame).diskManager freed ∧
      (Buffer.writeIfDirty bpm frame).diskManager.pageCount = bpm.diskManager.pageCount ∧
      (Buffer.writeIfDirty bpm frame).pages frame = { bpm.pages frame with isDirty := false } ∧
      ∀ other, other ≠ frame → (Buffer.writeIfDirty bpm frame).pages other = bpm.pages other := by
  rw [faithful.writeIfDirty_eq healthy listed inside valid]
  cases dirty : (bpm.pages frame).isDirty with
  | true =>
      refine ⟨faithful.cleaned inside valid, (faithful.writePage healthy listed inside valid).2,
        rfl, ?_, ?_⟩
      · simp [Buffer.cleaned, BufferPoolManager.setPage]
      · intro other differ
        simp [Buffer.cleaned, BufferPoolManager.setPage, differ]
  | false =>
      have same : { bpm.pages frame with isDirty := false } = bpm.pages frame := by rw [← dirty]
      exact ⟨faithful, healthy, rfl, same.symm, fun _ _ => rfl⟩

theorem Faithful.flushFrames (frames : List FrameId) (inside : ∀ frame ∈ frames, frame < bpm.poolSize)
    (faithful : Faithful bpm clients freed) (healthy : Healthy bpm.diskManager freed) :
    Faithful (frames.foldl flushFrame bpm) clients freed ∧
      Healthy (frames.foldl flushFrame bpm).diskManager freed ∧
      ∀ frame, frame ∈ frames ∨ (bpm.pages frame).isDirty = false →
        (bpm.pages frame).pageId ≠ invalidPageId →
        ((frames.foldl flushFrame bpm).pages frame).isDirty = false := by
  induction frames generalizing bpm with
  | nil => exact ⟨faithful, healthy, fun _ clean _ => clean.resolve_left (by simp)⟩
  | cons first frames ih =>
      have same := flushFrame_sameRoles bpm first
      have firstInside := inside first List.mem_cons_self
      have step : Faithful (flushFrame bpm first) clients freed ∧
          Healthy (flushFrame bpm first).diskManager freed ∧
          ∀ frame, frame = first ∨ (bpm.pages frame).isDirty = false →
            (bpm.pages frame).pageId ≠ invalidPageId →
            ((flushFrame bpm first).pages frame).isDirty = false := by
        unfold flushFrame
        by_cases valid : (bpm.pages first).pageId ≠ invalidPageId
        · rw [if_pos valid]
          obtain ⟨kept, stillHealthy, _, here, others⟩ :=
            faithful.writeIfDirty healthy (List.Subset.refl _) firstInside valid
          refine ⟨kept, stillHealthy, ?_⟩
          intro frame clean _
          by_cases isFirst : frame = first
          · rw [isFirst, here]
          · rw [others frame isFirst]
            exact clean.resolve_left isFirst
        · rw [if_neg valid]
          refine ⟨faithful, healthy, ?_⟩
          rintro frame (rfl | clean) held
          · exact absurd held valid
          · exact clean
      obtain ⟨kept, stillHealthy, clean⟩ :=
        ih (fun frame member => same.poolSize ▸ inside frame (List.mem_cons_of_mem _ member))
          step.1 step.2.1
      refine ⟨kept, stillHealthy, ?_⟩
      intro frame listed valid
      have validAfter : ((flushFrame bpm first).pages frame).pageId ≠ invalidPageId :=
        (same.pageId frame).symm ▸ valid
      refine clean frame ?_ validAfter
      rcases listed with member | notDirty
      · rcases List.mem_cons.mp member with isFirst | later
        · exact .inr (step.2.2 frame (.inl isFirst) valid)
        · exact .inl later
      · exact .inr (step.2.2 frame (.inr notDirty) valid)

/-! ## Frames changing hands -/

/-- A clean frame nobody holds can forget its page. -/
theorem Faithful.forget (faithful : Faithful bpm clients unused) (inside : frame < bpm.poolSize)
    (valid : (bpm.pages frame).pageId ≠ invalidPageId) (notDirty : (bpm.pages frame).isDirty = false)
    (unpinned : (bpm.pages frame).pinCount = 0) :
    Faithful (bpm.setPage frame
      { bpm.pages frame with pageId := invalidPageId, pinCount := 0, isDirty := false })
      clients unused := by
  have none_held : clients.pins (bpm.pages frame).pageId = 0 :=
    (faithful.pins frame inside valid).symm.trans unpinned
  refine ⟨faithful.live, ?_, ?_, ?_, ?_, ?_, faithful.reported⟩
  · intro other otherInside
    by_cases isFrame : other = frame
    · simp [BufferPoolManager.setPage, isFrame]
    · simpa [BufferPoolManager.setPage, isFrame] using faithful.resident other otherInside
  · intro other otherInside
    by_cases isFrame : other = frame
    · simp [BufferPoolManager.setPage, isFrame]
    · simpa [BufferPoolManager.setPage, isFrame] using faithful.clean other otherInside
  · intro pid bytes present absent
    by_cases same : (bpm.pages frame).pageId = pid
    · have reported : (bpm.pages frame).pageId ∉ clients.unreported := by
        intro member
        have := faithful.reported _ member
        omega
      have onDisk := faithful.clean frame inside valid notDirty reported
      have shown := faithful.resident frame inside valid
      rw [same] at onDisk shown
      rw [present] at shown
      rw [shown]
      exact onDisk
    · refine faithful.stored pid bytes present ?_
      intro other otherInside
      by_cases isFrame : other = frame
      · rwa [isFrame]
      · simpa [BufferPoolManager.setPage, isFrame] using absent other otherInside
  · intro other otherInside
    by_cases isFrame : other = frame
    · simp [BufferPoolManager.setPage, isFrame]
    · simpa [BufferPoolManager.setPage, isFrame] using faithful.pins other otherInside
  · intro entry member
    have isOther : entry.2 ≠ frame := by
      intro isFrame
      obtain ⟨_, holds, _⟩ := faithful.held entry member
      rw [isFrame] at holds
      rw [holds] at none_held
      rw [PoolClients.pins, List.countP_eq_zero] at none_held
      exact none_held entry member (by simp)
    simpa [BufferPoolManager.setPage, isOther] using faithful.held entry member

/-- What is left after an eviction. -/
theorem Faithful.evicted (faithful : Faithful bpm clients unused)
    (healthy : Healthy bpm.diskManager freed) (listed : freed ⊆ unused)
    (inside : frame < bpm.poolSize) (valid : (bpm.pages frame).pageId ≠ invalidPageId) (unpinned : (bpm.pages frame).pinCount = 0)
    (replacer : LruReplacer) :
    Faithful (evicted bpm frame replacer) clients unused ∧
      Healthy (Buffer.evicted bpm frame replacer).diskManager freed ∧
      (Buffer.evicted bpm frame replacer).diskManager.pageCount = bpm.diskManager.pageCount := by
  have faithful' : Faithful { bpm with replacer := replacer } clients unused :=
    faithful.congr rfl rfl rfl
  obtain ⟨kept, stillHealthy, count, here, _⟩ :=
    faithful'.writeIfDirty healthy listed inside valid
  have same := writeIfDirty_sameRoles { bpm with replacer := replacer } frame
  have without : Faithful
      { Buffer.writeIfDirty { bpm with replacer := replacer } frame with
        pageTable := (Buffer.writeIfDirty { bpm with replacer := replacer } frame).pageTable.hashmapRemove
          ((Buffer.writeIfDirty { bpm with replacer := replacer } frame).pages frame).pageId }
      clients unused := kept.congr rfl rfl rfl
  have insideStill : frame < (Buffer.writeIfDirty { bpm with replacer := replacer } frame).poolSize :=
    same.poolSize.symm ▸ inside
  refine ⟨without.forget insideStill ?_ ?_ ?_, stillHealthy, count⟩
  · exact (same.pageId frame).symm ▸ valid
  · show ((Buffer.writeIfDirty _ frame).pages frame).isDirty = false
    rw [here]
  · exact (same.pinCount frame).trans unpinned

/-- A page read from disk into a frame without a page, for a client. -/
theorem Faithful.install (faithful : Faithful bpm clients unused) {pid : PageId} {data : Page}
    (inside : frame < bpm.poolSize) (valid : pid ≠ invalidPageId)
    (unheld : (bpm.pages frame).pageId = invalidPageId)
    (absent : ∀ other < bpm.poolSize, (bpm.pages other).pageId ≠ pid)
    (present : clients.content pid = some data)
    (onDisk : bpm.diskManager.file.page pid = some data) :
    Faithful (installed bpm frame ⟨data, pid, 1, false⟩) (clients.pin pid frame) unused := by
  have fresh := faithful.pins_eq_zero absent
  refine ⟨faithful.live, ?_, ?_, ?_, ?_, ?_, ?_⟩
  · intro other otherInside
    by_cases isFrame : other = frame
    · intro _
      simpa [installed, BufferPoolManager.setPage, isFrame] using present
    · simpa [installed, BufferPoolManager.setPage, isFrame] using
        faithful.resident other otherInside
  · intro other otherInside
    by_cases isFrame : other = frame
    · intro _ _ _
      simpa [installed, BufferPoolManager.setPage, isFrame] using onDisk
    · simpa [installed, BufferPoolManager.setPage, isFrame] using faithful.clean other otherInside
  · intro other bytes otherPresent otherAbsent
    rw [PoolClients.pin_content] at otherPresent
    refine faithful.stored other bytes otherPresent ?_
    intro holder holderInside
    by_cases isFrame : holder = frame
    · intro same
      rw [isFrame, unheld] at same
      have := (faithful.live other).mp (by rw [otherPresent]; rfl)
      rw [← same] at this
      exact absurd this.1 (by decide)
    · simpa [installed, BufferPoolManager.setPage, isFrame] using otherAbsent holder holderInside
  · intro other otherInside
    rw [PoolClients.pins_pin]
    by_cases isFrame : other = frame
    · intro _
      simp [installed, BufferPoolManager.setPage, isFrame, fresh]
    · have differ : pid ≠ (bpm.pages other).pageId := (absent other otherInside).symm
      simpa [installed, BufferPoolManager.setPage, isFrame, differ] using
        faithful.pins other otherInside
  · intro entry member
    rcases List.mem_cons.mp member with rfl | old
    · simpa [installed, BufferPoolManager.setPage, valid] using inside
    · obtain ⟨entryInside, holds, entryValid⟩ := faithful.held entry old
      have isOther : entry.2 ≠ frame := by
        intro isFrame
        rw [isFrame, unheld] at holds
        exact entryValid holds.symm
      simpa [installed, BufferPoolManager.setPage, isOther] using ⟨entryInside, holds, entryValid⟩
  · intro other member
    rw [PoolClients.pins_pin]
    have := faithful.reported other member
    omega

/-! ## Pins and writes -/

/-- A further pin of a page that one frame holds. -/
theorem Faithful.pin (faithful : Faithful bpm clients unused) {pid : PageId}
    (inside : frame < bpm.poolSize) (holds : (bpm.pages frame).pageId = pid)
    (valid : pid ≠ invalidPageId)
    (unique : ∀ other < bpm.poolSize, (bpm.pages other).pageId = pid → other = frame)
    (replacer : LruReplacer) :
    Faithful (repinned bpm frame
      { bpm.pages frame with pinCount := (bpm.pages frame).pinCount + 1 } replacer)
      (clients.pin pid frame) unused := by
  refine ⟨faithful.live, ?_, ?_, ?_, ?_, ?_, ?_⟩
  · intro other otherInside
    have := faithful.resident other otherInside
    by_cases isFrame : other = frame <;>
      simpa [repinned, BufferPoolManager.setPage, isFrame] using this
  · intro other otherInside
    have := faithful.clean other otherInside
    by_cases isFrame : other = frame <;>
      simpa [repinned, BufferPoolManager.setPage, isFrame] using this
  · intro other bytes present absent
    refine faithful.stored other bytes present ?_
    intro holder holderInside
    have := absent holder holderInside
    by_cases isFrame : holder = frame <;>
      simpa [repinned, BufferPoolManager.setPage, isFrame] using this
  · intro other otherInside
    rw [PoolClients.pins_pin]
    have counted := faithful.pins other otherInside
    by_cases isFrame : other = frame
    · subst isFrame
      simpa [repinned, BufferPoolManager.setPage, holds] using counted
    · have differ : pid ≠ (bpm.pages other).pageId :=
        fun same => isFrame (unique other otherInside same.symm)
      simpa [repinned, BufferPoolManager.setPage, isFrame, differ] using counted
  · intro entry member
    have kept : ((repinned bpm frame
        { bpm.pages frame with pinCount := (bpm.pages frame).pinCount + 1 } replacer).pages
        entry.2).pageId = (bpm.pages entry.2).pageId := repinned_pageId _ _ replacer entry.2
    rw [kept]
    rcases List.mem_cons.mp member with rfl | old
    · exact ⟨inside, holds, valid⟩
    · exact faithful.held entry old
  · intro other member
    rw [PoolClients.pins_pin]
    have := faithful.reported other member
    omega

/-- A client gives up a pin; the last one to do so has reported what was written. -/
theorem Faithful.unpin (faithful : Faithful bpm clients unused) {pid : PageId}
    (holds : (bpm.pages frame).pageId = pid)
    (unique : ∀ other < bpm.poolSize, (bpm.pages other).pageId = pid → other = frame)
    (isDirty : Bool) (last : clients.pins pid ≤ 1 → isDirty = true ∨ pid ∉ clients.unreported)
    (replacer : LruReplacer) :
    Faithful (repinned bpm frame
      { bpm.pages frame with
        pinCount := (bpm.pages frame).pinCount - 1
        isDirty := isDirty || (bpm.pages frame).isDirty } replacer)
      (clients.unpin pid isDirty) unused := by
  have mem_unreported : ∀ other, other ∈ (clients.unpin pid isDirty).unreported ↔
      other ∈ clients.unreported ∧ (isDirty = true → other ≠ pid) := by
    intro other
    cases isDirty <;> simp [PoolClients.unpin]
  refine ⟨faithful.live, ?_, ?_, ?_, ?_, ?_, ?_⟩
  · intro other otherInside
    have := faithful.resident other otherInside
    by_cases isFrame : other = frame <;>
      simpa [repinned, BufferPoolManager.setPage, isFrame] using this
  · intro other otherInside valid notDirty reported
    rw [repinned_pageId, mem_unreported] at reported
    rw [repinned_pageId] at valid ⊢
    by_cases isFrame : other = frame
    · subst isFrame
      have flags : isDirty = false ∧ (bpm.pages other).isDirty = false := by
        simpa [repinned, BufferPoolManager.setPage] using notDirty
      have unreported : (bpm.pages other).pageId ∉ clients.unreported :=
        fun member => reported ⟨member, by simp [flags.1]⟩
      simpa [repinned, BufferPoolManager.setPage] using
        faithful.clean other otherInside valid flags.2 unreported
    · have differ : (bpm.pages other).pageId ≠ pid :=
        fun same => isFrame (unique other otherInside same)
      have unreported : (bpm.pages other).pageId ∉ clients.unreported :=
        fun member => reported ⟨member, fun _ => differ⟩
      have stillClean : (bpm.pages other).isDirty = false := by
        simpa [repinned, BufferPoolManager.setPage, isFrame] using notDirty
      simpa [repinned, BufferPoolManager.setPage, isFrame] using
        faithful.clean other otherInside valid stillClean unreported
  · intro other bytes present absent
    refine faithful.stored other bytes present ?_
    intro holder holderInside
    have := absent holder holderInside
    rwa [repinned_pageId] at this
  · intro other otherInside
    rw [PoolClients.pins_unpin, repinned_pageId]
    have counted := faithful.pins other otherInside
    by_cases isFrame : other = frame
    · subst isFrame
      intro valid
      have counted := counted valid
      rw [holds] at counted
      simp [repinned, BufferPoolManager.setPage, holds, counted]
    · have differ : pid ≠ (bpm.pages other).pageId :=
        fun same => isFrame (unique other otherInside same.symm)
      simpa [repinned, BufferPoolManager.setPage, isFrame, differ] using counted
  · intro entry member
    rw [repinned_pageId]
    exact faithful.held entry (List.mem_of_mem_eraseP member)
  · intro other member
    rw [mem_unreported] at member
    rw [PoolClients.pins_unpin]
    have positive := faithful.reported other member.1
    by_cases same : pid = other
    · rw [if_pos same]
      subst same
      by_contra none_left
      rcases last (by omega) with dirty | reported
      · exact member.2 dirty rfl
      · exact reported member.1
    · rw [if_neg same]
      omega

/-- A client exchanges the bytes of a page it holds. -/
theorem Faithful.write (faithful : Faithful bpm clients unused) {pid : PageId} (data : Page)
    (inside : frame < bpm.poolSize) (holds : (bpm.pages frame).pageId = pid)
    (valid : pid ≠ invalidPageId) (pinned : 0 < clients.pins pid)
    (unique : ∀ other < bpm.poolSize, (bpm.pages other).pageId = pid → other = frame) :
    Faithful (bpm.setPage frame { bpm.pages frame with data := data })
      { clients.setContent pid data with unreported := pid :: clients.unreported } unused := by
  refine ⟨?_, ?_, ?_, ?_, ?_, ?_, ?_⟩
  · intro other
    by_cases same : other = pid
    · subst same
      have live := faithful.not_unused inside (holds ▸ valid)
      rw [holds] at live
      simpa [BufferPoolManager.setPage, PoolClients.setContent] using live
    · simpa [BufferPoolManager.setPage, PoolClients.setContent, same] using faithful.live other
  · intro other otherInside
    by_cases isFrame : other = frame
    · simp [BufferPoolManager.setPage, PoolClients.setContent, isFrame, holds]
    · have differ : (bpm.pages other).pageId ≠ pid :=
        fun same => isFrame (unique other otherInside same)
      simpa [BufferPoolManager.setPage, PoolClients.setContent, isFrame, differ] using
        faithful.resident other otherInside
  · intro other otherInside
    by_cases isFrame : other = frame
    · simp [BufferPoolManager.setPage, isFrame, holds]
    · have := faithful.clean other otherInside
      intro otherValid notDirty reported
      simp only [BufferPoolManager.setPage, if_neg isFrame] at otherValid notDirty reported ⊢
      exact this otherValid notDirty fun member => reported (List.mem_cons_of_mem _ member)
  · intro other bytes present absent
    have absentBefore : ∀ holder < bpm.poolSize, (bpm.pages holder).pageId ≠ other := by
      intro holder holderInside
      have := absent holder holderInside
      by_cases isFrame : holder = frame <;>
        simpa [BufferPoolManager.setPage, isFrame] using this
    have differ : other ≠ pid := fun same => absentBefore frame inside (same ▸ holds)
    refine faithful.stored other bytes ?_ absentBefore
    simpa [PoolClients.setContent, differ] using present
  · intro other otherInside
    have := faithful.pins other otherInside
    by_cases isFrame : other = frame <;>
      simpa [BufferPoolManager.setPage, PoolClients.pins, PoolClients.setContent, isFrame] using this
  · intro entry member
    have := faithful.held entry member
    by_cases isFrame : entry.2 = frame <;>
      simpa [BufferPoolManager.setPage, isFrame] using this
  · intro other member
    rcases List.mem_cons.mp member with rfl | old
    · exact pinned
    · exact faithful.reported other old

/-! ## New pages -/

/-- A change of the disk that leaves the clients' pages as they were. -/
theorem Faithful.withDisk (faithful : Faithful bpm clients unused) {dm : DiskManager}
    {unused' : List PageId}
    (kept : ∀ pid page, (clients.content pid).isSome = true →
      bpm.diskManager.file.page pid = some page → dm.file.page pid = some page)
    (live : ∀ pid, 0 < pid ∧ pid < bpm.diskManager.pageCount ∧ pid ∉ unused ↔
      0 < pid ∧ pid < dm.pageCount ∧ pid ∉ unused') :
    Faithful { bpm with diskManager := dm } clients unused' where
  live pid := (faithful.live pid).trans (live pid)
  resident := faithful.resident
  clean frame inside valid notDirty reported := by
    refine kept _ _ ?_ (faithful.clean frame inside valid notDirty reported)
    rw [faithful.resident frame inside valid]
    rfl
  stored pid bytes present absent :=
    kept pid bytes (by rw [present]; rfl) (faithful.stored pid bytes present absent)
  pins := faithful.pins
  held := faithful.held
  reported := faithful.reported

/-- A page of the disk manager becomes the clients'. -/
theorem Faithful.adopt {pid : PageId} {data : Page} (faithful : Faithful bpm clients (pid :: unused))
    (positive : 0 < pid) (below : pid < bpm.diskManager.pageCount) (absent : pid ∉ unused)
    (onDisk : bpm.diskManager.file.page pid = some data) :
    Faithful bpm (clients.setContent pid data) unused := by
  have notLive : clients.content pid = none := by
    rw [← Option.not_isSome_iff_eq_none, faithful.live]
    simp
  have notResident : ∀ frame < bpm.poolSize, (bpm.pages frame).pageId ≠ invalidPageId →
      (bpm.pages frame).pageId ≠ pid := by
    intro frame inside valid same
    have present := faithful.resident frame inside valid
    rw [same, notLive] at present
    exact absurd present (by simp)
  refine ⟨?_, ?_, faithful.clean, ?_, faithful.pins, faithful.held, faithful.reported⟩
  · intro other
    by_cases same : other = pid
    · subst same
      simpa [PoolClients.setContent] using ⟨positive, below, absent⟩
    · simpa [PoolClients.setContent, same] using faithful.live other
  · intro frame inside valid
    simpa [PoolClients.setContent, notResident frame inside valid] using
      faithful.resident frame inside valid
  · intro other bytes present otherAbsent
    by_cases same : other = pid
    · subst same
      have : data = bytes := by simpa [PoolClients.setContent] using present
      exact this ▸ onDisk
    · refine faithful.stored other bytes ?_ otherAbsent
      simpa [PoolClients.setContent, same] using present

/-- Allocating a page takes one that is not the clients'. -/
theorem Faithful.allocate (faithful : Faithful bpm clients freed)
    (healthy : Healthy bpm.diskManager freed) :
    diskManagerAllocatePage bpm.diskManager = .error .overflow ∨
      ∃ pid dm freed', diskManagerAllocatePage bpm.diskManager = .ok (pid.toInt, dm) ∧
        Healthy dm freed' ∧ Faithful { bpm with diskManager := dm } clients (pid :: freed') ∧
        0 < pid ∧ pid < dm.pageCount ∧ pid ∉ freed' ∧ dm.file.page pid = some zeroPage := by
  cases freed with
  | cons pid freed' =>
      obtain ⟨dm, allocated, stillHealthy, zeroed, kept, count⟩ := healthy.allocate_reuse
      obtain ⟨positive, below⟩ := healthy.inside pid List.mem_cons_self
      refine .inr ⟨pid, dm, freed', allocated, stillHealthy, faithful.withDisk ?_ ?_, positive,
        count ▸ below, (List.nodup_cons.mp healthy.nodup).1, zeroed⟩
      · intro other page present onDisk
        obtain ⟨otherPositive, _, otherLive⟩ := (faithful.live other).mp present
        rw [List.mem_cons, not_or] at otherLive
        refine kept.others other page ?_ otherLive.1 onDisk
        rintro rfl
        exact Int32.lt_irrefl otherPositive
      · intro other
        rw [count]
  | nil =>
      rcases healthy.allocate_append with ⟨overflow, _⟩ | ⟨dm, allocated, stillHealthy, zeroed, kept,
        _, grown, successor⟩
      · exact .inl overflow
      · refine .inr ⟨_, dm, [], allocated, stillHealthy, faithful.withDisk ?_ ?_, healthy.nonempty,
          grown, by simp, zeroed⟩
        · intro other page present onDisk
          obtain ⟨otherPositive, below, _⟩ := (faithful.live other).mp present
          refine kept.others other page ?_ ?_ onDisk
          · rintro rfl
            exact Int32.lt_irrefl otherPositive
          · rintro rfl
            exact Int32.lt_irrefl below
        · intro other
          rw [successor, Int32.le_iff_lt_or_eq]
          have notBoth : other < bpm.diskManager.pageCount → other ≠ bpm.diskManager.pageCount := by
            rintro below rfl
            exact Int32.lt_irrefl below
          simp only [List.not_mem_nil, not_false_eq_true, and_true, List.mem_singleton]
          tauto

end MiniSqlite.Buffer
