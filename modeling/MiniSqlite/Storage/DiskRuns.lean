import MiniSqlite.Storage.DiskContents
import MiniSqlite.Std.Run

/-!
# Runs of the disk manager

A client allocates, frees, reads and writes pages, and closes and opens the file
at any point. `DiskSession` keeps what the client owns and what it has freed;
`DiskSession.Sound` is the invariant that ties these to the file, the threaded
free list and the header (`diskCalls_correct`).
-/

namespace MiniSqlite.Storage

open MiniSqlite.Common MiniSqlite.Std

variable {dm after : DiskManager} {freed : List PageId} {pageId : PageId}

/-! ## The header -/

/-- A header is read as it was written. -/
theorem readHeaderFromBuf_writeHeaderToBuf (dm : DiskManager) (pageCount : Int32)
    (freeListHead : PageId) :
    (readHeaderFromBuf (writeHeaderToBuf pageCount freeListHead)).exec dm =
      (.ok (), { dm with pageCount, freeListHead }) := by
  have magic : (writeHeaderToBuf pageCount freeListHead).read headerOffsetMagic 10 = dbMagic := by
    unfold writeHeaderToBuf
    rw [Scalar.read_store_of_disjoint _ _ (.inr (by decide)),
      Scalar.read_store_of_disjoint _ _ (.inr (by decide)),
      Scalar.read_store_of_disjoint _ _ (.inr (by decide))]
    exact Block.read_write_same zeroPage headerOffsetMagic dbMagic
  have version : Scalar.u32.load (writeHeaderToBuf pageCount freeListHead) headerOffsetVersion =
      dbVersion := by
    unfold writeHeaderToBuf
    rw [Scalar.load_store_of_disjoint _ _ _ (.inr (by decide)),
      Scalar.load_store_of_disjoint _ _ _ (.inr (by decide)), Scalar.load_store_same]
  have count : (Scalar.u32.load (writeHeaderToBuf pageCount freeListHead)
      headerOffsetPageCount).toInt32 = pageCount := by
    unfold writeHeaderToBuf
    rw [Scalar.load_store_of_disjoint _ _ _ (.inr (by decide)), Scalar.load_store_same]
    exact Int32.toInt32_toUInt32 pageCount
  have head : Scalar.i32.load (writeHeaderToBuf pageCount freeListHead) headerOffsetFreeList =
      freeListHead := Scalar.load_store_same _ _ _ _
  simp [readHeaderFromBuf, magic, version, count, head]

theorem HeaderStored.written (stored : HeaderStored dm) (notHeader : pageId ≠ 0) (buf : Page) :
    HeaderStored (dm.written pageId buf) :=
  DbFile.page_write_other stored (Ne.symm notHeader) buf

/-- Opening a file reads back the header that was in memory. -/
theorem diskManagerOpen_exec (stored : HeaderStored dm) (reliable : dm.failures = []) :
    diskManagerOpen.exec dm = (.ok (), { dm with isOpen := true }) := by
  have nonempty : dm.file ≠ [] := by
    intro missing
    simp [HeaderStored, missing, DbFile.page] at stored
  have reset : ({ dm with pageCount := 0, freeListHead := invalidPageId, isOpen := false } :
      DiskManager).failures = [] := reliable
  have read := fileIoReadPage_exec reset (Int32.le_refl 0) stored
  simp [diskManagerOpen, openExisting, fileIoOpen, pageAlloc, exec_mayFail reset, nonempty, read,
    readHeaderFromBuf_writeHeaderToBuf]

/-- Closing writes the header once more. -/
theorem diskManagerClose_exec (reliable : dm.failures = []) (isOpen : dm.isOpen = true) :
    diskManagerClose.exec dm = (.ok (), { dm.written 0
      (writeHeaderToBuf dm.pageCount dm.freeListHead) with isOpen := false }) := by
  simp [diskManagerClose, diskManagerFlushHeader, fileIoOpen, isOpen, exec_mayFail reliable,
    flushHeader_exec reliable]

theorem diskManagerClose_closed (closed : dm.isOpen = false) :
    diskManagerClose.exec dm = (.ok (), dm) := by
  simp [diskManagerClose, closed]

/-! ## Sessions -/

/-- A call of a client. -/
inductive DiskCall where
  | allocate
  | deallocate (pageId : PageId)
  | read (pageId : PageId)
  | write (pageId : PageId) (buf : Page)
  | close
  | reopen

/-- A disk manager with the pages its client owns, as last written, and those it has
freed, the latest first. -/
structure DiskSession where
  dm : DiskManager
  owned : PageId → Option Page
  freed : List PageId

namespace DiskSession

/-- A new database file. -/
def start : DiskSession := ⟨diskManagerCreate, fun _ => none, []⟩

/-- One call. An allocation that finds the file closed returns an error code. -/
def call (session : DiskSession) : DiskCall → Except Fault DiskSession
  | .allocate => do
      let (newPid, dm) ← diskManagerAllocatePage session.dm
      if session.dm.isOpen then
        .ok ⟨dm, Function.update session.owned (Int32.ofInt newPid) (some zeroPage),
          session.freed.tail⟩
      else .ok { session with dm }
  | .deallocate pageId =>
      match (diskManagerDeallocatePage pageId).exec session.dm with
      | (.ok (), dm) =>
          .ok ⟨dm, Function.update session.owned pageId none, pageId :: session.freed⟩
      | (.error _, dm) => .ok { session with dm }
  | .read pageId => .ok { session with dm := ((diskManagerReadPage pageId).exec session.dm).2 }
  | .write pageId buf =>
      match (diskManagerWritePage pageId buf).exec session.dm with
      | (.ok (), dm) => .ok { session with dm, owned := Function.update session.owned pageId buf }
      | (.error _, dm) => .ok { session with dm }
  | .close => .ok { session with dm := (diskManagerClose.exec session.dm).2 }
  | .reopen => .ok { session with dm := (diskManagerOpen.exec session.dm).2 }

/-- The session after a call; an allocation without a page id left changes nothing. -/
def step (session : DiskSession) (op : DiskCall) : DiskSession :=
  match session.call op with
  | .ok next => next
  | .error _ => session

/-- The client frees and writes only pages it owns. -/
def Allowed (session : DiskSession) : DiskCall → Prop
  | .deallocate pageId => session.owned pageId ≠ none
  | .write pageId _ => session.owned pageId ≠ none
  | _ => True

instance (session : DiskSession) : DecidablePred session.Allowed := fun op =>
  match op with
  | .deallocate _ => inferInstanceAs (Decidable (_ ≠ none))
  | .write _ _ => inferInstanceAs (Decidable (_ ≠ none))
  | .allocate | .read _ | .close | .reopen => inferInstanceAs (Decidable True)

/-- The free list on disk, the pages of the client and the header are as they should be. -/
structure Correct (session : DiskSession) : Prop where
  freeList : FreeChain session.dm.file session.dm.freeListHead session.freed
  acyclic : session.freed.Nodup
  apart : ∀ pageId ∈ session.freed, session.owned pageId = none
  contents : ∀ pageId page, session.owned pageId = some page →
    session.dm.file.page pageId = some page ∧
      (session.dm.isOpen = true → (diskManagerReadPage pageId).exec session.dm =
        (.ok page, session.dm))
  header : HeaderStored session.dm

/-- The page allocated is new, zero-filled, and the one freed last if there is one. -/
structure Allocates (session : DiskSession) (newPid : Int) (after : DiskManager) : Prop where
  positive : 1 ≤ newPid
  unowned : session.owned (Int32.ofInt newPid) = none
  zeroed : after.file.page (Int32.ofInt newPid) = some zeroPage
  lifo : ∀ latest earlier, session.freed = latest :: earlier →
    newPid = latest.toInt ∧ after.pageCount = session.dm.pageCount
  grows : session.freed = [] → newPid = session.dm.pageCount.toInt ∧
    after.pageCount.toInt = session.dm.pageCount.toInt + 1

/-- The call does what it should, unless it asks for the page after the last page id. -/
def CallCorrect (session : DiskSession) (op : DiskCall) : Prop :=
  (op = .allocate ∧ session.freed = [] ∧ session.dm.pageCount = 2147483647) ∨
    ∃ next, session.call op = .ok next ∧ next.Correct ∧
      (op = .allocate → session.dm.isOpen = true →
        ∃ newPid, diskManagerAllocatePage session.dm = .ok (newPid, next.dm) ∧
          session.Allocates newPid next.dm)

/-- The invariant: the file is that of a healthy disk manager, whether it is open or not. -/
structure Sound (session : DiskSession) : Prop where
  healthy : Healthy { session.dm with isOpen := true } session.freed
  header : HeaderStored session.dm
  apart : ∀ pageId ∈ session.freed, session.owned pageId = none
  contents : ∀ pageId page, session.owned pageId = some page →
    0 < pageId ∧ pageId < session.dm.pageCount ∧ session.dm.file.page pageId = some page

variable {session : DiskSession}

theorem Sound.start : start.Sound where
  healthy := diskManagerCreate_healthy
  header := DbFile.page_write_same _ _ _
  apart := by simp [DiskSession.start]
  contents := by simp [DiskSession.start]

theorem Sound.opened (sound : session.Sound) (isOpen : session.dm.isOpen = true) :
    Healthy session.dm session.freed :=
  ⟨isOpen, sound.healthy.reliable, sound.healthy.nonempty, sound.healthy.stored,
    sound.healthy.chain, sound.healthy.inside, sound.healthy.nodup⟩

theorem Sound.correct (sound : session.Sound) : session.Correct where
  freeList := sound.healthy.chain
  acyclic := sound.healthy.nodup
  apart := sound.apart
  contents pageId page owned := by
    obtain ⟨positive, below, stored⟩ := sound.contents pageId page owned
    exact ⟨stored, fun isOpen =>
      (sound.opened isOpen).readPage (Int32.le_of_lt positive) below stored⟩
  header := sound.header

/-- A page the client owns is not on the free list. -/
theorem Sound.notFreed (sound : session.Sound) {pageId : PageId}
    (owned : session.owned pageId ≠ none) : pageId ∉ session.freed :=
  fun member => owned (sound.apart pageId member)

theorem Sound.inside (sound : session.Sound) {pageId : PageId}
    (owned : session.owned pageId ≠ none) : 0 < pageId ∧ pageId < session.dm.pageCount := by
  obtain ⟨page, holds⟩ := Option.ne_none_iff_exists'.mp owned
  obtain ⟨positive, below, -⟩ := sound.contents pageId page holds
  exact ⟨positive, below⟩

/-- Setting or clearing the open flag is seen by no other part of the invariant. -/
theorem Sound.flag (sound : session.Sound) (isOpen : Bool) :
    Sound { session with dm := { session.dm with isOpen } } where
  healthy := sound.healthy
  header := sound.header
  apart := sound.apart
  contents := sound.contents

theorem Sound.reliable (sound : session.Sound) : session.dm.failures = [] :=
  sound.healthy.reliable

/-- Writing the header that is there already changes nothing. -/
theorem Sound.headerWritten (sound : session.Sound) :
    Sound ⟨session.dm.written 0
      (writeHeaderToBuf session.dm.pageCount session.dm.freeListHead), session.owned,
      session.freed⟩ where
  healthy := sound.healthy.written sound.healthy.zero_notMem _
  header := DbFile.page_write_same _ _ _
  apart := sound.apart
  contents pageId page owned := by
    obtain ⟨positive, below, stored⟩ := sound.contents pageId page owned
    have notHeader : pageId ≠ 0 := fun same => Int32.lt_irrefl (same ▸ positive)
    exact ⟨positive, below, DbFile.page_write_other stored notHeader _⟩

theorem Sound.reopen (sound : session.Sound) : (session.step .reopen).Sound := by
  have opened := diskManagerOpen_exec sound.header sound.reliable
  simp only [step, call, opened]
  exact sound.flag true

theorem Sound.close (sound : session.Sound) : (session.step .close).Sound := by
  cases isOpen : session.dm.isOpen with
  | false =>
      simp only [step, call, diskManagerClose_closed isOpen]
      exact sound
  | true =>
      simp only [step, call, diskManagerClose_exec sound.reliable isOpen]
      exact sound.headerWritten.flag false

/-- After another page is taken or given back, owned pages other than it are as before. -/
theorem Sound.contents_kept (sound : session.Sound) {changed : PageId} {after : DiskManager}
    (kept : OthersKept changed session.dm after) {pageId : PageId} {page : Page}
    (owned : session.owned pageId = some page) (differ : pageId ≠ changed) :
    0 < pageId ∧ pageId < after.pageCount ∧ after.file.page pageId = some page := by
  obtain ⟨positive, below, stored⟩ := sound.contents pageId page owned
  have notHeader : pageId ≠ 0 := fun same => Int32.lt_irrefl (same ▸ positive)
  exact ⟨positive, Int32.lt_of_lt_of_le below kept.grown,
    kept.others pageId page notHeader differ stored⟩

/-- The client owns a page it is given. -/
theorem Sound.given (sound : session.Sound) {given : PageId} {after : DiskManager}
    {rest : List PageId} (healthy : Healthy after rest) (kept : OthersKept given session.dm after)
    (inside : 0 < given ∧ given < after.pageCount)
    (zeroed : after.file.page given = some zeroPage)
    (left : ∀ pageId ∈ rest, pageId ≠ given ∧ pageId ∈ session.freed) :
    Sound ⟨after, Function.update session.owned given (some zeroPage), rest⟩ where
  healthy := ⟨rfl, healthy.reliable, healthy.nonempty, healthy.stored, healthy.chain,
    healthy.inside, healthy.nodup⟩
  header := kept.header
  apart pageId member := by
    obtain ⟨differ, listed⟩ := left pageId member
    simpa [Function.update_of_ne differ] using sound.apart pageId listed
  contents pageId page owned := by
    by_cases same : pageId = given
    · subst same
      obtain rfl : zeroPage = page := by simpa using owned
      exact ⟨inside.1, inside.2, zeroed⟩
    · have before : session.owned pageId = some page :=
        (Function.update_of_ne same _ _).symm.trans owned
      exact sound.contents_kept kept before same

theorem allocate_closed (closed : session.dm.isOpen = false) :
    session.call .allocate = .ok session := by
  have refused : diskManagerAllocatePage session.dm =
      .ok (ErrorCode.fileNotOpen.code, session.dm) := by
    have exec : allocatePage.exec session.dm = (.error .fileNotOpen, session.dm) := by
      simp [allocatePage, closed]
    simp [diskManagerAllocatePage, exec]
  simp [call, refused, closed, bind, Except.bind]

theorem call_allocate {newPid : PageId} {after : DiskManager} (isOpen : session.dm.isOpen = true)
    (allocated : diskManagerAllocatePage session.dm = .ok (newPid.toInt, after)) :
    session.call .allocate = .ok ⟨after, Function.update session.owned newPid (some zeroPage),
      session.freed.tail⟩ := by
  simp only [call, allocated, bind, Except.bind, isOpen, if_true, Int32.ofInt_toInt]

theorem one_le_toInt (positive : 0 < pageId) : 1 ≤ pageId.toInt := by
  rw [Int32.lt_iff_toInt_lt] at positive
  exact positive

/-- An allocation from an open file gives a page as it should, or there is no page id left. -/
theorem Sound.allocate (sound : session.Sound) (isOpen : session.dm.isOpen = true) :
    (session.call .allocate = .error .overflow ∧ session.freed = [] ∧
      session.dm.pageCount = 2147483647) ∨
      ∃ next newPid, session.call .allocate = .ok next ∧ next.Sound ∧
        diskManagerAllocatePage session.dm = .ok (newPid, next.dm) ∧
        session.Allocates newPid next.dm := by
  have healthy := sound.opened isOpen
  cases shape : session.freed with
  | nil =>
      rw [shape] at healthy
      rcases healthy.allocate_append with ⟨overflow, wrapped⟩ |
        ⟨after, allocated, stillHealthy, zeroed, kept, count, grown, successor⟩
      · exact .inl ⟨by simp [call, overflow, bind, Except.bind], rfl, eq_last_of_wraps wrapped⟩
      · refine .inr ⟨_, _, call_allocate isOpen allocated, ?_, allocated, ?_⟩
        · refine sound.given ?_ kept ⟨healthy.nonempty, grown⟩ zeroed (by simp [shape])
          simpa [shape] using stillHealthy
        · have left : session.dm.pageCount ≠ 2147483647 := by
            rw [count] at grown
            exact ne_last_of_grows (Int32.le_of_lt grown)
          refine ⟨one_le_toInt healthy.nonempty, ?_, ?_, by simp [shape], fun _ => ⟨rfl, ?_⟩⟩
          · rw [Int32.ofInt_toInt]
            by_contra owned
            exact Int32.lt_irrefl (sound.inside owned).2
          · rwa [Int32.ofInt_toInt]
          · rw [count, toInt_add_one left]
  | cons latest earlier =>
      rw [shape] at healthy
      obtain ⟨after, allocated, stillHealthy, zeroed, kept, count⟩ := healthy.allocate_reuse
      obtain ⟨absent, -⟩ := List.nodup_cons.mp healthy.nodup
      obtain ⟨positive, below⟩ := healthy.inside latest List.mem_cons_self
      refine .inr ⟨_, _, call_allocate isOpen allocated, ?_, allocated, ?_⟩
      · refine sound.given ?_ kept ⟨positive, count.symm ▸ below⟩ zeroed ?_
        · simpa [shape] using stillHealthy
        · rw [shape]
          rintro pageId member
          exact ⟨fun same => absent (same ▸ member), List.mem_cons_of_mem _ member⟩
      · refine ⟨one_le_toInt positive, ?_, ?_, ?_, by simp [shape]⟩
        · rw [Int32.ofInt_toInt]
          exact sound.apart latest (by simp [shape])
        · rwa [Int32.ofInt_toInt]
        · rintro other rest same
          obtain ⟨rfl, -⟩ := List.cons.inj (shape.symm.trans same)
          exact ⟨rfl, count⟩

theorem Sound.deallocate (sound : session.Sound) {pageId : PageId}
    (owned : session.owned pageId ≠ none) : (session.step (.deallocate pageId)).Sound := by
  cases isOpen : session.dm.isOpen with
  | false =>
      have refused : (diskManagerDeallocatePage pageId).exec session.dm =
          (.error .fileNotOpen, session.dm) := by simp [diskManagerDeallocatePage, isOpen]
      simp only [step, call, refused]
      exact sound
  | true =>
      have healthy := sound.opened isOpen
      obtain ⟨positive, below⟩ := sound.inside owned
      obtain ⟨after, freed, stillHealthy, kept, count⟩ :=
        healthy.deallocate positive below (sound.notFreed owned)
      simp only [step, call, freed]
      refine ⟨⟨rfl, stillHealthy.reliable, stillHealthy.nonempty, stillHealthy.stored,
        stillHealthy.chain, stillHealthy.inside, stillHealthy.nodup⟩, kept.header, ?_, ?_⟩
      · intro other member
        by_cases same : other = pageId
        · simp [same]
        · exact (Function.update_of_ne same _ _).trans
            (sound.apart other ((List.mem_cons.mp member).resolve_left same))
      · intro other page holds
        by_cases same : other = pageId
        · simp [same] at holds
        · have before : session.owned other = some page :=
            (Function.update_of_ne same _ _).symm.trans holds
          exact sound.contents_kept kept before same

theorem Sound.write (sound : session.Sound) {pageId : PageId} (buf : Page)
    (owned : session.owned pageId ≠ none) : (session.step (.write pageId buf)).Sound := by
  cases isOpen : session.dm.isOpen with
  | false =>
      have refused : (diskManagerWritePage pageId buf).exec session.dm =
          (.error .fileNotOpen, session.dm) := by simp [diskManagerWritePage, isOpen]
      simp only [step, call, refused]
      exact sound
  | true =>
      have healthy := sound.opened isOpen
      obtain ⟨positive, below⟩ := sound.inside owned
      have notHeader : pageId ≠ 0 := fun same => Int32.lt_irrefl (same ▸ positive)
      simp only [step, call, healthy.writePage (Int32.le_of_lt positive) below buf]
      refine ⟨sound.healthy.written (sound.notFreed owned) buf,
        sound.header.written notHeader buf, ?_, ?_⟩
      · intro other member
        have differ : other ≠ pageId := fun same => sound.notFreed owned (same ▸ member)
        exact (Function.update_of_ne differ _ _).trans (sound.apart other member)
      · intro other page holds
        by_cases same : other = pageId
        · subst same
          obtain rfl : buf = page := by simpa using holds
          exact ⟨positive, below, DbFile.page_write_same _ _ _⟩
        · have before : session.owned other = some page :=
            (Function.update_of_ne same _ _).symm.trans holds
          obtain ⟨otherPositive, otherBelow, stored⟩ := sound.contents other page before
          exact ⟨otherPositive, otherBelow, DbFile.page_write_other stored same buf⟩

/-- Reading a page changes nothing. -/
theorem Sound.read (sound : session.Sound) (pageId : PageId) :
    session.step (.read pageId) = session := by
  have unchanged : ((diskManagerReadPage pageId).exec session.dm).2 = session.dm := by
    cases isOpen : session.dm.isOpen with
    | false => simp [diskManagerReadPage, isOpen]
    | true =>
        have healthy := sound.opened isOpen
        by_cases missing : pageId < 0 ∨ session.dm.pageCount ≤ pageId
        · rw [healthy.readPage_missing missing]
        · rw [not_or, Int32.not_lt, Int32.not_le] at missing
          obtain ⟨page, stored⟩ := healthy.stored pageId missing.1 missing.2
          rw [healthy.readPage missing.1 missing.2 stored]
  simp only [step, call, unchanged]

/-- Every call but an allocation without a page id left returns. -/
theorem call_eq_step {op : DiskCall} (other : op ≠ .allocate) :
    session.call op = .ok (session.step op) := by
  cases op with
  | allocate => exact absurd rfl other
  | deallocate pageId =>
      simp only [step, call]
      rcases (diskManagerDeallocatePage pageId).exec session.dm with ⟨_ | _, after⟩ <;> rfl
  | read pageId => rfl
  | write pageId buf =>
      simp only [step, call]
      rcases (diskManagerWritePage pageId buf).exec session.dm with ⟨_ | _, after⟩ <;> rfl
  | close => rfl
  | reopen => rfl

theorem Sound.step (sound : session.Sound) (op : DiskCall) (allowed : session.Allowed op) :
    (session.step op).Sound := by
  cases op with
  | allocate =>
      cases isOpen : session.dm.isOpen with
      | false => simpa [DiskSession.step, allocate_closed isOpen] using sound
      | true =>
          rcases sound.allocate isOpen with ⟨overflow, -⟩ | ⟨next, _, called, nextSound, -⟩
          · simpa [DiskSession.step, overflow] using sound
          · simpa [DiskSession.step, called] using nextSound
  | deallocate pageId => exact sound.deallocate allowed
  | read pageId => exact (sound.read pageId).symm ▸ sound
  | write pageId buf => exact sound.write buf allowed
  | close => exact sound.close
  | reopen => exact sound.reopen

theorem Sound.callCorrect (sound : session.Sound) (op : DiskCall) (allowed : session.Allowed op) :
    session.CallCorrect op := by
  by_cases allocates : op = .allocate
  · subst allocates
    cases isOpen : session.dm.isOpen with
    | false =>
        refine .inr ⟨session, allocate_closed isOpen, sound.correct, fun _ opened => ?_⟩
        rw [isOpen] at opened
        cases opened
    | true =>
        rcases sound.allocate isOpen with ⟨-, last⟩ | ⟨next, newPid, called, nextSound, rest⟩
        · exact .inl ⟨rfl, last⟩
        · exact .inr ⟨next, called, nextSound.correct, fun _ _ => ⟨newPid, rest⟩⟩
  · exact .inr ⟨_, call_eq_step allocates, (sound.step op allowed).correct,
      fun same => absurd same allocates⟩

end DiskSession

/-- Every call of a run by a client that frees and writes only pages it owns does what it
should, for as long as there are page ids left. -/
theorem diskCalls_correct (ops : List DiskCall)
    (allowed : EachStep DiskSession.step DiskSession.Allowed .start ops) :
    EachStep DiskSession.step DiskSession.CallCorrect .start ops :=
  allowed.of_invariant (fun _ op (sound : DiskSession.Sound _) => sound.step op)
    (fun _ op sound => sound.callCorrect op) .start

/-- A page is written, freed, and allocated again after the file has been reopened. -/
def reopenedFreeList : List DiskCall :=
  [.allocate, .write 1 zeroPage, .deallocate 1, .close, .reopen, .allocate]

theorem diskCalls_correct_reopenedFreeList :
    EachStep DiskSession.step DiskSession.CallCorrect .start reopenedFreeList :=
  diskCalls_correct reopenedFreeList
    ⟨trivial, by decide +kernel, by decide +kernel, trivial, trivial, trivial, trivial⟩

end MiniSqlite.Storage
