import MiniSqlite.Storage.DiskRuns

/-!
# Crashes of the disk manager

A crash keeps the page writes up to some moment of a run. An allocation from the free
list zeroes the page before it takes it off the list in the header: a crash between the
two writes leaves a free list that leads to page 0 (`crashSafe_iff`).
-/

namespace MiniSqlite.Storage

open MiniSqlite.Common MiniSqlite.Std

variable {dm : DiskManager} {freed : List PageId} {pageId : PageId} {session : DiskSession}

/-! ## Moments -/

/-- A moment of a run: the file that the page writes issued so far leave, and the pages
that clients own then. -/
structure Moment where
  file : DbFile
  owned : PageId → Bool

def DiskSession.owns (session : DiskSession) (pageId : PageId) : Bool :=
  (session.owned pageId).isSome

/-- The moments after each of some page writes, the first one first. The call that issues
them returns after the last one, and until then the clients own what they did before. -/
def momentsAfter (file : DbFile) (before after : PageId → Bool) :
    List (PageId × Page) → List Moment
  | [] => []
  | [last] => [⟨last :: file, after⟩]
  | write :: writes => ⟨write :: file, before⟩ :: momentsAfter (write :: file) before after writes

/-- The page writes of a call, the first one first. -/
def callWrites (session : DiskSession) (op : DiskCall) : List (PageId × Page) :=
  let file := (session.step op).dm.file
  (file.take (file.length - session.dm.file.length)).reverse

def callMoments (session : DiskSession) (op : DiskCall) : List Moment :=
  momentsAfter session.dm.file session.owns (session.step op).owns (callWrites session op)

/-- The moments of a run that starts with a session. -/
def moments (session : DiskSession) : List DiskCall → List Moment
  | [] => [⟨session.dm.file, session.owns⟩]
  | op :: ops => ⟨session.dm.file, session.owns⟩ :: callMoments session op ++
      moments (session.step op) ops

/-- The disk manager that is opened on a file after a crash. -/
def crashed (file : DbFile) : DiskManager := ⟨0, invalidPageId, false, file, []⟩

/-- The clients after a crash, who own some pages and whatever these hold. -/
def afterCrash (dm : DiskManager) (owned : PageId → Bool) (freed : List PageId) : DiskSession where
  dm := dm
  owned pageId := if owned pageId then some ((dm.file.page pageId).getD zeroPage) else none
  freed := freed

/-- An allocation returns neither the header page nor a page that a client owns. -/
def Spares (session : DiskSession) (op : DiskCall) : Prop :=
  op = .allocate → session.dm.isOpen = true → ∀ newPid after,
    diskManagerAllocatePage session.dm = .ok (newPid, after) →
      newPid ≠ 0 ∧ session.owned (Int32.ofInt newPid) = none

/-- What a crash should leave: the file opens, its free list is a chain of distinct pages
below the page count that ends, and allocations never return page 0 or an owned page,
whatever the clients do. -/
def CrashSafe (file : DbFile) (owned : PageId → Bool) : Prop :=
  ∃ dm freed, diskManagerOpen.exec (crashed file) = (.ok (), dm) ∧
    FreeChain dm.file dm.freeListHead freed ∧ freed.Nodup ∧
    (∀ pageId ∈ freed, 1 ≤ pageId ∧ pageId < dm.pageCount) ∧
    ∀ ops, EachStep DiskSession.step DiskSession.Allowed (afterCrash dm owned freed) ops →
      EachStep DiskSession.step Spares (afterCrash dm owned freed) ops

/-- The last page write is to the page at which the stored free list starts. -/
def ReuseInterrupted (file : DbFile) : Prop :=
  match file with
  | [] => False
  | (pageId, _) :: _ =>
      (file.page 0).map (Scalar.i32.load · headerOffsetFreeList) = some pageId

/-! ## Files that are left sound -/

/-- Every page below the page count is owned or free. -/
def Covered (session : DiskSession) : Prop :=
  ∀ pageId, 0 < pageId → pageId < session.dm.pageCount →
    pageId ∈ session.freed ∨ session.owns pageId = true

/-- The file of a moment is that of a sound session, and no reuse is under way. -/
structure Settled (moment : Moment) (session : DiskSession) : Prop where
  sound : session.Sound
  covered : Covered session
  file : session.dm.file = moment.file
  owns : session.owns = moment.owned
  calm : ¬ReuseInterrupted moment.file

/-- The moment between the two writes of an allocation that reuses a freed page. -/
structure Reusing (moment : Moment) (session : DiskSession) : Prop where
  sound : session.Sound
  reused : ∃ pageId rest, session.freed = pageId :: rest ∧
    moment.file = (pageId, zeroPage) :: session.dm.file
  owns : session.owns = moment.owned

/-- What may be said of the moments of a call. -/
def CallMoment (moment : Moment) : Prop :=
  (∃ session, Settled moment session) ∨ ∃ session, Reusing moment session

theorem load_writeHeaderToBuf (pageCount : Int32) (freeListHead : PageId) :
    Scalar.i32.load (writeHeaderToBuf pageCount freeListHead) headerOffsetFreeList = freeListHead :=
  Scalar.load_store_same _ _ _ _

theorem reuseInterrupted_iff {write : PageId × Page} {file : DbFile}
    (written : dm.file = write :: file) (stored : HeaderStored dm) :
    ReuseInterrupted dm.file ↔ dm.freeListHead = write.1 := by
  have header := stored
  rw [HeaderStored, written] at header
  rw [written, ReuseInterrupted, header]
  simp only [Option.map_some, Option.some.injEq, load_writeHeaderToBuf]

/-- The free list starts neither at the header page nor at a page that is not free. -/
theorem Healthy.head_ne (healthy : Healthy dm freed) (notFree : pageId ∉ freed)
    (nonneg : 0 ≤ pageId) : dm.freeListHead ≠ pageId := by
  have chain := healthy.chain
  rintro rfl
  cases freed with
  | nil =>
      have head : dm.freeListHead = invalidPageId := chain
      rw [head] at nonneg
      exact absurd nonneg (by decide)
  | cons first rest => exact notFree (chain.1 ▸ List.mem_cons_self)

namespace DiskSession

theorem owns_iff : session.owns pageId = true ↔ session.owned pageId ≠ none := by
  rw [owns, Option.isSome_iff_ne_none]

theorem Sound.calm (sound : session.Sound) {write : PageId × Page} {file : DbFile}
    (written : session.dm.file = write :: file) (notFree : write.1 ∉ session.freed)
    (nonneg : 0 ≤ write.1) : ¬ReuseInterrupted session.dm.file := by
  rw [reuseInterrupted_iff written sound.header]
  exact sound.healthy.head_ne notFree nonneg

/-- A page that is neither free nor owned may be written. -/
theorem Sound.writtenApart (sound : session.Sound) (positive : 0 < pageId)
    (notFree : pageId ∉ session.freed) (unowned : session.owned pageId = none) (buf : Page) :
    Sound ⟨session.dm.written pageId buf, session.owned, session.freed⟩ where
  healthy := sound.healthy.written notFree buf
  header := sound.header.written (fun same => Int32.lt_irrefl (same ▸ positive)) buf
  apart := sound.apart
  contents other page owned := by
    obtain ⟨otherPositive, below, stored⟩ := sound.contents other page owned
    have differ : other ≠ pageId := by
      rintro rfl
      rw [unowned] at owned
      cases owned
    exact ⟨otherPositive, below, DbFile.page_write_other stored differ buf⟩

/-- The session after a page write that its client could have made. -/
theorem Sound.step_write (sound : session.Sound) (isOpen : session.dm.isOpen = true)
    (owned : session.owned pageId ≠ none) (buf : Page) :
    session.step (.write pageId buf) =
      ⟨session.dm.written pageId buf, Function.update session.owned pageId buf, session.freed⟩ := by
  obtain ⟨positive, below⟩ := sound.inside owned
  simp only [DiskSession.step, call,
    (sound.opened isOpen).writePage (Int32.le_of_lt positive) below buf]

theorem owns_update_of_owned (owned : session.owned pageId ≠ none) (buf : Page)
    (dm : DiskManager) (freed : List PageId) :
    owns ⟨dm, Function.update session.owned pageId (some buf), freed⟩ = session.owns := by
  funext other
  by_cases same : other = pageId
  · subst same
    rw [owns_iff.mpr owned]
    simp [owns]
  · simp [owns, Function.update_of_ne same]

/-! ## The moments of a call -/

theorem callWrites_eq {op : DiskCall} {writes : List (PageId × Page)}
    (written : (session.step op).dm.file = writes ++ session.dm.file) :
    callWrites session op = writes.reverse := by
  rw [callWrites, written, List.length_append, Nat.add_sub_cancel, List.take_left]

/-- A call that issues no page write passes no moment. -/
theorem callMoments_unwritten {op : DiskCall}
    (same : (session.step op).dm.file = session.dm.file) : callMoments session op = [] := by
  rw [callMoments, @callWrites_eq session op [] same]
  rfl

theorem callMoments_once {op : DiskCall} {write : PageId × Page}
    (written : (session.step op).dm.file = write :: session.dm.file) :
    callMoments session op = [⟨(session.step op).dm.file, (session.step op).owns⟩] := by
  rw [callMoments, @callWrites_eq session op [write] written, written]
  rfl

theorem callMoments_twice {op : DiskCall} {first second : PageId × Page}
    (written : (session.step op).dm.file = second :: first :: session.dm.file) :
    callMoments session op = [⟨first :: session.dm.file, session.owns⟩,
      ⟨(session.step op).dm.file, (session.step op).owns⟩] := by
  rw [callMoments, @callWrites_eq session op [second, first] written, written]
  rfl

/-- A session after a page write that a crash leaves sound. -/
theorem Sound.settled (sound : session.Sound) (covered : Covered session)
    {write : PageId × Page} {file : DbFile} (written : session.dm.file = write :: file)
    (notFree : write.1 ∉ session.freed) (nonneg : 0 ≤ write.1) :
    Settled ⟨session.dm.file, session.owns⟩ session :=
  ⟨sound, covered, rfl, rfl, sound.calm written notFree nonneg⟩

/-- The header is written last. -/
theorem Sound.settled_header (sound : session.Sound) (covered : Covered session)
    {header : Page} {file : DbFile} (written : session.dm.file = (0, header) :: file) :
    Settled ⟨session.dm.file, session.owns⟩ session :=
  sound.settled covered written sound.healthy.zero_notMem (Int32.le_refl 0)

theorem Sound.reuse_step (sound : session.Sound) (isOpen : session.dm.isOpen = true)
    {rest : List PageId} (shape : session.freed = pageId :: rest) :
    ∃ after header, session.step .allocate =
        ⟨after, Function.update session.owned pageId (some zeroPage), rest⟩ ∧
      after.file = (0, header) :: (pageId, zeroPage) :: session.dm.file ∧
      after.pageCount = session.dm.pageCount := by
  have healthy := sound.opened isOpen
  rw [shape] at healthy
  obtain ⟨after, allocated, -, zeroed, kept, count⟩ := healthy.allocate_reuse
  obtain ⟨header, buf, written⟩ := kept.writes
  obtain ⟨positive, -⟩ := healthy.inside pageId List.mem_cons_self
  have notHeader : pageId ≠ 0 := fun same => Int32.lt_irrefl (same ▸ positive)
  obtain rfl : buf = zeroPage := by
    have present : after.file.page pageId = some buf := by
      rw [written]
      exact DbFile.page_write_other (DbFile.page_write_same _ _ _) notHeader _
    exact Option.some.inj (present.symm.trans zeroed)
  refine ⟨after, header, ?_, written, count⟩
  simp only [DiskSession.step, call_allocate isOpen allocated, shape, List.tail_cons]

theorem Sound.append_step (sound : session.Sound) (isOpen : session.dm.isOpen = true)
    (shape : session.freed = []) :
    session.step .allocate = session ∨ ∃ after header buf, session.step .allocate =
        ⟨after, Function.update session.owned session.dm.pageCount (some zeroPage), []⟩ ∧
      after.file = (0, header) :: (session.dm.pageCount, buf) :: session.dm.file ∧
      ∀ pageId, pageId < after.pageCount ↔ pageId ≤ session.dm.pageCount := by
  have healthy := sound.opened isOpen
  rw [shape] at healthy
  rcases healthy.allocate_append with ⟨overflow, -⟩ |
    ⟨after, allocated, -, -, kept, -, -, successor⟩
  · exact .inl (by simp [DiskSession.step, call, overflow, bind, Except.bind])
  · obtain ⟨header, buf, written⟩ := kept.writes
    refine .inr ⟨after, header, buf, ?_, written, successor⟩
    simp only [DiskSession.step, call_allocate isOpen allocated, shape, List.tail_nil]

theorem Sound.deallocate_step (sound : session.Sound) (isOpen : session.dm.isOpen = true)
    (owned : session.owned pageId ≠ none) :
    ∃ after header buf, session.step (.deallocate pageId) =
        ⟨after, Function.update session.owned pageId none, pageId :: session.freed⟩ ∧
      after.file = (0, header) :: (pageId, buf) :: session.dm.file ∧
      after.pageCount = session.dm.pageCount := by
  obtain ⟨positive, below⟩ := sound.inside owned
  obtain ⟨after, freed, -, kept, count⟩ :=
    (sound.opened isOpen).deallocate positive below (sound.notFreed owned)
  obtain ⟨header, buf, written⟩ := kept.writes
  exact ⟨after, header, buf, by simp only [DiskSession.step, call, freed], written, count⟩

/-! ## Runs -/

/-- The invariant of a run: a crash now leaves the file sound. -/
structure Steady (session : DiskSession) : Prop where
  sound : session.Sound
  covered : Covered session
  calm : ¬ReuseInterrupted session.dm.file

theorem Steady.settled (steady : session.Steady) :
    Settled ⟨session.dm.file, session.owns⟩ session :=
  ⟨steady.sound, steady.covered, rfl, rfl, steady.calm⟩

/-- A call keeps the invariant, and so do the moments that it passes, but for one. -/
structure Passes (session : DiskSession) (op : DiskCall) : Prop where
  steady : (session.step op).Steady
  moments : ∀ moment ∈ callMoments session op, CallMoment moment

/-- A call that writes one page at most. -/
theorem Steady.passes_once {op : DiskCall} (next : (session.step op).Steady)
    (written : (session.step op).dm.file = session.dm.file ∨
      ∃ write, (session.step op).dm.file = write :: session.dm.file) : Passes session op := by
  refine ⟨next, fun moment member => ?_⟩
  rcases written with same | ⟨write, written⟩
  · rw [callMoments_unwritten same] at member
    cases member
  · rw [callMoments_once written] at member
    rw [List.mem_singleton.mp member]
    exact .inl ⟨_, next.settled⟩

/-- A call that writes a page and then the header. -/
theorem Steady.passes_twice {op : DiskCall} {write : PageId × Page} {header : Page}
    (sound : (session.step op).Sound) (covered : Covered (session.step op))
    (written : (session.step op).dm.file = (0, header) :: write :: session.dm.file)
    (between : CallMoment ⟨write :: session.dm.file, session.owns⟩) : Passes session op := by
  have settled := sound.settled_header covered written
  refine ⟨⟨sound, covered, settled.calm⟩, fun moment member => ?_⟩
  rw [callMoments_twice written] at member
  rcases List.mem_cons.mp member with rfl | last
  · exact between
  · rw [List.mem_singleton.mp last]
    exact .inl ⟨_, settled⟩

theorem Steady.allocate (steady : session.Steady) : Passes session .allocate := by
  have sound := steady.sound.step .allocate trivial
  cases isOpen : session.dm.isOpen with
  | false =>
      have same : session.step .allocate = session := by
        simp only [DiskSession.step, allocate_closed isOpen]
      exact Steady.passes_once (same.symm ▸ steady) (.inl (congrArg (·.dm.file) same))
  | true =>
      cases shape : session.freed with
      | nil =>
          rcases steady.sound.append_step isOpen shape with same |
            ⟨after, header, buf, step_eq, written, successor⟩
          · exact Steady.passes_once (same.symm ▸ steady) (.inl (congrArg (·.dm.file) same))
          · have positive := steady.sound.healthy.nonempty
            have notFree : session.dm.pageCount ∉ session.freed := by simp [shape]
            have unowned : session.owned session.dm.pageCount = none := by
              by_contra owned
              exact Int32.lt_irrefl (steady.sound.inside owned).2
            have between := steady.sound.writtenApart positive notFree unowned buf
            refine Steady.passes_twice sound ?_ (by rw [step_eq]; exact written)
              (.inl ⟨_, between.settled steady.covered rfl notFree (Int32.le_of_lt positive)⟩)
            rw [step_eq]
            intro other otherPositive below
            have within := Int32.le_iff_lt_or_eq.mp ((successor other).mp below)
            rcases within with inside | rfl
            · refine .inr ?_
              have owned := (steady.covered other otherPositive inside).resolve_left (by simp [shape])
              have differ : other ≠ session.dm.pageCount := fun same =>
                Int32.lt_irrefl (same ▸ inside)
              simpa [owns, Function.update_of_ne differ] using owned
            · exact .inr (by simp [owns])
      | cons pageId rest =>
          obtain ⟨after, header, step_eq, written, count⟩ := steady.sound.reuse_step isOpen shape
          refine Steady.passes_twice sound ?_ (by rw [step_eq]; exact written)
            (.inr ⟨session, steady.sound, ⟨pageId, rest, shape, rfl⟩, rfl⟩)
          rw [step_eq]
          intro other otherPositive below
          by_cases same : other = pageId
          · exact .inr (by simp [owns, same])
          · rcases steady.covered other otherPositive (count ▸ below) with free | owned
            · rw [shape] at free
              exact .inl ((List.mem_cons.mp free).resolve_left same)
            · exact .inr (by simpa [owns, Function.update_of_ne same] using owned)

theorem Steady.deallocate (steady : session.Steady) (owned : session.owned pageId ≠ none) :
    Passes session (.deallocate pageId) := by
  have sound := steady.sound.step (.deallocate pageId) owned
  cases isOpen : session.dm.isOpen with
  | false =>
      have same : session.step (.deallocate pageId) = session := by
        simp [DiskSession.step, call, diskManagerDeallocatePage, isOpen]
      exact Steady.passes_once (same.symm ▸ steady) (.inl (congrArg (·.dm.file) same))
  | true =>
      obtain ⟨after, header, buf, step_eq, written, count⟩ :=
        steady.sound.deallocate_step isOpen owned
      have notFree := steady.sound.notFreed owned
      obtain ⟨positive, -⟩ := steady.sound.inside owned
      -- the link page is written as its client could have written it
      have between := steady.sound.write buf owned
      rw [steady.sound.step_write isOpen owned buf] at between
      have covered : Covered ⟨session.dm.written pageId buf,
          Function.update session.owned pageId buf, session.freed⟩ := by
        intro other otherPositive below
        rw [owns_update_of_owned owned]
        exact steady.covered other otherPositive below
      have settled := between.settled covered rfl notFree (Int32.le_of_lt positive)
      rw [owns_update_of_owned owned] at settled
      refine Steady.passes_twice sound ?_ (by rw [step_eq]; exact written) (.inl ⟨_, settled⟩)
      rw [step_eq]
      intro other otherPositive below
      by_cases same : other = pageId
      · exact .inl (same ▸ List.mem_cons_self)
      · rcases steady.covered other otherPositive (count ▸ below) with free | otherOwned
        · exact .inl (List.mem_cons_of_mem _ free)
        · exact .inr (by simpa [owns, Function.update_of_ne same] using otherOwned)

theorem Steady.write (steady : session.Steady) (owned : session.owned pageId ≠ none) (buf : Page) :
    Passes session (.write pageId buf) := by
  have sound := steady.sound.step (.write pageId buf) owned
  cases isOpen : session.dm.isOpen with
  | false =>
      have same : session.step (.write pageId buf) = session := by
        simp [DiskSession.step, call, diskManagerWritePage, isOpen]
      exact Steady.passes_once (same.symm ▸ steady) (.inl (congrArg (·.dm.file) same))
  | true =>
      have step_eq := steady.sound.step_write isOpen owned buf
      obtain ⟨positive, -⟩ := steady.sound.inside owned
      have written : (session.step (.write pageId buf)).dm.file =
          (pageId, buf) :: session.dm.file := by rw [step_eq]; rfl
      have notFree : pageId ∉ (session.step (.write pageId buf)).freed := by
        rw [step_eq]
        exact steady.sound.notFreed owned
      refine Steady.passes_once ⟨sound, ?_, ?_⟩ (.inr ⟨_, written⟩)
      · rw [step_eq]
        intro other otherPositive below
        rw [owns_update_of_owned owned]
        exact steady.covered other otherPositive below
      · exact sound.calm written notFree (Int32.le_of_lt positive)

theorem Steady.close (steady : session.Steady) : Passes session .close := by
  have sound := steady.sound.step .close trivial
  cases isOpen : session.dm.isOpen with
  | false =>
      have same : session.step .close = session := by
        simp only [DiskSession.step, call, diskManagerClose_closed isOpen]
      exact Steady.passes_once (same.symm ▸ steady) (.inl (congrArg (·.dm.file) same))
  | true =>
      have closed := diskManagerClose_exec steady.sound.reliable isOpen
      have covered : Covered (session.step .close) := by
        simp only [DiskSession.step, call, closed]
        exact steady.covered
      have written : (session.step .close).dm.file =
          (0, writeHeaderToBuf session.dm.pageCount session.dm.freeListHead) :: session.dm.file := by
        simp only [DiskSession.step, call, closed]
        rfl
      exact Steady.passes_once ⟨sound, covered, (sound.settled_header covered written).calm⟩
        (.inr ⟨_, written⟩)

theorem Steady.reopen (steady : session.Steady) : Passes session .reopen := by
  have opened := diskManagerOpen_exec steady.sound.header steady.sound.reliable
  have step_eq : session.step .reopen =
      { session with dm := { session.dm with isOpen := true } } := by
    simp only [DiskSession.step, call, opened]
  have sound := steady.sound.step .reopen trivial
  rw [step_eq] at sound
  refine Steady.passes_once ?_ (.inl (by rw [step_eq]))
  rw [step_eq]
  exact ⟨sound, steady.covered, steady.calm⟩

theorem Steady.passes (steady : session.Steady) (op : DiskCall) (allowed : session.Allowed op) :
    Passes session op := by
  cases op with
  | allocate => exact steady.allocate
  | deallocate pageId => exact steady.deallocate allowed
  | read pageId =>
      have same := steady.sound.read pageId
      exact Steady.passes_once (same.symm ▸ steady) (.inl (congrArg (·.dm.file) same))
  | write pageId buf => exact steady.write allowed buf
  | close => exact steady.close
  | reopen => exact steady.reopen

theorem Steady.start : start.Steady where
  sound := Sound.start
  covered pageId positive below := by
    have count : DiskSession.start.dm.pageCount.toInt = 1 := by decide
    rw [Int32.lt_iff_toInt_lt] at positive below
    have zero : (0 : Int32).toInt = 0 := by decide
    omega
  calm := by
    rw [reuseInterrupted_iff rfl Sound.start.header]
    decide

theorem Steady.run (steady : session.Steady) {ops : List DiskCall}
    (allowed : EachStep DiskSession.step DiskSession.Allowed session ops) :
    (run DiskSession.step session ops).Steady := by
  have kept : ∀ state op, Steady state → Allowed state op → Steady (DiskSession.step state op) :=
    fun _ op still allowed => (still.passes op allowed).steady
  exact EachStep.run_invariant kept steady allowed

/-- Each moment of a run is settled, or a freed page is being reused. -/
theorem Steady.moments (steady : session.Steady) {ops : List DiskCall}
    (allowed : EachStep DiskSession.step DiskSession.Allowed session ops) :
    ∀ moment ∈ moments session ops, CallMoment moment := by
  induction ops generalizing session with
  | nil =>
      intro moment member
      rw [List.mem_singleton.mp member]
      exact .inl ⟨session, steady.settled⟩
  | cons op ops ih =>
      have passes := steady.passes op allowed.1
      intro moment member
      rcases List.mem_append.mp member with first | later
      · rcases List.mem_cons.mp first with rfl | passed
        · exact .inl ⟨session, steady.settled⟩
        · exact passes.moments moment passed
      · exact ih passes.steady allowed.2 moment later

end DiskSession

/-! ## After a crash -/

theorem positive_iff : 0 < pageId ↔ 1 ≤ pageId := by
  have zero : (0 : Int32).toInt = 0 := by decide
  have one : (1 : Int32).toInt = 1 := by decide
  rw [Int32.lt_iff_toInt_lt, Int32.le_iff_toInt_le]
  omega

/-- Opening reads nothing of the disk manager but its file. -/
theorem diskManagerOpen_crashed (reliable : dm.failures = []) :
    diskManagerOpen.exec (crashed dm.file) = diskManagerOpen.exec dm := by
  simp only [diskManagerOpen, DiskM.exec_bind, DiskM.exec_modify, crashed, reliable]

theorem crashed_exec (stored : HeaderStored dm) (reliable : dm.failures = []) :
    diskManagerOpen.exec (crashed dm.file) = (.ok (), { dm with isOpen := true }) := by
  rw [diskManagerOpen_crashed reliable, diskManagerOpen_exec stored reliable]

namespace DiskSession

/-- The clients that owned pages before the crash may go on with them. -/
theorem Sound.afterCrash (sound : session.Sound) {owned : PageId → Bool}
    (kept : ∀ pageId, owned pageId = true → session.owns pageId = true) :
    Sound (afterCrash { session.dm with isOpen := true } owned session.freed) where
  healthy := sound.healthy
  header := sound.header
  apart pageId free := by
    have unowned : owned pageId = false := by
      by_contra holds
      exact owns_iff.mp (kept pageId (Bool.eq_true_of_not_eq_false holds)) (sound.apart pageId free)
    simp [Storage.afterCrash, unowned]
  contents pageId page holds := by
    cases owns : owned pageId with
    | false => simp [Storage.afterCrash, owns] at holds
    | true =>
        obtain ⟨present, found⟩ := Option.ne_none_iff_exists'.mp (owns_iff.mp (kept pageId owns))
        obtain ⟨positive, below, stored⟩ := sound.contents pageId present found
        have same : present = page := by simpa [Storage.afterCrash, owns, stored] using holds
        exact ⟨positive, below, same ▸ stored⟩

theorem Sound.spares (sound : session.Sound) (op : DiskCall) : Spares session op := by
  rintro rfl isOpen newPid after allocated
  rcases sound.allocate isOpen with ⟨overflow, -⟩ | ⟨next, other, -, -, returned, allocates⟩
  · simp [call, allocated, isOpen, bind, Except.bind] at overflow
  · obtain ⟨rfl, -⟩ := Prod.mk.inj (Except.ok.inj (allocated.symm.trans returned))
    have positive := allocates.positive
    exact ⟨by omega, allocates.unowned⟩

/-- Enough allocations return a page that is free, or that the file is still to grow by. -/
theorem allocations_reach {owned : PageId → Option Page} (healthy : Healthy dm freed)
    (owns : owned pageId ≠ none) (notLast : pageId ≠ 2147483647)
    (coming : pageId ∈ freed ∨ dm.pageCount ≤ pageId) :
    ∃ count, ¬EachStep DiskSession.step Spares ⟨dm, owned, freed⟩
      (List.replicate count .allocate) := by
  induction freed generalizing dm owned with
  | cons first rest ih =>
      obtain ⟨after, allocated, stillHealthy, -, -, count⟩ := healthy.allocate_reuse
      by_cases same : first = pageId
      · subst same
        refine ⟨1, fun spared => owns ?_⟩
        have returned := (spared.1 rfl healthy.isOpen _ _ allocated).2
        rwa [Int32.ofInt_toInt] at returned
      · have still : Function.update owned first (some zeroPage) pageId ≠ none := by
          rwa [Function.update_of_ne (Ne.symm same)]
        have next : pageId ∈ rest ∨ after.pageCount ≤ pageId :=
          coming.imp (fun free => (List.mem_cons.mp free).resolve_left (Ne.symm same))
            (fun above => count ▸ above)
        obtain ⟨more, reached⟩ := ih stillHealthy still next
        refine ⟨more + 1, fun spared => reached ?_⟩
        have called : DiskSession.call ⟨dm, owned, first :: rest⟩ .allocate =
            .ok ⟨after, Function.update owned first (some zeroPage), rest⟩ :=
          call_allocate healthy.isOpen allocated
        have later := spared.2
        simp only [DiskSession.step, called] at later
        exact later
  | nil =>
      have above : dm.pageCount ≤ pageId := coming.resolve_left (by simp)
      generalize left : (pageId.toInt - dm.pageCount.toInt).toNat = distance
      induction distance using Nat.strongRecOn generalizing dm owned with
      | _ distance ih =>
          have bound := pageId.toInt_lt
          have order := Int32.le_iff_toInt_le.mp above
          rcases healthy.allocate_append with ⟨-, wrapped⟩ |
            ⟨after, allocated, stillHealthy, -, -, count, grown, successor⟩
          · refine absurd (Int32.toInt_inj.mp ?_) notLast
            have last := congrArg Int32.toInt (eq_last_of_wraps wrapped)
            have value : (2147483647 : Int32).toInt = 2147483647 := by decide
            omega
          · by_cases same : dm.pageCount = pageId
            · refine ⟨1, fun spared => owns ?_⟩
              have returned := (spared.1 rfl healthy.isOpen _ _ allocated).2
              rwa [Int32.ofInt_toInt, same] at returned
            · have still : Function.update owned dm.pageCount (some zeroPage) pageId ≠ none := by
                rwa [Function.update_of_ne (Ne.symm same)]
              have differ : dm.pageCount.toInt ≠ pageId.toInt := fun equal =>
                same (Int32.toInt_inj.mp equal)
              have next : after.pageCount ≤ pageId := by
                rw [← Int32.not_lt, successor, Int32.le_iff_toInt_le]
                omega
              have further := Int32.lt_iff_toInt_lt.mp grown
              obtain ⟨more, reached⟩ := ih _ (by omega) stillHealthy still (.inr next) next rfl
              refine ⟨more + 1, fun spared => reached ?_⟩
              have called : DiskSession.call ⟨dm, owned, []⟩ .allocate =
                  .ok ⟨after, Function.update owned dm.pageCount (some zeroPage), []⟩ :=
                call_allocate healthy.isOpen allocated
              have later := spared.2
              simp only [DiskSession.step, called] at later
              exact later

end DiskSession

theorem allowed_replicate (session : DiskSession) (count : Nat) :
    EachStep DiskSession.step DiskSession.Allowed session (List.replicate count .allocate) := by
  induction count generalizing session with
  | zero => exact trivial
  | succ count ih => exact ⟨trivial, ih _⟩

theorem DiskSession.Sound.owns_inside (sound : session.Sound) (owns : session.owns pageId = true) :
    0 < pageId ∧ pageId ≠ 2147483647 := by
  obtain ⟨positive, below⟩ := sound.inside (DiskSession.owns_iff.mp owns)
  refine ⟨positive, ?_⟩
  rintro rfl
  have bound := session.dm.pageCount.toInt_lt
  have value : (2147483647 : Int32).toInt = 2147483647 := by decide
  rw [Int32.lt_iff_toInt_lt] at below
  omega

/-- The pages owned at a moment are proper ones. -/
theorem CallMoment.inside {moment : Moment} (passed : CallMoment moment)
    (owned : moment.owned pageId = true) : 0 < pageId ∧ pageId ≠ 2147483647 := by
  rcases passed with ⟨session, settled⟩ | ⟨session, reusing⟩
  · rw [← settled.owns] at owned
    exact settled.sound.owns_inside owned
  · rw [← reusing.owns] at owned
    exact reusing.sound.owns_inside owned

/-- A settled file is safe for clients that own no other pages than at its moment. -/
theorem Settled.safe_iff {moment : Moment} (settled : Settled moment session)
    {owned : PageId → Bool}
    (inside : ∀ pageId, owned pageId = true → 0 < pageId ∧ pageId ≠ 2147483647) :
    CrashSafe moment.file owned ↔ ∀ pageId, owned pageId = true → moment.owned pageId = true := by
  have sound := settled.sound
  have opened := crashed_exec sound.header sound.reliable
  rw [← settled.file, ← settled.owns]
  constructor
  · rintro ⟨dm, freed, recovered, chain, -, within, spared⟩ pageId owns
    obtain ⟨positive, notLast⟩ := inside pageId owns
    obtain rfl : { session.dm with isOpen := true } = dm :=
      (Prod.mk.inj (opened.symm.trans recovered)).2
    obtain rfl : freed = session.freed := chain.unique sound.healthy.chain
      (fun free => absurd (within _ free).1 (by decide)) sound.healthy.invalid_notMem
    by_contra unowned
    have coming : pageId ∈ session.freed ∨ session.dm.pageCount ≤ pageId := by
      by_contra neither
      rw [not_or, Int32.not_le] at neither
      exact (settled.covered pageId positive neither.2).elim neither.1 unowned
    have still : (afterCrash { session.dm with isOpen := true } owned session.freed).owned pageId ≠
        none := by simp [afterCrash, owns]
    obtain ⟨count, reached⟩ :=
      DiskSession.allocations_reach sound.healthy still notLast coming
    exact reached (spared _ (allowed_replicate _ count))
  · intro kept
    have recovered := sound.afterCrash kept
    refine ⟨_, session.freed, opened, sound.healthy.chain, sound.healthy.nodup, ?_, ?_⟩
    · intro pageId free
      obtain ⟨positive, below⟩ := sound.healthy.inside pageId free
      exact ⟨positive_iff.mp positive, below⟩
    intro ops allowed
    exact allowed.of_invariant (fun _ op (still : DiskSession.Sound _) => still.step op)
      (fun _ op still _ => still.spares op) recovered

/-- Between the two writes the free list of the header leads on to page 0. -/
theorem Reusing.not_crashSafe {moment : Moment} (reusing : Reusing moment session)
    (owned : PageId → Bool) : ¬CrashSafe moment.file owned := by
  obtain ⟨pageId, rest, shape, written⟩ := reusing.reused
  have healthy := reusing.sound.healthy
  rw [shape] at healthy
  obtain ⟨head, -⟩ := healthy.chain
  obtain ⟨positive, -⟩ := healthy.inside pageId List.mem_cons_self
  have notHeader : pageId ≠ 0 := fun same => Int32.lt_irrefl (same ▸ positive)
  have opened := crashed_exec (reusing.sound.header.written notHeader zeroPage) healthy.reliable
  rw [written]
  rintro ⟨dm, freed, recovered, chain, -, inside, -⟩
  obtain rfl := (Prod.mk.inj (opened.symm.trans recovered)).2
  cases freed with
  | nil => exact absurd (head.symm.trans chain) fun invalid =>
      healthy.invalid_notMem (invalid ▸ List.mem_cons_self)
  | cons first others =>
      obtain ⟨same, page, present, onward⟩ := chain
      obtain rfl : pageId = first := head.symm.trans same
      have zeroed : page = zeroPage :=
        Option.some.inj (present.symm.trans (DbFile.page_write_same _ _ _))
      have next : Scalar.i32.load zeroPage 0 = 0 := by decide
      rw [zeroed, next] at onward
      cases others with
      | nil =>
          have ends : (0 : PageId) = invalidPageId := onward
          exact absurd ends (by decide)
      | cons second beyond =>
          have atZero := (inside second (by simp)).1
          rw [← onward.1] at atZero
          exact absurd atZero (by decide)

theorem Reusing.interrupted {moment : Moment} (reusing : Reusing moment session) :
    ReuseInterrupted moment.file := by
  obtain ⟨pageId, rest, shape, written⟩ := reusing.reused
  have healthy := reusing.sound.healthy
  rw [shape] at healthy
  obtain ⟨head, -⟩ := healthy.chain
  obtain ⟨positive, -⟩ := healthy.inside pageId List.mem_cons_self
  have notHeader : pageId ≠ 0 := fun same => Int32.lt_irrefl (same ▸ positive)
  have newest : (session.dm.written pageId zeroPage).file =
      (pageId, zeroPage) :: session.dm.file := rfl
  rw [written, ← newest]
  exact (reuseInterrupted_iff newest (reusing.sound.header.written notHeader zeroPage)).mpr head

/-- A crash is safe unless it comes between the two writes with which a freed page is taken
again, or keeps too little: a page that is owned when it comes was not yet owned at the moment
that it goes back to. -/
theorem crashSafe_iff (ops : List DiskCall)
    (allowed : EachStep DiskSession.step DiskSession.Allowed .start ops) :
    ∀ kept ∈ moments .start ops, ∀ crash ∈ moments .start ops,
      CrashSafe kept.file crash.owned ↔ ¬ReuseInterrupted kept.file ∧
        ∀ pageId, crash.owned pageId = true → kept.owned pageId = true := by
  intro kept passed crash passedLater
  have inside : ∀ pageId, crash.owned pageId = true → 0 < pageId ∧ pageId ≠ 2147483647 :=
    fun _ => (DiskSession.Steady.start.moments allowed crash passedLater).inside
  rcases DiskSession.Steady.start.moments allowed kept passed with
    ⟨session, settled⟩ | ⟨session, reusing⟩
  · rw [settled.safe_iff inside]
    exact ⟨fun known => ⟨settled.calm, known⟩, fun both => both.2⟩
  · exact ⟨fun safe => absurd safe (reusing.not_crashSafe crash.owned),
      fun both => absurd reusing.interrupted both.1⟩

/-- A page is allocated, given back and allocated again. -/
def reusedPage : List DiskCall := [.allocate, .deallocate 1, .allocate]

theorem reusedPage_allowed : EachStep DiskSession.step DiskSession.Allowed .start reusedPage :=
  ⟨trivial, by decide +kernel, trivial, trivial⟩

theorem last_mem_moments (session : DiskSession) (ops : List DiskCall) :
    ⟨(run DiskSession.step session ops).dm.file, (run DiskSession.step session ops).owns⟩ ∈
      moments session ops := by
  induction ops generalizing session with
  | nil => exact List.mem_singleton_self _
  | cons op ops ih => exact List.mem_append_right _ (ih _)

/-- A crash after the whole run is safe. -/
theorem reusedPage_crashSafe :
    CrashSafe (run DiskSession.step .start reusedPage).dm.file
      (run DiskSession.step .start reusedPage).owns := by
  have steady := DiskSession.Steady.start.run reusedPage_allowed
  have last := last_mem_moments .start reusedPage
  exact (crashSafe_iff reusedPage reusedPage_allowed _ last _ last).mpr
    ⟨steady.calm, fun _ owned => owned⟩

/-- An allocation that reuses a page passes the moment between its two writes. -/
theorem reusing_mem_callMoments (sound : session.Sound) (isOpen : session.dm.isOpen = true)
    {rest : List PageId} (shape : session.freed = pageId :: rest) :
    ∃ moment ∈ callMoments session .allocate, Reusing moment session := by
  obtain ⟨after, header, step_eq, written, -⟩ := sound.reuse_step isOpen shape
  refine ⟨⟨(pageId, zeroPage) :: session.dm.file, session.owns⟩, ?_,
    sound, ⟨pageId, rest, shape, rfl⟩, rfl⟩
  rw [DiskSession.callMoments_twice (by rw [step_eq]; exact written)]
  exact List.mem_cons_self

/-- A crash before the header of the second allocation is written is not. -/
theorem reusedPage_interrupted : ∃ moment ∈ moments .start reusedPage,
    ¬CrashSafe moment.file moment.owned := by
  let freed := run DiskSession.step .start [.allocate, .deallocate 1]
  have allowed : EachStep DiskSession.step DiskSession.Allowed .start [.allocate, .deallocate 1] :=
    ⟨trivial, by decide +kernel, trivial⟩
  have steady : freed.Steady := DiskSession.Steady.start.run allowed
  obtain ⟨moment, passed, reusing⟩ :=
    @reusing_mem_callMoments 1 freed steady.sound (by decide +kernel) [] (by decide +kernel)
  refine ⟨moment, ?_, reusing.not_crashSafe moment.owned⟩
  exact List.mem_append_right _ (List.mem_append_right _
    (List.mem_append_left _ (List.mem_cons_of_mem _ passed)))

end MiniSqlite.Storage
