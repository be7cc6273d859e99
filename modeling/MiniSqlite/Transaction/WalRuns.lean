import MiniSqlite.Transaction.WalManager
import MiniSqlite.Std.Integers
import MiniSqlite.Std.Run

/-!
# Runs of the log

Appends, flushes and reads in any order on a freshly initialised log. Writer and
reader share one position, so an append overwrites records whenever a read has
left that position before the end of the file. `logKept_iff_appendsAtEnd` says
that this, an LSN counter at its limit and a nonzero length field are all that
can go wrong.
-/

namespace MiniSqlite.Transaction

open MiniSqlite.Common MiniSqlite.Std

/-- A call on the log. -/
inductive WalCall where
  | append (record : WalRecord)
  | flush (upToLsn : Lsn)
  | resetRead
  | readNext
  deriving DecidableEq, Repr

/-- A log, and the records appended to it with the LSNs 1, 2, 3, ... -/
structure WalSession where
  wm : WalManager
  appended : List WalRecord
  deriving DecidableEq, Repr

namespace WalSession

/-- A log just initialised, on a path where some file may have existed. -/
def start (existing : List UInt8) : WalSession := ⟨walManagerInit existing, []⟩

/-- The record that an append should add. -/
def numbered (session : WalSession) (record : WalRecord) : WalRecord :=
  { record with lsn := Int32.ofNat (session.appended.length + 1) }

/-- One call. -/
def call (session : WalSession) : WalCall → Except Fault WalSession
  | .append record => do
      let (wm, _) ← walAppend session.wm record
      .ok ⟨wm, session.appended ++ [session.numbered record]⟩
  | .flush upToLsn => .ok { session with wm := walFlush session.wm upToLsn }
  | .resetRead => .ok { session with wm := walResetRead session.wm }
  | .readNext => do
      let (wm, _) ← walReadNext session.wm
      .ok { session with wm }

/-- The session after a call; nothing is said about one after a fault. -/
def step (session : WalSession) (op : WalCall) : WalSession :=
  match session.call op with
  | .ok next => next
  | .error _ => session

/-- A full read of the log gives the records appended. -/
def ReadsBack (session : WalSession) : Prop :=
  ∃ after, walReadAll (walResetRead session.wm) = .ok (after, session.appended)

end WalSession

/-- The call leaves the bytes of the log in place, and a full read after it gives
the records appended so far. -/
def LogKept (session : WalSession) (op : WalCall) : Prop :=
  ∃ next, session.call op = .ok next ∧
    session.wm.logFile.bytes <+: next.wm.logFile.bytes ∧ next.ReadsBack

/-- The call, if it is an append, is made with the position at the end of the log, an
LSN to spare, and a record whose length field is 0. -/
def AppendsAtEnd (session : WalSession) : WalCall → Prop
  | .append record => session.wm.logFile.rest = [] ∧ session.wm.currentLsn ≠ 2147483647 ∧
      record.length = 0
  | _ => True

instance (session : WalSession) : DecidablePred (AppendsAtEnd session) := fun op =>
  match op with
  | .append _ => inferInstanceAs (Decidable (_ ∧ _))
  | .flush _ => inferInstanceAs (Decidable True)
  | .resetRead => inferInstanceAs (Decidable True)
  | .readNext => inferInstanceAs (Decidable True)

/-! ## Logs that hold what was appended -/

/-- The records appended have the LSNs 1, 2, 3, ..., and the counter stands at the next. -/
structure WalSession.Numbered (session : WalSession) : Prop where
  lsn : ∀ i record, session.appended[i]? = some record → record.lsn = Int32.ofNat (i + 1)
  current : session.wm.currentLsn = Int32.ofNat (session.appended.length + 1)
  bounded : session.appended.length + 1 < 2147483648

/-- The file is the encoding of the records appended, and its position lies between
two of them. -/
structure WalSession.Sound (session : WalSession) : Prop extends session.Numbered where
  split : ∃ seen pending, session.appended = seen ++ pending ∧
    session.wm.logFile = ⟨encodeLog seen, encodeLog pending⟩
  plain : ∀ record ∈ session.appended, record.length = 0

namespace WalSession

variable {session : WalSession}

theorem Numbered.start (existing : List UInt8) : (start existing).Numbered where
  lsn := by simp [WalSession.start]
  current := rfl
  bounded := by simp [WalSession.start]

theorem Sound.start (existing : List UInt8) : (start existing).Sound where
  toNumbered := .start existing
  split := ⟨[], [], rfl, rfl⟩
  plain := by simp [WalSession.start]

theorem Sound.bytes (sound : session.Sound) :
    session.wm.logFile.bytes = encodeLog session.appended := by
  obtain ⟨seen, pending, whole, file⟩ := sound.split
  simp [file, Stream.bytes, whole]

theorem Sound.readAll (sound : session.Sound) : walReadAll (walResetRead session.wm) =
    .ok ({ session.wm with logFile := ⟨session.wm.logFile.bytes, []⟩ }, session.appended) := by
  have unchanged : session.appended.map (fun record => { record with length := 0 }) =
      session.appended := by
    conv_rhs => rw [← List.map_id session.appended]
    refine List.map_congr_left fun record member => ?_
    rw [← sound.plain record member]
    rfl
  rw [walReadAll_encodeLog session.wm sound.bytes, unchanged]

theorem Sound.readsBack (sound : session.Sound) : session.ReadsBack := ⟨_, sound.readAll⟩

/-- Moving the position between records changes nothing else. -/
theorem Sound.reposition (sound : session.Sound) {wm : WalManager}
    (split : ∃ seen pending, session.appended = seen ++ pending ∧
      wm.logFile = ⟨encodeLog seen, encodeLog pending⟩)
    (current : wm.currentLsn = session.wm.currentLsn) : Sound ⟨wm, session.appended⟩ where
  split := split
  lsn := sound.lsn
  current := current.trans sound.current
  bounded := sound.bounded
  plain := sound.plain

theorem Sound.flush (sound : session.Sound) (upToLsn : Lsn) :
    Sound ⟨walFlush session.wm upToLsn, session.appended⟩ :=
  sound.reposition sound.split rfl

theorem Sound.resetRead (sound : session.Sound) :
    Sound ⟨walResetRead session.wm, session.appended⟩ := by
  refine sound.reposition ⟨[], session.appended, rfl, ?_⟩ rfl
  rw [encodeLog_nil, ← sound.bytes]
  rfl

theorem Sound.readNext (sound : session.Sound) :
    ∃ wm answer, walReadNext session.wm = .ok (wm, answer) ∧
      wm.logFile.bytes = session.wm.logFile.bytes ∧ Sound ⟨wm, session.appended⟩ := by
  obtain ⟨seen, pending, whole, file⟩ := sound.split
  have shape : session.wm =
      ⟨⟨encodeLog seen, encodeLog pending⟩, session.wm.currentLsn, session.wm.flushedLsn⟩ := by
    rw [← file]
  cases pending with
  | nil =>
      refine ⟨session.wm, .error .pageNotFound, ?_, rfl, sound⟩
      rw [shape]
      exact walReadNext_end _ _ _
  | cons record more =>
      have read := walReadNext_encodeRecord (encodeLog seen) (encodeLog more)
        session.wm.currentLsn session.wm.flushedLsn record
      rw [← encodeLog_cons, ← shape] at read
      refine ⟨_, _, read, by simp [file, Stream.bytes], ?_⟩
      exact sound.reposition ⟨seen ++ [record], more, by simp [whole], by simp⟩ rfl

/-- The session after an append that has an LSN to spare. -/
def added (session : WalSession) (record : WalRecord) : WalSession :=
  ⟨{ session.wm with
      logFile := session.wm.logFile.write (encodeRecord (session.numbered record))
      currentLsn := session.wm.currentLsn + 1 },
    session.appended ++ [session.numbered record]⟩

theorem Numbered.call_append (numbers : session.Numbered) (left : session.wm.currentLsn ≠ 2147483647)
    (record : WalRecord) : session.call (.append record) = .ok (session.added record) := by
  have number : session.numbered record = { record with lsn := session.wm.currentLsn } := by
    rw [numbered, numbers.current]
  rw [call, walAppend_write left, added, number]
  rfl

theorem Sound.write_end (sound : session.Sound) (last : session.wm.logFile.rest = [])
    (record : WalRecord) : session.wm.logFile.write (encodeRecord (session.numbered record)) =
      ⟨encodeLog (session.appended ++ [session.numbered record]), []⟩ := by
  rw [Stream.write_end last, sound.bytes]
  simp

theorem Numbered.added (numbers : session.Numbered) (left : session.wm.currentLsn ≠ 2147483647)
    (record : WalRecord) : (session.added record).Numbered := by
  constructor
  · intro i added present
    rcases Nat.lt_or_ge i session.appended.length with earlier | later
    · rw [WalSession.added, List.getElem?_append_left earlier] at present
      exact numbers.lsn i added present
    · rw [WalSession.added, List.getElem?_append_right later] at present
      cases place : i - session.appended.length with
      | zero =>
          obtain rfl : session.numbered record = added := by simpa [place] using present
          have position : i = session.appended.length := by omega
          rw [position]
          rfl
      | succ k => simp [place] at present
  · simp only [WalSession.added, List.length_append, List.length_singleton]
    rw [numbers.current]
    exact (Int32.ofNat_add _ 1).symm
  · have bounded := numbers.bounded
    have differ : session.appended.length + 1 ≠ 2147483647 := by
      intro full
      exact left (numbers.current.trans (by rw [full]; rfl))
    simp only [WalSession.added, List.length_append, List.length_singleton]
    omega

/-- At the end of the file an append adds its record. -/
theorem Sound.added (sound : session.Sound) {record : WalRecord}
    (atEnd : AppendsAtEnd session (.append record)) : (session.added record).Sound := by
  obtain ⟨last, left, unset⟩ := atEnd
  refine ⟨sound.toNumbered.added left record, ?_, ?_⟩
  · exact ⟨_, [], (List.append_nil _).symm, sound.write_end last record⟩
  · intro added member
    rcases List.mem_append.mp member with earlier | new
    · exact sound.plain added earlier
    · rw [List.mem_singleton.mp new]
      exact unset

theorem Sound.added_grows (sound : session.Sound) (last : session.wm.logFile.rest = [])
    (record : WalRecord) : session.wm.logFile.bytes <+: (session.added record).wm.logFile.bytes := by
  have grown : (session.added record).wm.logFile.bytes =
      session.wm.logFile.bytes ++ encodeLog [session.numbered record] := by
    rw [sound.bytes, WalSession.added, sound.write_end last]
    simp [Stream.bytes]
  exact ⟨_, grown.symm⟩

/-- A record with a length is read back without it. -/
theorem Sound.length_of_readsBack (sound : session.Sound) (last : session.wm.logFile.rest = [])
    {record : WalRecord} (reads : (session.added record).ReadsBack) : record.length = 0 := by
  obtain ⟨_, read⟩ := reads
  have holds : (session.added record).wm.logFile.bytes =
      encodeLog (session.added record).appended := by
    simp [WalSession.added, sound.write_end last, Stream.bytes]
  have same := (Prod.mk.inj (Except.ok.inj ((walReadAll_encodeLog _ holds).symm.trans read))).2
  have member : session.numbered record ∈ (session.added record).appended := by
    simp [WalSession.added]
  rw [← same] at member
  obtain ⟨_, -, equal⟩ := List.mem_map.mp member
  exact (congrArg WalRecord.length equal).symm

/-- Away from the end of the file an append overwrites a record that has another LSN. -/
theorem Sound.end_of_grows (sound : session.Sound) {record : WalRecord}
    (grows : session.wm.logFile.bytes <+: (session.added record).wm.logFile.bytes) :
    session.wm.logFile.rest = [] := by
  obtain ⟨seen, pending, whole, file⟩ := sound.split
  cases pending with
  | nil => rw [file, encodeLog_nil]
  | cons first more =>
      have rest : session.wm.logFile.rest = encodeRecord first ++ encodeLog more := by
        rw [file, encodeLog_cons]
      have long := encodeRecord_length first
      have longNew := encodeRecord_length (session.numbered record)
      have overwritten := Stream.take_eq_of_prefix_write 4 grows
        (by rw [rest, List.length_append]; omega) (by omega)
      rw [rest, encodeRecord_take, ← List.append_nil (encodeRecord (session.numbered record)),
        encodeRecord_take] at overwritten
      have sameLsn : first.lsn = (session.numbered record).lsn := by
        rw [← Scalar.decode_encode .i32 first.lsn, overwritten, Scalar.decode_encode]
      have place : session.appended[seen.length]? = some first := by simp [whole]
      have bounded := sound.bounded
      have longer : session.appended.length = seen.length + (more.length + 1) := by simp [whole]
      rw [sound.lsn _ _ place] at sameLsn
      have equal := ofNat_inj (by omega) bounded sameLsn
      omega

theorem Sound.logKept_append_iff (sound : session.Sound) (record : WalRecord) :
    LogKept session (.append record) ↔ AppendsAtEnd session (.append record) := by
  by_cases left : session.wm.currentLsn = 2147483647
  · constructor
    · rintro ⟨next, called, -⟩
      rw [call, walAppend_overflow left] at called
      cases called
    · exact fun atEnd => absurd left atEnd.2.1
  · constructor
    · rintro ⟨next, called, grows, reads⟩
      obtain rfl := Except.ok.inj ((sound.toNumbered.call_append left record).symm.trans called)
      have last := sound.end_of_grows grows
      exact ⟨last, left, sound.length_of_readsBack last reads⟩
    · intro atEnd
      exact ⟨_, sound.toNumbered.call_append left record, sound.added_grows atEnd.1 record,
        (sound.added atEnd).readsBack⟩

/-- A call keeps the log exactly when it is no append away from its end. -/
theorem Sound.logKept_iff (sound : session.Sound) (op : WalCall) :
    LogKept session op ↔ AppendsAtEnd session op := by
  cases op with
  | append record => exact sound.logKept_append_iff record
  | flush upToLsn =>
      exact iff_of_true ⟨_, rfl, List.prefix_rfl, (sound.flush upToLsn).readsBack⟩ trivial
  | resetRead =>
      refine iff_of_true ⟨_, rfl, ?_, sound.resetRead.readsBack⟩ trivial
      exact List.prefix_rfl
  | readNext =>
      obtain ⟨wm, answer, read, same, nextSound⟩ := sound.readNext
      refine iff_of_true ⟨⟨wm, session.appended⟩, ?_, ?_, nextSound.readsBack⟩ trivial
      · simp [call, read, bind, Except.bind]
      · exact same ▸ List.prefix_rfl

theorem Sound.step (sound : session.Sound) {op : WalCall} (atEnd : AppendsAtEnd session op) :
    (session.step op).Sound := by
  cases op with
  | append record =>
      simpa [WalSession.step, sound.toNumbered.call_append atEnd.2.1] using sound.added atEnd
  | flush upToLsn => exact sound.flush upToLsn
  | resetRead => exact sound.resetRead
  | readNext =>
      obtain ⟨wm, answer, read, -, nextSound⟩ := sound.readNext
      simpa [WalSession.step, call, read, bind, Except.bind] using nextSound

end WalSession

/-! ## Logs that are only written -/

/-- The log holds exactly these records and its position is at the end. -/
structure LogHolds (wm : WalManager) (log : List WalRecord) : Prop where
  sound : (WalSession.mk wm log).Sound
  atEnd : wm.logFile.rest = []

theorem LogHolds.init (existing : List UInt8) : LogHolds (walManagerInit existing) [] :=
  ⟨.start existing, rfl⟩

theorem LogHolds.flush {wm : WalManager} {log : List WalRecord} (holds : LogHolds wm log)
    (upToLsn : Lsn) : LogHolds (walFlush wm upToLsn) log :=
  ⟨holds.sound.flush upToLsn, holds.atEnd⟩

/-- The LSN that the next record gets. -/
theorem LogHolds.append {wm : WalManager} {log : List WalRecord} (holds : LogHolds wm log)
    (left : log.length + 1 < 2147483647) {record : WalRecord} (unset : record.length = 0) :
    ∃ next, walAppend wm record = .ok (next, Int32.ofNat (log.length + 1)) ∧
      next.flushedLsn = wm.flushedLsn ∧
      LogHolds next (log ++ [{ record with lsn := Int32.ofNat (log.length + 1) }]) := by
  have current : wm.currentLsn = Int32.ofNat (log.length + 1) := holds.sound.current
  have spare : wm.currentLsn ≠ 2147483647 := by
    intro last
    have equal := ofNat_inj (by omega) (by omega) (current.symm.trans last :
      Int32.ofNat (log.length + 1) = Int32.ofNat 2147483647)
    omega
  refine ⟨((WalSession.mk wm log).added record).wm, ?_, rfl, ?_, ?_⟩
  · simp only [walAppend_write spare, WalSession.added, WalSession.numbered, current]
  · exact holds.sound.added ⟨holds.atEnd, spare, unset⟩
  · have file := holds.sound.write_end holds.atEnd record
    exact congrArg Stream.rest file

theorem LogHolds.append_overflow {wm : WalManager} {log : List WalRecord} (holds : LogHolds wm log)
    (full : log.length + 1 = 2147483647) (record : WalRecord) :
    walAppend wm record = .error .overflow :=
  walAppend_overflow (holds.sound.current.trans (by rw [full]; rfl)) record

theorem LogHolds.reads {wm : WalManager} {log : List WalRecord} (holds : LogHolds wm log) :
    ∃ after, walReadAll (walResetRead wm) = .ok (after, log) := holds.sound.readsBack

/-- The records in the log are older than the next one. -/
theorem LogHolds.lsn_lt {wm : WalManager} {log : List WalRecord} (holds : LogHolds wm log)
    {record : WalRecord} (member : record ∈ log) : record.lsn < Int32.ofNat (log.length + 1) := by
  obtain ⟨i, place⟩ := List.mem_iff_getElem?.mp member
  have inside : i < log.length := (List.getElem?_eq_some_iff.mp place).1
  have bounded : log.length + 1 < 2147483648 := holds.sound.bounded
  have number : record.lsn = Int32.ofNat (i + 1) := holds.sound.lsn i record place
  rw [number, Int32.lt_iff_toInt_lt, Int32.toInt_ofNat_of_lt (by omega),
    Int32.toInt_ofNat_of_lt (by omega)]
  omega

/-! ## Runs -/

/-- Every call of a run on a fresh log leaves the bytes of the log in place and lets a
full read return what was appended, exactly when every append of the run is made at
the end of the log. -/
theorem logKept_iff_appendsAtEnd (existing : List UInt8) (ops : List WalCall) :
    EachStep WalSession.step LogKept (.start existing) ops ↔
      EachStep WalSession.step AppendsAtEnd (.start existing) ops :=
  eachStep_iff (fun _ _ (sound : WalSession.Sound _) atEnd => sound.step atEnd)
    (fun _ op sound => sound.logKept_iff op) ops (.start existing)

/-- An append, a read from the start that is not carried on, and another append. -/
def appendAfterReset : List WalCall := [.append .zero, .resetRead, .append .zero]

/-- The second append has overwritten the first record. -/
theorem append_after_reset_overwrites :
    ¬ EachStep WalSession.step LogKept (.start []) appendAfterReset ∧
      (walReadAll (walResetRead (run WalSession.step (.start []) appendAfterReset).wm)).map
        Prod.snd = .ok [{ WalRecord.zero with lsn := 2 }] := by
  constructor
  · intro kept
    have appended := (WalSession.Sound.start []).step (show AppendsAtEnd _ (.append .zero) by decide)
    exact absurd ((appended.resetRead.logKept_iff (.append .zero)).mp kept.2.2.1) (by decide)
  · decide +kernel

end MiniSqlite.Transaction
