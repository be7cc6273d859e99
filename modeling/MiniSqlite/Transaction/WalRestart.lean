import MiniSqlite.Transaction.WalRuns

/-!
# The log across a restart

Appends and flushes, a crash that leaves some bytes on disk, and a new
`wal_manager_init` on the same path. Opening the log truncates it and the LSN
counter starts again at 1, so what was durable is lost
(`survivesRestart_iff_nothingToRecover`).
-/

namespace MiniSqlite.Transaction

open MiniSqlite.Common MiniSqlite.Std

/-- A call of a client that only writes. -/
inductive WalWrite where
  | append (record : WalRecord)
  | flush (upToLsn : Lsn)
  deriving DecidableEq, Repr

/-- The same as a call on the log. -/
def WalWrite.toCall : WalWrite → WalCall
  | .append record => .append record
  | .flush upToLsn => .flush upToLsn

/-- A run of writing calls on a fresh log. -/
def writeLog (existing : List UInt8) (ops : List WalWrite) : Except Fault WalSession :=
  execute (fun session op => session.call (WalWrite.toCall op)) (.start existing) ops

/-- The whole record is among the bytes on disk. -/
def OnDisk (session : WalSession) (disk : List UInt8) (record : WalRecord) : Prop :=
  ∃ earlier later, session.appended = earlier ++ record :: later ∧
    encodeLog (earlier ++ [record]) <+: disk

/-- After a crash that leaves `disk` and a restart, every record up to the flushed LSN is
read, and every LSN assigned from then on is larger than those on disk. -/
def SurvivesRestart (session : WalSession) (disk : List UInt8) : Prop :=
  (∀ record ∈ session.appended, record.lsn ≤ session.wm.flushedLsn →
    ∃ after records, walReadAll (walResetRead (walManagerInit disk)) = .ok (after, records) ∧
      record ∈ records) ∧
  ∀ record, OnDisk session disk record → ∀ ops new wm lsn,
    walAppend (run WalSession.step (.start disk) ops).wm new = .ok (wm, lsn) → record.lsn < lsn

/-- No record is as old as the flushed LSN, and none is on disk. -/
def NothingToRecover (session : WalSession) (disk : List UInt8) : Prop :=
  (∀ record ∈ session.appended, session.wm.flushedLsn < record.lsn) ∧
    ∀ record, ¬ OnDisk session disk record

theorem WalSession.Numbered.positive {session : WalSession} (numbers : session.Numbered)
    {record : WalRecord} (member : record ∈ session.appended) : 0 < record.lsn := by
  obtain ⟨i, place⟩ := List.mem_iff_getElem?.mp member
  have inside : i < session.appended.length := (List.getElem?_eq_some_iff.mp place).1
  have bounded := numbers.bounded
  rw [numbers.lsn i record place, Int32.lt_iff_toInt_lt, Int32.toInt_ofNat_of_lt (by omega)]
  exact Int.natCast_pos.mpr (Nat.succ_pos i)

theorem WalSession.Numbered.write {session next : WalSession} (numbers : session.Numbered)
    {op : WalWrite} (called : session.call op.toCall = .ok next) : next.Numbered := by
  cases op with
  | append record =>
      by_cases left : session.wm.currentLsn = 2147483647
      · simp [WalWrite.toCall, call, walAppend_overflow left, bind, Except.bind] at called
      · obtain rfl := Except.ok.inj ((numbers.call_append left record).symm.trans called)
        exact numbers.added left record
  | flush upToLsn =>
      obtain rfl := Except.ok.inj called
      exact ⟨numbers.lsn, numbers.current, numbers.bounded⟩

theorem writeLog_numbered {existing : List UInt8} {ops : List WalWrite} {session : WalSession}
    (ran : writeLog existing ops = .ok session) : session.Numbered :=
  execute_invariant (fun _ _ _ (numbers : WalSession.Numbered _) called => numbers.write called)
    (.start existing) ran

theorem walReadAll_init (disk : List UInt8) :
    walReadAll (walResetRead (walManagerInit disk)) = .ok (walManagerInit disk, []) := rfl

/-- After any appends and flushes, whatever the crash leaves on disk, the log survives
the restart exactly when there was nothing to recover. -/
theorem survivesRestart_iff_nothingToRecover (existing : List UInt8) (ops : List WalWrite)
    (session : WalSession) (ran : writeLog existing ops = .ok session) (disk : List UInt8) :
    SurvivesRestart session disk ↔ NothingToRecover session disk := by
  have numbers := writeLog_numbered ran
  constructor
  · rintro ⟨returned, larger⟩
    constructor
    · intro record member
      by_contra old
      obtain ⟨after, records, read, found⟩ := returned record member (Int32.not_lt.mp old)
      rw [walReadAll_init] at read
      obtain rfl := (Prod.mk.inj (Except.ok.inj read)).2
      exact List.not_mem_nil found
    · intro record onDisk
      have member : record ∈ session.appended := by
        obtain ⟨earlier, later, whole, -⟩ := onDisk
        simp [whole]
      have below := larger record onDisk [] .zero _ _ rfl
      have above := numbers.positive member
      rw [Int32.lt_iff_toInt_lt] at below above
      have one : (run WalSession.step (.start disk) []).wm.currentLsn.toInt = 1 := rfl
      have zero : (0 : Int32).toInt = 0 := rfl
      omega
  · rintro ⟨young, none⟩
    constructor
    · intro record member old
      exact absurd old (Int32.not_le.mpr (young record member))
    · intro record onDisk
      exact absurd onDisk (none record)

/-- One record, flushed. -/
def oneFlushedRecord : WalSession :=
  ⟨⟨⟨encodeRecord { WalRecord.zero with lsn := 1 }, []⟩, 2, 1⟩, [{ WalRecord.zero with lsn := 1 }]⟩

theorem writeLog_oneFlushedRecord :
    writeLog [] [.append .zero, .flush 1] = .ok oneFlushedRecord := by decide +kernel

/-- A flushed record is gone after the restart. -/
theorem flushed_record_lost : writeLog [] [.append .zero, .flush 1] = .ok oneFlushedRecord ∧
    ¬ SurvivesRestart oneFlushedRecord oneFlushedRecord.wm.logFile.bytes := by
  refine ⟨writeLog_oneFlushedRecord, ?_⟩
  rintro ⟨returned, -⟩
  obtain ⟨after, records, read, found⟩ := returned _ List.mem_cons_self (by decide)
  rw [walReadAll_init] at read
  obtain rfl := (Prod.mk.inj (Except.ok.inj read)).2
  exact List.not_mem_nil found

/-- The theorem for one flushed record that is all on disk. -/
theorem survivesRestart_iff_oneFlushedRecord :
    SurvivesRestart oneFlushedRecord oneFlushedRecord.wm.logFile.bytes ↔
      NothingToRecover oneFlushedRecord oneFlushedRecord.wm.logFile.bytes :=
  survivesRestart_iff_nothingToRecover [] [.append .zero, .flush 1] oneFlushedRecord
    writeLog_oneFlushedRecord _

end MiniSqlite.Transaction
