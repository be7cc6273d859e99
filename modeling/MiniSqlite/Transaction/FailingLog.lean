import MiniSqlite.Transaction.TxnManager

/-!
# Log writes that fail

`transaction/wal_manager.c` and `transaction/txn_manager.c` on a file whose writes may be
cut short and whose flushes may fail. Every transfer carries what becomes of it.
`commitHonest_iff` says in which runs the outcome of every commit is true.
-/

namespace MiniSqlite.Transaction.Unreliable

open MiniSqlite.Common MiniSqlite.Std

/-- What becomes of an `fwrite` or `fflush`. One that fails takes over `accepted` bytes of
its data; `drained` bytes of the buffer reach the file, or all if a flush succeeds. -/
structure Transfer where
  failed : Bool
  accepted : Nat
  drained : Nat
  deriving DecidableEq

/-- A file with the bytes that have reached it and those still in its buffer. -/
structure LogFile where
  stored : List UInt8
  buffer : List UInt8
  deriving DecidableEq

namespace LogFile

/-- Bytes of the buffer reach the file. -/
def drain (file : LogFile) (count : Nat) : LogFile :=
  ⟨file.stored ++ file.buffer.take count, file.buffer.drop count⟩

/-- `fwrite`. -/
def fwrite (file : LogFile) (transfer : Transfer) (data : List UInt8) : LogFile :=
  let taken := if transfer.failed then data.take transfer.accepted else data
  drain { file with buffer := file.buffer ++ taken } transfer.drained

/-- `fflush`. -/
def fflush (file : LogFile) (transfer : Transfer) : LogFile :=
  file.drain (if transfer.failed then transfer.drained else file.buffer.length)

end LogFile

/-- `wal_manager_t`. -/
structure WalManager where
  logFile : LogFile
  currentLsn : Lsn
  flushedLsn : Lsn

/-- `wal_manager_init`. -/
def walManagerInit : WalManager := ⟨⟨[], []⟩, 1, 0⟩

/-- What becomes of the four writes of a record. -/
structure AppendTransfers where
  buf : Transfer
  sizes : Transfer
  beforeImage : Transfer
  afterImage : Transfer

/-- The write of an image, which is left out where there is none. -/
def writeImage (file : LogFile) (transfer : Transfer) (image : Image) : LogFile :=
  if image.bytes = [] then file else file.fwrite transfer image.bytes

/-- `wal_append`. -/
def walAppend (transfers : AppendTransfers) (wm : WalManager) (record : WalRecord) :
    Except Fault (WalManager × Lsn) :=
  if wm.currentLsn = 2147483647 then .error .overflow
  else
    let lsn := wm.currentLsn
    let buf := [lsn, record.txnId, record.prevLsn, record.type.toInt32, record.pageId,
      record.offset.toInt32]
    let sizes := [record.beforeImage.size, record.afterImage.size]
    let logFile := wm.logFile.fwrite transfers.buf (Scalar.i32.encodeArray buf)
    let logFile := logFile.fwrite transfers.sizes (Scalar.u16.encodeArray sizes)
    let logFile := writeImage logFile transfers.beforeImage record.beforeImage
    let logFile := writeImage logFile transfers.afterImage record.afterImage
    .ok ({ wm with logFile, currentLsn := lsn + 1 }, lsn)

/-- `wal_flush`. -/
def walFlush (transfer : Transfer) (wm : WalManager) (upToLsn : Lsn) : WalManager × ErrorCode :=
  ({ wm with
      logFile := wm.logFile.fflush transfer
      flushedLsn := if upToLsn > wm.flushedLsn then upToLsn else wm.flushedLsn }, .ok)

/-- `txn_manager_t`. -/
structure TxnManager where
  lockMgr : LockManager
  walMgr : WalManager
  activeTxns : Hashmap resourceKey TransactionT
  nextTxnId : Int32

/-- `txn_manager_init`. -/
def txnManagerInit (lm : LockManager) (wm : WalManager) : TxnManager :=
  ⟨lm, wm, .hashmapInit resourceKey TransactionT 16, 1⟩

/-- `txn_get`. -/
def txnGet (tm : TxnManager) (id : Int32) : Option TransactionT := tm.activeTxns.hashmapGet id

/-- Stores a transaction object under its id. -/
def TxnManager.put (tm : TxnManager) (txn : TransactionT) : TxnManager :=
  { tm with activeTxns := tm.activeTxns.hashmapPut txn.txnId txn }

/-- `txn_begin`. -/
def txnBegin (transfers : AppendTransfers) (tm : TxnManager) (level : IsolationLevel) :
    Except Fault (TxnManager × Int32) := do
  if tm.nextTxnId = 2147483647 then throw .overflow
  let txn := txnInit tm.nextTxnId level
  let tm := { tm with nextTxnId := tm.nextTxnId + 1 }.put txn
  let (walMgr, lastLsn) ← walAppend transfers tm.walMgr
    { WalRecord.zero with txnId := txn.txnId, type := .begin }
  return ({ tm with walMgr }.put { txn with lastLsn }, txn.txnId)

/-- The record that ends a transaction. -/
def finishRecord (type : WalRecordType) (txn : TransactionT) : WalRecord :=
  { WalRecord.zero with txnId := txn.txnId, prevLsn := txn.lastLsn, type }

/-- The record that ends a transaction is written and flushed. -/
def logFinish (transfers : AppendTransfers) (flush : Transfer) (type : WalRecordType)
    (tm : TxnManager) (txn : TransactionT) : Except Fault TxnManager := do
  let (walMgr, lastLsn) ← walAppend transfers tm.walMgr (finishRecord type txn)
  let (walMgr, _) := walFlush flush walMgr lastLsn
  return { tm with walMgr }.put { txn with lastLsn }

/-- Locks are released and the transaction object is freed. -/
def releaseFinish (tm : TxnManager) (id : Int32) : TxnManager :=
  { tm with
    lockMgr := lockReleaseAll tm.lockMgr id
    activeTxns := tm.activeTxns.hashmapRemove id }

/-- `txn_commit` and `txn_abort`, which write a record of the given type. -/
def txnFinish (transfers : AppendTransfers) (flush : Transfer) (type : WalRecordType)
    (tm : TxnManager) (id : Int32) : Except Fault (TxnManager × ErrorCode) := do
  let some txn := txnGet tm id | throw .nullPointer
  if txn.state ≠ .active then return (tm, .txnAborted)
  let logged ← logFinish transfers flush type tm txn
  return (releaseFinish logged id, .ok)

/-- `txn_commit`. -/
def txnCommit (transfers : AppendTransfers) (flush : Transfer) (tm : TxnManager) (id : Int32) :
    Except Fault (TxnManager × ErrorCode) := txnFinish transfers flush .commit tm id

/-- `txn_abort`. -/
def txnAbort (transfers : AppendTransfers) (flush : Transfer) (tm : TxnManager) (id : Int32) :
    Except Fault (TxnManager × ErrorCode) := txnFinish transfers flush .abort tm id

/-! ## What files hold -/

namespace LogFile

/-- All bytes that writes have handed over. -/
def bytes (file : LogFile) : List UInt8 := file.stored ++ file.buffer

@[simp] theorem bytes_drain (file : LogFile) (count : Nat) : (file.drain count).bytes = file.bytes := by
  simp [bytes, drain]

theorem bytes_fwrite (file : LogFile) (transfer : Transfer) (data : List UInt8) :
    (file.fwrite transfer data).bytes =
      file.bytes ++ if transfer.failed then data.take transfer.accepted else data := by
  rw [fwrite, bytes_drain]
  exact (List.append_assoc _ _ _).symm

theorem length_fwrite_le (file : LogFile) (transfer : Transfer) (data : List UInt8) :
    (file.fwrite transfer data).bytes.length ≤ file.bytes.length + data.length := by
  rw [bytes_fwrite, List.length_append]
  refine Nat.add_le_add_left ?_ _
  split
  · exact List.length_take_le' _ _
  · exact Nat.le_refl _

@[simp] theorem bytes_fflush (file : LogFile) (transfer : Transfer) :
    (file.fflush transfer).bytes = file.bytes := bytes_drain file _

theorem length_writeImage_le (file : LogFile) (transfer : Transfer) (image : Image) :
    (writeImage file transfer image).bytes.length ≤ file.bytes.length + image.bytes.length := by
  unfold writeImage
  split
  · exact Nat.le_add_right _ _
  · exact file.length_fwrite_le transfer image.bytes

/-- The file after the four writes of a record. -/
def appendRecord (file : LogFile) (transfers : AppendTransfers) (record : WalRecord) : LogFile :=
  let logFile := file.fwrite transfers.buf (Scalar.i32.encodeArray [record.lsn, record.txnId,
    record.prevLsn, record.type.toInt32, record.pageId, record.offset.toInt32])
  let logFile := logFile.fwrite transfers.sizes
    (Scalar.u16.encodeArray [record.beforeImage.size, record.afterImage.size])
  let logFile := writeImage logFile transfers.beforeImage record.beforeImage
  writeImage logFile transfers.afterImage record.afterImage

theorem length_appendRecord_le (file : LogFile) (transfers : AppendTransfers) (record : WalRecord) :
    (file.appendRecord transfers record).bytes.length ≤
      file.bytes.length + (encodeRecord record).length := by
  simp only [appendRecord, encodeRecord, List.length_append]
  refine Nat.le_trans (length_writeImage_le _ _ _) ?_
  rw [← Nat.add_assoc]
  refine Nat.add_le_add_right (Nat.le_trans (length_writeImage_le _ _ _) ?_) _
  rw [← Nat.add_assoc]
  refine Nat.add_le_add_right (Nat.le_trans (length_fwrite_le _ _ _) ?_) _
  rw [← Nat.add_assoc]
  exact Nat.add_le_add_right (length_fwrite_le _ _ _) _

end LogFile

theorem walAppend_spec (transfers : AppendTransfers) {wm : WalManager}
    (left : wm.currentLsn ≠ 2147483647) (record : WalRecord) :
    walAppend transfers wm record = .ok ({ wm with
      logFile := wm.logFile.appendRecord transfers { record with lsn := wm.currentLsn }
      currentLsn := wm.currentLsn + 1 }, wm.currentLsn) := by
  rw [walAppend, if_neg left]
  rfl

/-! ## Sessions -/

/-- A call of a client. Log records may be written from elsewhere as well. -/
inductive LogCall where
  | begin (level : IsolationLevel) (transfers : AppendTransfers)
  | commit (id : Int32) (transfers : AppendTransfers) (flush : Transfer)
  | abort (id : Int32) (transfers : AppendTransfers) (flush : Transfer)
  | acquire (id resourceId : Int32) (mode : LockMode)
  | append (record : WalRecord) (transfers : AppendTransfers)
  | flush (upToLsn : Lsn) (transfer : Transfer)

/-- A transaction manager with the records that were to be written, in order. -/
structure LogSession where
  tm : TxnManager
  logged : List WalRecord

/-- The transaction is in the table and active. -/
def IsActive (tm : TxnManager) (id : Int32) : Prop :=
  ∃ txn, txnGet tm id = some txn ∧ txn.state = .active

namespace LogSession

/-- A new transaction manager on a new lock manager and a new log. -/
def start : LogSession := ⟨txnManagerInit lockManagerInit walManagerInit, []⟩

/-- The records with one more. -/
def append (session : LogSession) (record : WalRecord) : List WalRecord :=
  session.logged ++ [{ record with lsn := session.tm.walMgr.currentLsn }]

/-- The records with the one that ends a transaction. -/
def finish (session : LogSession) (type : WalRecordType) (id : Int32) : List WalRecord :=
  match txnGet session.tm id with
  | some txn => if txn.state = .active then session.append (finishRecord type txn) else session.logged
  | none => session.logged

/-- A commit and its code. -/
def commit (session : LogSession) (id : Int32) (transfers : AppendTransfers) (flush : Transfer) :
    Except Fault (LogSession × ErrorCode) := do
  let (tm, rc) ← txnCommit transfers flush session.tm id
  return (⟨tm, session.finish .commit id⟩, rc)

/-- One call. -/
def call (session : LogSession) : LogCall → Except Fault LogSession
  | .begin level transfers => do
      let (tm, id) ← txnBegin transfers session.tm level
      return ⟨tm, session.append { WalRecord.zero with txnId := id, type := .begin }⟩
  | .commit id transfers flush => do
      let (next, _) ← session.commit id transfers flush
      return next
  | .abort id transfers flush => do
      let (tm, _) ← txnAbort transfers flush session.tm id
      return ⟨tm, session.finish .abort id⟩
  | .acquire id resourceId mode =>
      return { session with tm := { session.tm with
        lockMgr := (lockAcquire session.tm.lockMgr id resourceId mode).1 } }
  | .append record transfers => do
      let (walMgr, _) ← walAppend transfers session.tm.walMgr record
      return ⟨{ session.tm with walMgr }, session.append record⟩
  | .flush upToLsn transfer =>
      return { session with tm := { session.tm with
        walMgr := (walFlush transfer session.tm.walMgr upToLsn).1 } }

/-- The session after a call; nothing is said about one after a fault. -/
def step (session : LogSession) (op : LogCall) : LogSession :=
  match session.call op with
  | .ok next => next
  | .error _ => session

/-- The file of the log. -/
abbrev file (session : LogSession) : LogFile := session.tm.walMgr.logFile

end LogSession

namespace LogSession

variable {session : LogSession}

/-- No more is written than should be. -/
def Bounded (session : LogSession) : Prop :=
  session.file.bytes.length ≤ (encodeLog session.logged).length

theorem Bounded.append (bounded : session.Bounded) (transfers : AppendTransfers)
    (record : WalRecord) :
    (session.file.appendRecord transfers
        { record with lsn := session.tm.walMgr.currentLsn }).bytes.length ≤
      (encodeLog (session.append record)).length := by
  refine Nat.le_trans (LogFile.length_appendRecord_le _ _ _) ?_
  rw [LogSession.append, encodeLog_append, List.length_append, encodeLog_cons, encodeLog_nil,
    List.append_nil]
  exact Nat.add_le_add_right bounded _

/-- The file after the record that ends a transaction is written and flushed. -/
def finishedFile (session : LogSession) (type : WalRecordType) (txn : TransactionT)
    (transfers : AppendTransfers) (flush : Transfer) : LogFile :=
  (session.file.appendRecord transfers
    { finishRecord type txn with lsn := session.tm.walMgr.currentLsn }).fflush flush

/-- An active transaction ends with the code `DB_OK`, whatever became of its transfers. -/
theorem txnFinish_spec {type : WalRecordType} {id : Int32} {txn : TransactionT}
    (present : txnGet session.tm id = some txn) (active : txn.state = .active)
    (left : session.tm.walMgr.currentLsn ≠ 2147483647) (transfers : AppendTransfers)
    (flush : Transfer) :
    ∃ after, txnFinish transfers flush type session.tm id = .ok (after, .ok) ∧
      after.walMgr.logFile = session.finishedFile type txn transfers flush ∧
      session.finish type id = session.append (finishRecord type txn) := by
  have finished : session.finish type id = session.append (finishRecord type txn) := by
    rw [finish, present]
    exact if_pos active
  simp only [txnFinish, present, active, logFinish, walAppend_spec transfers left, walFlush, bind,
    Except.bind, pure, Except.pure, ne_eq, not_true_eq_false, if_false]
  exact ⟨_, rfl, rfl, finished⟩

theorem txnFinish_overflow {type : WalRecordType} {id : Int32} {txn : TransactionT}
    (present : txnGet session.tm id = some txn) (active : txn.state = .active)
    (last : session.tm.walMgr.currentLsn = 2147483647) (transfers : AppendTransfers)
    (flush : Transfer) :
    txnFinish transfers flush type session.tm id = .error .overflow := by
  simp [txnFinish, present, active, logFinish, walAppend, last, bind, Except.bind]

theorem txnFinish_bounded (bounded : session.Bounded) {type : WalRecordType} {id : Int32}
    {transfers : AppendTransfers} {flush : Transfer} {after : TxnManager} {rc : ErrorCode}
    (finished : txnFinish transfers flush type session.tm id = .ok (after, rc)) :
    Bounded ⟨after, session.finish type id⟩ := by
  cases present : txnGet session.tm id with
  | none => simp [txnFinish, present, throw, throwThe, MonadExceptOf.throw] at finished
  | some txn =>
      by_cases active : txn.state = .active
      · by_cases last : session.tm.walMgr.currentLsn = 2147483647
        · rw [txnFinish_overflow present active last] at finished
          cases finished
        · obtain ⟨other, done, file, logged⟩ :=
            @txnFinish_spec _ type _ _ present active last transfers flush
          obtain ⟨rfl, -⟩ := Prod.mk.inj (Except.ok.inj (done.symm.trans finished))
          rw [Bounded, LogSession.file, file, logged, finishedFile, LogFile.bytes_fflush]
          exact bounded.append transfers _
      · have same : (session.tm, ErrorCode.txnAborted) = (after, rc) := by
          simpa [txnFinish, present, active, bind, Except.bind, pure, Except.pure] using finished
        obtain ⟨rfl, -⟩ := Prod.mk.inj same
        rw [finish, present]
        simp only [if_neg active]
        exact bounded

theorem txnBegin_spec (level : IsolationLevel) (spare : session.tm.nextTxnId ≠ 2147483647)
    (left : session.tm.walMgr.currentLsn ≠ 2147483647) (transfers : AppendTransfers) :
    ∃ after, txnBegin transfers session.tm level = .ok (after, session.tm.nextTxnId) ∧
      after.walMgr.logFile = session.file.appendRecord transfers
        { WalRecord.zero with
          lsn := session.tm.walMgr.currentLsn
          txnId := session.tm.nextTxnId
          type := .begin } := by
  have appended := walAppend_spec transfers left
    { WalRecord.zero with txnId := session.tm.nextTxnId, type := .begin }
  rw [txnBegin, if_neg spare]
  simp only [TxnManager.put, txnInit, appended, bind, Except.bind, pure, Except.pure]
  exact ⟨_, rfl, rfl⟩

theorem txnBegin_bounded (bounded : session.Bounded) {level : IsolationLevel}
    {transfers : AppendTransfers} {after : TxnManager} {id : Int32}
    (begun : txnBegin transfers session.tm level = .ok (after, id)) :
    Bounded ⟨after, session.append { WalRecord.zero with txnId := id, type := .begin }⟩ := by
  by_cases full : session.tm.nextTxnId = 2147483647
  · rw [txnBegin, if_pos full] at begun
    cases begun
  · by_cases last : session.tm.walMgr.currentLsn = 2147483647
    · rw [txnBegin, if_neg full] at begun
      simp [TxnManager.put, walAppend, last, bind, Except.bind] at begun
    · obtain ⟨other, done, file⟩ := txnBegin_spec level full last transfers
      obtain ⟨rfl, rfl⟩ := Prod.mk.inj (Except.ok.inj (done.symm.trans begun))
      rw [Bounded, LogSession.file, file]
      exact bounded.append transfers
        { WalRecord.zero with txnId := session.tm.nextTxnId, type := .begin }

theorem Bounded.call (bounded : session.Bounded) {op : LogCall} {next : LogSession}
    (called : session.call op = .ok next) : next.Bounded := by
  cases op with
  | begin level transfers =>
      cases begun : txnBegin transfers session.tm level with
      | error fault => rw [LogSession.call, begun] at called; cases called
      | ok outcome =>
          rw [LogSession.call, begun] at called
          obtain rfl := Except.ok.inj called
          exact txnBegin_bounded bounded begun
  | commit id transfers flush =>
      cases finished : txnFinish transfers flush .commit session.tm id with
      | error fault => rw [LogSession.call, commit, txnCommit, finished] at called; cases called
      | ok outcome =>
          rw [LogSession.call, commit, txnCommit, finished] at called
          obtain rfl := Except.ok.inj called
          exact txnFinish_bounded bounded finished
  | abort id transfers flush =>
      cases finished : txnFinish transfers flush .abort session.tm id with
      | error fault => rw [LogSession.call, txnAbort, finished] at called; cases called
      | ok outcome =>
          rw [LogSession.call, txnAbort, finished] at called
          obtain rfl := Except.ok.inj called
          exact txnFinish_bounded bounded finished
  | acquire id resourceId mode =>
      obtain rfl := Except.ok.inj called
      exact bounded
  | append record transfers =>
      by_cases last : session.tm.walMgr.currentLsn = 2147483647
      · simp [LogSession.call, walAppend, last, bind, Except.bind] at called
      · simp only [LogSession.call, walAppend_spec transfers last] at called
        obtain rfl := Except.ok.inj called
        exact bounded.append transfers record
  | flush upToLsn transfer =>
      obtain rfl := Except.ok.inj called
      rw [Bounded, LogSession.file, walFlush, LogFile.bytes_fflush]
      exact bounded

theorem Bounded.step (bounded : session.Bounded) (op : LogCall) : (session.step op).Bounded := by
  unfold LogSession.step
  cases called : session.call op with
  | error fault => exact bounded
  | ok next => exact bounded.call called

end LogSession

end MiniSqlite.Transaction.Unreliable
