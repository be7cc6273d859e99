import MiniSqlite.Transaction.TxnManager

/-!
# Runs of the transaction manager

Any number of transactions begin, take locks, commit and abort in any order.
`TxnSession.Sound` ties the table of transactions, the lock queues and the log
together. `txnCalls_correct` says what every call does for as long as the LSN
counter does not overflow, which it can do before the transaction ids do
(`lsn_overflows_before_txnIds`).
-/

namespace MiniSqlite.Transaction

open MiniSqlite.Common MiniSqlite.Std

/-- A call of a client. -/
inductive TxnCall where
  | begin (level : IsolationLevel)
  | commit (id : Int32)
  | abort (id : Int32)
  | acquire (id resourceId : Int32) (mode : LockMode)
  deriving DecidableEq, Repr

/-- The call begins a transaction. -/
def TxnCall.begins : TxnCall → Bool
  | .begin _ => true
  | _ => false

/-- The call writes a log record. -/
def TxnCall.logs : TxnCall → Bool
  | .acquire _ _ _ => false
  | _ => true

/-- A transaction manager and the ids it has given out, in order. -/
structure TxnSession where
  tm : TxnManager
  begun : List Int32

namespace TxnSession

/-- A new transaction manager on a new lock manager and a new log. -/
def start (existing : List UInt8) : TxnSession :=
  ⟨txnManagerInit lockManagerInit (walManagerInit existing), []⟩

/-- One call. -/
def call (session : TxnSession) : TxnCall → Except Fault TxnSession
  | .begin level => do
      let (tm, id) ← txnBegin session.tm level
      return ⟨tm, session.begun ++ [id]⟩
  | .commit id => do
      let (tm, _) ← txnCommit session.tm id
      return { session with tm }
  | .abort id => do
      let (tm, _) ← txnAbort session.tm id
      return { session with tm }
  | .acquire id resourceId mode =>
      return { session with tm := { session.tm with
        lockMgr := (lockAcquire session.tm.lockMgr id resourceId mode).1 } }

/-- The session after a call; nothing is said about one after a fault. -/
def step (session : TxnSession) (op : TxnCall) : TxnSession :=
  match session.call op with
  | .ok next => next
  | .error _ => session

/-- The call is made on behalf of an active transaction. -/
def Allowed (session : TxnSession) : TxnCall → Prop
  | .begin _ => True
  | .commit id => IsActive session.tm id
  | .abort id => IsActive session.tm id
  | .acquire id _ _ => IsActive session.tm id

instance (session : TxnSession) : DecidablePred session.Allowed := fun op =>
  match op with
  | .begin _ => inferInstanceAs (Decidable True)
  | .commit _ | .abort _ | .acquire _ _ _ => inferInstanceAs (Decidable (IsActive _ _))

end TxnSession

/-! ## What the log says of a transaction -/

/-- The records of a transaction. -/
def own (log : List WalRecord) (id : Int32) : List WalRecord :=
  log.filter fun record => record.txnId = id

/-- One BEGIN record, first; at most one COMMIT or ABORT record, last; every record
linked to the one before it, which has the smaller LSN. -/
structure Story (records : List WalRecord) : Prop where
  begins : ∃ first rest, records = first :: rest ∧ first.type = .begin ∧ first.prevLsn = 0 ∧
    ∀ record ∈ rest, record.type ≠ .begin
  ends : ∀ earlier last later, records = earlier ++ last :: later →
    last.type = .commit ∨ last.type = .abort → later = []
  chained : records.IsChain fun first second => second.prevLsn = first.lsn ∧ first.lsn < second.lsn

/-- The record a transaction begins with. -/
def Begins (record : WalRecord) : Prop := record.type = .begin ∧ record.prevLsn = 0

/-- The record a transaction ends with, after `first`. -/
def EndsAfter (first record : WalRecord) : Prop :=
  (record.type = .commit ∨ record.type = .abort) ∧ record.prevLsn = first.lsn ∧
    first.lsn < record.lsn

theorem Story.opened {first : WalRecord} (begins : Begins first) : Story [first] where
  begins := ⟨first, [], rfl, begins.1, begins.2, by simp⟩
  ends earlier last later shape _ := by
    cases earlier with
    | nil => exact (List.cons.inj shape).2.symm
    | cons head tail => simp at shape
  chained := by simp

theorem Story.ended {first last : WalRecord} (begins : Begins first)
    (ends : EndsAfter first last) : Story [first, last] where
  begins := by
    refine ⟨first, [last], rfl, begins.1, begins.2, ?_⟩
    rintro record member same
    rw [List.mem_singleton.mp member] at same
    rcases ends.1 with type | type <;> simp [same] at type
  ends earlier other later shape finishes := by
    match earlier, shape with
    | [], shape =>
        obtain ⟨rfl, -⟩ := List.cons.inj shape
        rcases finishes with type | type <;> simp [begins.1] at type
    | [_], shape => simpa using (List.cons.inj (List.cons.inj shape).2).2.symm
    | _ :: _ :: _, shape => simp at shape
  chained := by simpa using ends.2

theorem own_append (log : List WalRecord) (record : WalRecord) (id : Int32) :
    own (log ++ [record]) id = if record.txnId = id then own log id ++ [record] else own log id := by
  by_cases same : record.txnId = id <;> simp [own, same]

/-! ## The invariant -/

namespace TxnSession

/-- A transaction that has begun is in the table and has logged its BEGIN record, or is
no longer there and has logged how it ended. -/
inductive Tracked (tm : TxnManager) (log : List WalRecord) (id : Int32) : Prop where
  | active {txn : TransactionT} {first : WalRecord} (present : txnGet tm id = some txn)
      (owner : txn.txnId = id) (state : txn.state = .active) (records : own log id = [first])
      (begins : Begins first) (last : txn.lastLsn = first.lsn)
  | ended {first last : WalRecord} (gone : txnGet tm id = none)
      (records : own log id = [first, last]) (begins : Begins first) (ends : EndsAfter first last)

theorem Tracked.congr {tm after : TxnManager} {log grown : List WalRecord} {id : Int32}
    (tracked : Tracked tm log id) (sameTxn : txnGet after id = txnGet tm id)
    (sameRecords : own grown id = own log id) : Tracked after grown id := by
  cases tracked with
  | active present owner state records begins last =>
      exact .active (sameTxn.trans present) owner state (sameRecords.trans records) begins last
  | ended gone records begins ends =>
      exact .ended (sameTxn.trans gone) (sameRecords.trans records) begins ends

theorem Tracked.story {tm : TxnManager} {log : List WalRecord} {id : Int32}
    (tracked : Tracked tm log id) : Story (own log id) := by
  cases tracked with
  | active present owner state records begins last => exact records ▸ Story.opened begins
  | ended gone records begins ends => exact records ▸ Story.ended begins ends

/-- Every transaction that has begun is tracked, the ids come from a counter, and only
transactions in the table have requests in the queues. -/
structure Sound (session : TxnSession) (log : List WalRecord) : Prop where
  wal : LogHolds session.tm.walMgr log
  next : session.tm.nextTxnId = Int32.ofNat (session.begun.length + 1)
  fewer : session.begun.length ≤ log.length
  increasing : session.begun.Pairwise (· < ·)
  older : ∀ id ∈ session.begun, id < session.tm.nextTxnId
  logged : ∀ record ∈ log, record.txnId ∈ session.begun
  tracked : ∀ id ∈ session.begun, Tracked session.tm log id
  known : ∀ id, txnGet session.tm id ≠ none → id ∈ session.begun
  locks : ∀ resourceId, OwnedBy (fun id => txnGet session.tm id ≠ none)
    (session.tm.lockMgr.queue resourceId)

/-- The ids given out increase, and a full read of the log tells the story of each. -/
structure Correct (session : TxnSession) : Prop where
  increasing : session.begun.Pairwise (· < ·)
  log : ∃ after log, walReadAll (walResetRead session.tm.walMgr) = .ok (after, log) ∧
    (∀ id ∈ session.begun, Story (own log id)) ∧ ∀ record ∈ log, record.txnId ∈ session.begun

/-- What ending a transaction with a record of the given type does: the record is in the
log and flushed while all locks are as before, then the locks and the table entry of
the transaction go, and nothing else does. -/
structure Finishes (type : WalRecordType) (tm : TxnManager) (id : Int32) (after : TxnManager) :
    Prop where
  durable : ∃ txn logged, txnGet tm id = some txn ∧ logFinish type tm txn = .ok logged ∧
    logged.lockMgr = tm.lockMgr ∧ after = releaseFinish logged id ∧
    ∃ wm log record, walReadAll (walResetRead logged.walMgr) = .ok (wm, log) ∧ record ∈ log ∧
      record.txnId = id ∧ record.type = type ∧ record.lsn ≤ logged.walMgr.flushedLsn
  released : ∀ resourceId, ∀ req ∈ after.lockMgr.queue resourceId, req.txnId ≠ id
  inactive : txnGet after id = none
  others : ∀ other, other ≠ id → txnGet after other = txnGet tm other
  kept : ∀ resourceId, ∀ held ∈ tm.lockMgr.queue resourceId, held.granted = true →
    held.txnId ≠ id → held ∈ after.lockMgr.queue resourceId

/-- The call returns, leaves a correct session and, if it begins or ends a transaction,
does so properly. -/
def CallCorrect (session : TxnSession) (op : TxnCall) : Prop :=
  ∃ next, session.call op = .ok next ∧ next.Correct ∧
    match op with
    | .begin _ => IsActive next.tm session.tm.nextTxnId ∧
        next.begun = session.begun ++ [session.tm.nextTxnId]
    | .commit id => Finishes .commit session.tm id next.tm
    | .abort id => Finishes .abort session.tm id next.tm
    | .acquire _ _ _ => True

variable {session : TxnSession} {log : List WalRecord}

theorem Sound.start (existing : List UInt8) : (start existing).Sound [] where
  wal := .init existing
  next := rfl
  fewer := Nat.le_refl 0
  increasing := List.Pairwise.nil
  older := by simp [TxnSession.start]
  logged := by simp
  tracked := by simp [TxnSession.start]
  known := by simp [TxnSession.start]
  locks := by
    intro resourceId req member
    simp [TxnSession.start, txnManagerInit] at member

theorem Sound.correct (sound : session.Sound log) : session.Correct := by
  obtain ⟨after, read⟩ := sound.wal.reads
  exact ⟨sound.increasing, after, log, read, fun id member => (sound.tracked id member).story,
    sound.logged⟩

/-- A transaction that has not begun has no record. -/
theorem Sound.own_new (sound : session.Sound log) {id : Int32} (unknown : id ∉ session.begun) :
    own log id = [] := by
  refine List.filter_eq_nil_iff.mpr fun record member => ?_
  simpa using fun same : record.txnId = id => unknown (same ▸ sound.logged record member)

theorem Sound.next_unknown (sound : session.Sound log) :
    session.tm.nextTxnId ∉ session.begun :=
  fun member => Int32.lt_irrefl (sound.older _ member)

theorem Sound.spare (sound : session.Sound log) (left : log.length + 1 < 2147483647) :
    session.tm.nextTxnId ≠ 2147483647 := by
  intro last
  have fewer := sound.fewer
  have equal := ofNat_inj (by omega) (by omega) (sound.next.symm.trans last :
    Int32.ofNat (session.begun.length + 1) = Int32.ofNat 2147483647)
  omega

/-- Beginning a transaction gives it the next id and logs its first record. -/
theorem Sound.begin (sound : session.Sound log) (left : log.length + 1 < 2147483647)
    (level : IsolationLevel) :
    ∃ next record, session.call (.begin level) = .ok next ∧ next.Sound (log ++ [record]) ∧
      IsActive next.tm session.tm.nextTxnId ∧
      next.begun = session.begun ++ [session.tm.nextTxnId] := by
  let id := session.tm.nextTxnId
  let record : WalRecord := { WalRecord.zero with txnId := id, type := .begin }
  obtain ⟨walMgr, appended, -, holds⟩ := sound.wal.append left (show record.length = 0 from rfl)
  obtain ⟨after, begun, wal, lockMgr, next, get⟩ := txnBegin_spec level (sound.spare left) appended
  have unknown : id ∉ session.begun := sound.next_unknown
  have raised : id < after.nextTxnId := by
    rw [next, Int32.lt_iff_toInt_lt, toInt_add_one (sound.spare left)]
    exact Int.lt_succ _
  refine ⟨⟨after, session.begun ++ [id]⟩,
    { record with lsn := Int32.ofNat (log.length + 1) }, ?_, ?_, ⟨_, (get id).trans (if_pos rfl), rfl⟩,
    rfl⟩
  · simp [call, begun, bind, Except.bind, pure, Except.pure, id]
  constructor
  · exact wal ▸ holds
  · simp only [List.length_append, List.length_singleton]
    rw [next, sound.next]
    exact (Int32.ofNat_add _ 1).symm
  · simpa using sound.fewer
  · simp only [List.pairwise_append, List.mem_singleton, forall_eq]
    exact ⟨sound.increasing, List.pairwise_singleton _ _, sound.older⟩
  · intro other member
    rcases List.mem_append.mp member with earlier | new
    · exact Int32.lt_trans (sound.older other earlier) raised
    · exact List.mem_singleton.mp new ▸ raised
  · intro logged member
    rcases List.mem_append.mp member with earlier | new
    · exact List.mem_append_left _ (sound.logged logged earlier)
    · rw [List.mem_singleton.mp new]
      exact List.mem_append_right _ (List.mem_singleton.mpr rfl)
  · intro other member
    rcases List.mem_append.mp member with earlier | new
    · have differ : id ≠ other := fun same => unknown (same ▸ earlier)
      exact (sound.tracked other earlier).congr ((get other).trans (if_neg differ))
        ((own_append _ _ _).trans (if_neg differ))
    · obtain rfl : other = id := List.mem_singleton.mp new
      have mine : own (log ++ [{ record with lsn := Int32.ofNat (log.length + 1) }]) id =
          [{ record with lsn := Int32.ofNat (log.length + 1) }] := by
        rw [own_append, if_pos rfl, sound.own_new unknown, List.nil_append]
      exact .active ((get _).trans (if_pos rfl)) rfl rfl mine ⟨rfl, rfl⟩ rfl
  · intro other present
    by_cases same : id = other
    · exact same ▸ List.mem_append_right _ (List.mem_singleton.mpr rfl)
    · have before : txnGet session.tm other ≠ none := (get other).trans (if_neg same) ▸ present
      exact List.mem_append_left _ (sound.known other before)
  · intro resourceId req member
    have owned := sound.locks resourceId req (lockMgr ▸ member)
    have differ : id ≠ req.txnId := fun same => unknown (same ▸ sound.known _ owned)
    exact (get req.txnId).trans (if_neg differ) ▸ owned

/-- Ending an active transaction logs and flushes its last record before its locks go. -/
theorem Sound.finish (sound : session.Sound log) (left : log.length + 1 < 2147483647)
    {type : WalRecordType} (closing : type = .commit ∨ type = .abort) {id : Int32}
    (active : IsActive session.tm id) :
    ∃ after record, txnFinish type session.tm id = .ok (after, .ok) ∧
      Finishes type session.tm id after ∧ Sound ⟨after, session.begun⟩ (log ++ [record]) := by
  obtain ⟨txn, present, state⟩ := active
  have begun : id ∈ session.begun := sound.known id (by simp [present])
  cases sound.tracked id begun with
  | ended gone => simp [gone] at present
  | @active other first stored owner _ records begins last =>
  obtain rfl : txn = other := Option.some.inj (present.symm.trans stored)
  let record : WalRecord :=
    { WalRecord.zero with txnId := txn.txnId, prevLsn := txn.lastLsn, type }
  let numbered : WalRecord := { record with lsn := Int32.ofNat (log.length + 1) }
  obtain ⟨walMgr, appended, -, holds⟩ := sound.wal.append left (show record.length = 0 from rfl)
  obtain ⟨logged, finished, wal, lockMgr, next, get⟩ := logFinish_spec appended
  have releases := fun resourceId =>
    releaseInQueue_keeps (session.tm.lockMgr.queue resourceId) id
  have queues : ∀ resourceId, (releaseFinish logged id).lockMgr.queue resourceId =
      releaseInQueue (session.tm.lockMgr.queue resourceId) id := by
    intro resourceId
    rw [releaseFinish, lockMgr, queue_lockReleaseAll]
  have others : ∀ other, other ≠ id →
      txnGet (releaseFinish logged id) other = txnGet session.tm other := by
    intro other differ
    rw [txnGet_releaseFinish, if_neg (Ne.symm differ)]
    exact get other (owner ▸ Ne.symm differ)
  have flushed := holds.flush (Int32.ofNat (log.length + 1))
  rw [← wal] at flushed
  refine ⟨releaseFinish logged id, numbered, txnFinish_spec present state finished, ?_, ?_⟩
  · constructor
    · obtain ⟨reader, read⟩ := flushed.reads
      refine ⟨txn, logged, present, finished, lockMgr, rfl, reader, _, numbered, read,
        List.mem_append_right _ (List.mem_singleton.mpr rfl), owner, rfl, ?_⟩
      rw [wal, walFlush]
      split
      · exact Int32.le_refl _
      · rename_i notAbove
        exact Int32.not_lt.mp notAbove
    · intro resourceId req member
      rw [queues] at member
      exact (releases resourceId).1 req member
    · rw [txnGet_releaseFinish, if_pos rfl]
    · exact others
    · intro resourceId held member granted foreign
      rw [queues]
      exact (releases resourceId).2 held member granted foreign
  · constructor
    · exact flushed
    · exact next.trans sound.next
    · exact Nat.le_trans sound.fewer (by simp)
    · exact sound.increasing
    · exact next ▸ sound.older
    · intro entry member
      rcases List.mem_append.mp member with earlier | new
      · exact sound.logged entry earlier
      · rw [List.mem_singleton.mp new]
        exact owner ▸ begun
    · intro other member
      by_cases same : other = id
      · subst same
        have mine : own (log ++ [numbered]) other = [first, numbered] := by
          rw [own_append, if_pos owner, records, List.singleton_append]
        have inLog : first ∈ log := List.mem_of_mem_filter (records ▸ List.mem_singleton.mpr rfl)
        exact .ended ((txnGet_releaseFinish _ _ _).trans (if_pos rfl)) mine begins
          ⟨closing, last, sound.wal.lsn_lt inLog⟩
      · refine (sound.tracked other member).congr (others other same) ?_
        exact (own_append _ _ _).trans (if_neg fun hers => same (hers.symm.trans owner))
    · intro other present
      by_cases same : other = id
      · exact same ▸ begun
      · exact sound.known other (others other same ▸ present)
    · intro resourceId req member
      rw [queues] at member
      obtain ⟨owned, foreign⟩ := (sound.locks resourceId).release id req member
      exact others req.txnId foreign ▸ owned

/-- Taking a lock changes nothing but a queue. -/
theorem Sound.acquire (sound : session.Sound log) {id : Int32} (active : IsActive session.tm id)
    (resourceId : Int32) (mode : LockMode) :
    (session.step (.acquire id resourceId mode)).Sound log := by
  refine ⟨sound.wal, sound.next, sound.fewer, sound.increasing, sound.older, sound.logged,
    fun other member => (sound.tracked other member).congr rfl rfl, sound.known, ?_⟩
  intro other
  obtain ⟨txn, present, -⟩ := active
  have owned : OwnedBy (fun id => txnGet session.tm id ≠ none)
      ((lockAcquire session.tm.lockMgr id resourceId mode).1.queue other) := by
    rw [queue_lockAcquire]
    split
    · exact (sound.locks resourceId).acquire (by simp [present]) mode
    · exact sound.locks other
  exact owned

/-- A call on behalf of an active transaction is correct if there is an LSN for the
record it writes, and leaves a sound session with that record in the log. -/
theorem Sound.call (sound : session.Sound log) (op : TxnCall) (allowed : session.Allowed op)
    (left : op.logs = true → log.length + 1 < 2147483647) :
    session.CallCorrect op ∧ ∃ grown, (session.step op).Sound grown ∧
      grown.length = log.length + if op.logs then 1 else 0 := by
  cases op with
  | begin level =>
      obtain ⟨next, record, called, nextSound, active⟩ := sound.begin (left rfl) level
      refine ⟨⟨next, called, nextSound.correct, active⟩, log ++ [record], ?_, by simp [TxnCall.logs]⟩
      simpa [step, called] using nextSound
  | commit id =>
      obtain ⟨after, record, finished, finishes, nextSound⟩ :=
        sound.finish (left rfl) (.inl rfl) allowed
      have called : session.call (.commit id) = .ok ⟨after, session.begun⟩ := by
        simp [TxnSession.call, txnCommit, finished, bind, Except.bind, pure, Except.pure]
      refine ⟨⟨_, called, nextSound.correct, finishes⟩, log ++ [record], ?_, by simp [TxnCall.logs]⟩
      simpa [step, called] using nextSound
  | abort id =>
      obtain ⟨after, record, finished, finishes, nextSound⟩ :=
        sound.finish (left rfl) (.inr rfl) allowed
      have called : session.call (.abort id) = .ok ⟨after, session.begun⟩ := by
        simp [TxnSession.call, txnAbort, finished, bind, Except.bind, pure, Except.pure]
      refine ⟨⟨_, called, nextSound.correct, finishes⟩, log ++ [record], ?_, by simp [TxnCall.logs]⟩
      simpa [step, called] using nextSound
  | acquire id resourceId mode =>
      have nextSound := sound.acquire allowed resourceId mode
      exact ⟨⟨_, rfl, nextSound.correct, trivial⟩, log, nextSound, by simp [TxnCall.logs]⟩

theorem Sound.calls (sound : session.Sound log) (ops : List TxnCall)
    (allowed : EachStep step Allowed session ops)
    (left : log.length + ops.countP TxnCall.logs < 2147483647) :
    EachStep step CallCorrect session ops ∧ ∃ grown, (run step session ops).Sound grown ∧
      grown.length = log.length + ops.countP TxnCall.logs := by
  induction ops generalizing session log with
  | nil => exact ⟨trivial, log, sound, rfl⟩
  | cons op ops ih =>
      rw [List.countP_cons] at left ⊢
      have here : op.logs = true → log.length + 1 < 2147483647 := by
        intro writes
        rw [if_pos writes] at left
        omega
      obtain ⟨correct, grown, nextSound, length⟩ := sound.call op allowed.1 here
      obtain ⟨rest, final, finalSound, total⟩ := ih nextSound allowed.2 (by omega)
      exact ⟨⟨correct, rest⟩, final, finalSound, by omega⟩

end TxnSession

/-- Every call of a run, made on behalf of active transactions, does what it should, as
long as the run writes fewer than `2 ^ 31 - 1` log records. -/
theorem txnCalls_correct (existing : List UInt8) (ops : List TxnCall)
    (allowed : EachStep TxnSession.step TxnSession.Allowed (.start existing) ops)
    (left : ops.countP TxnCall.logs < 2147483647) :
    EachStep TxnSession.step TxnSession.CallCorrect (.start existing) ops :=
  ((TxnSession.Sound.start existing).calls ops allowed (by simpa using left)).1

/-- Two transactions compete for a resource; the first commits, the second aborts. -/
def competingTransactions : List TxnCall :=
  [.begin .serializable, .begin .serializable, .acquire 1 7 .exclusive, .acquire 2 7 .shared,
    .commit 1, .abort 2]

theorem txnCalls_correct_competing :
    EachStep TxnSession.step TxnSession.CallCorrect (.start []) competingTransactions :=
  txnCalls_correct [] competingTransactions
    ⟨trivial, trivial, by decide +kernel, by decide +kernel, by decide +kernel,
      by decide +kernel, trivial⟩ (by decide)

/-! ## The LSN counter -/

/-- One transaction after the other begins and commits. -/
def manyTransactions (count : Nat) : List TxnCall :=
  (List.range count).flatMap fun i => [.begin .serializable, .commit (Int32.ofNat (i + 1))]

theorem manyTransactions_succ (count : Nat) : manyTransactions (count + 1) =
    manyTransactions count ++ [.begin .serializable, .commit (Int32.ofNat (count + 1))] := by
  simp [manyTransactions, List.range_succ]

theorem manyTransactions_logs (count : Nat) :
    (manyTransactions count).countP TxnCall.logs = 2 * count := by
  induction count with
  | zero => rfl
  | succ count ih =>
      have two : [TxnCall.begin .serializable, .commit (Int32.ofNat (count + 1))].countP
        TxnCall.logs = 2 := rfl
      rw [manyTransactions_succ, List.countP_append, ih, two, Nat.mul_succ]

theorem manyTransactions_begins (count : Nat) :
    (manyTransactions count).countP TxnCall.begins = count := by
  induction count with
  | zero => rfl
  | succ count ih =>
      have one : [TxnCall.begin .serializable, .commit (Int32.ofNat (count + 1))].countP
        TxnCall.begins = 1 := rfl
      rw [manyTransactions_succ, List.countP_append, ih, one]

theorem commit_begun (session : TxnSession) (id : Int32) :
    (session.step (.commit id)).begun = session.begun := by
  simp only [TxnSession.step, TxnSession.call]
  cases txnCommit session.tm id <;> rfl

/-- They are all on behalf of active transactions, and each id is the number of the transaction. -/
theorem manyTransactions_allowed (existing : List UInt8) (count : Nat)
    (few : 2 * count < 2147483647) :
    EachStep TxnSession.step TxnSession.Allowed (.start existing) (manyTransactions count) ∧
      (run TxnSession.step (.start existing) (manyTransactions count)).begun.length = count := by
  induction count with
  | zero => exact ⟨trivial, rfl⟩
  | succ count ih =>
      obtain ⟨allowed, length⟩ := ih (by omega)
      have logs := manyTransactions_logs count
      obtain ⟨-, log, sound, logged⟩ := (TxnSession.Sound.start existing).calls _ allowed
        (by simp only [List.length_nil]; omega)
      simp only [List.length_nil] at logged
      obtain ⟨next, record, called, nextSound, active, begun⟩ :=
        sound.begin (by omega) .serializable
      rw [sound.next, length] at active begun
      rw [manyTransactions_succ, eachStep_append, run_append]
      generalize run TxnSession.step (.start existing) (manyTransactions count) = session at *
      have stepped : session.step (.begin .serializable) = next := by
        simp [TxnSession.step, called]
      simp only [eachStep_cons, eachStep_nil, run_cons, run_nil, stepped]
      refine ⟨⟨allowed, trivial, active, trivial⟩, ?_⟩
      rw [commit_begun, begun, List.length_append, length, List.length_singleton]

/-- After so many transactions the next one finds no LSN for its first record. -/
theorem manyTransactions_overflow (existing : List UInt8) (count : Nat)
    (full : 2 * count + 1 = 2147483647) :
    (run TxnSession.step (.start existing) (manyTransactions count)).call
      (.begin .serializable) = .error .overflow := by
  obtain ⟨allowed, length⟩ := manyTransactions_allowed existing count (by omega)
  have logs := manyTransactions_logs count
  obtain ⟨-, log, sound, logged⟩ := (TxnSession.Sound.start existing).calls _ allowed
    (by simp only [List.length_nil]; omega)
  simp only [List.length_nil] at logged
  generalize run TxnSession.step (.start existing) (manyTransactions count) = session at *
  have spare : session.tm.nextTxnId ≠ 2147483647 := by
    intro last
    have equal := ofNat_inj (by omega) (by omega) (sound.next.symm.trans last :
      Int32.ofNat (session.begun.length + 1) = Int32.ofNat 2147483647)
    omega
  have overflow : txnBegin session.tm .serializable = .error .overflow := by
    simp only [txnBegin, if_neg spare]
    exact congrArg (· >>= _) (sound.wal.append_overflow (by omega) _)
  simp [TxnSession.call, overflow, bind, Except.bind]

/-- Twice as many log records as transactions are written, so the LSN counter overflows
when there are transaction ids left: some run with fewer than `2 ^ 31` transactions, all
of them active when a call is made on their behalf, has a call that is not correct. -/
theorem lsn_overflows_before_txnIds :
    ¬ ∀ ops : List TxnCall, EachStep TxnSession.step TxnSession.Allowed (.start []) ops →
      ops.countP TxnCall.begins < 2147483648 →
        EachStep TxnSession.step TxnSession.CallCorrect (.start []) ops := by
  obtain ⟨count, many⟩ : ∃ count, count = 1073741823 := ⟨_, rfl⟩
  have allowed := (manyTransactions_allowed [] count (by omega)).1
  have overflow := manyTransactions_overflow [] count (by omega)
  have begins := manyTransactions_begins count
  intro claimed
  have alsoAllowed : EachStep TxnSession.step TxnSession.Allowed (.start [])
      (manyTransactions count ++ [.begin .serializable]) := by
    rw [eachStep_append]
    exact ⟨allowed, trivial, trivial⟩
  have correct := claimed _ alsoAllowed
    (by rw [List.countP_append, begins, List.countP_singleton]; simp [TxnCall.begins, many])
  obtain ⟨next, called, -⟩ := (eachStep_append.mp correct).2.1
  rw [overflow] at called
  cases called

end MiniSqlite.Transaction
