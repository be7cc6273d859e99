import MiniSqlite.Transaction.LockWakeups
import MiniSqlite.Transaction.WalRuns

/-!
# The transaction manager

`transaction/transaction.c` and `transaction/txn_manager.c`, on a lock manager
and a log. A transaction object is reached through its id: the manager stores it
under that id for as long as the pointer to it may be used, and frees it when it
removes the entry. Commit and abort differ in the record they write and the
state they leave behind, and are one definition, `txnFinish`.

The buffer pool, which no function uses, is left out, and so are managers without
a log or without locks.
-/

namespace MiniSqlite.Transaction

open MiniSqlite.Common MiniSqlite.Std

/-- `txn_state_t`. -/
inductive TxnState where
  | invalid
  | active
  | committed
  | aborted
  deriving DecidableEq, Repr

/-- `isolation_level_t`. -/
inductive IsolationLevel where
  | readUncommitted
  | readCommitted
  | repeatableRead
  | serializable
  deriving DecidableEq, Repr

/-- `transaction_t`. -/
structure TransactionT where
  txnId : Int32
  state : TxnState
  isolation : IsolationLevel
  lastLsn : Lsn
  undoNextLsn : Lsn
  deriving DecidableEq, Repr

/-- `txn_init`. -/
def txnInit (id : Int32) (level : IsolationLevel) : TransactionT := ⟨id, .active, level, 0, 0⟩

/-- `txn_manager_t`. -/
structure TxnManager where
  lockMgr : LockManager
  walMgr : WalManager
  activeTxns : Hashmap resourceKey TransactionT
  nextTxnId : Int32

/-- `txn_manager_init`. -/
def txnManagerInit (lm : LockManager) (wm : WalManager) : TxnManager :=
  ⟨lm, wm, .hashmapInit resourceKey TransactionT 16, 1⟩

/-- `txn_get`. -/
def txnGet (tm : TxnManager) (id : Int32) : Option TransactionT := tm.activeTxns.hashmapGet id

/-- Stores a transaction object under its id. -/
def TxnManager.put (tm : TxnManager) (txn : TransactionT) : TxnManager :=
  { tm with activeTxns := tm.activeTxns.hashmapPut txn.txnId txn }

/-- `txn_begin`: the id of the transaction object created. -/
def txnBegin (tm : TxnManager) (level : IsolationLevel) : Except Fault (TxnManager × Int32) := do
  if tm.nextTxnId = 2147483647 then throw .overflow
  let txn := txnInit tm.nextTxnId level
  let tm := { tm with nextTxnId := tm.nextTxnId + 1 }.put txn
  let (walMgr, lastLsn) ← walAppend tm.walMgr
    { WalRecord.zero with txnId := txn.txnId, type := .begin }
  return ({ tm with walMgr }.put { txn with lastLsn }, txn.txnId)

/-- The record that ends a transaction is written and flushed. -/
def logFinish (type : WalRecordType) (tm : TxnManager) (txn : TransactionT) :
    Except Fault TxnManager := do
  let (walMgr, lastLsn) ← walAppend tm.walMgr
    { WalRecord.zero with txnId := txn.txnId, prevLsn := txn.lastLsn, type }
  return { tm with walMgr := walFlush walMgr lastLsn }.put { txn with lastLsn }

/-- Locks are released and the transaction object is freed. The state it is left in
is not seen any more. -/
def releaseFinish (tm : TxnManager) (id : Int32) : TxnManager :=
  { tm with
    lockMgr := lockReleaseAll tm.lockMgr id
    activeTxns := tm.activeTxns.hashmapRemove id }

/-- `txn_commit` and `txn_abort`, which write a record of the given type. A transaction
that has ended is a pointer to freed memory. -/
def txnFinish (type : WalRecordType) (tm : TxnManager) (id : Int32) :
    Except Fault (TxnManager × ErrorCode) := do
  let some txn := txnGet tm id | throw .nullPointer
  if txn.state ≠ .active then return (tm, .txnAborted)
  let logged ← logFinish type tm txn
  return (releaseFinish logged id, .ok)

/-- `txn_commit`. -/
def txnCommit (tm : TxnManager) (id : Int32) : Except Fault (TxnManager × ErrorCode) :=
  txnFinish .commit tm id

/-- `txn_abort`. -/
def txnAbort (tm : TxnManager) (id : Int32) : Except Fault (TxnManager × ErrorCode) :=
  txnFinish .abort tm id

/-! ## The table of transactions -/

@[simp] theorem txnGet_init (lm : LockManager) (wm : WalManager) (id : Int32) :
    txnGet (txnManagerInit lm wm) id = none := Hashmap.hashmapGet_init _ _

theorem txnGet_put (tm : TxnManager) (txn : TransactionT) (id : Int32) :
    txnGet (tm.put txn) id = if txn.txnId = id then some txn else txnGet tm id := by
  unfold txnGet TxnManager.put
  rw [Hashmap.hashmapGet_put]
  by_cases same : txn.txnId = id <;> simp [resourceKey, same]

theorem txnGet_releaseFinish (tm : TxnManager) (id other : Int32) :
    txnGet (releaseFinish tm id) other = if id = other then none else txnGet tm other := by
  unfold txnGet releaseFinish
  rw [Hashmap.hashmapGet_remove]
  by_cases same : id = other <;> simp [resourceKey, same]

theorem txnBegin_spec {tm : TxnManager} (level : IsolationLevel) {walMgr : WalManager} {lsn : Lsn}
    (spare : tm.nextTxnId ≠ 2147483647)
    (appended : walAppend tm.walMgr
      { WalRecord.zero with txnId := tm.nextTxnId, type := .begin } = .ok (walMgr, lsn)) :
    ∃ after, txnBegin tm level = .ok (after, tm.nextTxnId) ∧ after.walMgr = walMgr ∧
      after.lockMgr = tm.lockMgr ∧ after.nextTxnId = tm.nextTxnId + 1 ∧
      ∀ other, txnGet after other = if tm.nextTxnId = other
        then some { txnInit tm.nextTxnId level with lastLsn := lsn } else txnGet tm other := by
  let txn := txnInit tm.nextTxnId level
  let created := { tm with nextTxnId := tm.nextTxnId + 1 }.put txn
  refine ⟨{ created with walMgr }.put { txn with lastLsn := lsn }, ?_, rfl, rfl, rfl, ?_⟩
  · have logged : walAppend created.walMgr
        { WalRecord.zero with txnId := txn.txnId, type := .begin } = .ok (walMgr, lsn) := appended
    simp only [txnBegin, if_neg spare]
    exact congrArg (· >>= _) logged
  · intro other
    have outer := txnGet_put { created with walMgr } { txn with lastLsn := lsn } other
    have inner : txnGet { created with walMgr } other =
        if tm.nextTxnId = other then some txn else txnGet tm other :=
      txnGet_put { tm with nextTxnId := tm.nextTxnId + 1 } txn other
    by_cases same : tm.nextTxnId = other
    · rw [if_pos same]
      exact outer.trans (if_pos same)
    · rw [if_neg same] at inner ⊢
      exact (outer.trans (if_neg same)).trans inner

theorem logFinish_spec {type : WalRecordType} {tm : TxnManager} {txn : TransactionT}
    {walMgr : WalManager} {lsn : Lsn}
    (appended : walAppend tm.walMgr
      { WalRecord.zero with txnId := txn.txnId, prevLsn := txn.lastLsn, type } =
        .ok (walMgr, lsn)) :
    ∃ logged, logFinish type tm txn = .ok logged ∧ logged.walMgr = walFlush walMgr lsn ∧
      logged.lockMgr = tm.lockMgr ∧ logged.nextTxnId = tm.nextTxnId ∧
      ∀ other, txn.txnId ≠ other → txnGet logged other = txnGet tm other := by
  refine ⟨{ tm with walMgr := walFlush walMgr lsn }.put { txn with lastLsn := lsn }, ?_, rfl, rfl,
    rfl, ?_⟩
  · simp only [logFinish, appended, bind, Except.bind, pure, Except.pure]
  · intro other differ
    rw [txnGet_put, if_neg differ]
    rfl

/-- An active transaction ends by way of `logFinish` and `releaseFinish`. -/
theorem txnFinish_spec {type : WalRecordType} {tm logged : TxnManager} {id : Int32}
    {txn : TransactionT} (present : txnGet tm id = some txn) (active : txn.state = .active)
    (finished : logFinish type tm txn = .ok logged) :
    txnFinish type tm id = .ok (releaseFinish logged id, .ok) := by
  simp [txnFinish, present, active, finished, bind, Except.bind, pure, Except.pure]

/-- The transaction is in the table and active. -/
def IsActive (tm : TxnManager) (id : Int32) : Prop :=
  ∃ txn, txnGet tm id = some txn ∧ txn.state = .active

instance (tm : TxnManager) (id : Int32) : Decidable (IsActive tm id) :=
  match found : txnGet tm id with
  | none => .isFalse fun ⟨_, present, _⟩ => by simp [found] at present
  | some txn => decidable_of_iff (txn.state = .active)
      ⟨fun active => ⟨txn, found, active⟩,
        fun ⟨_, present, active⟩ => Option.some.inj (found.symm.trans present) ▸ active⟩

/-! ## Whose requests are queued -/

/-- Every request in the queue belongs to a transaction that satisfies `owner`. -/
def OwnedBy (owner : Int32 → Prop) (queue : LockQueue) : Prop := ∀ req ∈ queue, owner req.txnId

theorem OwnedBy.acquire {owner : Int32 → Prop} {queue : LockQueue} (owned : OwnedBy owner queue)
    {txnId : Int32} (owns : owner txnId) (mode : LockMode) :
    OwnedBy owner (acquireInQueue queue txnId mode).1 := by
  have cases_ := acquireInQueue_cases queue txnId mode
  generalize (acquireInQueue queue txnId mode).1 = next at cases_ ⊢
  generalize (acquireInQueue queue txnId mode).2 = rc at cases_
  intro req member
  cases cases_ with
  | fresh absent =>
      rcases List.mem_append.mp member with earlier | new
      · exact owned req earlier
      · rw [List.mem_singleton.mp new]
        exact owns
  | held shape =>
      subst shape
      rcases mem_middle.mp member with rfl | inRest
      · exact owns
      · exact owned req (mem_middle.mpr (.inr inRest))
  | waiting shape =>
      subst shape
      rcases mem_middle.mp member with rfl | inRest
      · exact owns
      · exact owned req (mem_middle.mpr (.inr inRest))

theorem OwnedBy.release {owner : Int32 → Prop} {queue : LockQueue} (owned : OwnedBy owner queue)
    (txnId : Int32) : OwnedBy (fun other => owner other ∧ other ≠ txnId)
      (releaseInQueue queue txnId) := by
  apply releaseInQueue_induction
  · intro req member
    obtain ⟨inQueue, foreign⟩ := List.mem_filter.mp member
    exact ⟨owned req inQueue, by simpa using foreign⟩
  · intro current k holds req member
    rcases grantWaiting_cases current k with same | ⟨before, waiter, after, shape, -, -, result⟩
    · rw [same] at member
      exact holds req member
    · subst shape
      rw [result] at member
      rcases mem_middle.mp member with rfl | inRest
      · exact holds waiter (mem_middle.mpr (.inl rfl))
      · exact holds req (mem_middle.mpr (.inr inRest))

end MiniSqlite.Transaction
