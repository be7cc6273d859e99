import MiniSqlite.Std.SerialOrder
import MiniSqlite.Transaction.LockSafety
import MiniSqlite.Transaction.TxnRuns

/-!
# Serializability

Locks are only given back when a transaction commits or aborts. So if clients read under a
shared or exclusive lock and write under an exclusive one, what they have read and written is
what they would have if the transactions had run one after the other, in the order in which they
ended. The two slips of `lock_acquire` on a lock already held are excluded by `KeepsGrants`.
-/

namespace MiniSqlite.Transaction

open MiniSqlite.Common MiniSqlite.Std

variable {ν : Type}

/-- What clients of the transaction manager do. -/
inductive ClientStep (ν : Type) where
  | call (op : TxnCall)
  | access (id resourceId : Int32) (access : Access ν)

/-- The lock under which a resource may be accessed so. -/
def lockFor : Access ν → LockMode
  | .read => .shared
  | .write _ => .exclusive

/-- A lock that is asked for again conflicts with no other holder, and the mode belongs to the
family of the held one. -/
def KeepsGrants (session : TxnSession) : TxnCall → Prop
  | .acquire id resourceId mode =>
      UpgradeCompatible (session.tm.lockMgr.queue resourceId) id mode ∧
        ∀ held ∈ session.tm.lockMgr.queue resourceId, held.txnId = id → held.granted = true →
          held.mode.sameFamily mode
  | _ => True

/-- Transactions call and access while they are active, and access what they have locked. -/
def Disciplined (session : TxnSession) : ClientStep ν → Prop
  | .call op => session.Allowed op ∧ KeepsGrants session op
  | .access id resourceId access => IsActive session.tm id ∧
      Holds (session.tm.lockMgr.queue resourceId) id (lockFor access)

instance decidableHolds (queue : LockQueue) (id : Int32) (mode : LockMode) : Decidable (Holds queue id mode) :=
  inferInstanceAs (Decidable (∃ req ∈ queue, req.txnId = id ∧ req.granted = true ∧ mode ≤ req.mode))

instance decidableKeepsGrants (session : TxnSession) : DecidablePred (KeepsGrants session)
  | .acquire id resourceId mode =>
      inferInstanceAs (Decidable ((∀ held ∈ session.tm.lockMgr.queue resourceId, held.txnId = id →
        held.granted = true → held.mode.toNat < mode.toNat →
          ∀ other ∈ session.tm.lockMgr.queue resourceId, other.txnId ≠ id → other.granted = true →
            lockCompatible mode other.mode = true) ∧
        ∀ held ∈ session.tm.lockMgr.queue resourceId, held.txnId = id → held.granted = true →
          held.mode.sameFamily mode))
  | .begin _ | .commit _ | .abort _ => inferInstanceAs (Decidable True)

instance decidableDisciplined (session : TxnSession) : DecidablePred (@Disciplined ν session)
  | .call op => inferInstanceAs (Decidable (session.Allowed op ∧ KeepsGrants session op))
  | .access id resourceId access => inferInstanceAs (Decidable (IsActive session.tm id ∧
      Holds (session.tm.lockMgr.queue resourceId) id (lockFor access)))

def clientStep (session : TxnSession) : ClientStep ν → TxnSession
  | .call op => session.step op
  | .access _ _ _ => session

/-- The step writes a log record. -/
def ClientStep.logs : ClientStep ν → Bool
  | .call op => op.logs
  | .access _ _ _ => false

/-- The accesses of a run. -/
def accesses (steps : List (ClientStep ν)) : List (Int32 × Int32 × Access ν) :=
  steps.filterMap fun
    | .access id resourceId access => some (id, resourceId, access)
    | .call _ => none

/-- The transactions that a run ends, in that order. -/
def finished (steps : List (ClientStep ν)) : List Int32 :=
  steps.filterMap fun
    | .call (.commit id) | .call (.abort id) => some id
    | _ => none

/-! ## The queues -/

/-- Next to a lock to write there is none to read or write. -/
theorem exclusive_incompatible {first second : LockMode} (writes : .exclusive ≤ first)
    (reads : .shared ≤ second) : lockCompatible first second = false := by
  revert writes reads
  cases first <;> cases second <;> decide

theorem shared_le_lockFor (access : Access ν) : .shared ≤ lockFor access := by
  cases access with
  | read => exact le_refl _
  | write value => exact (by decide : LockMode.shared ≤ .exclusive)

/-- Locks under which two accesses conflict are incompatible. -/
theorem lockFor_conflict {first second : LockMode} {access other : Access ν}
    (writes : access.isWrite ∨ other.isWrite) (covers : lockFor access ≤ first)
    (otherCovers : lockFor other ≤ second) : lockCompatible first second = false := by
  have reads := (shared_le_lockFor access).trans covers
  have otherReads := (shared_le_lockFor other).trans otherCovers
  rcases writes with here | there
  · cases access with
    | read => exact here.elim
    | write value => exact exclusive_incompatible covers otherReads
  · cases other with
    | read => exact there.elim
    | write value =>
        rw [lockCompatible_comm]
        exact exclusive_incompatible otherCovers reads

/-- In a compatible queue, two transactions do not hold locks for conflicting accesses. -/
theorem QueueCompatible.no_conflict {queue : LockQueue} (compatible : QueueCompatible queue)
    {id otherId : Int32} (differ : id ≠ otherId) {access other : Access ν}
    (holds : Holds queue id (lockFor access)) (otherHolds : Holds queue otherId (lockFor other)) :
    ¬(access.isWrite ∨ other.isWrite) := by
  rintro writes
  obtain ⟨first, firstIn, rfl, firstGranted, covers⟩ := holds
  obtain ⟨second, secondIn, rfl, secondGranted, otherCovers⟩ := otherHolds
  have admitted := compatible first firstIn second secondIn firstGranted secondGranted differ
  rw [lockFor_conflict writes covers otherCovers] at admitted
  cases admitted

/-- A call that keeps the grants of a queue leaves each lock that is held at least as strong. -/
theorem Holds.acquire {queue : LockQueue} (one : OneRequestEach queue) {id other : Int32}
    {mode weak : LockMode} (holds : Holds queue other weak)
    (family : ∀ held ∈ queue, held.txnId = id → held.granted = true → held.mode.sameFamily mode) :
    Holds (acquireInQueue queue id mode).1 other weak := by
  by_cases own : other = id
  · subst own
    obtain ⟨held, member, owner, granted, covers⟩ := holds
    have exact_ := (acquireInQueue_held one member granted mode).2 weak
    rw [owner] at exact_
    rw [exact_]
    exact covers.trans ((reacquire_covers_iff held.mode mode).mpr
      (family held member owner granted)).1
  · exact (acquireInQueue_holds_other queue mode weak own).mpr holds

/-! ## The invariant -/

/-- The queues are sound, the accesses so far have their serial order, and transactions that have
not ended hold the locks under which they made theirs. -/
structure Serialized (session : TxnSession) (log : List WalRecord) (ended : List Int32)
    (items : List (Int32 × Int32 × Access ν)) : Prop where
  sound : session.Sound log
  locks : session.tm.lockMgr.Sound
  gone : ∀ id ∈ ended, txnGet session.tm id = none ∧ id ∈ session.begun
  held : ∀ item ∈ unfinished ended items,
    Holds (session.tm.lockMgr.queue item.2.1) item.1 (lockFor item.2.2)
  inOrder : InOrder Memory.access ended items

section Steps

variable {session after : TxnSession} {log : List WalRecord} {ended : List Int32}
variable {items : List (Int32 × Int32 × Access ν)}

theorem Serialized.not_ended (serialized : Serialized session log ended items) {id : Int32}
    (active : IsActive session.tm id) : id ∉ ended := by
  intro member
  obtain ⟨txn, present, -⟩ := active
  rw [(serialized.gone id member).1] at present
  cases present

/-- An access conflicts with no earlier one of another transaction that has not ended. -/
theorem Serialized.access (serialized : Serialized session log ended items) {id resourceId : Int32}
    {access : Access ν} (active : IsActive session.tm id)
    (covered : Holds (session.tm.lockMgr.queue resourceId) id (lockFor access)) :
    Serialized session log ended (items ++ [(id, resourceId, access)]) := by
  have goes := serialized.not_ended active
  refine ⟨serialized.sound, serialized.locks, serialized.gone, ?_, ?_⟩
  · intro item member
    obtain ⟨stands, live⟩ := List.mem_filter.mp member
    rcases List.mem_append.mp stands with earlier | new
    · exact serialized.held item (List.mem_filter.mpr ⟨earlier, live⟩)
    · rw [List.mem_singleton.mp new]
      exact covered
  · refine serialized.inOrder.action goes fun other member differ => ?_
    apply Memory.access_commute differ
    rintro ⟨same, writes⟩
    have otherHolds := serialized.held other member
    rw [same] at otherHolds
    exact (serialized.locks resourceId).compatible.no_conflict differ otherHolds covered writes

/-- A call that ends no transaction. -/
theorem Serialized.grows (serialized : Serialized session log ended items) {grown : List WalRecord}
    (sound : after.Sound grown) (locks : after.tm.lockMgr.Sound)
    (gone : ∀ id ∈ ended, txnGet after.tm id = txnGet session.tm id)
    (begun : session.begun ⊆ after.begun)
    (kept : ∀ resourceId id mode, Holds (session.tm.lockMgr.queue resourceId) id mode →
      Holds (after.tm.lockMgr.queue resourceId) id mode) :
    Serialized after grown ended items where
  sound := sound
  locks := locks
  gone id member := ⟨(gone id member).trans (serialized.gone id member).1,
    begun (serialized.gone id member).2⟩
  held item member := kept _ _ _ (serialized.held item member)
  inOrder := serialized.inOrder

theorem Serialized.begin (serialized : Serialized session log ended items)
    (left : log.length + 1 < 2147483647) (level : IsolationLevel) :
    ∃ grown, Serialized (session.step (.begin level)) grown ended items ∧
      grown.length = log.length + 1 := by
  let id := session.tm.nextTxnId
  have spare := serialized.sound.spare left
  obtain ⟨walMgr, appended, -, -⟩ := serialized.sound.wal.append left
    (show ({ WalRecord.zero with txnId := id, type := .begin } : WalRecord).length = 0 from rfl)
  obtain ⟨after, begun, -, lockMgr, -, get⟩ := txnBegin_spec level spare appended
  obtain ⟨next, record, called, nextSound, -, nextBegun⟩ := serialized.sound.begin left level
  have stepped : session.step (.begin level) = next := by simp [TxnSession.step, called]
  have same : next.tm = after := by
    simp only [TxnSession.call, begun] at called
    exact congrArg TxnSession.tm (Except.ok.inj called).symm
  rw [stepped]
  refine ⟨_, serialized.grows nextSound ?_ ?_ ?_ ?_, by simp⟩
  · rw [same, lockMgr]
    exact serialized.locks
  · intro other member
    rw [same, get, if_neg]
    rintro rfl
    exact serialized.sound.next_unknown (serialized.gone _ member).2
  · rw [nextBegun]
    exact List.subset_append_left _ _
  · rw [same, lockMgr]
    exact fun _ _ _ holds => holds

theorem Serialized.acquire (serialized : Serialized session log ended items)
    {id resourceId : Int32} {mode : LockMode} (active : IsActive session.tm id)
    (keeps : KeepsGrants session (.acquire id resourceId mode)) :
    Serialized (session.step (.acquire id resourceId mode)) log ended items := by
  refine serialized.grows (serialized.sound.acquire active resourceId mode)
    (serialized.locks.step _ (.acquire id resourceId mode) keeps.1) (fun _ _ => rfl)
    (List.Subset.refl _) fun other owner weak holds => ?_
  show Holds ((lockAcquire session.tm.lockMgr id resourceId mode).1.queue other) owner weak
  rw [queue_lockAcquire]
  split
  case isTrue same =>
    subst same
    exact holds.acquire (serialized.locks resourceId).one keeps.2
  case isFalse => exact holds

/-- A transaction that ends comes next in the order. -/
theorem Serialized.finish (serialized : Serialized session log ended items)
    (left : log.length + 1 < 2147483647) {type : WalRecordType}
    (closing : type = .commit ∨ type = .abort) {id : Int32} (active : IsActive session.tm id) :
    ∃ after grown, txnFinish type session.tm id = .ok (after, .ok) ∧
      Serialized ⟨after, session.begun⟩ grown (ended ++ [id]) items ∧
      grown.length = log.length + 1 := by
  have goes := serialized.not_ended active
  have known : id ∈ session.begun := by
    obtain ⟨txn, present, -⟩ := active
    exact serialized.sound.known id (by simp [present])
  obtain ⟨after, record, ran, finishes, sound⟩ := serialized.sound.finish left closing active
  obtain ⟨_, logged, _, _, lockMgr, shape, _⟩ := finishes.durable
  have queues : ∀ resourceId, after.lockMgr.queue resourceId =
      releaseInQueue (session.tm.lockMgr.queue resourceId) id := by
    intro resourceId
    rw [shape, releaseFinish, lockMgr, queue_lockReleaseAll]
  refine ⟨after, _, ran, ⟨sound, fun resourceId => ?_, fun other member => ?_,
    fun item member => ?_, serialized.inOrder.finish goes⟩, by simp⟩
  · rw [queues]
    exact (serialized.locks resourceId).release id
  · rcases List.mem_append.mp member with earlier | here
    · obtain ⟨none, begun⟩ := serialized.gone other earlier
      have differ : other ≠ id := fun same => goes (same ▸ earlier)
      exact ⟨(finishes.others other differ).trans none, begun⟩
    · rw [List.mem_singleton.mp here]
      exact ⟨finishes.inactive, known⟩
  · rw [unfinished_concat] at member
    obtain ⟨earlier, foreign⟩ := List.mem_filter.mp member
    have differ : item.1 ≠ id := by simpa using foreign
    show Holds (after.lockMgr.queue item.2.1) item.1 (lockFor item.2.2)
    rw [queues]
    exact (serialized.held item earlier).release differ

/-- Every disciplined step keeps the invariant. -/
theorem Serialized.step (serialized : Serialized session log ended items) (step : ClientStep ν)
    (disciplined : Disciplined session step)
    (left : step.logs = true → log.length + 1 < 2147483647) :
    ∃ grown, Serialized (clientStep session step) grown (ended ++ finished [step])
        (items ++ accesses [step]) ∧
      grown.length = log.length + if step.logs then 1 else 0 := by
  cases step with
  | access id resourceId access =>
      refine ⟨log, ?_, rfl⟩
      have accessed := serialized.access disciplined.1 disciplined.2
      simpa [clientStep, finished, accesses] using accessed
  | call op =>
      obtain ⟨allowed, keeps⟩ := disciplined
      cases op with
      | begin level =>
          obtain ⟨grown, begun, length⟩ := serialized.begin (left rfl) level
          refine ⟨grown, ?_, length⟩
          simpa [clientStep, finished, accesses] using begun
      | acquire id resourceId mode =>
          refine ⟨log, ?_, rfl⟩
          have acquired := serialized.acquire allowed keeps
          simpa [clientStep, finished, accesses] using acquired
      | commit id =>
          obtain ⟨after, grown, ran, ended, length⟩ :=
            serialized.finish (left rfl) (.inl rfl) allowed
          have stepped : session.step (.commit id) = ⟨after, session.begun⟩ := by
            simp [TxnSession.step, TxnSession.call, txnCommit, ran, bind, Except.bind, pure,
              Except.pure]
          refine ⟨grown, ?_, length⟩
          rw [clientStep, stepped]
          simpa [finished, accesses] using ended
      | abort id =>
          obtain ⟨after, grown, ran, ended, length⟩ :=
            serialized.finish (left rfl) (.inr rfl) allowed
          have stepped : session.step (.abort id) = ⟨after, session.begun⟩ := by
            simp [TxnSession.step, TxnSession.call, txnAbort, ran, bind, Except.bind, pure,
              Except.pure]
          refine ⟨grown, ?_, length⟩
          rw [clientStep, stepped]
          simpa [finished, accesses] using ended

/-- And so does every run of disciplined steps. -/
theorem Serialized.run (serialized : Serialized session log ended items)
    (steps : List (ClientStep ν)) (disciplined : EachStep clientStep Disciplined session steps)
    (left : log.length + steps.countP ClientStep.logs < 2147483647) :
    ∃ grown, Serialized (Std.run clientStep session steps) grown (ended ++ finished steps)
      (items ++ accesses steps) := by
  induction steps generalizing session log ended items with
  | nil => exact ⟨log, by simpa [finished, accesses] using serialized⟩
  | cons step steps ih =>
      rw [List.countP_cons] at left
      have here : step.logs = true → log.length + 1 < 2147483647 := by
        intro writes
        rw [if_pos writes] at left
        omega
      obtain ⟨grown, next, length⟩ := serialized.step step disciplined.1 here
      obtain ⟨final, last⟩ := ih next disciplined.2 (by omega)
      refine ⟨final, ?_⟩
      rw [List.append_assoc, List.append_assoc, finished, finished, accesses, accesses,
        ← List.filterMap_append, ← List.filterMap_append] at last
      exact last

end Steps

theorem Serialized.start (existing : List UInt8) :
    Serialized (TxnSession.start existing) [] [] ([] : List (Int32 × Int32 × Access ν)) where
  sound := TxnSession.Sound.start existing
  locks := sound_init
  gone _ member := absurd member List.not_mem_nil
  held _ member := absurd member (by simp [unfinished])
  inOrder := .nil

end MiniSqlite.Transaction
