import MiniSqlite.Transaction.LockSafety

/-!
# Waiting requests

Runs of a fresh lock manager again: a request that waits should conflict with a
granted request of another transaction, or nobody will ever wake it. The release
path re-examines every waiter and so keeps this. The re-acquire path of
`lock_acquire` does not: replacing a held mode by one with a larger constant can
take the last conflict away (`waitersBlocked_iff_weakeningsBlocked`).
-/

namespace MiniSqlite.Transaction

open MiniSqlite.Common MiniSqlite.Std

/-! ## Blocked requests -/

/-- A granted request of another transaction in `queue` conflicts with `req`. -/
def Blocked (queue : LockQueue) (req : LockRequest) : Prop :=
  ∃ holder ∈ queue, holder.granted = true ∧ holder.txnId ≠ req.txnId ∧
    lockCompatible req.mode holder.mode = false

instance (queue : LockQueue) (req : LockRequest) : Decidable (Blocked queue req) :=
  inferInstanceAs (Decidable (∃ holder ∈ queue, _))

/-- Every waiting request in the queue is blocked. -/
def QueueBlocked (queue : LockQueue) : Prop :=
  ∀ req ∈ queue, req.granted = false → Blocked queue req

instance (queue : LockQueue) : Decidable (QueueBlocked queue) :=
  inferInstanceAs (Decidable (∀ req ∈ queue, _))

/-- `QueueBlocked` on every resource. -/
def WaitersBlocked (lm : LockManager) : Prop := ∀ resourceId, QueueBlocked (lm.queue resourceId)

/-- If `txnId` holds a lock in `queue` whose mode constant is below `mode`, every waiting
request that `mode` would admit is blocked by a third transaction. -/
def WeakeningBlocked (queue : LockQueue) (txnId : Int32) (mode : LockMode) : Prop :=
  ∀ held ∈ queue, held.txnId = txnId → held.granted = true → held.mode.toNat < mode.toNat →
    ∀ req ∈ queue, req.granted = false → lockCompatible req.mode mode = true →
      ∃ holder ∈ queue, holder.granted = true ∧ holder.txnId ≠ req.txnId ∧
        holder.txnId ≠ txnId ∧ lockCompatible req.mode holder.mode = false

/-- The call, if it replaces a held mode, leaves no waiter without a conflict. -/
def WeakeningsBlocked (lm : LockManager) : LockOp → Prop
  | .acquire txnId resourceId mode => WeakeningBlocked (lm.queue resourceId) txnId mode
  | .releaseAll _ => True

/-- `next` has no request of the transaction, and every lock granted to another in `queue`. -/
def ReleasedFrom (queue next : LockQueue) (txnId : Int32) : Prop :=
  (∀ req ∈ next, req.txnId ≠ txnId) ∧
    ∀ held ∈ queue, held.granted = true → held.txnId ≠ txnId → held ∈ next

/-- The call, if it is a release, does to every queue what a release should. -/
def ReleasesOnly (lm : LockManager) : LockOp → Prop
  | .acquire _ _ _ => True
  | .releaseAll txnId => ∀ resourceId,
      ReleasedFrom (lm.queue resourceId) ((lockReleaseAll lm txnId).queue resourceId) txnId

/-- A request that the granted requests of others do not admit is blocked. -/
theorem blocked_of_not_admits {queue others : LockQueue} {req : LockRequest}
    (inQueue : ∀ other ∈ others, other ∈ queue) (foreign : ∀ other ∈ others, other.txnId ≠ req.txnId)
    (refused : ¬ Admits others req.mode) : Blocked queue req := by
  unfold Admits at refused
  push Not at refused
  obtain ⟨holder, member, granted, conflict⟩ := refused
  exact ⟨holder, inQueue holder member, granted, foreign holder member,
    Bool.eq_false_iff.mpr conflict⟩

/-- What blocks a request may change hands as long as the holders keep their modes. -/
theorem Blocked.mono {queue next : LockQueue} {req : LockRequest} (blocked : Blocked queue req)
    (kept : ∀ holder ∈ queue, holder.granted = true → holder ∈ next) : Blocked next req := by
  obtain ⟨holder, member, granted, foreign, conflict⟩ := blocked
  exact ⟨holder, kept holder member granted, granted, foreign, conflict⟩

theorem mem_middle {before after : LockQueue} {req other : LockRequest} :
    other ∈ before ++ req :: after ↔ other = req ∨ other ∈ before ++ after := by
  simp only [List.mem_append, List.mem_cons]
  tauto

/-! ## Acquiring -/

/-- On a queue of blocked waiters, acquiring leaves them blocked exactly when the call
weakens no lock that alone holds a waiter back. -/
theorem acquireInQueue_blocked_iff {queue : LockQueue} (one : OneRequestEach queue)
    (blocked : QueueBlocked queue) (txnId : Int32) (mode : LockMode) :
    QueueBlocked (acquireInQueue queue txnId mode).1 ↔ WeakeningBlocked queue txnId mode := by
  have outcome := acquireInQueue_cases queue txnId mode
  generalize (acquireInQueue queue txnId mode).1 = next at outcome ⊢
  generalize (acquireInQueue queue txnId mode).2 = rc at outcome
  cases outcome with
  | fresh absent =>
      have noWeakening : WeakeningBlocked queue txnId mode :=
        fun held member owner => absurd owner (absent held member)
      refine iff_of_true ?_ noWeakening
      intro req member waiting
      rcases List.mem_append.mp member with old | isNew
      · exact (blocked req old waiting).mono fun holder inOld _ => List.mem_append_left _ inOld
      · rw [List.mem_singleton] at isNew
        subst isNew
        exact blocked_of_not_admits (fun other inOld => List.mem_append_left _ inOld) absent
          (of_decide_eq_false waiting)
  | @held before after held shape =>
      subst shape
      have others := one.middle
      by_cases larger : mode.toNat > held.toNat
      · simp only [if_pos larger]
        constructor
        · intro stillBlocked holding _ _ _ _ req reqMember waiting admitted
          rcases mem_middle.mp reqMember with rfl | inRest
          · exact absurd waiting (by simp)
          · obtain ⟨holder, holderMember, granted, foreign, conflict⟩ :=
              stillBlocked req (mem_middle.mpr (.inr inRest)) waiting
            rcases mem_middle.mp holderMember with rfl | inHolders
            · rw [admitted] at conflict
              exact absurd conflict (by simp)
            · exact ⟨holder, mem_middle.mpr (.inr inHolders), granted, foreign,
                others holder inHolders, conflict⟩
        · intro weakening req member waiting
          rcases mem_middle.mp member with rfl | inRest
          · exact absurd waiting (by simp)
          · by_cases admitted : lockCompatible req.mode mode = true
            · obtain ⟨holder, holderMember, granted, foreign, third, conflict⟩ :=
                weakening ⟨txnId, held, true⟩ (by simp) rfl rfl larger req
                  (mem_middle.mpr (.inr inRest)) waiting admitted
              rcases mem_middle.mp holderMember with rfl | inHolders
              · exact absurd rfl third
              · exact ⟨holder, mem_middle.mpr (.inr inHolders), granted, foreign, conflict⟩
            · exact ⟨⟨txnId, mode, true⟩, by simp, rfl, Ne.symm (others req inRest),
                Bool.eq_false_iff.mpr admitted⟩
      · simp only [if_neg larger]
        refine iff_of_true blocked ?_
        intro holding member owner granted smaller
        rcases mem_middle.mp member with rfl | inRest
        · exact absurd smaller larger
        · exact absurd owner (others holding inRest)
  | @waiting before after asked shape =>
      subst shape
      have others := one.middle
      have noWeakening : WeakeningBlocked (before ++ ⟨txnId, asked, false⟩ :: after) txnId mode := by
        intro held member owner granted
        rcases mem_middle.mp member with rfl | inRest
        · exact absurd granted (by simp)
        · exact absurd owner (others held inRest)
      refine iff_of_true ?_ noWeakening
      intro req member isWaiting
      rcases mem_middle.mp member with rfl | inRest
      · exact blocked_of_not_admits (fun other inOthers => mem_middle.mpr (.inr inOthers)) others
          (of_decide_eq_false isWaiting)
      · refine (blocked req (mem_middle.mpr (.inr inRest)) isWaiting).mono ?_
        intro holder holderMember granted
        rcases mem_middle.mp holderMember with rfl | inHolders
        · exact absurd granted (by simp)
        · exact mem_middle.mpr (.inr inHolders)

/-! ## Releasing -/

/-- Every waiting request among the first `k` is blocked. -/
def BlockedBelow (queue : LockQueue) (k : Nat) : Prop :=
  ∀ i < k, ∀ req, queue[i]? = some req → req.granted = false → Blocked queue req

/-- A turn of the wake-up loop leaves the waiter it looks at granted or blocked. -/
theorem grantWaiting_settles {queue : LockQueue} (one : OneRequestEach queue) {k : Nat}
    (below : BlockedBelow queue k) : BlockedBelow (grantWaiting queue k) (k + 1) := by
  have stays : (∀ req, queue[k]? = some req → req.granted = false → Blocked queue req) →
      BlockedBelow queue (k + 1) := by
    intro here i bound req found waiting
    rcases Nat.lt_succ_iff_lt_or_eq.mp bound with earlier | rfl
    · exact below i earlier req found waiting
    · exact here req found waiting
  unfold grantWaiting
  cases found : queue[k]? with
  | none =>
      refine stays fun req here => ?_
      rw [found] at here
      exact absurd here (by simp)
  | some req =>
      obtain ⟨bound, here⟩ := List.getElem?_eq_some_iff.mp found
      have shape : queue = queue.take k ++ req :: queue.drop (k + 1) := by
        rw [← here, ← List.drop_eq_getElem_cons bound, List.take_append_drop]
      have length : (queue.take k).length = k := by simp; omega
      have checked : compatibleWithOthers queue k req.mode =
          decide (Admits (queue.take k ++ queue.drop (k + 1)) req.mode) := by
        have := compatibleWithOthers_split (queue.take k) (queue.drop (k + 1)) req req.mode
        rwa [← shape, length] at this
      have inQueue : ∀ other, other ∈ queue ↔
          other = req ∨ other ∈ queue.take k ++ queue.drop (k + 1) := by
        intro other
        rw [← mem_middle, ← shape]
      dsimp only
      split
      · rename_i granted
        refine stays fun other there waiting => ?_
        rw [found, Option.some.injEq] at there
        rw [← there, granted] at waiting
        exact absurd waiting (by simp)
      · rename_i waitingHere
        rw [checked]
        split
        · -- the waiter is granted, and granting takes no conflict from the others
          intro i low other there waiting
          rw [List.getElem?_set] at there
          split at there
          · simp only [Option.some.injEq] at there
            rw [← there] at waiting
            exact absurd waiting (by simp)
          · have earlier : i < k := by omega
            refine (below i earlier other there waiting).mono fun holder member granted => ?_
            rw [List.set_eq_take_append_cons_drop, if_pos bound]
            rcases (inQueue holder).mp member with rfl | inOthers
            · exact absurd granted waitingHere
            · exact mem_middle.mpr (.inr inOthers)
        · rename_i refused
          refine stays fun other there waiting => ?_
          rw [found, Option.some.injEq] at there
          subst there
          refine blocked_of_not_admits (fun other member => (inQueue other).mpr (.inr member)) ?_
            (fun admits => refused (decide_eq_true admits))
          exact (shape ▸ one).middle

/-- The wake-up loop leaves every waiter it has looked at blocked. -/
theorem wakeup_blockedBelow {queue : LockQueue} (one : OneRequestEach queue) (turns : Nat) :
    OneRequestEach ((List.range turns).foldl grantWaiting queue) ∧
      BlockedBelow ((List.range turns).foldl grantWaiting queue) turns := by
  induction turns with
  | zero => exact ⟨one, fun i bound => absurd bound (Nat.not_lt_zero _)⟩
  | succ turns ih =>
      rw [List.range_succ, List.foldl_append, List.foldl_cons, List.foldl_nil]
      exact ⟨ih.1.grantWaiting turns, grantWaiting_settles ih.1 ih.2⟩

theorem grantWaiting_length (queue : LockQueue) (k : Nat) :
    (grantWaiting queue k).length = queue.length := by
  rcases grantWaiting_cases queue k with same | ⟨before, req, after, shape, _, _, result⟩
  · rw [same]
  · rw [result, shape]
    simp

theorem wakeup_length (queue : LockQueue) (turns : List Nat) :
    (turns.foldl grantWaiting queue).length = queue.length := by
  induction turns generalizing queue with
  | nil => rfl
  | cons k turns ih => rw [List.foldl_cons, ih, grantWaiting_length]

/-- A release leaves every waiter in the queue blocked. -/
theorem QueueBlocked.release {queue : LockQueue} (blocked : QueueBlocked queue)
    (one : OneRequestEach queue) (txnId : Int32) : QueueBlocked (releaseInQueue queue txnId) := by
  unfold releaseInQueue
  dsimp only
  split
  · have kept : OneRequestEach (queue.filter fun req => req.txnId != txnId) :=
      one.sublist (List.filter_sublist.map _)
    intro req member waiting
    obtain ⟨i, bound, here⟩ := List.mem_iff_getElem.mp member
    have inRange := bound
    rw [wakeup_length] at inRange
    exact (wakeup_blockedBelow kept _).2 i inRange req
      (List.getElem?_eq_some_iff.mpr ⟨bound, here⟩) waiting
  · rename_i same
    have unchanged : (queue.filter fun req => req.txnId != txnId) = queue :=
      List.filter_sublist.eq_of_length_le (Nat.not_lt.mp same)
    rw [unchanged]
    exact blocked

/-- A release removes the requests of the transaction and keeps the locks of the others. -/
theorem releaseInQueue_keeps (queue : LockQueue) (txnId : Int32) :
    ReleasedFrom queue (releaseInQueue queue txnId) txnId := by
  refine @releaseInQueue_induction (fun next => ReleasedFrom queue next txnId) queue txnId ?_ ?_
  · refine ⟨fun req member => ?_, fun held member _ foreign => ?_⟩
    · simpa using (List.mem_filter.mp member).2
    · exact List.mem_filter.mpr ⟨member, by simpa using foreign⟩
  · rintro current k ⟨foreign, kept⟩
    rcases grantWaiting_cases current k with same | ⟨before, req, after, shape, waiting, _, result⟩
    · rw [same]
      exact ⟨foreign, kept⟩
    · subst shape
      rw [result]
      refine ⟨fun other member => ?_, fun held member granted owner => ?_⟩
      · rcases mem_middle.mp member with rfl | inRest
        · exact foreign req (mem_middle.mpr (.inl rfl))
        · exact foreign other (mem_middle.mpr (.inr inRest))
      · rcases mem_middle.mp (kept held member granted owner) with rfl | inRest
        · rw [waiting] at granted
          exact absurd granted (by simp)
        · exact mem_middle.mpr (.inr inRest)

/-! ## Runs -/

/-- What every run keeps as long as no weakening frees a waiter. -/
structure LockManager.Blocking (lm : LockManager) : Prop where
  one : ∀ resourceId, OneRequestEach (lm.queue resourceId)
  blocked : WaitersBlocked lm

theorem blocking_init : lockManagerInit.Blocking :=
  ⟨fun _ => List.nodup_nil, fun _ _ member => absurd member List.not_mem_nil⟩

/-- One call leaves every waiter blocked exactly when it weakens no lock that alone holds
a waiter back. -/
theorem lockStep_blocked_iff (lm : LockManager) (op : LockOp) (blocking : lm.Blocking) :
    WaitersBlocked (lockStep lm op) ↔ WeakeningsBlocked lm op := by
  cases op with
  | acquire txnId resourceId mode =>
      have exact_ := acquireInQueue_blocked_iff (blocking.one resourceId)
        (blocking.blocked resourceId) txnId mode
      change (∀ other, QueueBlocked ((lockAcquire lm txnId resourceId mode).1.queue other)) ↔
        WeakeningBlocked (lm.queue resourceId) txnId mode
      rw [← exact_]
      constructor
      · intro blocked
        have here := blocked resourceId
        rwa [queue_lockAcquire, if_pos rfl] at here
      · intro here other
        rw [queue_lockAcquire]
        split
        · exact here
        · exact blocking.blocked other
  | releaseAll txnId =>
      refine iff_of_true (fun resourceId => ?_) trivial
      unfold lockStep
      rw [queue_lockReleaseAll]
      exact (blocking.blocked resourceId).release (blocking.one resourceId) txnId

theorem releasesOnly (lm : LockManager) (op : LockOp) : ReleasesOnly lm op := by
  cases op with
  | acquire txnId resourceId mode => trivial
  | releaseAll txnId =>
      intro resourceId
      rw [queue_lockReleaseAll]
      exact releaseInQueue_keeps (lm.queue resourceId) txnId

theorem LockManager.Blocking.step (lm : LockManager) (op : LockOp) (blocking : lm.Blocking)
    (guarded : WeakeningsBlocked lm op) : (lockStep lm op).Blocking := by
  refine ⟨fun resourceId => ?_, (lockStep_blocked_iff lm op blocking).mpr guarded⟩
  cases op with
  | acquire txnId target mode =>
      unfold lockStep
      rw [queue_lockAcquire]
      split
      · exact (blocking.one target).acquire txnId mode
      · exact blocking.one resourceId
  | releaseAll txnId =>
      unfold lockStep
      rw [queue_lockReleaseAll]
      exact (blocking.one resourceId).release txnId

/-- In a run of a fresh lock manager, every waiting request is blocked in every state
reached, and releases do what they should, exactly when no call replaces the mode of a
held lock that alone holds a waiter back by one that admits the waiter. -/
theorem waitersBlocked_iff_weakeningsBlocked (ops : List LockOp) :
    EachStep lockStep (fun lm op => WaitersBlocked (lockStep lm op) ∧ ReleasesOnly lm op)
        lockManagerInit ops ↔
      EachStep lockStep WeakeningsBlocked lockManagerInit ops :=
  eachStep_iff (fun lm op (blocking : lm.Blocking) guarded => blocking.step lm op guarded)
    (fun lm op blocking => (and_iff_left (releasesOnly lm op)).trans
      (lockStep_blocked_iff lm op blocking)) ops blocking_init

/-- A holder of X asks for IS: the reader that waited for it now waits for nobody. -/
theorem weakening_strands_waiter :
    ¬ WaitersBlocked (run lockStep lockManagerInit
      [.acquire 1 7 .exclusive, .acquire 2 7 .shared, .acquire 1 7 .intentShared]) := by
  intro blocked
  have here := blocked 7
  revert here
  decide +kernel

end MiniSqlite.Transaction
