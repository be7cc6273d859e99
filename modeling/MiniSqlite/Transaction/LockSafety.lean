import MiniSqlite.Transaction.LockManager
import Mathlib.Order.Basic
import Mathlib.Order.Lattice

/-!
# What granted locks guarantee

Runs of a fresh lock manager under interleaved `lock_acquire` and
`lock_release_all`. Two guarantees are examined, each with the exact steps that
keep it: granted requests of different transactions are compatible
(`compatible_iff_upgradesCompatible`), and a granted lock covers every mode
acknowledged for it (`coverage_iff_requestsWithinFamily`). Both are lost on
the upgrade path of `lock_acquire`, which consults neither the other holders nor
the strength order.
-/

namespace MiniSqlite.Transaction

open MiniSqlite.Common MiniSqlite.Std

/-- A call to the lock manager. -/
inductive LockOp where
  | acquire (txnId resourceId : Int32) (mode : LockMode)
  | releaseAll (txnId : Int32)
  deriving DecidableEq, Repr

/-- The manager after one call. -/
def lockStep (lm : LockManager) : LockOp → LockManager
  | .acquire txnId resourceId mode => (lockAcquire lm txnId resourceId mode).1
  | .releaseAll txnId => lockReleaseAll lm txnId

/-! ## Compatibility of granted requests -/

/-- Granted requests of different transactions in a queue have compatible modes. -/
def QueueCompatible (queue : LockQueue) : Prop :=
  ∀ first ∈ queue, ∀ second ∈ queue, first.granted = true → second.granted = true →
    first.txnId ≠ second.txnId → lockCompatible first.mode second.mode = true

instance (queue : LockQueue) : Decidable (QueueCompatible queue) :=
  inferInstanceAs (Decidable (∀ first ∈ queue, ∀ second ∈ queue, _))

/-- `QueueCompatible` on every resource. -/
def GrantsCompatible (lm : LockManager) : Prop := ∀ resourceId, QueueCompatible (lm.queue resourceId)

/-- If `txnId` holds a lock in `queue` whose mode constant is below `mode`, every
other granted request there is compatible with `mode`. -/
def UpgradeCompatible (queue : LockQueue) (txnId : Int32) (mode : LockMode) : Prop :=
  ∀ held ∈ queue, held.txnId = txnId → held.granted = true → held.mode.toNat < mode.toNat →
    ∀ other ∈ queue, other.txnId ≠ txnId → other.granted = true →
      lockCompatible mode other.mode = true

/-- The call, if it is an upgrade, conflicts with no other holder. -/
def UpgradesCompatible (lm : LockManager) : LockOp → Prop
  | .acquire txnId resourceId mode => UpgradeCompatible (lm.queue resourceId) txnId mode
  | .releaseAll _ => True

/-- Replacing one request keeps a queue compatible exactly when its new mode, if
granted, is admitted by the others. -/
theorem queueCompatible_middle {before after : LockQueue} {req : LockRequest}
    (others : ∀ other ∈ before ++ after, other.txnId ≠ req.txnId) :
    QueueCompatible (before ++ req :: after) ↔
      QueueCompatible (before ++ after) ∧
        (req.granted = true → Admits (before ++ after) req.mode) := by
  have split : ∀ other, other ∈ before ++ req :: after ↔ other = req ∨ other ∈ before ++ after := by
    intro other
    simp only [List.mem_append, List.mem_cons]
    tauto
  constructor
  · intro compatible
    refine ⟨fun first firstMember second secondMember => ?_, fun granted other member => ?_⟩
    · exact compatible first ((split first).mpr (Or.inr firstMember)) second
        ((split second).mpr (Or.inr secondMember))
    · intro otherGranted
      exact compatible req ((split req).mpr (Or.inl rfl)) other
        ((split other).mpr (Or.inr member)) granted otherGranted (others other member).symm
  · rintro ⟨rest, admits⟩ first firstMember second secondMember firstGranted secondGranted differ
    rcases (split first).mp firstMember with rfl | inFirst
    · rcases (split second).mp secondMember with rfl | inSecond
      · exact absurd rfl differ
      · exact admits firstGranted second inSecond secondGranted
    · rcases (split second).mp secondMember with rfl | inSecond
      · rw [lockCompatible_comm]
        exact admits secondGranted first inFirst firstGranted
      · exact rest first inFirst second inSecond firstGranted secondGranted differ

/-- What holds of every queue as long as upgrades are compatible. -/
structure QueueSound (queue : LockQueue) : Prop where
  one : OneRequestEach queue
  compatible : QueueCompatible queue

/-- On a sound queue, acquiring keeps granted requests compatible exactly when
the call is not an incompatible upgrade. -/
theorem acquireInQueue_compatible_iff {queue : LockQueue} (sound : QueueSound queue)
    (txnId : Int32) (mode : LockMode) :
    QueueCompatible (acquireInQueue queue txnId mode).1 ↔ UpgradeCompatible queue txnId mode := by
  have one := sound.one.acquire txnId mode
  have outcome := acquireInQueue_cases queue txnId mode
  generalize (acquireInQueue queue txnId mode).1 = next at outcome one ⊢
  generalize (acquireInQueue queue txnId mode).2 = rc at outcome
  cases outcome with
  | fresh absent =>
      -- a fresh grant is checked against every holder, and no upgrade is involved
      have noUpgrade : UpgradeCompatible queue txnId mode :=
        fun held member owner => absurd owner (absent held member)
      refine iff_of_true ?_ noUpgrade
      rw [queueCompatible_middle one.middle]
      simpa using sound.compatible
  | @held before after held shape =>
      subst shape
      have others := sound.one.middle
      have before_ := (queueCompatible_middle others).mp sound.compatible
      rw [queueCompatible_middle one.middle]
      constructor
      · rintro ⟨_, admits⟩ req member owner _ larger other otherMember foreign granted
        have same : req = ⟨txnId, held, true⟩ := by
          by_contra differs
          have : req ∈ before ++ after := by simp at member ⊢; tauto
          exact others req this owner
        subst same
        have inRest : other ∈ before ++ after := by
          simp only [List.mem_append, List.mem_cons] at otherMember ⊢
          rcases otherMember with left | rfl | right
          · exact Or.inl left
          · exact absurd rfl foreign
          · exact Or.inr right
        simpa [larger] using admits rfl other inRest granted
      · intro upgrade
        refine ⟨before_.1, fun _ other member granted => ?_⟩
        by_cases larger : mode.toNat > held.toNat
        · simp only [if_pos larger]
          exact upgrade ⟨txnId, held, true⟩ (by simp) rfl rfl larger other
            (by simp at member ⊢; tauto) (others other member) granted
        · simp only [if_neg larger]
          exact before_.2 rfl other member granted
  | @waiting before after asked shape =>
      subst shape
      have others := sound.one.middle
      have noUpgrade : UpgradeCompatible (before ++ ⟨txnId, asked, false⟩ :: after) txnId mode := by
        intro held member owner granted
        have same : held = ⟨txnId, asked, false⟩ := by
          by_contra differs
          have : held ∈ before ++ after := by simp at member ⊢; tauto
          exact others held this owner
        rw [same] at granted
        exact absurd granted (by simp)
      refine iff_of_true ?_ noUpgrade
      rw [queueCompatible_middle one.middle]
      exact ⟨((queueCompatible_middle others).mp sound.compatible).1,
        fun granted => of_decide_eq_true granted⟩

theorem QueueSound.grantWaiting {queue : LockQueue} (sound : QueueSound queue) (k : Nat) :
    QueueSound (grantWaiting queue k) := by
  refine ⟨sound.one.grantWaiting k, ?_⟩
  rcases grantWaiting_cases queue k with same | ⟨before, req, after, shape, _, admits, result⟩
  · rw [same]
    exact sound.compatible
  · have others := (shape ▸ sound.one).middle
    have rest := ((queueCompatible_middle others).mp (shape ▸ sound.compatible)).1
    rw [result]
    exact (@queueCompatible_middle _ _ { req with granted := true } others).mpr
      ⟨rest, fun _ => admits⟩

theorem QueueSound.release {queue : LockQueue} (sound : QueueSound queue) (txnId : Int32) :
    QueueSound (releaseInQueue queue txnId) := by
  apply releaseInQueue_induction
  · refine ⟨sound.one.sublist (List.filter_sublist.map _), ?_⟩
    intro first firstMember second secondMember
    exact sound.compatible first (List.mem_of_mem_filter firstMember) second
      (List.mem_of_mem_filter secondMember)
  · exact fun current k holds => holds.grantWaiting k

/-- `QueueSound` on every resource. -/
def LockManager.Sound (lm : LockManager) : Prop := ∀ resourceId, QueueSound (lm.queue resourceId)

theorem sound_init : lockManagerInit.Sound :=
  fun _ => ⟨List.nodup_nil, fun _ member => absurd member List.not_mem_nil⟩

/-- One call in a sound state leaves the grants compatible exactly when it is not
an incompatible upgrade. -/
theorem lockStep_compatible_iff (lm : LockManager) (op : LockOp) (sound : lm.Sound) :
    GrantsCompatible (lockStep lm op) ↔ UpgradesCompatible lm op := by
  cases op with
  | acquire txnId resourceId mode =>
      have exact_ := acquireInQueue_compatible_iff (sound resourceId) txnId mode
      change (∀ other, QueueCompatible ((lockAcquire lm txnId resourceId mode).1.queue other)) ↔
        UpgradeCompatible (lm.queue resourceId) txnId mode
      rw [← exact_]
      constructor
      · intro compatible
        have here := compatible resourceId
        rwa [queue_lockAcquire, if_pos rfl] at here
      · intro here other
        rw [queue_lockAcquire]
        split
        · exact here
        · exact (sound other).compatible
  | releaseAll txnId =>
      refine iff_of_true (fun resourceId => ?_) trivial
      unfold lockStep
      rw [queue_lockReleaseAll]
      exact ((sound resourceId).release txnId).compatible

theorem LockManager.Sound.step (lm : LockManager) (op : LockOp) (sound : lm.Sound)
    (guarded : UpgradesCompatible lm op) : (lockStep lm op).Sound := by
  have compatible := (lockStep_compatible_iff lm op sound).mpr guarded
  intro resourceId
  refine ⟨?_, compatible resourceId⟩
  cases op with
  | acquire txnId target mode =>
      unfold lockStep
      rw [queue_lockAcquire]
      split
      · exact (sound target).one.acquire txnId mode
      · exact (sound resourceId).one
  | releaseAll txnId =>
      unfold lockStep
      rw [queue_lockReleaseAll]
      exact (sound resourceId).one.release txnId

/-- In a run of a fresh lock manager, all granted requests of different
transactions are compatible in every state reached exactly when every call that
upgrades a held lock asks for a mode compatible with all other holders. -/
theorem compatible_iff_upgradesCompatible (ops : List LockOp) :
    EachStep lockStep (fun lm op => GrantsCompatible (lockStep lm op)) lockManagerInit ops ↔
      EachStep lockStep UpgradesCompatible lockManagerInit ops :=
  eachStep_iff (fun lm op (sound : lm.Sound) guarded => sound.step lm op guarded)
    (fun lm op sound => lockStep_compatible_iff lm op sound) ops sound_init

/-- Two transactions share a resource and one of them upgrades to X: both are
granted, S next to X. -/
theorem upgrade_ignores_other_holder :
    ¬ GrantsCompatible (run lockStep lockManagerInit
      [.acquire 1 7 .shared, .acquire 2 7 .shared, .acquire 1 7 .exclusive]) := by
  intro compatible
  have here := compatible 7
  revert here
  decide +kernel

/-! ## Coverage of acknowledged modes -/

/-- What a mode lets its holder do to the resource as a whole: read it, write it. -/
def LockMode.rights : LockMode → Bool × Bool
  | .intentShared => (false, false)
  | .shared => (true, false)
  | .intentExclusive => (false, true)
  | .exclusive => (true, true)

theorem LockMode.rights_injective : Function.Injective LockMode.rights := by
  intro first second equal
  cases first <;> cases second <;> first | rfl | simp [LockMode.rights] at equal

/-- Modes by strength: IS below S and IX, both below X. -/
instance : PartialOrder LockMode := PartialOrder.lift LockMode.rights LockMode.rights_injective

instance (first second : LockMode) : Decidable (first ≤ second) :=
  inferInstanceAs (Decidable (first.rights ≤ second.rights))

/-- S and X, or IS and IX. Inside a family the constants are ordered by strength. -/
def LockMode.sameFamily (first second : LockMode) : Prop := first.toNat / 2 = second.toNat / 2

instance (first second : LockMode) : Decidable (first.sameFamily second) :=
  inferInstanceAs (Decidable (_ = _))

/-- The mode the re-acquire path leaves in place is at least the held and the
requested mode exactly when the two belong to one family. -/
theorem reacquire_covers_iff (held mode : LockMode) :
    (held ≤ (if mode.toNat > held.toNat then mode else held) ∧
      mode ≤ (if mode.toNat > held.toNat then mode else held)) ↔ held.sameFamily mode := by
  cases held <;> cases mode <;> decide

/-- A lock manager with, for each transaction and resource, the modes for which
the transaction has received `DB_OK` since its last `lock_release_all`. -/
structure LockSession where
  manager : LockManager
  acknowledged : Int32 → Int32 → List LockMode

/-- A fresh manager, nothing acknowledged. -/
def lockSessionInit : LockSession := ⟨lockManagerInit, fun _ _ => []⟩

/-- One call, with its acknowledgement recorded. -/
def sessionStep (session : LockSession) (op : LockOp) : LockSession where
  manager := lockStep session.manager op
  acknowledged :=
    match op with
    | .acquire txnId resourceId mode => fun txn res =>
        if txn = txnId ∧ res = resourceId ∧
            (lockAcquire session.manager txnId resourceId mode).2 = .ok then
          mode :: session.acknowledged txn res
        else session.acknowledged txn res
    | .releaseAll txnId => fun txn res =>
        if txn = txnId then [] else session.acknowledged txn res

/-- `queue` records `txnId` as holding a mode at least as strong as `mode`. -/
def Holds (queue : LockQueue) (txnId : Int32) (mode : LockMode) : Prop :=
  ∃ req ∈ queue, req.txnId = txnId ∧ req.granted = true ∧ mode ≤ req.mode

/-- Every acknowledged mode is covered by the lock recorded for it. -/
def AcknowledgedHeld (session : LockSession) : Prop :=
  ∀ txnId resourceId, ∀ mode ∈ session.acknowledged txnId resourceId,
    Holds (session.manager.queue resourceId) txnId mode

/-- The call weakens no held lock, releases by the transaction itself apart. -/
def HeldKept (session : LockSession) (op : LockOp) : Prop :=
  ∀ resourceId, ∀ held ∈ session.manager.queue resourceId, held.granted = true →
    op ≠ .releaseAll held.txnId →
      Holds ((sessionStep session op).manager.queue resourceId) held.txnId held.mode

/-- A re-request of a held lock stays within the family of the held mode. -/
def RequestsWithinFamily (session : LockSession) : LockOp → Prop
  | .acquire txnId resourceId mode =>
      ∀ held ∈ session.manager.queue resourceId, held.txnId = txnId → held.granted = true →
        held.mode.sameFamily mode
  | .releaseAll _ => True

theorem Holds.weaken {queue : LockQueue} {txnId : Int32} {strong weak : LockMode}
    (holds : Holds queue txnId strong) (below : weak ≤ strong) : Holds queue txnId weak := by
  obtain ⟨req, member, owner, granted, covers⟩ := holds
  exact ⟨req, member, owner, granted, below.trans covers⟩

/-- Holding through the only request a transaction has is about that request. -/
theorem holds_middle {before after : LockQueue} {req : LockRequest} {mode : LockMode}
    (others : ∀ other ∈ before ++ after, other.txnId ≠ req.txnId) :
    Holds (before ++ req :: after) req.txnId mode ↔ req.granted = true ∧ mode ≤ req.mode := by
  constructor
  · rintro ⟨found, member, owner, granted, covers⟩
    have same : found = req := by
      by_contra differs
      have : found ∈ before ++ after := by simp at member ⊢; tauto
      exact others found this owner
    subst same
    exact ⟨granted, covers⟩
  · rintro ⟨granted, covers⟩
    exact ⟨req, by simp, rfl, granted, covers⟩

/-- Another transaction's lock does not depend on what is put in the middle. -/
theorem holds_middle_other {before after : LockQueue} {req : LockRequest} {txnId : Int32}
    {mode : LockMode} (foreign : txnId ≠ req.txnId) :
    Holds (before ++ req :: after) txnId mode ↔ Holds (before ++ after) txnId mode := by
  constructor
  · rintro ⟨found, member, owner, rest⟩
    refine ⟨found, ?_, owner, rest⟩
    simp only [List.mem_append, List.mem_cons] at member ⊢
    rcases member with left | rfl | right
    · exact Or.inl left
    · exact absurd owner.symm foreign
    · exact Or.inr right
  · rintro ⟨found, member, owner, rest⟩
    refine ⟨found, ?_, owner, rest⟩
    simp only [List.mem_append, List.mem_cons] at member ⊢
    tauto

/-- Acquiring leaves the locks of other transactions as they were. -/
theorem acquireInQueue_holds_other (queue : LockQueue) {txnId other : Int32}
    (mode weak : LockMode) (foreign : other ≠ txnId) :
    Holds (acquireInQueue queue txnId mode).1 other weak ↔ Holds queue other weak := by
  have outcome := acquireInQueue_cases queue txnId mode
  generalize (acquireInQueue queue txnId mode).1 = next at outcome ⊢
  generalize (acquireInQueue queue txnId mode).2 = rc at outcome
  cases outcome with
  | fresh absent =>
      rw [holds_middle_other (by exact foreign), List.append_nil]
  | held shape =>
      subst shape
      rw [holds_middle_other (by exact foreign), holds_middle_other (by exact foreign)]
  | waiting shape =>
      subst shape
      rw [holds_middle_other (by exact foreign), holds_middle_other (by exact foreign)]

/-- Re-requesting a held lock succeeds and leaves the larger of the two constants. -/
theorem acquireInQueue_held {queue : LockQueue} (one : OneRequestEach queue) {held : LockRequest}
    (member : held ∈ queue) (granted : held.granted = true) (mode : LockMode) :
    (acquireInQueue queue held.txnId mode).2 = .ok ∧
      ∀ weak, Holds (acquireInQueue queue held.txnId mode).1 held.txnId weak ↔
        weak ≤ if mode.toNat > held.mode.toNat then mode else held.mode := by
  have next_one := one.acquire held.txnId mode
  have outcome := acquireInQueue_cases queue held.txnId mode
  generalize (acquireInQueue queue held.txnId mode).1 = next at outcome next_one ⊢
  generalize (acquireInQueue queue held.txnId mode).2 = rc at outcome ⊢
  have only : ∀ {before after : LockQueue} {req : LockRequest},
      queue = before ++ req :: after → req.txnId = held.txnId → held = req := by
    intro before after req shape owner
    subst shape
    by_contra differs
    have inRest : held ∈ before ++ after := by simp at member ⊢; tauto
    exact one.middle held inRest owner.symm
  cases outcome with
  | fresh absent => exact absurd rfl (absent held member)
  | @held before after mode' shape =>
      have same := only shape rfl
      refine ⟨rfl, fun weak => ?_⟩
      rw [holds_middle next_one.middle]
      have modeEq : held.mode = mode' := by rw [same]
      simp [modeEq]
  | @waiting before after asked shape =>
      have same := only shape rfl
      rw [same] at granted
      exact absurd granted (by simp)

/-- An acknowledged request of a transaction that held nothing is held as asked. -/
theorem acquireInQueue_unheld {queue : LockQueue} (one : OneRequestEach queue) {txnId : Int32}
    (unheld : ∀ req ∈ queue, req.txnId = txnId → req.granted = false) (mode : LockMode)
    (acknowledged : (acquireInQueue queue txnId mode).2 = .ok) :
    Holds (acquireInQueue queue txnId mode).1 txnId mode := by
  have next_one := one.acquire txnId mode
  have outcome := acquireInQueue_cases queue txnId mode
  generalize (acquireInQueue queue txnId mode).1 = next at outcome next_one ⊢
  generalize (acquireInQueue queue txnId mode).2 = rc at outcome acknowledged
  cases outcome with
  | fresh absent =>
      rw [holds_middle next_one.middle]
      by_cases admits : Admits queue mode
      · simp [admits]
      · simp [admits] at acknowledged
  | @held before after held shape =>
      have := unheld ⟨txnId, held, true⟩ (by simp [shape]) rfl
      exact absurd this (by simp)
  | @waiting before after asked shape =>
      rw [holds_middle next_one.middle]
      by_cases admits : Admits (before ++ after) mode
      · simp [admits]
      · simp [admits] at acknowledged

theorem Holds.release {queue : LockQueue} {txnId other : Int32} {mode : LockMode}
    (holds : Holds queue other mode) (foreign : other ≠ txnId) :
    Holds (releaseInQueue queue txnId) other mode := by
  apply @releaseInQueue_induction fun queue => Holds queue other mode
  · obtain ⟨req, member, owner, rest⟩ := holds
    exact ⟨req, by simp [member, owner, foreign], owner, rest⟩
  · intro current k before_
    rcases grantWaiting_cases current k with same | ⟨before, req, after, shape, waiting, _, result⟩
    · rwa [same]
    · rw [result]
      obtain ⟨found, member, owner, granted, covers⟩ := before_
      refine ⟨found, ?_, owner, granted, covers⟩
      rw [shape] at member
      simp only [List.mem_append, List.mem_cons] at member ⊢
      rcases member with left | rfl | right
      · exact Or.inl left
      · rw [waiting] at granted
        exact absurd granted (by simp)
      · exact Or.inr (Or.inr right)

/-- What holds in every state of a run whose re-requests stay within families. -/
structure LockSession.Sound (session : LockSession) : Prop where
  one : ∀ resourceId, OneRequestEach (session.manager.queue resourceId)
  held : AcknowledgedHeld session

theorem session_sound_init : lockSessionInit.Sound :=
  ⟨fun _ => List.nodup_nil, fun _ _ _ member => absurd member List.not_mem_nil⟩

theorem LockSession.Sound.oneRequestEach_step {session : LockSession} (sound : session.Sound)
    (op : LockOp) (resourceId : Int32) :
    OneRequestEach ((sessionStep session op).manager.queue resourceId) := by
  cases op with
  | acquire txnId target mode =>
      unfold sessionStep lockStep
      dsimp only
      rw [queue_lockAcquire]
      split
      · exact (sound.one target).acquire txnId mode
      · exact sound.one resourceId
  | releaseAll txnId =>
      unfold sessionStep lockStep
      dsimp only
      rw [queue_lockReleaseAll]
      exact (sound.one resourceId).release txnId

/-- A release forgets the releasing transaction and keeps every other lock. -/
theorem releaseAll_keeps {session : LockSession} (sound : session.Sound) (txnId : Int32) :
    AcknowledgedHeld (sessionStep session (.releaseAll txnId)) ∧
      HeldKept session (.releaseAll txnId) := by
  constructor
  · intro txn resourceId mode member
    simp only [sessionStep] at member
    split at member
    · simp at member
    · rename_i foreign
      simp only [sessionStep, lockStep, queue_lockReleaseAll]
      exact (sound.held txn resourceId mode member).release foreign
  · intro resourceId held member granted foreign
    simp only [sessionStep, lockStep, queue_lockReleaseAll]
    have holds : Holds (session.manager.queue resourceId) held.txnId held.mode :=
      ⟨held, member, rfl, granted, le_rfl⟩
    exact holds.release fun same => foreign (by rw [same])

/-- Acquiring keeps and acknowledges only covered modes when the re-request, if
it is one, stays within the held mode's family. -/
theorem acquire_keeps {session : LockSession} (sound : session.Sound)
    (txnId resourceId : Int32) (mode : LockMode)
    (family : RequestsWithinFamily session (.acquire txnId resourceId mode)) :
    AcknowledgedHeld (sessionStep session (.acquire txnId resourceId mode)) ∧
      HeldKept session (.acquire txnId resourceId mode) := by
  have one := sound.one resourceId
  -- every lock held before is still held at least as strongly
  have kept : ∀ txn res weak, Holds (session.manager.queue res) txn weak →
      Holds ((lockAcquire session.manager txnId resourceId mode).1.queue res) txn weak := by
    intro txn res weak holds
    rw [queue_lockAcquire]
    split
    · rename_i here
      subst here
      by_cases own : txn = txnId
      · obtain ⟨req, member, owner, granted, covers⟩ := holds
        have exact_ := (acquireInQueue_held one member granted mode).2 weak
        rw [owner, own] at exact_
        rw [own, exact_]
        exact covers.trans ((reacquire_covers_iff req.mode mode).mpr
          (family req member (owner.trans own) granted)).1
      · exact (acquireInQueue_holds_other _ mode weak own).mpr holds
    · exact holds
  constructor
  · intro txn res weak member
    simp only [sessionStep] at member
    split at member
    · rename_i acknowledged
      obtain ⟨rfl, rfl, ok⟩ := acknowledged
      rcases List.mem_cons.mp member with rfl | earlier
      · simp only [sessionStep, lockStep]
        by_cases holding : ∃ req ∈ session.manager.queue res, req.txnId = txn ∧ req.granted = true
        · obtain ⟨req, found, owner, granted⟩ := holding
          rw [queue_lockAcquire, if_pos rfl]
          have exact_ := (acquireInQueue_held one found granted weak).2 weak
          rw [owner] at exact_
          rw [exact_]
          exact ((reacquire_covers_iff req.mode weak).mpr (family req found owner granted)).2
        · rw [queue_lockAcquire, if_pos rfl]
          rw [lockAcquire_result] at ok
          refine acquireInQueue_unheld one (fun req found owner => ?_) weak ok
          by_contra granted
          rw [Bool.not_eq_false] at granted
          exact holding ⟨req, found, owner, granted⟩
      · exact kept _ _ _ (sound.held _ _ _ earlier)
    · exact kept _ _ _ (sound.held _ _ _ member)
  · intro res held member granted _
    exact kept _ _ _ ⟨held, member, rfl, granted, le_rfl⟩

/-- A re-request outside the held mode's family weakens the lock or acknowledges
a mode it does not cover. -/
theorem acquire_outside_family {session : LockSession} (sound : session.Sound)
    (txnId resourceId : Int32) (mode : LockMode)
    (covered : AcknowledgedHeld (sessionStep session (.acquire txnId resourceId mode)))
    (kept : HeldKept session (.acquire txnId resourceId mode)) :
    RequestsWithinFamily session (.acquire txnId resourceId mode) := by
  intro held member owner granted
  subst owner
  obtain ⟨ok, exact_⟩ := acquireInQueue_held (sound.one resourceId) member granted mode
  rw [← reacquire_covers_iff, ← exact_, ← exact_]
  constructor
  · have := kept resourceId held member granted (by simp)
    simpa only [sessionStep, lockStep, queue_lockAcquire, if_true] using this
  · have acknowledged : mode ∈
        (sessionStep session (.acquire held.txnId resourceId mode)).acknowledged held.txnId
          resourceId := by
      simp [sessionStep, lockAcquire_result, ok]
    have := covered _ _ _ acknowledged
    simpa only [sessionStep, lockStep, queue_lockAcquire, if_true] using this

/-- One call in a sound state keeps every lock at least as strong as it was and
as was acknowledged exactly when a re-request stays within its family. -/
theorem sessionStep_keeps_iff (session : LockSession) (op : LockOp) (sound : session.Sound) :
    AcknowledgedHeld (sessionStep session op) ∧ HeldKept session op ↔
      RequestsWithinFamily session op := by
  cases op with
  | acquire txnId resourceId mode =>
      exact ⟨fun ⟨covered, kept⟩ => acquire_outside_family sound txnId resourceId mode covered kept,
        acquire_keeps sound txnId resourceId mode⟩
  | releaseAll txnId => exact iff_of_true (releaseAll_keeps sound txnId) trivial

/-- In a run of a fresh lock manager, every granted lock stays at least as
strong as it was and covers every mode acknowledged for it exactly when each
re-request of a held lock names a mode of the held mode's family, S with X or IS
with IX. -/
theorem coverage_iff_requestsWithinFamily (ops : List LockOp) :
    EachStep sessionStep
        (fun session op => AcknowledgedHeld (sessionStep session op) ∧ HeldKept session op)
        lockSessionInit ops ↔
      EachStep sessionStep RequestsWithinFamily lockSessionInit ops :=
  eachStep_iff (fun session op (sound : session.Sound) guarded => ⟨sound.oneRequestEach_step op,
      ((sessionStep_keeps_iff session op sound).mpr guarded).1⟩)
    (fun session op sound => sessionStep_keeps_iff session op sound) ops session_sound_init

/-- A transaction that holds X and asks for IS is left with IS. -/
theorem reacquire_weakens_exclusive :
    ¬ AcknowledgedHeld (run sessionStep lockSessionInit
      [.acquire 1 7 .exclusive, .acquire 1 7 .intentShared]) := by
  intro covered
  obtain ⟨req, member, _, _, covers⟩ := covered 1 7 .exclusive (by decide +kernel)
  have only : ∀ req ∈ (run sessionStep lockSessionInit
      [.acquire 1 7 .exclusive, .acquire 1 7 .intentShared]).manager.queue 7,
      ¬ LockMode.exclusive ≤ req.mode := by decide +kernel
  exact only req member covers

end MiniSqlite.Transaction
