import MiniSqlite.Common.Error
import MiniSqlite.Common.Hashmap
import MiniSqlite.Std.Run
import Mathlib.Data.List.Nodup

/-!
# The lock manager

`transaction/lock_manager.c`. A resource's queue is the list of its requests in
arrival order, granted and waiting alike; the manager maps resource ids to
queues. `acquireInQueue_cases` and `grantWaiting_cases` say once what a call can
do to a queue, and everything later is read off those two lemmas.

Null arguments and allocation failure are left out.
-/

namespace MiniSqlite.Transaction

open MiniSqlite.Common MiniSqlite.Std

/-- `lock_mode_t`. -/
inductive LockMode where
  | shared
  | exclusive
  | intentShared
  | intentExclusive
  deriving DecidableEq, Repr

/-- The enumerator's value, which is what `>` compares in `lock_acquire`. -/
def LockMode.toNat : LockMode → Nat
  | .shared => 0
  | .exclusive => 1
  | .intentShared => 2
  | .intentExclusive => 3

/-- `compat_matrix`, rows and columns in the order S, X, IS, IX. -/
def compatMatrix : List (List Nat) :=
  [[1, 0, 1, 0],
   [0, 0, 0, 0],
   [1, 0, 1, 1],
   [0, 0, 1, 1]]

/-- `lock_compatible`. -/
def lockCompatible (a b : LockMode) : Bool :=
  (compatMatrix.getD a.toNat []).getD b.toNat 0 != 0

theorem lockCompatible_comm (a b : LockMode) : lockCompatible a b = lockCompatible b a := by
  cases a <;> cases b <;> rfl

/-- `lock_request_t`. -/
structure LockRequest where
  txnId : Int32
  mode : LockMode
  granted : Bool
  deriving DecidableEq, Repr

/-- `lock_queue_t`: the first `request_count` elements of `requests`. -/
abbrev LockQueue := List LockRequest

/-- `int_hash_fn` on a resource id widened to `uintptr_t`. The cast is injective,
so resource ids themselves serve as keys. -/
def intHashFn (resourceId : Int32) : Nat :=
  (resourceId.toInt64.toUInt64 * 2654435761).toNat

/-- `int_hash_fn` and `int_equal_fn`. -/
def resourceKey : HashKey Int32 := .ofEq intHashFn

/-- `lock_manager_t`. -/
structure LockManager where
  lockTable : Hashmap resourceKey LockQueue

/-- `lock_manager_init`. -/
def lockManagerInit : LockManager := ⟨.hashmapInit resourceKey LockQueue 64⟩

/-! ## Acquiring -/

/-- No granted request other than the `i`-th conflicts with `mode`. -/
def compatibleWithOthers (queue : LockQueue) (i : Nat) (mode : LockMode) : Bool :=
  queue.zipIdx.all fun (req, j) => j == i || !req.granted || lockCompatible mode req.mode

/-- The body of `lock_acquire` once the queue is found. -/
def acquireInQueue (queue : LockQueue) (txnId : Int32) (mode : LockMode) :
    LockQueue × ErrorCode :=
  let i := queue.findIdx fun req => req.txnId == txnId
  if found : i < queue.length then
    let req := queue[i]
    if req.granted then
      -- already granted: upgrade if the requested constant is the larger one
      if mode.toNat > req.mode.toNat then (queue.set i { req with mode }, .ok)
      else (queue, .ok)
    else if compatibleWithOthers queue i mode then
      (queue.set i { req with mode, granted := true }, .ok)
    else
      (queue.set i { req with mode }, .lockConflict)
  else
    let compatible := queue.all fun req => !req.granted || lockCompatible mode req.mode
    (queue ++ [⟨txnId, mode, compatible⟩], if compatible then .ok else .lockConflict)

/-- `find_or_create_queue`. -/
def findOrCreateQueue (lm : LockManager) (resourceId : Int32) : LockManager × LockQueue :=
  match lm.lockTable.hashmapGet resourceId with
  | some queue => (lm, queue)
  | none => (⟨lm.lockTable.hashmapPut resourceId []⟩, [])

/-- `lock_acquire`. The queue is updated through its pointer, which is an
overwrite of the value stored under the resource id. -/
def lockAcquire (lm : LockManager) (txnId resourceId : Int32) (mode : LockMode) :
    LockManager × ErrorCode :=
  let (lm, queue) := findOrCreateQueue lm resourceId
  let (queue, rc) := acquireInQueue queue txnId mode
  (⟨lm.lockTable.hashmapPut resourceId queue⟩, rc)

/-! ## Releasing -/

/-- One turn of the wake-up loop of `lock_release_all`. -/
def grantWaiting (queue : LockQueue) (k : Nat) : LockQueue :=
  match queue[k]? with
  | none => queue
  | some req =>
      if req.granted then queue
      else if compatibleWithOthers queue k req.mode then
        queue.set k { req with granted := true }
      else queue

/-- What `lock_release_all` does to one queue: shift out every request of the
transaction and, if there was one, try to grant the waiting requests in order. -/
def releaseInQueue (queue : LockQueue) (txnId : Int32) : LockQueue :=
  let kept := queue.filter fun req => req.txnId != txnId
  if kept.length < queue.length then (List.range kept.length).foldl grantWaiting kept
  else kept

/-- `lock_release_all`: collect the resource ids, then process each queue. -/
def lockReleaseAll (lm : LockManager) (txnId : Int32) : LockManager :=
  let resIds := (lm.lockTable.drain (lm.lockTable.size + 1) Hashmap.iterInit).map Prod.fst
  resIds.foldl
    (fun lm resId =>
      match lm.lockTable.hashmapGet resId with
      | none => lm
      | some queue => ⟨lm.lockTable.hashmapPut resId (releaseInQueue queue txnId)⟩)
    lm

/-! ## Per-resource view -/

/-- The requests on a resource; a resource never asked for has none. -/
def LockManager.queue (lm : LockManager) (resourceId : Int32) : LockQueue :=
  (lm.lockTable.hashmapGet resourceId).getD []

@[simp] theorem queue_init (resourceId : Int32) : lockManagerInit.queue resourceId = [] := rfl

theorem queue_put (lm : LockManager) (resourceId other : Int32) (queue : LockQueue) :
    (LockManager.mk (lm.lockTable.hashmapPut resourceId queue)).queue other =
      if resourceId = other then queue else lm.queue other := by
  unfold LockManager.queue
  rw [Hashmap.hashmapGet_put]
  by_cases same : resourceId = other <;> simp [resourceKey, same]

theorem findOrCreateQueue_spec (lm : LockManager) (resourceId : Int32) :
    (findOrCreateQueue lm resourceId).2 = lm.queue resourceId ∧
      ∀ other, (findOrCreateQueue lm resourceId).1.queue other = lm.queue other := by
  unfold findOrCreateQueue
  cases found : lm.lockTable.hashmapGet resourceId with
  | some queue => simp [LockManager.queue, found]
  | none =>
      have empty : lm.queue resourceId = [] := by simp [LockManager.queue, found]
      refine ⟨empty.symm, fun other => ?_⟩
      rw [queue_put]
      split
      · rename_i same
        rw [← same, empty]
      · rfl

/-- `lock_acquire` works on the queue of its own resource only. -/
theorem queue_lockAcquire (lm : LockManager) (txnId resourceId other : Int32)
    (mode : LockMode) :
    (lockAcquire lm txnId resourceId mode).1.queue other =
      if resourceId = other then (acquireInQueue (lm.queue resourceId) txnId mode).1
      else lm.queue other := by
  obtain ⟨found, others⟩ := findOrCreateQueue_spec lm resourceId
  unfold lockAcquire
  dsimp only
  rw [queue_put, found, others]

theorem lockAcquire_result (lm : LockManager) (txnId resourceId : Int32) (mode : LockMode) :
    (lockAcquire lm txnId resourceId mode).2 =
      (acquireInQueue (lm.queue resourceId) txnId mode).2 := by
  unfold lockAcquire
  dsimp only
  rw [(findOrCreateQueue_spec lm resourceId).1]

@[simp] theorem releaseInQueue_nil (txnId : Int32) : releaseInQueue [] txnId = [] := rfl

private theorem queue_releaseFold (txnId other : Int32) (resIds : List Int32)
    (distinct : resIds.Nodup) (lm : LockManager) :
    (resIds.foldl
      (fun lm resId =>
        match lm.lockTable.hashmapGet resId with
        | none => lm
        | some queue => ⟨lm.lockTable.hashmapPut resId (releaseInQueue queue txnId)⟩)
      lm).queue other =
      if other ∈ resIds then releaseInQueue (lm.queue other) txnId else lm.queue other := by
  induction resIds generalizing lm with
  | nil => simp
  | cons resId resIds ih =>
      rw [List.nodup_cons] at distinct
      rw [List.foldl_cons, ih distinct.2]
      cases found : lm.lockTable.hashmapGet resId with
      | none =>
          by_cases same : other = resId
          · subst same
            have empty : lm.queue other = [] := by simp [LockManager.queue, found]
            simp [distinct.1, empty]
          · simp [same]
      | some queue =>
          dsimp only
          rw [queue_put]
          by_cases same : other = resId
          · subst same
            have here : lm.queue other = queue := by simp [LockManager.queue, found]
            simp [distinct.1, here]
          · simp [same, Ne.symm same]

/-- `lock_release_all` processes every resource's queue. -/
theorem queue_lockReleaseAll (lm : LockManager) (txnId other : Int32) :
    (lockReleaseAll lm txnId).queue other = releaseInQueue (lm.queue other) txnId := by
  unfold lockReleaseAll
  dsimp only
  rw [Hashmap.drain_eq_entries, queue_releaseFold]
  · split
    · rfl
    · rename_i absent
      have empty : lm.queue other = [] := by
        unfold LockManager.queue
        cases found : lm.lockTable.hashmapGet other with
        | none => rfl
        | some queue =>
            obtain ⟨entry, member, equal, _⟩ := Hashmap.exists_mem_of_hashmapGet found
            have key : entry.1 = other := of_decide_eq_true equal
            exact absurd (List.mem_map.mpr ⟨entry, member, key⟩) absent
      rw [empty, releaseInQueue_nil]
  · rw [List.Nodup, List.pairwise_map]
    exact lm.lockTable.entries_pairwise.imp fun differs => of_decide_eq_false differs

/-! ## What a call can do to a queue -/

/-- Every granted request in `queue` is compatible with `mode`. -/
def Admits (queue : LockQueue) (mode : LockMode) : Prop :=
  ∀ req ∈ queue, req.granted = true → lockCompatible mode req.mode = true

instance (queue : LockQueue) (mode : LockMode) : Decidable (Admits queue mode) :=
  inferInstanceAs (Decidable (∀ req ∈ queue, _))

theorem all_iff_admits (queue : LockQueue) (mode : LockMode) :
    (queue.all fun req => !req.granted || lockCompatible mode req.mode) =
      decide (Admits queue mode) := by
  rw [Bool.eq_iff_iff, List.all_eq_true, decide_eq_true_iff]
  unfold Admits
  refine forall₂_congr fun req _ => ?_
  cases req.granted <;> simp

theorem compatibleWithOthers_split (before after : LockQueue) (req : LockRequest)
    (mode : LockMode) :
    compatibleWithOthers (before ++ req :: after) before.length mode =
      decide (Admits (before ++ after) mode) := by
  rw [← all_iff_admits, Bool.eq_iff_iff]
  unfold compatibleWithOthers
  rw [List.all_eq_true, List.all_eq_true]
  simp only [Prod.forall, List.mem_zipIdx_iff_getElem?]
  constructor
  · intro compatible other member
    rcases List.mem_append.mp member with inBefore | inAfter
    · obtain ⟨j, bound, rfl⟩ := List.mem_iff_getElem.mp inBefore
      have := compatible before[j] j (by rw [List.getElem?_append_left bound]; simp)
      have differs : (j == before.length) = false := by simp; omega
      simpa [differs] using this
    · obtain ⟨j, bound, rfl⟩ := List.mem_iff_getElem.mp inAfter
      have := compatible after[j] (before.length + (j + 1)) (by
        rw [List.getElem?_append_right (by omega)]
        simp [bound])
      have differs : (before.length + (j + 1) == before.length) = false := by simp
      simpa [differs] using this
  · intro compatible other j found
    by_cases same : j = before.length
    · simp [same]
    · have member : other ∈ before ++ after := by
        rw [List.mem_append]
        by_cases left : j < before.length
        · rw [List.getElem?_append_left left] at found
          exact Or.inl (List.mem_of_getElem? found)
        · rw [List.getElem?_append_right (by omega)] at found
          obtain ⟨k, kEq⟩ : ∃ k, j - before.length = k + 1 := ⟨j - before.length - 1, by omega⟩
          rw [kEq, List.getElem?_cons_succ] at found
          exact Or.inr (List.mem_of_getElem? found)
      have := compatible other member
      simp [same] at this ⊢
      exact this

/-- No transaction has two requests in a queue. -/
def OneRequestEach (queue : LockQueue) : Prop := (queue.map LockRequest.txnId).Nodup

theorem OneRequestEach.middle {before after : LockQueue} {req : LockRequest}
    (one : OneRequestEach (before ++ req :: after)) :
    ∀ other ∈ before ++ after, other.txnId ≠ req.txnId := by
  unfold OneRequestEach at one
  rw [List.map_append, List.map_cons, List.nodup_middle, List.nodup_cons, ← List.map_append] at one
  intro other member same
  exact one.1 (List.mem_map.mpr ⟨other, member, same⟩)

theorem OneRequestEach.replace {before after : LockQueue} {req changed : LockRequest}
    (one : OneRequestEach (before ++ req :: after)) (same : changed.txnId = req.txnId) :
    OneRequestEach (before ++ changed :: after) := by
  unfold OneRequestEach at *
  simpa [same] using one

/-- Everything `lock_acquire` can do to the queue: append a request of a new
transaction, or rewrite the request the transaction already has there, which is
granted or waiting. -/
inductive Acquired (queue : LockQueue) (txnId : Int32) (mode : LockMode) :
    LockQueue → ErrorCode → Prop where
  | fresh (absent : ∀ req ∈ queue, req.txnId ≠ txnId) :
      Acquired queue txnId mode
        (queue ++ [⟨txnId, mode, decide (Admits queue mode)⟩])
        (if Admits queue mode then .ok else .lockConflict)
  | held {before after : LockQueue} {held : LockMode}
      (shape : queue = before ++ ⟨txnId, held, true⟩ :: after) :
      Acquired queue txnId mode
        (before ++ ⟨txnId, if mode.toNat > held.toNat then mode else held, true⟩ :: after) .ok
  | waiting {before after : LockQueue} {asked : LockMode}
      (shape : queue = before ++ ⟨txnId, asked, false⟩ :: after) :
      Acquired queue txnId mode
        (before ++ ⟨txnId, mode, decide (Admits (before ++ after) mode)⟩ :: after)
        (if Admits (before ++ after) mode then .ok else .lockConflict)

theorem acquireInQueue_cases (queue : LockQueue) (txnId : Int32) (mode : LockMode) :
    Acquired queue txnId mode (acquireInQueue queue txnId mode).1
      (acquireInQueue queue txnId mode).2 := by
  unfold acquireInQueue
  dsimp only
  split
  · -- the queue is what precedes the request found, the request, and what follows
    rename_i found
    generalize idxEq : List.findIdx (fun req => req.txnId == txnId) queue = i at found ⊢
    have shape : queue = queue.take i ++ queue[i] :: queue.drop (i + 1) := by
      rw [← List.drop_eq_getElem_cons found, List.take_append_drop]
    have length : (queue.take i).length = i := by simp; omega
    have owner : queue[i].txnId = txnId := by
      have holds : (fun req : LockRequest => req.txnId == txnId) queue[i] = true := by
        have := @List.findIdx_getElem _ (fun req => req.txnId == txnId) queue (by rwa [idxEq])
        simpa only [idxEq] using this
      simpa using holds
    have others : compatibleWithOthers queue i mode =
        decide (Admits (queue.take i ++ queue.drop (i + 1)) mode) := by
      have := compatibleWithOthers_split (queue.take i) (queue.drop (i + 1)) queue[i] mode
      rwa [← shape, length] at this
    have rewritten : ∀ changed, queue.set i changed =
        queue.take i ++ changed :: queue.drop (i + 1) := by
      intro changed
      rw [List.set_eq_take_append_cons_drop, if_pos found]
    cases reqEq : queue[i] with
    | mk owner' held granted =>
        rw [reqEq] at shape owner
        dsimp only at owner
        subst owner
        cases granted with
        | true =>
            have result := @Acquired.held _ _ mode _ _ _ shape
            split
            · by_cases larger : mode.toNat > held.toNat
              · simpa [larger, rewritten] using result
              · rw [if_neg larger] at result ⊢
                rwa [← shape] at result
            · simp at *
        | false =>
            have result := @Acquired.waiting _ _ mode _ _ _ shape
            simp only [Bool.false_eq_true, if_false]
            rw [others]
            by_cases admits : Admits (queue.take i ++ queue.drop (i + 1)) mode
            · simpa [admits, rewritten] using result
            · simpa [admits, rewritten] using result
  · rename_i absent
    have none : ∀ req ∈ queue, req.txnId ≠ txnId := by
      intro req member same
      exact absent (List.findIdx_lt_length_of_exists ⟨req, member, by simp [same]⟩)
    rw [all_iff_admits]
    simpa using @Acquired.fresh _ txnId mode none

/-- A turn of the wake-up loop leaves the queue alone or grants one waiting
request that every other granted request admits. -/
theorem grantWaiting_cases (queue : LockQueue) (k : Nat) :
    grantWaiting queue k = queue ∨
      ∃ before req after, queue = before ++ req :: after ∧ req.granted = false ∧
        Admits (before ++ after) req.mode ∧
        grantWaiting queue k = before ++ { req with granted := true } :: after := by
  unfold grantWaiting
  cases found : queue[k]? with
  | none => exact Or.inl rfl
  | some req =>
      obtain ⟨bound, here⟩ := List.getElem?_eq_some_iff.mp found
      have shape : queue = queue.take k ++ req :: queue.drop (k + 1) := by
        rw [← here, ← List.drop_eq_getElem_cons bound, List.take_append_drop]
      have length : (queue.take k).length = k := by simp; omega
      have others : compatibleWithOthers queue k req.mode =
          decide (Admits (queue.take k ++ queue.drop (k + 1)) req.mode) := by
        have := compatibleWithOthers_split (queue.take k) (queue.drop (k + 1)) req req.mode
        rwa [← shape, length] at this
      dsimp only
      split
      · exact Or.inl rfl
      · rename_i waiting
        rw [others]
        split
        · rename_i admits
          refine Or.inr ⟨_, req, _, shape, by simpa using waiting, of_decide_eq_true admits, ?_⟩
          rw [List.set_eq_take_append_cons_drop, if_pos bound]
        · exact Or.inl rfl

/-- A property of queues that filtering and granting keep survives a release. -/
theorem releaseInQueue_induction {property : LockQueue → Prop} {queue : LockQueue}
    {txnId : Int32} (filtered : property (queue.filter fun req => req.txnId != txnId))
    (grant : ∀ current k, property current → property (grantWaiting current k)) :
    property (releaseInQueue queue txnId) := by
  have fold : ∀ (turns : List Nat) (current : LockQueue), property current →
      property (turns.foldl grantWaiting current) := by
    intro turns
    induction turns with
    | nil => exact fun _ holds => holds
    | cons k turns ih => exact fun current holds => ih _ (grant current k holds)
  unfold releaseInQueue
  dsimp only
  split
  · exact fold _ _ filtered
  · exact filtered

theorem OneRequestEach.acquire {queue : LockQueue} (one : OneRequestEach queue)
    (txnId : Int32) (mode : LockMode) :
    OneRequestEach (acquireInQueue queue txnId mode).1 := by
  have cases_ := acquireInQueue_cases queue txnId mode
  generalize (acquireInQueue queue txnId mode).1 = next at cases_ ⊢
  generalize (acquireInQueue queue txnId mode).2 = rc at cases_
  cases cases_ with
  | fresh absent =>
      unfold OneRequestEach at *
      rw [List.map_append, List.nodup_append]
      refine ⟨one, by simp, ?_⟩
      intro first firstMember second secondMember
      obtain ⟨req, member, rfl⟩ := List.mem_map.mp firstMember
      simp only [List.map_cons, List.map_nil, List.mem_singleton] at secondMember
      rw [secondMember]
      exact absent req member
  | held shape =>
      subst shape
      exact one.replace rfl
  | waiting shape =>
      subst shape
      exact one.replace rfl

theorem OneRequestEach.grantWaiting {queue : LockQueue} (one : OneRequestEach queue) (k : Nat) :
    OneRequestEach (grantWaiting queue k) := by
  rcases grantWaiting_cases queue k with same | ⟨before, req, after, shape, _, _, result⟩
  · rwa [same]
  · rw [result]
    rw [shape] at one
    exact one.replace rfl

theorem OneRequestEach.release {queue : LockQueue} (one : OneRequestEach queue)
    (txnId : Int32) : OneRequestEach (releaseInQueue queue txnId) := by
  apply releaseInQueue_induction
  · unfold OneRequestEach at *
    exact one.sublist (List.filter_sublist.map _)
  · exact fun current k holds => holds.grantWaiting k

end MiniSqlite.Transaction
