import MiniSqlite.Executor.BpmHeapScan

/-!
# Runs of the heap file over an ideal pool

`HeapCorrect` is what a caller may expect of one call: a new RID for an
insertion that reads back what was inserted, a scan that lists the contents, no
change by a call that fails. `heapCorrect_iff_insertsFit` says that a run meets
it throughout exactly when it inserts no tuple longer than an empty page holds:
for longer ones `slotted_page_insert` returns `DB_OUT_OF_MEMORY`, which is
positive, and `bpm_heap_insert` takes it for a slot id.
-/

namespace MiniSqlite.Executor

open MiniSqlite.Common MiniSqlite.Std MiniSqlite.Storage MiniSqlite.Buffer

/-- A heap in use and the RIDs its insertions have handed out. -/
structure HeapSession where
  heap : StoreHeap
  issued : List Rid

/-- An empty heap over a pool of other pages. -/
def heapSessionInit (bpm : PageStore) : HeapSession := ⟨bpmHeapInit bpm invalidPageId, []⟩

/-- The session after a call. -/
def heapStep (session : HeapSession) (op : HeapOp) : HeapSession :=
  match bpmHeapCall session.heap op with
  | .ok (heap, result) => ⟨heap, session.issued ++ result.rid.toList⟩
  | .error _ => session

/-- The tuples of a heap after a call with a given result. -/
def contentsAfter (contents : Rid → Option (List UInt8)) (op : HeapOp) (result : HeapResult)
    (rid : Rid) : Option (List UInt8) :=
  if result.code = ErrorCode.ok.code then
    match op with
    | .insert tuple => if result.rid = some rid then some tuple.1 else contents rid
    | .delete target => if rid = target then none else contents rid
    | .update target newData => if rid = target then some newData.1 else contents rid
    | .get _ | .scan => contents rid
  else contents rid

/-- What a caller may expect of a call. -/
structure HeapCorrect (session : HeapSession) (op : HeapOp) (heap : StoreHeap)
    (result : HeapResult) : Prop where
  /-- A call that reports `DB_OK` has its effect on the tuples, another has none. -/
  effect : heapContents heap = contentsAfter (heapContents session.heap) op result
  /-- An insertion that reports `DB_OK` returns a new RID, which reads back the tuple. -/
  inserted : ∀ tuple, op = .insert tuple → result.code = ErrorCode.ok.code →
    ∃ rid, result.rid = some rid ∧ rid ∉ session.issued ∧
      bpmHeapCall heap (.get rid) =
        .ok (heap, { code := ErrorCode.ok.code, bytes := some tuple.1 })
  /-- A get returns the tuple of the RID if there is one, and an error otherwise. -/
  read : ∀ rid, op = .get rid → result = getResult rid (heapContents session.heap rid)
  /-- A scan lists every tuple once and nothing else. -/
  scanned : op = .scan → (result.rows.map Prod.fst).Nodup ∧
    ∀ rid bytes, (rid, bytes) ∈ result.rows ↔ heapContents session.heap rid = some bytes

/-- The call ends and meets `HeapCorrect`. -/
def CallCorrect (session : HeapSession) (op : HeapOp) : Prop :=
  ∃ heap result, bpmHeapCall session.heap op = .ok (heap, result) ∧
    HeapCorrect session op heap result

/-- The pool has pages to grant, and a RID passed names no page but the heap's own. -/
def PoolGrants (session : HeapSession) (op : HeapOp) : Prop :=
  2 ≤ session.heap.bpm.fresh.length ∧ ∀ rid, op.rid? = some rid → OwnRid session.heap rid

/-- The call inserts no tuple longer than an empty page holds. -/
def InsertFits (_ : HeapSession) (op : HeapOp) : Prop :=
  ∀ tuple, op = .insert tuple → tuple.1.length ≤ maxTuple

/-- The heap is sound and every RID handed out names one of its slots. -/
def HeapSession.Sound (session : HeapSession) : Prop :=
  (∃ chain, HeapSound session.heap chain) ∧ ∀ rid ∈ session.issued, Issued session.heap rid

theorem heapSession_sound_init (bpm : PageStore) : (heapSessionInit bpm).Sound :=
  ⟨⟨[], rfl, List.nodup_nil, by simp⟩, by simp [heapSessionInit]⟩

theorem heapStep_eq {session : HeapSession} {op : HeapOp} {heap : StoreHeap}
    {result : HeapResult} (call : bpmHeapCall session.heap op = .ok (heap, result)) :
    heapStep session op = ⟨heap, session.issued ++ result.rid.toList⟩ := by
  unfold heapStep
  rw [call]

/-- A call that keeps the pages and hands out no RID but an issued one keeps the session sound. -/
theorem HeapSession.Sound.after {session : HeapSession} (sound : session.Sound)
    {chain chain' : List PageId} (soundHeap : HeapSound session.heap chain) {heap : StoreHeap}
    {rid? : Option Rid} (kept : HeapKept session.heap heap chain chain')
    (handedOut : ∀ rid, rid? = some rid → Issued heap rid) :
    HeapSession.Sound ⟨heap, session.issued ++ rid?.toList⟩ := by
  refine ⟨⟨chain', kept.sound⟩, fun rid member => ?_⟩
  rcases List.mem_append.mp member with old | isNew
  · exact (sound.2 rid old).kept soundHeap kept
  · exact handedOut rid (Option.mem_toList.mp isNew)

/-- A call that does what its result says, for the calls that change one tuple. -/
theorem callCorrect_of_changed {session : HeapSession} (sound : session.Sound)
    {chain : List PageId} (soundHeap : HeapSound session.heap chain) {op : HeapOp}
    {heap : StoreHeap} {result : HeapResult} {rid : Rid} {record : Option (List UInt8)}
    (call : bpmHeapCall session.heap op = .ok (heap, result))
    (changed : HeapChanged session.heap heap chain rid record result)
    (effect : ∀ other, contentsAfter (heapContents session.heap) op result other =
      if result.code = ErrorCode.ok.code ∧ other = rid then record
      else heapContents session.heap other)
    (noInsert : ∀ tuple, op ≠ .insert tuple) (noGet : ∀ rid, op ≠ .get rid)
    (noScan : op ≠ .scan) :
    CallCorrect session op ∧ (heapStep session op).Sound := by
  refine ⟨⟨heap, result, call, ?_, ?_, ?_, ?_⟩, ?_⟩
  · funext other
    rw [changed.contents, effect]
  · exact fun tuple same => absurd same (noInsert tuple)
  · exact fun rid same => absurd same (noGet rid)
  · exact fun same => absurd same noScan
  · rw [heapStep_eq call, changed.noRid]
    exact sound.after soundHeap changed.kept (by simp)

/-- What a call does in a sound session, oversize insertions aside. -/
theorem heapCall_correct {session : HeapSession} (sound : session.Sound) {op : HeapOp}
    (grants : PoolGrants session op) (fits : InsertFits session op) :
    CallCorrect session op ∧ (heapStep session op).Sound := by
  obtain ⟨chain, soundHeap⟩ := sound.1
  cases op with
  | insert tuple =>
      by_cases empty : tuple.1.length = 0
      · have call : bpmHeapCall session.heap (.insert tuple) =
            .ok (session.heap, { code := ErrorCode.invalidArgument.code }) := if_pos empty
        refine ⟨⟨_, _, call, ?_, ?_, by simp, by simp⟩, ?_⟩
        · rfl
        · intro _ _ ok
          simp [ErrorCode.code] at ok
        · rw [heapStep_eq call]
          exact sound.after soundHeap (.refl soundHeap) (by simp)
      · obtain ⟨heap, chain', rid, done, inserted⟩ := bpmHeapInsert_fits soundHeap grants.1
          (Nat.pos_of_ne_zero empty) (fits tuple rfl)
        have call : bpmHeapCall session.heap (.insert tuple) =
            .ok (heap, { code := ErrorCode.ok.code, rid := some rid }) := done
        refine ⟨⟨heap, _, call, ?_, ?_, by simp, by simp⟩, ?_⟩
        · funext other
          rw [inserted.contents]
          simp only [contentsAfter, if_true, Option.some.injEq, eq_comm]
        · intro other same _
          cases same
          refine ⟨rid, rfl, fun member => inserted.fresh (sound.2 rid member), ?_⟩
          rw [bpmHeapGet_store inserted.kept.sound fun _ => inserted.issued.1, inserted.contents,
            if_pos rfl]
          rfl
        · rw [heapStep_eq call]
          refine sound.after soundHeap inserted.kept fun other same => ?_
          exact Option.some.inj same ▸ inserted.issued
  | delete rid =>
      obtain ⟨heap, result, call, changed⟩ := bpmHeapDelete_store soundHeap (grants.2 rid rfl)
      refine callCorrect_of_changed sound soundHeap call changed (fun other => ?_)
        (by simp) (by simp) (by simp)
      simp only [contentsAfter, ite_and]
  | update rid newData =>
      obtain ⟨heap, result, call, changed⟩ :=
        bpmHeapUpdate_store soundHeap (grants.2 rid rfl) newData
      refine callCorrect_of_changed sound soundHeap call changed (fun other => ?_)
        (by simp) (by simp) (by simp)
      simp only [contentsAfter, ite_and]
  | get rid =>
      have call := bpmHeapGet_store soundHeap (grants.2 rid rfl)
      refine ⟨⟨_, _, call, ?_, by simp, ?_, by simp⟩, ?_⟩
      · funext other
        simp only [contentsAfter, ite_self]
      · intro other same
        cases same
        rfl
      · rw [heapStep_eq call]
        refine sound.after soundHeap (.refl soundHeap) ?_
        cases heapContents session.heap rid <;> simp [getResult]
  | scan =>
      have call : bpmHeapCall session.heap .scan = _ := bpmHeapScan_store soundHeap
      refine ⟨⟨_, _, call, ?_, by simp, by simp, fun _ => soundHeap.rows_spec⟩, ?_⟩
      · funext other
        simp only [contentsAfter, ite_self]
      · rw [heapStep_eq call]
        exact sound.after soundHeap (.refl soundHeap) (by simp)

/-- An oversize insertion is reported as done and cannot be read back. -/
theorem not_callCorrect_of_oversize {session : HeapSession} (sound : session.Sound)
    {tuple : TupleData} (grants : PoolGrants session (.insert tuple))
    (oversize : maxTuple < tuple.1.length) : ¬ CallCorrect session (.insert tuple) := by
  obtain ⟨chain, soundHeap⟩ := sound.1
  obtain ⟨after, rid, call, lost⟩ := bpmHeapInsert_oversize soundHeap grants.1 oversize
  rintro ⟨heap, result, correctCall, correct⟩
  have same : bpmHeapCall session.heap (.insert tuple) =
      .ok (after, { code := ErrorCode.ok.code, rid := some rid }) := call
  rw [same] at correctCall
  obtain ⟨rfl, rfl⟩ := Prod.mk.inj (Except.ok.inj correctCall)
  obtain ⟨other, handedOut, _, read⟩ := correct.inserted tuple rfl rfl
  cases Option.some.inj handedOut
  rw [lost] at read
  simp [ErrorCode.code] at read

/-- Over a pool that always grants pages, a run on an empty heap is correct
throughout exactly when it inserts no tuple longer than an empty page holds. -/
theorem heapCorrect_iff_insertsFit (bpm : PageStore) (ops : List HeapOp)
    (grants : EachStep heapStep PoolGrants (heapSessionInit bpm) ops) :
    EachStep heapStep CallCorrect (heapSessionInit bpm) ops ↔
      EachStep heapStep InsertFits (heapSessionInit bpm) ops := by
  refine eachStep_iff_of_assumed
    (fun session op (sound : session.Sound) granted fits => (heapCall_correct sound granted fits).2)
    (fun session op sound granted => ⟨fun correct => ?_, fun fits =>
      (heapCall_correct sound granted fits).1⟩)
    (heapSession_sound_init bpm) grants
  rintro tuple rfl
  by_contra oversize
  exact not_callCorrect_of_oversize sound granted (Nat.lt_of_not_le oversize) correct

/-- A pool without pages that has two to grant. -/
def twoPages : PageStore where
  pages _ := none
  fresh := [1, 2]
  fresh_nodup := by decide
  fresh_unused _ _ := rfl
  invalid_unused := by decide

theorem heapCorrect_iff_insertsFit_once :
    EachStep heapStep CallCorrect (heapSessionInit twoPages) [.insert ⟨[1, 2, 3], by decide⟩] ↔
      EachStep heapStep InsertFits (heapSessionInit twoPages) [.insert ⟨[1, 2, 3], by decide⟩] :=
  heapCorrect_iff_insertsFit twoPages _ ⟨⟨by decide, by simp [HeapOp.rid?]⟩, trivial⟩

/-- A tuple one byte longer than an empty page holds. -/
def oversizeTuple : TupleData := ⟨List.replicate 4069 0, by rw [List.length_replicate]; decide⟩

/-- The first call on an empty heap reports a lost tuple as stored. -/
theorem oversize_insert_lost :
    EachStep heapStep PoolGrants (heapSessionInit twoPages) [.insert oversizeTuple] ∧
      ¬ EachStep heapStep CallCorrect (heapSessionInit twoPages) [.insert oversizeTuple] := by
  have grants : PoolGrants (heapSessionInit twoPages) (.insert oversizeTuple) :=
    ⟨by decide, by simp [HeapOp.rid?]⟩
  refine ⟨⟨grants, trivial⟩, ?_⟩
  rintro ⟨correct, _⟩
  refine not_callCorrect_of_oversize (heapSession_sound_init twoPages) grants ?_ correct
  show maxTuple < (List.replicate 4069 0).length
  rw [List.length_replicate]
  decide

end MiniSqlite.Executor
