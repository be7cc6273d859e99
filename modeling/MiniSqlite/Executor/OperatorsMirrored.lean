import MiniSqlite.Executor.HeapsMirrored
import MiniSqlite.Executor.TupleChanges
import MiniSqlite.Std.Coupling

/-!
# Executors over a real pool

Executors over a real pool go through the same motions as over the store it mirrors,
in sessions that have met the same errors. The pages they read stay within a region
of the store. First the loops, for any two children that deliver the same rows; then
trees, whose scans stand at the same slots.
-/

namespace MiniSqlite.Executor

open MiniSqlite.Common MiniSqlite.Std MiniSqlite.Storage MiniSqlite.Buffer MiniSqlite.Parser

variable {Double : Type} {region : Set PageId} {session : Session BufferPoolManager}

/-! ## Sessions -/

/-- The session of the store and that of the pool. -/
structure SameSession (region : Set PageId) (session : Session PageStore)
    (session' : Session BufferPoolManager) : Prop where
  errors : session.errors = session'.errors
  mirrors : Mirrors [] session.bpm session'.bpm
  closed : Closed session.bpm region

/-- The sessions of executors that stay within a region. -/
def sessions (region : Set PageId) : Coupling (Session PageStore) (Session BufferPoolManager) where
  Same := SameSession region
  Kept before after := FramesKept before.bpm after.bpm
  refl session := .refl session.bpm
  trans := FramesKept.trans

/-- The functions of an executor on the store and on the pool stay in lockstep. -/
def AlikeIn (region : Set PageId) (session : Session BufferPoolManager) {α β : Type}
    (related : BufferPoolManager → α → β → Prop) (first : ExecM PageStore α)
    (second : ExecM BufferPoolManager β) : Prop :=
  (sessions region).Alike Exhausted session (fun after => related after.bpm) first second

/-- A call on the pool. -/
theorem onPool_alike {α β : Type} {related : BufferPoolManager → α → β → Prop}
    {call : PageStore → Except Fault (PageStore × α)}
    {call' : BufferPoolManager → Except Fault (BufferPoolManager × β)}
    (alike : ∀ store, Mirrors [] store session.bpm → Closed store region →
      Lockstep Exhausted
        (fun after after' => related after'.1 after.2 after'.2 ∧ Mirrors [] after.1 after'.1 ∧
          Closed after.1 region ∧ FramesKept session.bpm after'.1)
        (call store) (call' session.bpm)) :
    AlikeIn region session related (onPool call) (onPool call') := by
  intro start same
  rw [onPool_run, onPool_run]
  refine (alike start.bpm same.mirrors same.closed).bind ?_
  rintro ⟨store, value⟩ ⟨bpm, other⟩ ⟨values, mirrors, closed, kept⟩
  exact .ok ⟨values, ⟨same.errors, mirrors, closed⟩, kept⟩

section Loops

variable {Child Child' Acc : Type} {holds : BufferPoolManager → Child → Child' → Prop}
  {located : Tuple Double → Prop} {next : Child → ExecM PageStore (Pulled Child Double)}
  {next' : Child' → ExecM BufferPoolManager (Pulled Child' Double)} {child : Child} {child' : Child'}

variable {firstPageId : PageId}

end Loops

/-! ## Trees -/

section Trees

variable [Platform Double] {iter : BpmHeapIter PageId} {iter' : BpmHeapIter FrameId}

/-- Scans of one table that stand at the same slot, or nothing. -/
inductive SameTarget (region : Set PageId) (bpm : BufferPoolManager) :
    ExecutorT Double PageId → ExecutorT Double FrameId → Prop
  | null : SameTarget region bpm .null .null
  | seqScan {firstPageId : PageId} (tableSchema : Schema) (predicate : Option (Expr Double))
      {iter : BpmHeapIter PageId} {iter' : BpmHeapIter FrameId}
      (located : firstPageId = invalidPageId ∨ firstPageId ∈ region)
      (scan : SameScan region bpm iter iter') :
      SameTarget region bpm (.seqScan firstPageId tableSchema predicate iter)
        (.seqScan firstPageId tableSchema predicate iter')

/-- Trees of the same shape whose scans stand at the same slots. Only rows of a scan
are changed. -/
inductive SameExec (region : Set PageId) (bpm : BufferPoolManager) :
    ExecutorT Double PageId → ExecutorT Double FrameId → Prop
  | target {child : ExecutorT Double PageId} {child' : ExecutorT Double FrameId}
      (same : SameTarget region bpm child child') : SameExec region bpm child child'
  | filter (predicate : Expr Double) {child : ExecutorT Double PageId}
      {child' : ExecutorT Double FrameId} (same : SameExec region bpm child child') :
      SameExec region bpm (.filter predicate child) (.filter predicate child')
  | project (expressions : List (Expr Double)) (outputSchema : Schema)
      {child : ExecutorT Double PageId} {child' : ExecutorT Double FrameId}
      (same : SameExec region bpm child child') :
      SameExec region bpm (.project expressions outputSchema child)
        (.project expressions outputSchema child')
  | nlJoin (condition : Option (Expr Double)) (outputSchema : Schema)
      (currentOuter : Option (Tuple Double)) {outer inner : ExecutorT Double PageId}
      {outer' inner' : ExecutorT Double FrameId} (same : SameExec region bpm outer outer')
      (sameInner : SameExec region bpm inner inner') :
      SameExec region bpm (.nlJoin condition outputSchema currentOuter outer inner)
        (.nlJoin condition outputSchema currentOuter outer' inner')
  | hashAgg (groupBy aggregates : List (Expr Double)) (groups : Option (List (AggGroup Double)))
      {child : ExecutorT Double PageId} {child' : ExecutorT Double FrameId}
      (same : SameExec region bpm child child') :
      SameExec region bpm (.hashAgg groupBy aggregates groups child)
        (.hashAgg groupBy aggregates groups child')
  | sort (items : List (OrderByItem Double)) (tuples : Option (List (Tuple Double)))
      {child : ExecutorT Double PageId} {child' : ExecutorT Double FrameId}
      (same : SameExec region bpm child child') :
      SameExec region bpm (.sort items tuples child) (.sort items tuples child')
  | limit (rows offset : Int32) (emitted skipped : Nat) {child : ExecutorT Double PageId}
      {child' : ExecutorT Double FrameId} (same : SameExec region bpm child child') :
      SameExec region bpm (.limit rows offset emitted skipped child)
        (.limit rows offset emitted skipped child')
  | update (firstPageId : PageId) (tableSchema : Schema) (assignments : List (Assignment Double))
      (finished : Bool) {child : ExecutorT Double PageId} {child' : ExecutorT Double FrameId}
      (same : SameTarget region bpm child child') :
      SameExec region bpm (.update firstPageId tableSchema assignments finished child)
        (.update firstPageId tableSchema assignments finished child')
  | delete (firstPageId : PageId) (tableSchema : Schema) (finished : Bool)
      {child : ExecutorT Double PageId} {child' : ExecutorT Double FrameId}
      (same : SameTarget region bpm child child') :
      SameExec region bpm (.delete firstPageId tableSchema finished child)
        (.delete firstPageId tableSchema finished child')

variable {bpm after : BufferPoolManager} {exec : ExecutorT Double PageId}
  {exec' : ExecutorT Double FrameId}

omit [Platform Double] in
theorem SameTarget.kept (same : SameTarget region bpm exec exec') (kept : FramesKept bpm after) :
    SameTarget region after exec exec' := by
  cases same with
  | null => exact .null
  | seqScan tableSchema predicate located scan =>
      exact .seqScan tableSchema predicate located (scan.kept kept)

omit [Platform Double] in
theorem SameExec.kept (same : SameExec region bpm exec exec') (kept : FramesKept bpm after) :
    SameExec region after exec exec' := by
  induction same with
  | target same => exact .target (same.kept kept)
  | filter predicate _ ih => exact .filter predicate ih
  | project expressions outputSchema _ ih => exact .project expressions outputSchema ih
  | nlJoin condition outputSchema current _ _ ih ihInner =>
      exact .nlJoin condition outputSchema current ih ihInner
  | hashAgg groupBy aggregates groups _ ih => exact .hashAgg groupBy aggregates groups ih
  | sort items tuples _ ih => exact .sort items tuples ih
  | limit rows offset emitted skipped _ ih => exact .limit rows offset emitted skipped ih
  | update firstPageId tableSchema assignments finished same =>
      exact .update firstPageId tableSchema assignments finished (same.kept kept)
  | delete firstPageId tableSchema finished same =>
      exact .delete firstPageId tableSchema finished (same.kept kept)

omit [Platform Double] in
theorem SameTarget.outputSchema (same : SameTarget region bpm exec exec') :
    exec.outputSchema = exec'.outputSchema := by
  cases same <;> rfl

omit [Platform Double] in
theorem SameExec.outputSchema (same : SameExec region bpm exec exec') :
    exec.outputSchema = exec'.outputSchema := by
  induction same with
  | target same => exact same.outputSchema
  | filter predicate _ ih => exact ih
  | sort items tuples _ ih | limit rows offset emitted skipped _ ih =>
      rw [ExecutorT.outputSchema, ExecutorT.outputSchema, ih]
  | _ => rfl

omit [Platform Double] in
theorem SameTarget.init (same : SameTarget region bpm exec exec') :
    SameTarget region bpm exec.init exec'.init := by
  cases same with
  | null => exact .null
  | seqScan tableSchema predicate located scan =>
      exact .seqScan tableSchema predicate located (sameScan_start located 0)

omit [Platform Double] in
theorem SameExec.init (same : SameExec region bpm exec exec') :
    SameExec region bpm exec.init exec'.init := by
  induction same with
  | target same => exact .target same.init
  | filter predicate _ ih => exact .filter predicate ih
  | project expressions outputSchema _ ih => exact .project expressions outputSchema ih
  | nlJoin condition outputSchema current _ _ ih ihInner =>
      exact .nlJoin condition outputSchema none ih ihInner
  | hashAgg groupBy aggregates groups _ ih => exact .hashAgg groupBy aggregates none ih
  | sort items tuples _ ih => exact .sort items none ih
  | limit rows offset emitted skipped _ ih => exact .limit rows offset 0 0 ih
  | update firstPageId tableSchema assignments finished same =>
      exact .update firstPageId tableSchema assignments false same.init
  | delete firstPageId tableSchema finished same =>
      exact .delete firstPageId tableSchema false same.init

omit [Platform Double] in
theorem SameTarget.close (same : SameTarget region session.bpm exec exec') :
    AlikeIn region session (SameTarget region) exec.close exec'.close := by
  cases same with
  | null => exact .done .null
  | seqScan tableSchema predicate located scan =>
      rw [ExecutorT.close, ExecutorT.close]
      refine Coupling.Alike.bind
        (show AlikeIn region session (fun _ _ _ => True) _ _ from onPool_alike ?_) ?_
      · intro store mirrors closed
        obtain ⟨later, ended, ended', still, kept⟩ := bpmHeapIterDestroy_mirrored mirrors scan
        rw [ended, ended']
        exact .ok ⟨trivial, still, closed, kept⟩
      · intro later _ _ kept _
        refine .done (.seqScan tableSchema predicate located ?_)
        exact { scan with pinned := .inl ⟨rfl, rfl⟩ }

omit [Platform Double] in
/-- Closing both trees keeps them the same. -/
theorem SameExec.close (same : SameExec region bpm exec exec')
    (kept : FramesKept bpm session.bpm) :
    AlikeIn region session (SameExec region) exec.close exec'.close := by
  induction same generalizing session with
  | target same => exact (same.kept kept).close.mono fun _ _ _ _ => .target
  | filter predicate _ ih =>
      exact (ih kept).bind fun _ _ _ _ same => .done (.filter predicate same)
  | project expressions outputSchema _ ih =>
      exact (ih kept).bind fun _ _ _ _ same => .done (.project expressions outputSchema same)
  | nlJoin condition outputSchema current _ _ ih ihInner =>
      refine (ih kept).bind fun later outer outer' keptOuter same => ?_
      refine (ihInner (kept.trans keptOuter)).bind fun last inner inner' keptInner sameInner => ?_
      exact .done (.nlJoin condition outputSchema none (same.kept keptInner) sameInner)
  | hashAgg groupBy aggregates groups same _ =>
      exact .done (.hashAgg groupBy aggregates none (same.kept kept))
  | sort items tuples same _ => exact .done (.sort items none (same.kept kept))
  | limit rows offset emitted skipped _ ih =>
      exact (ih kept).bind fun _ _ _ _ same => .done (.limit rows offset emitted skipped same)
  | update firstPageId tableSchema assignments finished same =>
      exact (same.kept kept).close.bind fun _ _ _ _ same =>
        .done (.update firstPageId tableSchema assignments finished same)
  | delete firstPageId tableSchema finished same =>
      exact (same.kept kept).close.bind fun _ _ _ _ same =>
        .done (.delete firstPageId tableSchema finished same)

section Materialized

variable {turns : Nat} {child : ExecutorT Double PageId} {child' : ExecutorT Double FrameId}

end Materialized

end Trees

end MiniSqlite.Executor
