import MiniSqlite.Executor.ChangeRuns
import MiniSqlite.Executor.ExecutionEngine

/-!
# What statements do

`runExecutor` on the three kinds of trees that are built over an ideal pool: a
tree that only reads gives the items of its events, an `UPDATE` or `DELETE` over
a scan changes the rows of its table one after the other, and one over no child
follows a null pointer.
-/

namespace MiniSqlite.Executor

open MiniSqlite.Common MiniSqlite.Std MiniSqlite.Storage MiniSqlite.Buffer MiniSqlite.Catalog
  MiniSqlite.Parser MiniSqlite.Planner

variable {Double : Type} [Platform Double] {store : PageStore} {excused : Fault → Prop}

/-! ## Running a tree -/

/-- The outcome of a query: its tuples, and the errors met after those in `log`. -/
def queryOutcome (events : List (RowEvent Double)) (log : List Int) :
    Except Fault (List (Tuple Double) × List Int) :=
  match Event.fault? events with
  | some fault => .error fault
  | none => .ok (Event.items events, log ++ Event.notes events)

/-- A query gives the items of its events, and leaves the pages as they are. -/
theorem runExecutor_query {exec : ExecutorT Double PageId} (ready : exec.Ready store) {turns : Nat}
    (enough : exec.need store true + (exec.events store true).length + 1 ≤ turns ∨
      excused .unending) (log : List Int) :
    Lockstep excused (fun outcome expected => outcome = (expected.1, ⟨store, expected.2⟩))
      ((runExecutor turns exec).run ⟨store, log⟩)
      (queryOutcome (exec.events store true) log) := by
  have collected := Event.drain_collect (exec.events store true) [] log
  have fewer : (exec.init.events store false).length < turns ∨ excused .unending :=
    enough.imp_left fun enough => by
      rw [ExecutorT.events_init]
      omega
  have bounded : exec.init.need store false ≤ turns ∨ excused .unending :=
    enough.imp_left fun enough => by
      rw [ExecutorT.need_init]
      omega
  have consumed := (ExecutorT.next_source turns exec.init.init _ bounded).consume
    (fun tuples tuple => pure (tuples ++ [tuple])) (.self ready.init) fewer [] log
  rw [ExecutorT.events_init] at consumed
  have expected : queryOutcome (exec.events store true) log =
      Event.drain (fun tuples tuple => .ok (tuples ++ [tuple], [])) [] (exec.events store true) log := by
    rw [collected, queryOutcome]
    cases Event.fault? (exec.events store true) <;> rfl
  rw [expected, runExecutor, StateT.run_bind]
  refine consumed.bind_left fun outcome result ended => ?_
  cases ended with
  | @ended left tuples log held =>
      obtain ⟨closed, closes, -⟩ := ExecutorT.close_run held.ready log
      dsimp only
      rw [StateT.run_bind, closes]
      exact .ok rfl

section Changes

variable {firstPageId : PageId} {chain : List PageId} {tableSchema scanSchema : Schema}
variable {predicate : Option (Expr Double)} {iter : BpmHeapIter PageId} {turns : Nat}
variable (sound : HeapSound ⟨store, firstPageId⟩ chain)
  (enough : (chainRows store chain).length + 3 ≤ turns ∨ excused .unending) (log : List Int)

omit [Platform Double] in
theorem close_seqScan_run (session : Session PageStore) :
    ∃ closed, (ExecutorT.close (.seqScan firstPageId tableSchema predicate iter)).run session =
      .ok (closed, session) := by
  have unpinned : bpmHeapIterDestroy session.bpm iter = .ok session.bpm := by
    unfold bpmHeapIterDestroy
    cases iter.currentPage <;> rfl
  refine ⟨.seqScan firstPageId tableSchema predicate { iter with currentPage := none }, ?_⟩
  rw [ExecutorT.close, StateT.run_bind, onPool_run, unpinned]
  rfl

include sound enough

/-- An operator over a scan of its table changes the rows the table has. -/
theorem runExecutor_change {change : Tuple Double → ExecM PageStore RowFate}
    (steady : Steady firstPageId chain change) {exec : ExecutorT Double PageId}
    {wrap : Bool → ExecutorT Double PageId → ExecutorT Double PageId}
    (init_eq : exec.init =
      wrap false (.seqScan firstPageId scanSchema predicate (startIter firstPageId)))
    (pulls : ∀ inner child, ExecutorT.next (inner + 1) (wrap false child) =
      (do
        let (finished, child, row) ← changeNext (ExecutorT.next inner) change inner child
        return (wrap finished child, row) : ExecM PageStore _))
    (closes : ∀ finished child, (wrap finished child).close =
      (do return wrap finished (← child.close) : ExecM PageStore _)) :
    Lockstep excused Eq ((runExecutor turns exec).run ⟨store, log⟩)
      (changeRows scanSchema predicate change (chainRows store chain) ⟨store, log⟩ []) := by
  cases turns with
  | zero => exact .excused (enough.resolve_left (by omega))
  | succ turns =>
      have fewer : (chainRows store chain).length < turns + 1 ∨ excused .unending :=
        enough.imp_left (by omega)
      have fewerInner : (chainRows store chain).length + 2 ≤ turns ∨ excused .unending :=
        enough.imp_left (by omega)
      have start : ScanAt firstPageId chain (Session.mk store log).bpm _ _ := scanAt_start sound
      have consumed := consume_changeRows scanSchema predicate steady (pulls turns) start fewer fewerInner []
      rw [runExecutor, init_eq, StateT.run_bind]
      refine consumed.bind_left ?_
      rintro ⟨⟨_, tuples⟩, session⟩ ⟨_, _⟩ ⟨⟨finished, iter', rfl⟩, rfl, rfl⟩
      obtain ⟨closed, closed_eq⟩ := close_seqScan_run session
      dsimp only
      rw [StateT.run_bind, closes, StateT.run_bind, closed_eq]
      exact .ok rfl

end Changes

/-- An operator over no child follows a null pointer. -/
theorem runExecutor_null {change : Tuple Double → ExecM PageStore RowFate}
    {exec : ExecutorT Double PageId} {turns : Nat} (enough : 2 ≤ turns ∨ excused .unending)
    {wrap : Bool → ExecutorT Double PageId → ExecutorT Double PageId}
    (init_eq : exec.init = wrap false .null)
    (pulls : ∀ inner child, ExecutorT.next (inner + 1) (wrap false child) =
      (do
        let (finished, child, row) ← changeNext (ExecutorT.next inner) change inner child
        return (wrap finished child, row) : ExecM PageStore _))
    (session : Session PageStore) :
    Lockstep excused Eq ((runExecutor turns exec).run session) (.error .nullPointer) := by
  rw [runExecutor, init_eq, StateT.run_bind]
  match turns with
  | 0 => exact .excused (enough.resolve_left (by omega))
  | 1 =>
      rw [consume, pulls]
      exact .excused (enough.resolve_left (by omega))
  | turns + 2 =>
      rw [consume, pulls]
      exact .error Fault.nullPointer

end MiniSqlite.Executor
