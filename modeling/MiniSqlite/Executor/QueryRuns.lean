import MiniSqlite.Executor.OperatorLoops

/-!
# Queries deliver their events

By induction on the turns, `next` of a tree that only reads delivers the first of
its events and leaves a tree that holds the others (`ExecutorT.next_source`).
Pulling a tree to its end therefore gives the items of its events, and the errors
met are their notes (`runExecutor_query`).
-/

namespace MiniSqlite.Executor

open MiniSqlite.Common MiniSqlite.Std MiniSqlite.Storage MiniSqlite.Buffer MiniSqlite.Parser

variable {Double : Type} {store : PageStore} {excused : Fault → Prop}

theorem onPool_run {Pool α : Type} (call : Pool → Except Fault (Pool × α))
    (session : Session Pool) :
    (onPool call).run session =
      (call session.bpm >>= fun (bpm, result) => .ok (result, ⟨bpm, session.errors⟩)) := by
  unfold onPool
  cases outcome : call session.bpm <;> simp [StateT.run_bind, outcome] <;> rfl

namespace ExecutorT

/-! ## Restarting and closing -/

@[simp] theorem init_init (exec : ExecutorT Double PageId) : exec.init.init = exec.init := by
  induction exec <;> simp_all [init]

@[simp] theorem outputSchema_init (exec : ExecutorT Double PageId) :
    exec.init.outputSchema = exec.outputSchema := by
  induction exec <;> simp_all [init, outputSchema]

theorem Ready.init {exec : ExecutorT Double PageId} (ready : exec.Ready store) :
    exec.init.Ready store := by
  induction exec with
  | seqScan firstPageId tableSchema predicate iter =>
      obtain ⟨⟨chain, chained, short⟩, -⟩ := ready
      exact ⟨⟨chain, chained, short⟩, chain, ⟨chained, by simp⟩, short⟩
  | nlJoin condition outputSchema currentOuter outer inner ihOuter ihInner =>
      exact ⟨ihOuter ready.1, ihInner ready.2⟩
  | null => trivial
  | update | delete => exact ready.elim
  | filter _ _ ih | project _ _ _ ih | hashAgg _ _ _ _ ih | sort _ _ _ ih | limit _ _ _ _ _ ih =>
      exact ih ready

/-- Closing a tree only changes where it stands. -/
theorem close_run {exec : ExecutorT Double PageId} (ready : exec.Ready store) (log : List Int) :
    ∃ closed : ExecutorT Double PageId, exec.close.run ⟨store, log⟩ = .ok (closed, ⟨store, log⟩) ∧
      closed.init = exec.init ∧ closed.Ready store := by
  induction exec generalizing log with
  | null => exact ⟨.null, rfl, rfl, trivial⟩
  | seqScan firstPageId tableSchema predicate iter =>
      obtain ⟨restart, chain, at_, short⟩ := ready
      refine ⟨.seqScan firstPageId tableSchema predicate { iter with currentPage := none }, ?_, rfl,
        restart, chain, ⟨at_.chained, by simp⟩, short⟩
      have unpinned : bpmHeapIterDestroy store iter = .ok store := by
        unfold bpmHeapIterDestroy
        cases iter.currentPage <;> rfl
      rw [close, StateT.run_bind, onPool_run, unpinned]
      rfl
  | nlJoin condition outputSchema currentOuter outer inner ihOuter ihInner =>
      obtain ⟨closed, closes, same, stillReady⟩ := ihOuter ready.1 log
      obtain ⟨closed', closes', same', stillReady'⟩ := ihInner ready.2 log
      refine ⟨.nlJoin condition outputSchema none closed closed', ?_,
        by simp [ExecutorT.init, same, same'], stillReady, stillReady'⟩
      simp only [close, StateT.run_bind, closes, closes', ok_bind]
      rfl
  | filter predicate child ih =>
      obtain ⟨closed, closes, same, stillReady⟩ := ih ready log
      refine ⟨.filter predicate closed, ?_, by simp [ExecutorT.init, same], stillReady⟩
      rw [close, StateT.run_bind, closes]
      rfl
  | project expressions outputSchema child ih =>
      obtain ⟨closed, closes, same, stillReady⟩ := ih ready log
      refine ⟨.project expressions outputSchema closed, ?_, by simp [ExecutorT.init, same], stillReady⟩
      rw [close, StateT.run_bind, closes]
      rfl
  | limit rows offset emitted skipped child ih =>
      obtain ⟨closed, closes, same, stillReady⟩ := ih ready log
      refine ⟨.limit rows offset emitted skipped closed, ?_, by simp [ExecutorT.init, same],
        stillReady⟩
      rw [close, StateT.run_bind, closes]
      rfl
  | hashAgg groupBy aggregates groups child => exact ⟨.hashAgg groupBy aggregates none child, rfl, rfl, ready⟩
  | sort items tuples child => exact ⟨.sort items none child, rfl, rfl, ready⟩
  | update | delete => exact ready.elim

end ExecutorT

variable [Platform Double]

/-! ## Scans -/

/-- The next row that a scan delivers, with the rows behind it. -/
def takeRow (tableSchema : Schema) (predicate : Option (Expr Double)) :
    List (Rid × List UInt8) → List Int →
      Except Fault (Option (Tuple Double × List (Rid × List UInt8)) × List Int)
  | [], log => .ok (none, log)
  | row :: rows, log => do
      match ← (scanRow tableSchema predicate row).run with
      | (none, notes) => takeRow tableSchema predicate rows (log ++ notes)
      | (some tuple, notes) => .ok (some (tuple, rows), log ++ notes)

/-- A call of `seq_scan_next` gives what `takeRow` gives, and its iterator stands before the
rows behind it. -/
inductive Scanned (store : PageStore) :
    Pulled (BpmHeapIter PageId) Double × Session PageStore →
    Option (Tuple Double × List (Rid × List UInt8)) × List Int → Prop where
  | ended {iter : BpmHeapIter PageId} {rc : ErrorCode} {log : List Int}
      (at_ : IterAt store iter []) : Scanned store ((iter, .error rc), ⟨store, log⟩) (none, log)
  | row {iter : BpmHeapIter PageId} {tuple : Tuple Double} {log : List Int}
      (chain : List PageId) (at_ : IterAt store iter chain) (short : chain.length < maxPages) :
      Scanned store ((iter, .ok tuple), ⟨store, log⟩)
        (some (tuple, pendingRows store iter chain), log)

/-- The loop of a scan. -/
theorem seqScanNext_rows (tableSchema : Schema) (predicate : Option (Expr Double))
    {iter : BpmHeapIter PageId} {chain : List PageId} (at_ : IterAt store iter chain)
    (short : chain.length < maxPages) {turns : Nat}
    (enough : (pendingRows store iter chain).length < turns ∨ excused .unending)
    (log : List Int) :
    Lockstep excused (Scanned store)
      ((seqScanNext tableSchema predicate turns iter).run ⟨store, log⟩)
      (takeRow tableSchema predicate (pendingRows store iter chain) log) := by
  induction turns generalizing iter chain log with
  | zero => exact .excused (enough.resolve_left (Nat.not_lt_zero _))
  | succ turns ih =>
      have delivered := bpmHeapIterNext_store at_ short
      rw [seqScanNext, StateT.run_bind, onPool_run]
      generalize pendingRows store iter chain = rows at delivered enough ⊢
      generalize bpmHeapIterNext maxPages store iter = outcome at delivered ⊢
      cases delivered with
      | finished iter' unpinned ended =>
          simp only [ok_bind, ended, ne_eq, not_true_eq_false, if_false]
          exact .ok (.ended ⟨ended, by simp [unpinned]⟩)
      | row iter' chain' shorter at' pending =>
          subst pending
          have short' := Nat.lt_of_le_of_lt shorter short
          simp only [ok_bind]
          rw [StateT.run_bind, note_run, takeRow, bind_assoc]
          refine .rfl_bind _ fun (found, notes) _ => ?_
          cases found with
          | none =>
              exact ih at' short' (enough.imp_left (by simp only [List.length_cons]; omega)) _
          | some tuple => exact .ok (.row chain' at' short')

/-- A pull from the events of a scan takes its next row. -/
theorem pull_scanEvents (tableSchema : Schema) (predicate : Option (Expr Double))
    (rows : List (Rid × List UInt8)) (log : List Int) :
    Event.pull (scanEvents tableSchema predicate rows) log =
      (takeRow tableSchema predicate rows log >>= fun (taken, log) =>
        .ok (taken.map fun (tuple, rows) => (tuple, scanEvents tableSchema predicate rows), log)) := by
  induction rows generalizing log with
  | nil => rfl
  | cons row rows ih =>
      rw [scanEvents, List.flatMap_cons, pull_eventsOf_map, takeRow, bind_assoc]
      refine bind_congr ?_
      rintro ⟨found, notes⟩
      cases found with
      | none => exact ih (log ++ notes)
      | some tuple => rfl

/-- The rows behind the next one are fewer. -/
theorem length_of_takeRow {tableSchema : Schema} {predicate : Option (Expr Double)}
    {rows rest : List (Rid × List UInt8)} {log log' : List Int} {tuple : Tuple Double}
    (taken : takeRow tableSchema predicate rows log = .ok (some (tuple, rest), log')) :
    rest.length < rows.length := by
  induction rows generalizing log with
  | nil => simp [takeRow] at taken
  | cons row rows ih =>
      rw [takeRow] at taken
      cases outcome : (scanRow tableSchema predicate row).run with
      | error fault => simp [outcome, bind, Except.bind] at taken
      | ok found =>
          obtain ⟨_ | found, notes⟩ := found
          · simp only [outcome, ok_bind] at taken
            exact Nat.lt_succ_of_lt (ih taken)
          · simp only [outcome, ok_bind, Except.ok.injEq, Prod.mk.injEq, Option.some.injEq] at taken
            rw [← taken.1.2]
            exact Nat.lt_succ_self _

/-- What an iterator of a scan holds. -/
structure ScanHolds (store : PageStore) (tableSchema : Schema) (predicate : Option (Expr Double))
    (bound : Nat) (iter : BpmHeapIter PageId) (events : List (RowEvent Double)) : Prop where
  at_ : ∃ chain, IterAt store iter chain ∧ chain.length < maxPages
  events_eq : events = scanEvents tableSchema predicate (rowsOf store iter)
  bounded : (rowsOf store iter).length ≤ bound

theorem seqScanNext_source (tableSchema : Schema) (predicate : Option (Expr Double))
    {bound turns : Nat} (enough : bound < turns ∨ excused .unending) :
    Source excused store (seqScanNext tableSchema predicate turns)
      (ScanHolds store tableSchema predicate bound) := by
  rintro iter _ log ⟨⟨chain, at_, short⟩, rfl, bounded⟩
  have scanned := seqScanNext_rows tableSchema predicate at_ short
    (enough.imp_left fun enough => Nat.lt_of_le_of_lt (rowsOf_eq at_ short ▸ bounded) enough) log
  rw [pull_scanEvents, rowsOf_eq at_ short]
  rw [← bind_pure ((seqScanNext tableSchema predicate turns iter).run ⟨store, log⟩)]
  refine scanned.bind_of_eq fun outcome expected scanned taken => ?_
  cases scanned with
  | @ended iter rc log at' =>
      have finished : rowsOf store iter = [] := rowsOf_eq at' (by decide)
      exact .ok (.ended ⟨⟨[], at', by decide⟩, by rw [finished]; rfl, by simp [finished]⟩)
  | row chain' at' short' =>
      have shorter := length_of_takeRow taken
      refine .ok (.row ⟨⟨chain', at', short'⟩, by rw [rowsOf_eq at' short'], ?_⟩)
      rw [rowsOf_eq at' short']
      rw [rowsOf_eq at_ short] at bounded
      omega

namespace ExecutorT

@[simp] theorem events_init (store : PageStore) (restarted : Bool)
    (exec : ExecutorT Double PageId) :
    exec.init.events store restarted = exec.events store true := by
  induction exec generalizing restarted <;> cases restarted <;>
    simp_all [init, events, currentIter, startIter, outputSchema]

@[simp] theorem need_init (store : PageStore) (restarted : Bool)
    (exec : ExecutorT Double PageId) :
    exec.init.need store restarted = exec.need store true := by
  induction exec generalizing restarted <;> cases restarted <;>
    simp_all [init, need, currentIter, startIter]

/-! ## Pulling -/

theorem need_pos (store : PageStore) (restarted : Bool) (exec : ExecutorT Double PageId) :
    0 < exec.need store restarted := by
  cases exec with
  | hashAgg groupBy aggregates groups child => cases groups <;> cases restarted <;> simp [need]
  | sort items tuples child => cases tuples <;> cases restarted <;> simp [need]
  | _ => simp [need]

/-- A tree that came from `start` by pulls and has `events` still to deliver. -/
structure HoldsEvents (store : PageStore) (start : ExecutorT Double PageId) (bound : Nat)
    (exec : ExecutorT Double PageId) (events : List (RowEvent Double)) : Prop where
  ready : exec.Ready store
  same : exec.init = start
  events_eq : exec.events store false = events
  need_le : exec.need store false ≤ bound

theorem HoldsEvents.outputSchema_eq {start exec other : ExecutorT Double PageId} {bound : Nat}
    {events : List (RowEvent Double)} (held : HoldsEvents store start bound exec events)
    (same : other.init = start) : exec.outputSchema = other.outputSchema := by
  rw [← outputSchema_init exec, held.same, ← same, outputSchema_init]

/-- A tree holds its own events. -/
theorem HoldsEvents.self {exec : ExecutorT Double PageId} (ready : exec.Ready store) :
    HoldsEvents store exec.init (exec.need store false) exec (exec.events store false) :=
  ⟨ready, rfl, rfl, Nat.le_refl _⟩

/-- What a restart of a tree only depends on. -/
theorem HoldsEvents.restarted {start exec : ExecutorT Double PageId} {bound : Nat}
    {events : List (RowEvent Double)} (held : HoldsEvents store start bound exec events)
    {other : ExecutorT Double PageId} (same : other.init = start) :
    exec.events store true = other.events store true ∧
      exec.need store true = other.need store true := by
  constructor
  · rw [← events_init store true exec, held.same, ← same, events_init]
  · rw [← need_init store true exec, held.same, ← same, need_init]

/-- A call of `next` on a tree delivers its first event and leaves the others. -/
def Pulls (excused : Fault → Prop) (store : PageStore) (turns bound : Nat)
    (exec : ExecutorT Double PageId) : Prop :=
  ∀ log, Lockstep excused (Delivers store (HoldsEvents store exec.init bound))
    ((next turns exec).run ⟨store, log⟩) (Event.pull (exec.events store false) log)

theorem events_nlJoin (store : PageStore) (condition : Option (Expr Double))
    (outputSchema : Schema) (currentOuter : Option (Tuple Double))
    (outer inner : ExecutorT Double PageId) :
    (nlJoin condition outputSchema currentOuter outer inner).events store false =
      joinEvents (passes (.to outputSchema) condition) currentOuter (outer.events store false)
        (inner.events store false) (inner.events store true) := by
  cases currentOuter <;> rfl

section Operators

variable {turns bound : Nat} (enough : bound ≤ turns + 1 ∨ excused .unending)
variable (children : ∀ (start : ExecutorT Double PageId) (bound : Nat),
  bound ≤ turns ∨ excused .unending →
    Source excused store (next turns) (HoldsEvents store start bound))

include enough

theorem pulls_seqScan {firstPageId : PageId} {tableSchema : Schema}
    {predicate : Option (Expr Double)} {iter : BpmHeapIter PageId}
    (ready : (seqScan firstPageId tableSchema predicate iter).Ready store)
    (need_le : (seqScan firstPageId tableSchema predicate iter).need store false ≤ bound) :
    Pulls excused store (turns + 1) bound (seqScan firstPageId tableSchema predicate iter) := by
  intro log
  obtain ⟨restart, at_⟩ := ready
  have fewer : (rowsOf store iter).length < turns ∨ excused .unending :=
    enough.imp_left fun enough => by
      have : (rowsOf store iter).length + 2 ≤ bound := need_le
      omega
  have source := seqScanNext_source tableSchema predicate fewer iter
    (scanEvents tableSchema predicate (rowsOf store iter)) log ⟨at_, rfl, Nat.le_refl _⟩
  rw [next, StateT.run_bind]
  refine source.bind_left fun outcome expected delivered => ?_
  have holds : ∀ left events,
      ScanHolds store tableSchema predicate (rowsOf store iter).length left events →
      HoldsEvents store (seqScan firstPageId tableSchema predicate iter).init bound
        (seqScan firstPageId tableSchema predicate left) events := by
    rintro left events ⟨at_, rfl, bounded⟩
    refine ⟨⟨restart, at_⟩, rfl, rfl, ?_⟩
    exact Nat.le_trans (Nat.add_le_add_right bounded 2) need_le
  cases delivered with
  | ended left => exact .ok (.ended (holds _ _ left))
  | row left => exact .ok (.row (holds _ _ left))

include children

theorem pulls_filter {predicate : Expr Double} {child : ExecutorT Double PageId}
    (need_le : (filter predicate child).need store false ≤ bound) (ready : child.Ready store) :
    Pulls excused store (turns + 1) bound (filter predicate child) := by
  intro log
  rw [need] at need_le
  have fewer : (child.events store false).length < turns ∨ excused .unending :=
    enough.imp_left (by omega)
  have source := (children child.init _ (enough.imp_left (by omega))).filterNext
    (passes child.outputSchema (some predicate)) fewer child _ log
    ⟨_, .self ready, Nat.le_refl _, rfl⟩
  rw [next, StateT.run_bind]
  refine source.bind_left fun outcome expected delivered => ?_
  have holds : ∀ left events,
      (∃ pulled, HoldsEvents store child.init (child.need store false) left pulled ∧
        pulled.length ≤ (child.events store false).length ∧
        events = Event.bindItems pulled
          (passEvents (passes child.outputSchema (some predicate)))) →
      HoldsEvents store (filter predicate child).init bound (filter predicate left) events := by
    rintro left _ ⟨pulled, held, bounded, rfl⟩
    refine ⟨held.ready, by rw [ExecutorT.init, held.same]; rfl, ?_, ?_⟩
    · rw [ExecutorT.events, held.events_eq, held.outputSchema_eq rfl]
    · have := held.need_le
      rw [need, held.events_eq]
      omega
  cases delivered with
  | ended left => exact .ok (.ended (holds _ _ left))
  | row left => exact .ok (.row (holds _ _ left))

theorem pulls_project {expressions : List (Expr Double)} {outputSchema : Schema}
    {child : ExecutorT Double PageId}
    (need_le : (project expressions outputSchema child).need store false ≤ bound)
    (ready : child.Ready store) :
    Pulls excused store (turns + 1) bound (project expressions outputSchema child) := by
  intro log
  rw [need] at need_le
  rw [next, StateT.run_bind, ExecutorT.events, Event.pull_bindItems]
  refine (children child.init _ (enough.imp_left (by omega)) child _ log (.self ready)).bind
    fun outcome expected delivered => ?_
  have holds : ∀ left pulled, HoldsEvents store child.init (child.need store false) left pulled →
      HoldsEvents store (project expressions outputSchema child).init bound
        (project expressions outputSchema left)
        (Event.bindItems pulled (projectEvents expressions child.outputSchema)) := by
    intro left pulled held
    refine ⟨held.ready, by rw [ExecutorT.init, held.same]; rfl, ?_, ?_⟩
    · rw [ExecutorT.events, held.events_eq, held.outputSchema_eq rfl]
    · have := held.need_le
      rw [need]
      omega
  cases delivered with
  | ended left => exact .ok (.ended (holds _ _ left))
  | @row left tuple rest log held =>
      dsimp only
      rw [StateT.run_bind, note_run, projectEvents, pull_eventsOf_map, bind_assoc,
        held.outputSchema_eq rfl]
      exact .rfl_bind _ fun (values, notes) _ => .ok (.row (holds _ _ held))

theorem pulls_limit {rows offset : Int32} {emitted skipped : Nat}
    {child : ExecutorT Double PageId}
    (need_le : (limit rows offset emitted skipped child).need store false ≤ bound)
    (ready : child.Ready store) :
    Pulls excused store (turns + 1) bound (limit rows offset emitted skipped child) := by
  intro log
  rw [need] at need_le
  have childEnough : child.need store false ≤ turns ∨ excused .unending :=
    enough.imp_left (by omega)
  have held : LimitHolds (HoldsEvents store child.init (child.need store false)) rows offset
      ((emitted, skipped), child) ((limit rows offset emitted skipped child).events store false) :=
    ⟨_, .self ready, rfl⟩
  have source := (children child.init _ childEnough).limitNext rows offset held log
  rw [next, StateT.run_bind]
  refine source.bind_left fun ⟨⟨counters, left, row⟩, session⟩ expected delivered => ?_
  have holds : ∀ (counters : Nat × Nat) left events,
      LimitHolds (HoldsEvents store child.init (child.need store false)) rows offset
        (counters, left) events →
      HoldsEvents store (limit rows offset emitted skipped child).init bound
        (limit rows offset counters.1 counters.2 left) events := by
    rintro counters left _ ⟨pulled, held, rfl⟩
    have held : HoldsEvents store child.init (child.need store false) left pulled := held
    refine ⟨held.ready, by rw [ExecutorT.init, held.same]; rfl, ?_, ?_⟩
    · rw [ExecutorT.events, held.events_eq]
      rfl
    · have := held.need_le
      rw [need]
      omega
  rw [limitOutcome] at delivered
  cases delivered with
  | ended held => exact .ok (.ended (holds counters left _ held))
  | row held => exact .ok (.row (holds counters left _ held))

theorem pulls_hashAgg {groupBy aggregates : List (Expr Double)}
    {groups : Option (List (AggGroup Double))} {child : ExecutorT Double PageId}
    (need_le : (hashAgg groupBy aggregates groups child).need store false ≤ bound)
    (ready : child.Ready store) :
    Pulls excused store (turns + 1) bound (hashAgg groupBy aggregates groups child) := by
  intro log
  have positive := Nat.lt_of_lt_of_le (need_pos store false _) need_le
  have holds : ∀ (groups : List (AggGroup Double)) (left : ExecutorT Double PageId),
      left.Ready store → left.init = child.init →
      HoldsEvents store (hashAgg groupBy aggregates groups child).init bound
        (hashAgg groupBy aggregates (some groups) left) (groupEvents groupBy aggregates groups) :=
    fun groups left ready same =>
      ⟨ready, by rw [ExecutorT.init, same]; rfl, rfl, Nat.succ_le_of_lt positive⟩
  cases groups with
  | some groups =>
      cases groups with
      | nil => exact .ok (.ended (holds [] child ready rfl))
      | cons group groups => exact .ok (.row (holds groups child ready rfl))
  | none =>
      simp only [need] at need_le
      have fewer : (child.events store false).length < turns ∨ excused .unending :=
        enough.imp_left (by omega)
      have consumed := (children child.init _ (enough.imp_left (by omega))).consume
        (addToGroups groupBy aggregates child.outputSchema) (HoldsEvents.self ready) fewer [] log
      simp only [next]
      rw [StateT.run_bind]
      show Lockstep _ _ _ (Event.pull (Event.fold _ _ [] _) log)
      rw [Event.pull_fold]
      refine consumed.bind ?_
      rintro _ _ ⟨held⟩
      rename_i left groups log
      obtain ⟨closed, closes, same, stillReady⟩ := close_run held.ready log
      have same := same.trans held.same
      dsimp only
      rw [StateT.run_bind, closes]
      cases groups with
      | nil => exact .ok (.ended (holds [] closed stillReady same))
      | cons group groups => exact .ok (.row (holds groups closed stillReady same))

theorem pulls_sort {items : List (OrderByItem Double)} {tuples : Option (List (Tuple Double))}
    {child : ExecutorT Double PageId}
    (need_le : (sort items tuples child).need store false ≤ bound) (ready : child.Ready store) :
    Pulls excused store (turns + 1) bound (sort items tuples child) := by
  intro log
  have positive := Nat.lt_of_lt_of_le (need_pos store false _) need_le
  have holds : ∀ (tuples : List (Tuple Double)) (left : ExecutorT Double PageId),
      left.Ready store → left.init = child.init →
      HoldsEvents store (sort items (some tuples) child).init bound
        (sort items (some tuples) left) (tuples.map .item) :=
    fun tuples left ready same =>
      ⟨ready, by rw [ExecutorT.init, same]; rfl, rfl, Nat.succ_le_of_lt positive⟩
  cases tuples with
  | some tuples =>
      cases tuples with
      | nil => exact .ok (.ended (holds [] child ready rfl))
      | cons tuple tuples => exact .ok (.row (holds tuples child ready rfl))
  | none =>
      simp only [need] at need_le
      have fewer : (child.events store false).length < turns ∨ excused .unending :=
        enough.imp_left (by omega)
      have consumed := (children child.init _ (enough.imp_left (by omega))).consume
        (fun tuples tuple => pure (tuples ++ [tuple])) (HoldsEvents.self ready) fewer [] log
      simp only [next]
      rw [StateT.run_bind]
      show Lockstep _ _ _ (Event.pull (Event.fold _ _ [] _) log)
      rw [Event.pull_fold]
      refine consumed.bind ?_
      rintro _ _ ⟨held⟩
      rename_i left tuples log
      obtain ⟨closed, closes, same, stillReady⟩ := close_run held.ready log
      have same := same.trans held.same
      dsimp only
      rw [StateT.run_bind, closes, ok_bind, StateT.run_bind, note_run, sortEvents, eventsOf,
        ← List.append_nil (Event.ofCall _), Event.pull_ofCall, bind_assoc]
      refine .rfl_bind _ ?_
      rintro ⟨sorted, notes⟩ -
      cases sorted with
      | nil => exact .ok (.ended (holds [] closed stillReady same))
      | cons tuple sorted =>
          simp only [List.append_nil]
          exact .ok (.row (holds sorted closed stillReady same))

theorem pulls_nlJoin {condition : Option (Expr Double)} {outputSchema : Schema}
    {currentOuter : Option (Tuple Double)} {outer inner : ExecutorT Double PageId}
    (need_le : (nlJoin condition outputSchema currentOuter outer inner).need store false ≤ bound)
    (ready : outer.Ready store ∧ inner.Ready store) :
    Pulls excused store (turns + 1) bound
      (nlJoin condition outputSchema currentOuter outer inner) := by
  intro log
  rw [need] at need_le
  have resets : ∀ left events log,
      HoldsEvents store inner.init (max (inner.need store false) (inner.need store true))
        left events →
      ∃ again, (do return (← left.close).init : ExecM PageStore _).run ⟨store, log⟩ =
          .ok (again, ⟨store, log⟩) ∧
        HoldsEvents store inner.init (max (inner.need store false) (inner.need store true)) again
          (inner.events store true) := by
    intro left events log held
    obtain ⟨closed, closes, same, stillReady⟩ := close_run held.ready log
    refine ⟨closed.init, ?_, stillReady.init, ?_, ?_, ?_⟩
    · rw [StateT.run_bind, closes]
      rfl
    · rw [init_init, same, held.same]
    · rw [same, held.same, events_init]
    · rw [same, held.same, need_init]
      exact Nat.le_max_right _ _
  have fewer : 2 * (outer.events store false).length +
      max (inner.events store false).length (inner.events store true).length + 3 +
        (if currentOuter.isSome then 1 else 0) ≤ turns ∨ excused .unending :=
    enough.imp_left fun enough => by split <;> omega
  have source := (children outer.init _ (enough.imp_left (by omega))).joinNext
    (children inner.init _ (enough.imp_left (by omega))) resets
    (passes (.to outputSchema) condition) (Nat.le_max_right _ _)
    ⟨_, _, .self ready.1, ⟨ready.2, rfl, rfl, Nat.le_max_left _ _⟩, Nat.le_refl _,
      Nat.le_max_left _ _, events_nlJoin store condition outputSchema currentOuter outer inner⟩
    fewer log
  rw [next, StateT.run_bind]
  refine source.bind_left fun ⟨⟨current, left, right, row⟩, session⟩ expected delivered => ?_
  have holds : ∀ (current : Option (Tuple Double)) left right events,
      JoinHolds (HoldsEvents store outer.init (outer.need store false))
        (HoldsEvents store inner.init (max (inner.need store false) (inner.need store true)))
        (passes (.to outputSchema) condition) (inner.events store true)
        (outer.events store false).length
        (max (inner.events store false).length (inner.events store true).length)
        (current, left, right) events →
      HoldsEvents store (nlJoin condition outputSchema currentOuter outer inner).init bound
        (nlJoin condition outputSchema current left right) events := by
    rintro current left right _
      ⟨outerEvents, innerEvents, heldOuter, heldInner, outerBounded, innerBounded, rfl⟩
    have heldOuter : HoldsEvents store outer.init (outer.need store false) left outerEvents :=
      heldOuter
    have heldInner : HoldsEvents store inner.init
        (max (inner.need store false) (inner.need store true)) right innerEvents := heldInner
    obtain ⟨again_events, again_need⟩ := heldInner.restarted rfl
    refine ⟨⟨heldOuter.ready, heldInner.ready⟩, ?_, ?_, ?_⟩
    · rw [ExecutorT.init, heldOuter.same, heldInner.same]
      rfl
    · rw [events_nlJoin, heldOuter.events_eq, heldInner.events_eq, again_events]
    · have := heldOuter.need_le
      have := heldInner.need_le
      rw [need, heldOuter.events_eq, heldInner.events_eq, again_events, again_need]
      omega
  rw [joinOutcome] at delivered
  cases delivered with
  | ended held => exact .ok (.ended (holds current left right _ held))
  | row held => exact .ok (.row (holds current left right _ held))

end Operators

/-- Every tree that only reads delivers its events. -/
theorem next_source (turns : Nat) (start : ExecutorT Double PageId) (bound : Nat)
    (enough : bound ≤ turns ∨ excused .unending) :
    Source excused store (next turns) (HoldsEvents store start bound) := by
  induction turns generalizing start bound with
  | zero =>
      rintro exec events log ⟨ready, same, _, need_le⟩
      have := need_pos store false exec
      exact .excused (enough.resolve_left (by omega))
  | succ turns ih =>
      rintro exec _ log ⟨ready, rfl, rfl, need_le⟩
      cases exec with
      | null => exact .error _
      | seqScan => exact pulls_seqScan enough ready need_le log
      | filter => exact pulls_filter enough ih need_le ready log
      | project => exact pulls_project enough ih need_le ready log
      | nlJoin => exact pulls_nlJoin enough ih need_le ready log
      | hashAgg => exact pulls_hashAgg enough ih need_le ready log
      | sort => exact pulls_sort enough ih need_le ready log
      | limit => exact pulls_limit enough ih need_le ready log
      | update | delete => exact ready.elim

end ExecutorT

end MiniSqlite.Executor
