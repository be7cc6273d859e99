import MiniSqlite.Executor.ExecutorTree
import MiniSqlite.Executor.BpmHeapScan
import MiniSqlite.Std.Events

/-!
# What a query delivers

The meaning of an executor tree over an ideal pool, without iterators and
buffers: `ExecutorT.events` computes from the rows of the tables which tuples
the tree has still to deliver, and which errors it meets on the way to each of
them. `ExecutorT.need` bounds the turns its loops take.
-/

namespace MiniSqlite.Executor

open MiniSqlite.Common MiniSqlite.Std MiniSqlite.Storage MiniSqlite.Buffer MiniSqlite.Parser

variable {Double : Type}

/-- An event of an executor: a tuple, an error code or a fault. -/
abbrev RowEvent (Double : Type) := Event Fault Int (Tuple Double)

/-- The events of a computation without access to the pool. -/
def eventsOf {α : Type} (call : Noted (List α)) : List (Event Fault Int α) :=
  Event.ofCall call.run

theorem pull_eventsOf_map {α β : Type} (call : Noted β) (rows : β → List α)
    (rest : List (Event Fault Int α)) (log : List Int) :
    Event.pull (eventsOf (rows <$> call) ++ rest) log =
      (call.run >>= fun (value, notes) =>
        Event.pull ((rows value).map .item ++ rest) (log ++ notes)) := by
  rw [eventsOf, Event.pull_ofCall]
  show (((fun entry : β × List Int => (rows entry.1, entry.2)) <$> call.run) >>= _) = _
  cases call.run <;> rfl

/-- A tuple, if it passes. -/
def passEvents (pass : Tuple Double → Noted Bool) (tuple : Tuple Double) :
    List (RowEvent Double) :=
  eventsOf ((fun passed => if passed then [tuple] else []) <$> pass tuple)

/-- A pair of tuples, if it passes. -/
def pairEvents (pass : Tuple Double → Noted Bool) (outer inner : Tuple Double) :
    List (RowEvent Double) :=
  passEvents pass ⟨outer.values ++ inner.values, invalidRid⟩

/-- The events behind a limit of which some rows have been emitted. -/
def limitEvents (rows : Int32) (emitted : Nat) (events : List (RowEvent Double)) :
    List (RowEvent Double) :=
  if rows ≥ 0 then Event.takeItems (rows.toInt.toNat - emitted) events else events

section Evaluating

variable [Platform Double]

/-- What a scan delivers of some rows. -/
def scanEvents (tableSchema : Schema) (predicate : Option (Expr Double))
    (rows : List (Rid × List UInt8)) : List (RowEvent Double) :=
  rows.flatMap fun row => eventsOf (Option.toList <$> scanRow tableSchema predicate row)

/-- A tuple projected. -/
def projectEvents (expressions : List (Expr Double)) (schema : SchemaPointer)
    (tuple : Tuple Double) : List (RowEvent Double) :=
  eventsOf ((fun values => [⟨values, invalidRid⟩]) <$> evaluateAll tuple schema expressions)

/-- The tuples of the groups. -/
def groupEvents (groupBy aggregates : List (Expr Double)) (groups : List (AggGroup Double)) :
    List (RowEvent Double) :=
  groups.map fun group => .item (groupRow groupBy aggregates group)

/-- The tuples in order. -/
def sortEvents (schema : SchemaPointer) (items : List (OrderByItem Double))
    (tuples : List (Tuple Double)) : List (RowEvent Double) :=
  eventsOf (sortTuples schema items tuples)

end Evaluating

/-! ## The rows of a scan -/

/-- The iterator a scan starts with. -/
def startIter (firstPageId : PageId) : BpmHeapIter PageId := ⟨firstPageId, 0, none⟩

/-- The iterator of a scan, which may be restarted before it is used. -/
def currentIter (restarted : Bool) (firstPageId : PageId) (iter : BpmHeapIter PageId) :
    BpmHeapIter PageId :=
  if restarted then startIter firstPageId else iter

/-- The rows an iterator has still to give. -/
def rowsOf (store : PageStore) (iter : BpmHeapIter PageId) : List (Rid × List UInt8) :=
  pendingRows store iter (chainFrom store.pages maxPages iter.currentPageId)

theorem rowsOf_eq {store : PageStore} {iter : BpmHeapIter PageId} {chain : List PageId}
    (at_ : IterAt store iter chain) (short : chain.length < maxPages) :
    rowsOf store iter = pendingRows store iter chain := by
  rw [rowsOf, chainFrom_eq at_.chained short]

namespace ExecutorT

/-! ## The events of an executor -/

variable [Platform Double]

/-- What an executor has still to deliver; `restarted` tells that it is initialised again
first. -/
def events (store : PageStore) : (restarted : Bool) → ExecutorT Double PageId →
    List (RowEvent Double)
  | _, .null => [.fault .nullPointer]
  | restarted, .seqScan firstPageId tableSchema predicate iter =>
      scanEvents tableSchema predicate (rowsOf store (currentIter restarted firstPageId iter))
  | restarted, .filter predicate child =>
      Event.bindItems (child.events store restarted)
        (passEvents (passes child.outputSchema (some predicate)))
  | restarted, .project expressions _ child =>
      Event.bindItems (child.events store restarted) (projectEvents expressions child.outputSchema)
  | restarted, .nlJoin condition outputSchema currentOuter outer inner =>
      let pass := passes (.to outputSchema) condition
      let pairsLeft := match currentOuter, restarted with
        | some current, false => Event.bindItems (inner.events store false) (pairEvents pass current)
        | _, _ => []
      pairsLeft ++ Event.bindItems (outer.events store restarted) fun tuple =>
        Event.bindItems (inner.events store true) (pairEvents pass tuple)
  | restarted, .hashAgg groupBy aggregates groups child =>
      match groups, restarted with
      | some groups, false => groupEvents groupBy aggregates groups
      | _, _ =>
          Event.fold (fun groups tuple =>
              (addToGroups groupBy aggregates child.outputSchema groups tuple).run)
            (groupEvents groupBy aggregates) [] (child.events store restarted)
  | restarted, .sort items tuples child =>
      match tuples, restarted with
      | some tuples, false => tuples.map .item
      | _, _ =>
          Event.fold (fun tuples tuple => .ok (tuples ++ [tuple], []))
            (sortEvents (ExecutorT.sort items none child).outputSchema items) []
            (child.events store restarted)
  | restarted, .limit rows offset emitted skipped child =>
      let (emitted, skipped) := if restarted then (0, 0) else (emitted, skipped)
      limitEvents rows emitted
        (Event.dropItems (offset.toInt.toNat - skipped) (child.events store restarted))
  | _, .update .. | _, .delete .. => []

/-- How many turns are enough for the loops of an executor. -/
def need (store : PageStore) : (restarted : Bool) → ExecutorT Double PageId → Nat
  | _, .null => 1
  | restarted, .seqScan firstPageId _ _ iter =>
      (rowsOf store (currentIter restarted firstPageId iter)).length + 2
  | restarted, .filter _ child =>
      child.need store restarted + (child.events store restarted).length + 2
  | restarted, .project _ _ child => child.need store restarted + 1
  | restarted, .nlJoin _ _ _ outer inner =>
      outer.need store restarted + max (inner.need store restarted) (inner.need store true) +
        2 * (outer.events store restarted).length +
        max (inner.events store restarted).length (inner.events store true).length + 5
  | restarted, .hashAgg _ _ groups child =>
      match groups, restarted with
      | some _, false => 1
      | _, _ => child.need store restarted + (child.events store restarted).length + 2
  | restarted, .sort _ tuples child =>
      match tuples, restarted with
      | some _, false => 1
      | _, _ => child.need store restarted + (child.events store restarted).length + 2
  | restarted, .limit _ _ _ _ child => child.need store restarted + 1
  | _, .update .. | _, .delete .. => 1

/-- A tree that only reads, whose scans stand on tables of the store. -/
def Ready (store : PageStore) : ExecutorT Double PageId → Prop
  | .null => True
  | .seqScan firstPageId _ _ iter =>
      (∃ chain, Chained store.pages firstPageId chain ∧ chain.length < maxPages) ∧
        ∃ chain, IterAt store iter chain ∧ chain.length < maxPages
  | .filter _ child | .project _ _ child | .hashAgg _ _ _ child | .sort _ _ child
  | .limit _ _ _ _ child => child.Ready store
  | .nlJoin _ _ _ outer inner => outer.Ready store ∧ inner.Ready store
  | .update .. | .delete .. => False

end ExecutorT

end MiniSqlite.Executor
