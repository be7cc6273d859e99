import MiniSqlite.Executor.HashAggregate

/-!
# Executors

`executor/executor.h` and the operators behind it: `seq_scan_executor.c`,
`filter_executor.c`, `project_executor.c`, `nl_join_executor.c`,
`hash_agg_executor.c`, `sort_executor.c`, `limit_executor.c`,
`update_executor.c` and `delete_executor.c`. An executor is a node with its
state and its children. Its `next` delivers a tuple or the code that ends the
stream. Each loop of an operator is a function of the `next` of its child. What
is allocated and released is left out.
-/

namespace MiniSqlite.Executor

open MiniSqlite.Common MiniSqlite.Storage MiniSqlite.Buffer MiniSqlite.Parser

variable {Pool Frame Double : Type}

/-- `executor_t*` with its children. -/
inductive ExecutorT (Double Frame : Type) where
  /-- `NULL`. -/
  | null
  | seqScan (firstPageId : PageId) (tableSchema : Schema) (predicate : Option (Expr Double))
      (iter : BpmHeapIter Frame)
  | filter (predicate : Expr Double) (child : ExecutorT Double Frame)
  | project (expressions : List (Expr Double)) (outputSchema : Schema)
      (child : ExecutorT Double Frame)
  | nlJoin (condition : Option (Expr Double)) (outputSchema : Schema)
      (currentOuter : Option (Tuple Double)) (outer inner : ExecutorT Double Frame)
  /-- `groups` are those still to emit, once the operator has materialized them. -/
  | hashAgg (groupBy aggregates : List (Expr Double)) (groups : Option (List (AggGroup Double)))
      (child : ExecutorT Double Frame)
  /-- `tuples` are those still to emit, once the operator has materialized them. -/
  | sort (items : List (OrderByItem Double)) (tuples : Option (List (Tuple Double)))
      (child : ExecutorT Double Frame)
  | limit (rows offset : Int32) (emitted skipped : Nat) (child : ExecutorT Double Frame)
  | update (firstPageId : PageId) (tableSchema : Schema) (assignments : List (Assignment Double))
      (done : Bool) (child : ExecutorT Double Frame)
  | delete (firstPageId : PageId) (tableSchema : Schema) (done : Bool)
      (child : ExecutorT Double Frame)

namespace ExecutorT

/-- `exec->output_schema`. A copy of no schema is memory never written. -/
def outputSchema : ExecutorT Double Frame → SchemaPointer
  | .seqScan _ tableSchema _ _ => .to tableSchema
  | .filter _ child => child.outputSchema
  | .project _ outputSchema _ => .to outputSchema
  | .nlJoin _ outputSchema _ _ _ => .to outputSchema
  | .sort _ _ child | .limit _ _ _ _ child =>
      match child.outputSchema with
      | .null => .uninitialized
      | schema => schema
  | .null | .hashAgg .. | .update .. | .delete .. => .null

/-- `exec->init`. -/
def init : ExecutorT Double Frame → ExecutorT Double Frame
  | .null => .null
  | .seqScan firstPageId tableSchema predicate _ =>
      .seqScan firstPageId tableSchema predicate ⟨firstPageId, 0, none⟩
  | .filter predicate child => .filter predicate child.init
  | .project expressions outputSchema child => .project expressions outputSchema child.init
  | .nlJoin condition outputSchema _ outer inner =>
      .nlJoin condition outputSchema none outer.init inner.init
  | .hashAgg groupBy aggregates _ child => .hashAgg groupBy aggregates none child.init
  | .sort items _ child => .sort items none child.init
  | .limit rows offset _ _ child => .limit rows offset 0 0 child.init
  | .update firstPageId tableSchema assignments _ child =>
      .update firstPageId tableSchema assignments false child.init
  | .delete firstPageId tableSchema _ child => .delete firstPageId tableSchema false child.init

variable [PagePool Pool Frame]

/-- `exec->close`. An operator that has materialized its rows has closed its child then. -/
def close : ExecutorT Double Frame → ExecM Pool (ExecutorT Double Frame)
  | .null => return .null
  | .seqScan firstPageId tableSchema predicate iter => do
      onPool fun bpm => return (← bpmHeapIterDestroy bpm iter, ())
      return .seqScan firstPageId tableSchema predicate { iter with currentPage := none }
  | .filter predicate child => return .filter predicate (← child.close)
  | .project expressions outputSchema child =>
      return .project expressions outputSchema (← child.close)
  | .nlJoin condition outputSchema _ outer inner => do
      let outer ← outer.close
      let inner ← inner.close
      return .nlJoin condition outputSchema none outer inner
  | .hashAgg groupBy aggregates _ child => return .hashAgg groupBy aggregates none child
  | .sort items _ child => return .sort items none child
  | .limit rows offset emitted skipped child =>
      return .limit rows offset emitted skipped (← child.close)
  | .update firstPageId tableSchema assignments done child =>
      return .update firstPageId tableSchema assignments done (← child.close)
  | .delete firstPageId tableSchema done child =>
      return .delete firstPageId tableSchema done (← child.close)

end ExecutorT

/-! ## The loops of the operators -/

/-- What `next` returns: a tuple or an error code, and the executor it leaves behind. -/
abbrev Pulled (Child Double : Type) := Child × Except ErrorCode (Tuple Double)

section Loops

variable {Child Acc : Type}

/-- Pulls rows until the child returns no `DB_OK`. -/
def consume (next : Child → ExecM Pool (Pulled Child Double))
    (accumulate : Acc → Tuple Double → Noted Acc) : Nat → Child → Acc → ExecM Pool (Child × Acc)
  | 0, _, _ => throw .unending
  | turns + 1, child, acc => do
      match ← next child with
      | (child, .error _) => return (child, acc)
      | (child, .ok tuple) =>
          let acc ← note (accumulate acc tuple)
          consume next accumulate turns child acc

/-- The loop of `filter_next`. -/
def filterNext (next : Child → ExecM Pool (Pulled Child Double))
    (pass : Tuple Double → Noted Bool) : Nat → Child → ExecM Pool (Pulled Child Double)
  | 0, _ => throw .unending
  | turns + 1, child => do
      match ← next child with
      | (child, .error _) => return (child, .error .pageNotFound)
      | (child, .ok tuple) =>
          if ← note (pass tuple) then return (child, .ok tuple)
          else filterNext next pass turns child

/-- The inner loop of `nl_join_next`: the next inner tuple that makes a pair. -/
def joinInner (next : Child → ExecM Pool (Pulled Child Double))
    (pass : Tuple Double → Noted Bool) (outer : Tuple Double) :
    Nat → Child → ExecM Pool (Pulled Child Double)
  | 0, _ => throw .unending
  | turns + 1, inner => do
      match ← next inner with
      | (inner, .error _) => return (inner, .error .pageNotFound)
      | (inner, .ok tuple) =>
          -- `combine_tuples`
          let combined := ⟨outer.values ++ tuple.values, invalidRid⟩
          if ← note (pass combined) then return (inner, .ok combined)
          else joinInner next pass outer turns inner

/-- The outer loop of `nl_join_next`. -/
def joinNext (next : Child → ExecM Pool (Pulled Child Double))
    (reset : Child → ExecM Pool Child) (pass : Tuple Double → Noted Bool) :
    Nat → Option (Tuple Double) → Child → Child →
      ExecM Pool (Option (Tuple Double) × Child × Pulled Child Double)
  | 0, _, _, _ => throw .unending
  | turns + 1, none, outer, inner => do
      match ← next outer with
      | (outer, .error _) => return (none, outer, inner, .error .pageNotFound)
      | (outer, .ok tuple) =>
          let inner ← reset inner
          joinNext next reset pass turns (some tuple) outer inner
  | turns + 1, some current, outer, inner => do
      match ← joinInner next pass current turns inner with
      | (inner, .ok combined) => return (some current, outer, inner, .ok combined)
      | (inner, .error _) => joinNext next reset pass turns none outer inner

/-- The loop of `limit_next` over the offset: the rows still to skip in the end, and
whether the child still had them. -/
def skipRows (next : Child → ExecM Pool (Pulled Child Double)) :
    Nat → Child → ExecM Pool (Child × Nat × Bool)
  | 0, child => return (child, 0, true)
  | remaining + 1, child => do
      match ← next child with
      | (child, .error _) => return (child, remaining + 1, false)
      | (child, .ok _) => skipRows next remaining child

/-- `limit_next`, with the counters. -/
def limitNext (next : Child → ExecM Pool (Pulled Child Double)) (rows offset : Int32)
    (emitted skipped : Nat) (child : Child) :
    ExecM Pool ((Nat × Nat) × Pulled Child Double) := do
  if rows ≥ 0 ∧ emitted ≥ rows.toInt.toNat then
    return ((emitted, skipped), child, .error .pageNotFound)
  let (child, missing, found) ← skipRows next (offset.toInt.toNat - skipped) child
  let skipped := max skipped (offset.toInt.toNat - missing)
  if !found then return ((emitted, skipped), child, .error .pageNotFound)
  match ← next child with
  | (child, .error _) => return ((emitted, skipped), child, .error .pageNotFound)
  | (child, .ok tuple) => return ((emitted + 1, skipped), child, .ok tuple)

end Loops

/-! ## Scanning, sorting and changing tables -/

variable [PagePool Pool Frame] [Platform Double]

/-- Whether a row read from a table is delivered: it has to deserialize and to pass. -/
def scanRow (tableSchema : Schema) (predicate : Option (Expr Double))
    (row : Rid × List UInt8) : Noted (Option (Tuple Double)) := do
  match ← attempted (tupleDeserialize tableSchema row.2) with
  | .error _ => return none
  | .ok tuple =>
      let tuple := { tuple with rid := row.1 }
      if ← passes (.to tableSchema) predicate tuple then return some tuple else return none

/-- `seq_scan_next`. The iterator reports the end of the table and a page that cannot
be fetched with one code, of which only the second is an error. -/
def seqScanNext (tableSchema : Schema) (predicate : Option (Expr Double)) :
    Nat → BpmHeapIter Frame → ExecM Pool (Pulled (BpmHeapIter Frame) Double)
  | 0, _ => throw .unending
  | turns + 1, iter => do
      match ← onPool fun bpm => bpmHeapIterNext maxPages bpm iter with
      | (iter, .error rc) =>
          if iter.currentPageId ≠ invalidPageId then report [rc.code]
          return (iter, .error .pageNotFound)
      | (iter, .ok row) =>
          match ← note (scanRow tableSchema predicate row) with
          | some tuple => return (iter, .ok tuple)
          | none => seqScanNext tableSchema predicate turns iter

/-- The order of two sort keys: `NULL` last. -/
def compareKeys (va vb : Value Double) : Int :=
  if va.isNull && vb.isNull then 0 else if va.isNull then 1 else if vb.isNull then -1
  else valueCompare va vb

/-- `sort_compare`. -/
def sortCompare (schema : SchemaPointer) :
    List (OrderByItem Double) → Tuple Double → Tuple Double → Noted Int
  | [], _, _ => return 0
  | item :: items, ta, tb => do
      let va ← evaluate ta schema item.expr
      let vb ← evaluate tb schema item.expr
      let cmp := compareKeys va vb
      if cmp ≠ 0 then return if item.ascending then cmp else -cmp
      sortCompare schema items ta tb

/-- What `sort_compare` returns, as far as it is defined. -/
def sortOrder (schema : SchemaPointer) (items : List (OrderByItem Double))
    (ta tb : Tuple Double) : Int :=
  match (sortCompare schema items ta tb).run with
  | .ok (cmp, _) => cmp
  | .error _ => 0

/-- The call of `qsort`, with the error codes of the comparisons it makes. -/
def sortTuples (schema : SchemaPointer) (items : List (OrderByItem Double))
    (tuples : List (Tuple Double)) : Noted (List (Tuple Double)) := do
  if tuples = [] then return []
  let (sorted, compared) := Platform.qsort Double (sortOrder schema items) tuples
  compared.forM fun (ta, tb) => do let _ ← sortCompare schema items ta tb
  return sorted

/-- The new tuple of `update_next`: the old values, then the assignments in order. -/
def applyAssignments (tableSchema : Schema) (old : Tuple Double)
    (assignments : List (Assignment Double)) : Checked (Tuple Double) := do
  let new : Tuple Double :=
    ⟨(List.range tableSchema.numColumns).map fun i => (tupleGetValue old i).getD .null,
      invalidRid⟩
  assignments.foldlM
    (fun new assignment => do
      match schemaFindColumn tableSchema assignment.column with
      | none => throw .unknownColumn
      | some colIdx =>
          let val ← exprEvaluate (some old) (.to tableSchema) assignment.value
          return tupleSetValue new colIdx val)
    new

/-- The bytes of a tuple that are passed to the heap: its size is cast to `uint16_t`. -/
def heapBytes (tuple : Tuple Double) (tableSchema : Schema) : Except Fault (List UInt8) := do
  let bytes ← tupleSerialize tuple tableSchema
    ⟨Platform.uninitialized Double, schemaMaxTupleSize tableSchema⟩
  return bytes.take (bytes.length % 65536)

section Changes

variable {Child : Type}

/-- A call on the heap of an executor. -/
def onHeap (firstPageId : PageId)
    (call : BpmHeap Pool → Except Fault (BpmHeap Pool × HeapResult)) :
    ExecM Pool (PageId × HeapResult) := do
  let (firstPageId, result) ← onPool fun bpm => do
    let (heap, result) ← call ⟨bpm, firstPageId⟩
    return (heap.bpm, heap.firstPageId, result)
  if result.code ≠ ErrorCode.ok.code then report [result.code]
  return (firstPageId, result)

/-- The loop of `update_next`: the executor is done when its child is. -/
def updateNext (next : Child → ExecM Pool (Pulled Child Double)) (firstPageId : PageId)
    (tableSchema : Schema) (assignments : List (Assignment Double)) :
    Nat → Child → ExecM Pool (Bool × Pulled Child Double)
  | 0, _ => throw .unending
  | turns + 1, child => do
      match ← next child with
      | (child, .error _) => return (true, child, .error .pageNotFound)
      | (child, .ok old) =>
          match ← note (attempted (applyAssignments tableSchema old assignments)) with
          | .error rc => return (false, child, .error rc)
          | .ok new =>
              let bytes ← heapBytes new tableSchema
              let (_, result) ← onHeap firstPageId (bpmHeapUpdate · old.rid bytes)
              if result.code = ErrorCode.ok.code then return (false, child, .ok old)
              else updateNext next firstPageId tableSchema assignments turns child

/-- The loop of `delete_next`. -/
def deleteNext (next : Child → ExecM Pool (Pulled Child Double)) (firstPageId : PageId) :
    Nat → Child → ExecM Pool (Bool × Pulled Child Double)
  | 0, _ => throw .unending
  | turns + 1, child => do
      match ← next child with
      | (child, .error _) => return (true, child, .error .pageNotFound)
      | (child, .ok tuple) =>
          let (_, result) ← onHeap firstPageId (bpmHeapDelete · tuple.rid)
          if result.code = ErrorCode.ok.code then return (false, child, .ok tuple)
          else deleteNext next firstPageId turns child

end Changes

/-! ## `exec->next` -/

namespace ExecutorT

/-- `exec->next`, whose loops take at most `turns` turns each. -/
def next : Nat → ExecutorT Double Frame → ExecM Pool (Pulled (ExecutorT Double Frame) Double)
  | 0, _ => throw .unending
  | _ + 1, .null => throw .nullPointer
  | turns + 1, .seqScan firstPageId tableSchema predicate iter => do
      let (iter, row) ← seqScanNext tableSchema predicate turns iter
      return (.seqScan firstPageId tableSchema predicate iter, row)
  | turns + 1, .filter predicate child => do
      let (child, row) ←
        filterNext (next turns) (passes child.outputSchema (some predicate)) turns child
      return (.filter predicate child, row)
  | turns + 1, .project expressions outputSchema child => do
      match ← next turns child with
      | (child, .error _) =>
          return (.project expressions outputSchema child, .error .pageNotFound)
      | (child, .ok tuple) =>
          let values ← note (evaluateAll tuple child.outputSchema expressions)
          return (.project expressions outputSchema child, .ok ⟨values, invalidRid⟩)
  | turns + 1, .nlJoin condition outputSchema currentOuter outer inner => do
      let (currentOuter, outer, inner, row) ←
        joinNext (next turns) (fun inner => return (← inner.close).init)
          (passes (.to outputSchema) condition) turns currentOuter outer inner
      return (.nlJoin condition outputSchema currentOuter outer inner, row)
  | turns + 1, .hashAgg groupBy aggregates groups child => do
      let (groups, child) ← match groups with
        | some groups => pure (groups, child)
        | none => do
            let (child, groups) ← consume (next turns)
              (addToGroups groupBy aggregates child.outputSchema) turns child []
            pure (groups, ← child.close)
      match groups with
      | [] => return (.hashAgg groupBy aggregates (some []) child, .error .pageNotFound)
      | group :: groups =>
          return (.hashAgg groupBy aggregates (some groups) child,
            .ok (groupRow groupBy aggregates group))
  | turns + 1, .sort items tuples child => do
      let (tuples, child) ← match tuples with
        | some tuples => pure (tuples, child)
        | none => do
            let schema := (ExecutorT.sort items none child).outputSchema
            let (child, tuples) ←
              consume (next turns) (fun tuples tuple => pure (tuples ++ [tuple])) turns child []
            let child ← child.close
            let sorted ← note (sortTuples schema items tuples)
            pure (sorted, child)
      match tuples with
      | [] => return (.sort items (some []) child, .error .pageNotFound)
      | tuple :: tuples => return (.sort items (some tuples) child, .ok tuple)
  | turns + 1, .limit rows offset emitted skipped child => do
      let ((emitted, skipped), child, row) ←
        limitNext (next turns) rows offset emitted skipped child
      return (.limit rows offset emitted skipped child, row)
  | turns + 1, .update firstPageId tableSchema assignments done child => do
      if done then
        return (.update firstPageId tableSchema assignments done child, .error .pageNotFound)
      let (done, child, row) ←
        updateNext (next turns) firstPageId tableSchema assignments turns child
      return (.update firstPageId tableSchema assignments done child, row)
  | turns + 1, .delete firstPageId tableSchema done child => do
      if done then return (.delete firstPageId tableSchema done child, .error .pageNotFound)
      let (done, child, row) ← deleteNext (next turns) firstPageId turns child
      return (.delete firstPageId tableSchema done child, row)

end ExecutorT

end MiniSqlite.Executor
