import MiniSqlite.Executor.BpmHeap
import MiniSqlite.Executor.ExprEvaluator
import Mathlib.Control.Monad.Writer

/-!
# What executors run in

Executors share the buffer pool of their context. `Session.errors` is a ghost: it
records every error code that an evaluation, a cast, a (de)serialization or a heap
operation has returned, whatever became of it. No executor reads it.
-/

namespace MiniSqlite.Executor

open MiniSqlite.Common MiniSqlite.Storage MiniSqlite.Buffer MiniSqlite.Parser

variable {Pool Double : Type}

/-- A computation without access to the pool, with the error codes met in it. -/
abbrev Noted := WriterT (List Int) (Except Fault)

theorem noted_run_pure {α : Type} (value : α) : (pure value : Noted α).run = .ok (value, []) := rfl

theorem noted_run_bind {α β : Type} (call : Noted α) (rest : α → Noted β) :
    (call >>= rest).run =
      (call.run >>= fun (value, notes) =>
        (rest value).run >>= fun (result, more) => .ok (result, notes ++ more)) := rfl

/-- The pool of an `executor_context_t`, and the error codes returned so far. -/
structure Session (Pool : Type) where
  bpm : Pool
  errors : List Int

/-- A function of an executor. -/
abbrev ExecM (Pool : Type) := StateT (Session Pool) (Except Fault)

/-- A computation in C that cannot see the session. -/
theorem lift_run {α : Type} (call : Except Fault α) (session : Session Pool) :
    (liftM call : ExecM Pool α).run session = (call >>= fun value => .ok (value, session)) := rfl

/-- Records error codes. -/
def report (errors : List Int) : ExecM Pool Unit :=
  modify fun session => { session with errors := session.errors ++ errors }

/-- Runs a computation without access to the pool and records its error codes. -/
def note {α : Type} (call : Noted α) : ExecM Pool α := do
  let (value, errors) ← call.run
  report errors
  return value

/-- A call on the pool. -/
def onPool {α : Type} (call : Pool → Except Fault (Pool × α)) : ExecM Pool α := do
  let session ← get
  let (bpm, result) ← call session.bpm
  set { session with bpm := bpm }
  return result

/-- The result of a call whose caller looks at the code. -/
def attempted {α : Type} (call : Checked α) : Noted (Except ErrorCode α) :=
  match call.run with
  | .error fault => WriterT.mk (.error fault)
  | .ok (.error rc) => WriterT.mk (.ok (.error rc, [rc.code]))
  | .ok (.ok value) => WriterT.mk (.ok (.ok value, []))

theorem attempted_run {α : Type} (call : Checked α) :
    (attempted call).run =
      (call.run >>= fun outcome =>
        match outcome with
        | .error rc => .ok (.error rc, [rc.code])
        | .ok value => .ok (.ok value, [])) := by
  unfold attempted
  rcases call.run with fault | (rc | value) <;> rfl

/-- The result of a call whose caller does not look at the code: `NULL` if it failed. -/
def orNull (call : Checked (Value Double)) : Noted (Value Double) := do
  match ← attempted call with
  | .error _ => return .null
  | .ok value => return value

section Evaluate

variable [Platform Double]

/-- The value of an expression on a tuple, or `NULL` if evaluating it failed. -/
def evaluate (tuple : Tuple Double) (schema : SchemaPointer) (expr : Expr Double) :
    Noted (Value Double) :=
  orNull (exprEvaluate (some tuple) schema expr)

/-- The values of a list of expressions. -/
def evaluateAll (tuple : Tuple Double) (schema : SchemaPointer) :
    List (Expr Double) → Noted (List (Value Double))
  | [] => return []
  | expr :: exprs => do
      let value ← evaluate tuple schema expr
      let values ← evaluateAll tuple schema exprs
      return value :: values

/-- `rc == DB_OK && pred.type == TYPE_BOOLEAN && pred.val.bool_val`. -/
def isTrue : Value Double → Bool
  | .boolean true => true
  | _ => false

omit [Platform Double] in
theorem isTrue_iff {value : Value Double} : isTrue value = true ↔ value = .boolean true := by
  cases value with
  | boolean b => cases b <;> simp [isTrue]
  | _ => simp [isTrue]

/-- Whether a tuple passes a predicate, if there is one. -/
def passes (schema : SchemaPointer) (predicate : Option (Expr Double)) (tuple : Tuple Double) :
    Noted Bool :=
  match predicate with
  | none => return true
  | some expr => return isTrue (← evaluate tuple schema expr)

/-- Whether a tuple passes a predicate, from the value of the predicate. -/
theorem passes_some_run (schema : SchemaPointer) (condition : Expr Double) (tuple : Tuple Double) :
    (passes schema (some condition) tuple).run =
      ((exprEvaluate (some tuple) schema condition).run >>= fun outcome =>
        match outcome with
        | .error rc => .ok (false, [rc.code])
        | .ok value => .ok (isTrue value, [])) := by
  rw [passes, noted_run_bind, evaluate, orNull, noted_run_bind, attempted_run]
  rcases (exprEvaluate (some tuple) schema condition).run with fault | (rc | value) <;> rfl

end Evaluate

end MiniSqlite.Executor
