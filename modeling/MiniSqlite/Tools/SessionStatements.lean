import MiniSqlite.Tools.DurableSessions
import MiniSqlite.Tools.RunScripts

/-!
# What a session does to its database

Whatever the program is given, by a file, a string or line by line, it changes its database
only by statements of texts without an error, executed one after another. So what every
statement keeps is kept by a session.
-/

namespace MiniSqlite.Tools

open MiniSqlite.Common MiniSqlite.Std MiniSqlite.Storage MiniSqlite.Buffer MiniSqlite.Catalog
  MiniSqlite.Parser MiniSqlite.Executor

/-! ## Statements one after another -/

section Statements

variable {Pool Frame Double : Type} [PagePool Pool Frame] [Platform Double] {turns : Nat}
  {before middle after : Database Pool} {stmts others : List (StmtT Double)}

/-- The engine executes the statements, of which some may fail, in order. -/
inductive Executes (turns : Nat) :
    Database Pool → List (StmtT Double) → Database Pool → Prop where
  | nil (db : Database Pool) : Executes turns db [] db
  | cons {before middle after : Database Pool} {stmt : StmtT Double} {stmts : List (StmtT Double)}
      {result : StatementResult Double}
      (first : executionEngineExecute turns before stmt.toStmt = .ok (middle, result))
      (others : Executes turns middle stmts after) : Executes turns before (stmt :: stmts) after

theorem Executes.append (first : Executes turns before stmts middle)
    (second : Executes turns middle others after) :
    Executes turns before (stmts ++ others) after := by
  induction first with
  | nil db => exact second
  | cons executed _ ih => exact .cons executed (ih second)

/-- What every statement keeps. -/
theorem Executes.keeps {holds : Database Pool → Prop} (executes : Executes turns before stmts after)
    (kept : ∀ {db next : Database Pool} {stmt : Stmt Double} {result : StatementResult Double},
      holds db → executionEngineExecute turns db stmt = .ok (next, result) → holds next)
    (start : holds before) : holds after := by
  induction executes with
  | nil db => exact start
  | cons executed _ ih => exact ih (kept start executed)

/-- The statements are the first of a text without an error. -/
def Legible (stmts : List (StmtT Double)) : Prop :=
  ∃ (sql : CString) (all : List (StmtT Double)) (parser : ParserT),
    parseText sql = .ok (all, parser) ∧ parser.hasError = false ∧ stmts <+: all

variable (Double)

/-- One database has become another by statements of texts. -/
def Worked (turns : Nat) (before after : Database Pool) : Prop :=
  ∃ pieces : List (List (StmtT Double)), (∀ piece ∈ pieces, Legible piece) ∧
    Executes turns before pieces.flatten after

theorem Worked.refl (db : Database Pool) : Worked Double turns db db :=
  ⟨[], by simp, .nil db⟩

variable {Double}

theorem Worked.trans (first : Worked Double turns before middle)
    (second : Worked Double turns middle after) : Worked Double turns before after := by
  obtain ⟨pieces, legible, executes⟩ := first
  obtain ⟨more, others, goesOn⟩ := second
  refine ⟨pieces ++ more, List.forall_mem_append.mpr ⟨legible, others⟩, ?_⟩
  rw [List.flatten_append]
  exact executes.append goesOn

theorem Worked.text (legible : Legible stmts) (executes : Executes turns before stmts after) :
    Worked Double turns before after :=
  ⟨[stmts], List.forall_mem_singleton.mpr legible, by simpa using executes⟩

end Statements

/-! ## Sessions -/

variable {Pool Frame Double : Type} [PagePool Pool Frame] [Platform Double] {turns : Nat}
  {runner after : SqlRunner Pool} {code : Int}

variable {files : CString → Option (List UInt8)} {repl next : Repl Pool}

theorem Executes.executeAll {before last : Database PageStore} {stmts : List (StmtT Double)}
    (executes : Executes turns before stmts last) :
    ∃ results, executeAll turns before (stmts.map StmtT.toStmt) = .ok (last, results) := by
  induction executes with
  | nil db => exact ⟨[], rfl⟩
  | cons executed _ ih =>
      obtain ⟨results, others⟩ := ih
      exact ⟨_, executeAll_cons executed others⟩

end MiniSqlite.Tools
