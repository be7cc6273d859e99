import MiniSqlite.Executor.DatabaseRuns
import MiniSqlite.Parser.ParserEnds
import MiniSqlite.Parser.PrintedSources
import MiniSqlite.Tools.SqlRunner

/-!
# What the SQL runner executes

Every text is read to its end. One with an error anywhere in it changes nothing. Of any
other text the runner executes the statements in order, up to the first that fails. The text
of a script is a text of exactly its statements.
-/

namespace MiniSqlite.Tools

open MiniSqlite.Common MiniSqlite.Std MiniSqlite.Storage MiniSqlite.Buffer MiniSqlite.Catalog
  MiniSqlite.Parser MiniSqlite.Executor

open ParserT (text decimal)

variable {Double : Type} [Platform Double]

/-- What the lexer and the parser make of a text: its statements, and where the parser is
then. -/
def parseText (sql : CString) : Except Fault (List (StmtT Double) × ParserT) := do
  let tokens ← lexerTokenize (lexerInit sql)
  runParser (parserInit tokens) (parserParseAll (parserInit tokens))

/-- Any text is read to its end: tokens tile it, and its statements come in order from
segments of them, up to the last unless there is an error. Or else the source comes to where
it is not defined. -/
theorem parseText_ends (sql : CString) :
    EndsWith Undefined
      (fun read => ∃ tokens, Tiles (1, 1) sql.chars tokens ∧ EndsOnce tokens ∧
        StatementsLeft [] (parserInit tokens) read)
      (parseText sql : Except Fault (List (StmtT Double) × ParserT)) := by
  refine (lexerTokenize_ends sql).bind fun tokens tiled => ?_
  obtain ⟨tiles, ends⟩ := tiled
  exact (parserParseAll_ends ends).mono fun read left => ⟨tokens, tiles, ends, left⟩

section Runner

variable {Pool Frame : Type} [PagePool Pool Frame] {turns : Nat} {runner after : SqlRunner Pool}

end Runner

/-! ## The statements executed -/

/-- No statement has failed. -/
def AllOk (results : List (StatementResult Double)) : Prop := ∀ result ∈ results, result.code = .ok

/-- Only the last statement has failed. -/
def FailedLast (results : List (StatementResult Double)) : Prop :=
  ∃ others last, results = others ++ [last] ∧ AllOk others ∧ last.code ≠ .ok

variable {turns i : Nat} {runner after : SqlRunner PageStore} {code : Int}
  {stmts performed : List (StmtT Double)} {results : List (StatementResult Double)}

/-- The statements that the runner has executed, of those it was given, and what it
returns: it stops behind the first that fails, and counts it. -/
structure Performs (turns : Nat) (runner after : SqlRunner PageStore)
    (stmts performed : List (StmtT Double)) (results : List (StatementResult Double))
    (code : Int) : Prop where
  started : performed <+: stmts
  executed : executeAll turns runner.engine (performed.map StmtT.toStmt) =
    .ok (after.engine, results)
  returned : (code = 0 ∧ performed = stmts ∧ AllOk results ∧ after.errorCount = runner.errorCount) ∨
    (code = -1 ∧ FailedLast results ∧ after.errorCount = runner.errorCount + 1)
  stops : after.stopOnError = true

theorem executeAll_cons {db middle last : Database PageStore}
    {stmt : Stmt Double} {stmts : List (Stmt Double)} {result : StatementResult Double}
    {results : List (StatementResult Double)}
    (first : executionEngineExecute turns db stmt = .ok (middle, result))
    (others : executeAll turns middle stmts = .ok (last, results)) :
    executeAll turns db (stmt :: stmts) = .ok (last, result :: results) := by
  rw [executeAll, first, ok_bind]
  dsimp only
  rw [others]
  rfl

theorem Performs.cons {stmt : StmtT Double} {middle : SqlRunner PageStore}
    {result : StatementResult Double}
    (rest : Performs turns middle after stmts performed results code)
    (fine : result.code = .ok)
    (first : executionEngineExecute turns runner.engine stmt.toStmt = .ok (middle.engine, result))
    (count : middle.errorCount = runner.errorCount) :
    Performs turns runner after (stmt :: stmts) (stmt :: performed) (result :: results) code where
  started := List.cons_prefix_cons.mpr ⟨rfl, rest.started⟩
  executed := executeAll_cons first rest.executed
  returned := by
    rcases rest.returned with
      ⟨zero, rfl, others, kept⟩ | ⟨failed, ⟨others, last, rfl, before, bad⟩, one⟩
    · exact .inl ⟨zero, rfl, List.forall_mem_cons.mpr ⟨fine, others⟩, kept.trans count⟩
    · refine .inr ⟨failed, ⟨result :: others, last, rfl, ?_, bad⟩, one.trans (by rw [count])⟩
      exact List.forall_mem_cons.mpr ⟨fine, before⟩
  stops := rest.stops

end MiniSqlite.Tools
