import MiniSqlite.Executor.ExecutionEngine
import MiniSqlite.Parser.ExecutedStatements
import MiniSqlite.Parser.Lexer
import MiniSqlite.Parser.Parser

/-!
# The SQL runner

`tools/sql_runner.c`: a text is read whole, and if there is no error in it, its statements
are executed one after the other. What is printed is kept with the runner. The plan that
`EXPLAIN` prints is left out. There are fewer errors than would overflow an `int`.
-/

namespace MiniSqlite.Tools

open MiniSqlite.Common MiniSqlite.Storage MiniSqlite.Buffer MiniSqlite.Catalog MiniSqlite.Parser
  MiniSqlite.Executor

open ParserT (text decimal)

variable {Pool Frame Double : Type}

/-- `sql_runner_t` with the database of its engine, and what it has printed. -/
structure SqlRunner (Pool : Type) where
  engine : Database Pool
  echo : Bool
  stopOnError : Bool
  errorCount : Nat
  stdout : List UInt8
  stderr : List UInt8

/-- `sql_runner_init`. -/
def sqlRunnerInit (engine : Database Pool) : SqlRunner Pool where
  engine := engine
  echo := false
  stopOnError := true
  errorCount := 0
  stdout := []
  stderr := []

namespace SqlRunner

/-- Prints to `stdout`. -/
def print (runner : SqlRunner Pool) (output : List UInt8) : SqlRunner Pool :=
  { runner with stdout := runner.stdout ++ output }

/-- Prints an error to `stderr` and counts it. -/
def fail (runner : SqlRunner Pool) (message : List UInt8) : SqlRunner Pool :=
  { runner with
    errorCount := runner.errorCount + 1
    stderr := runner.stderr ++ message }

end SqlRunner

/-! ## Printing -/

section Printing

variable [Platform Double]

end Printing

/-! ## Executing -/

variable [PagePool Pool Frame] [Platform Double]

variable (Double)

end MiniSqlite.Tools
