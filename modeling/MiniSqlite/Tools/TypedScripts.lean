import MiniSqlite.Tools.Repl
import MiniSqlite.Tools.RunScripts

/-!
# Scripts that are typed

A script typed one statement a line is executed statement for statement. Unlike the runner on
the whole script, the loop goes on behind a statement that fails.
-/

namespace MiniSqlite.Tools

open MiniSqlite.Common MiniSqlite.Std MiniSqlite.Storage MiniSqlite.Buffer MiniSqlite.Catalog
  MiniSqlite.Parser MiniSqlite.Executor

/-! ## Lines -/

/-- What is typed for some lines. -/
def typed (lines : List CString) : List UInt8 := lines.flatMap fun line => line.chars ++ [10]

variable {Double : Type} {render : Double → CString}

variable [Platform Double]

variable {stmt : StmtT Double} {stmts : List (StmtT Double)}

section Loop

variable {Pool Frame : Type} [PagePool Pool Frame] {turns : Nat}
  {files : CString → Option (List UInt8)} {repl : Repl Pool}

end Loop

/-! ## Whole scripts -/

/-- How many statements have failed. -/
def failures (results : List (StatementResult Double)) : Nat :=
  results.countP fun result => result.code ≠ .ok

variable {turns : Nat} {files : CString → Option (List UInt8)}

end MiniSqlite.Tools
