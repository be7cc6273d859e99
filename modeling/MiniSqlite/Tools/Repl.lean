import Mathlib.Data.List.DropRight
import MiniSqlite.Tools.SqlRunner

/-!
# The interactive loop

`tools/repl.c`. Lines are gathered until there is a semicolon among them, and then executed
together. A line that starts with a dot is a command, unless lines have been gathered
before it. The standard input is a list of bytes; files are given by their contents, and
those that cannot be opened have none.
-/

namespace MiniSqlite.Tools

open MiniSqlite.Common MiniSqlite.Storage MiniSqlite.Buffer MiniSqlite.Catalog MiniSqlite.Parser
  MiniSqlite.Executor

open ParserT (text)

variable {Pool Frame : Type}

/-! ## Reading lines -/

/-- `repl_t` with its runner, which works on the same engine, and `sql_buf`. -/
structure Repl (Pool : Type) where
  runner : SqlRunner Pool
  running : Bool
  sqlBuf : CString

namespace Repl

def print (repl : Repl Pool) (output : List UInt8) : Repl Pool :=
  { repl with runner := repl.runner.print output }

end Repl

variable [PagePool Pool Frame] (Double : Type) [Platform Double]

end MiniSqlite.Tools
