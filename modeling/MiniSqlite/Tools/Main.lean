import MiniSqlite.Buffer.AllocatedPages
import MiniSqlite.Tools.Repl

/-!
# The program

`main.c`. A database file is given by a disk manager over it that is not open yet.
-/

namespace MiniSqlite.Tools

open MiniSqlite.Common MiniSqlite.Storage MiniSqlite.Buffer MiniSqlite.Catalog MiniSqlite.Parser
  MiniSqlite.Executor

open ParserT (text)

variable {Pool Frame : Type} [PagePool Pool Frame] (Double : Type) [Platform Double]

end MiniSqlite.Tools
