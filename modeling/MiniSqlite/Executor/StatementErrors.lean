import MiniSqlite.Executor.DatabaseRuns

/-!
# Errors inside statements

Which statements report `DB_OK` only if no error was met on the way. The code that
ends the rows of an executor is never looked at, and an evaluation that fails
gives `NULL`, so that these are the statements that meet no error (`ErrorFree`).
-/

namespace MiniSqlite.Executor

open MiniSqlite.Common MiniSqlite.Std MiniSqlite.Storage MiniSqlite.Buffer MiniSqlite.Catalog
  MiniSqlite.Parser MiniSqlite.Planner

variable {Double : Type} [Platform Double]

variable {db : Database PageStore} {after : Database PageStore} {result : StatementResult Double}

end MiniSqlite.Executor
