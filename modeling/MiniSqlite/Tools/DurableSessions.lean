import MiniSqlite.Executor.StatementsMirrored
import MiniSqlite.Storage.DiskRuns
import MiniSqlite.Tools.Main

/-!
# Sessions over a real file

The program works with a pool over a file. As long as it creates no more pages than the
pool has frames, it returns and prints what it would over an ideal store, and the file
holds the pages of the store when it has ended.
-/

namespace MiniSqlite.Tools

open MiniSqlite.Common MiniSqlite.Std MiniSqlite.Storage MiniSqlite.Buffer MiniSqlite.Catalog
  MiniSqlite.Parser MiniSqlite.Executor

open ParserT (text decimal)

variable {Double : Type} [Platform Double] {Pool Pool' : Type}

/-! ## Runners -/

/-- The same runner with another engine. -/
def SqlRunner.over (runner : SqlRunner Pool) (engine : Database Pool') : SqlRunner Pool' where
  engine := engine
  echo := runner.echo
  stopOnError := runner.stopOnError
  errorCount := runner.errorCount
  stdout := runner.stdout
  stderr := runner.stderr

/-- The runners differ in the pools of their engines only. The session has begun with the
pool `start`. -/
structure SameRunner (start : BufferPoolManager) (runner : SqlRunner PageStore)
    (runner' : SqlRunner BufferPoolManager) : Prop where
  others : runner' = runner.over runner'.engine
  engine : SameDatabase runner.engine runner'.engine
  sound : DatabaseSound runner.engine
  kept : FramesKept start runner'.engine.bpm

variable {start : BufferPoolManager} {runner : SqlRunner PageStore}
  {runner' : SqlRunner BufferPoolManager}

theorem SameRunner.print (same : SameRunner start runner runner') (output : List UInt8) :
    SameRunner start (runner.print output) (runner'.print output) := by
  obtain ⟨engine⟩ := runner'
  obtain ⟨others, engines, sound, kept⟩ := same
  cases others
  exact ⟨rfl, engines, sound, kept⟩

theorem SameRunner.fail (same : SameRunner start runner runner') (message : List UInt8) :
    SameRunner start (runner.fail message) (runner'.fail message) := by
  obtain ⟨engine⟩ := runner'
  obtain ⟨others, engines, sound, kept⟩ := same
  cases others
  exact ⟨rfl, engines, sound, kept⟩

variable (Double)

/-- The loops differ in the pools of their engines only. -/
structure SameRepl (start : BufferPoolManager) (repl : Repl PageStore)
    (repl' : Repl BufferPoolManager) : Prop where
  runner : SameRunner start repl.runner repl'.runner
  running : repl.running = repl'.running
  sqlBuf : repl.sqlBuf = repl'.sqlBuf

variable {repl : Repl PageStore} {repl' : Repl BufferPoolManager}

theorem SameRepl.print (same : SameRepl start repl repl') (output : List UInt8) :
    SameRepl start (repl.print output) (repl'.print output) :=
  ⟨same.runner.print output, same.running, same.sqlBuf⟩

/-- The runners of `.read`. -/
theorem SameRunner.reader (same : SameRunner start runner runner') :
    SameRunner start
      { sqlRunnerInit runner.engine with stdout := runner.stdout, stderr := runner.stderr }
      { sqlRunnerInit runner'.engine with stdout := runner'.stdout, stderr := runner'.stderr } := by
  obtain ⟨engine⟩ := runner'
  obtain ⟨others, engines, sound, kept⟩ := same
  cases others
  exact ⟨rfl, engines, sound, kept⟩

variable {Double}

end MiniSqlite.Tools
