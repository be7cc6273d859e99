import MiniSqlite.Executor.DatabaseRuns
import MiniSqlite.Executor.OperatorsMirrored

/-!
# Statements over a real pool

The execution engine over a real pool gives the answers it gives over the ideal
store, statement after statement, as long as the store has pages left. The pool
goes on mirroring the store.
-/

namespace MiniSqlite.Executor

open MiniSqlite.Common MiniSqlite.Std MiniSqlite.Storage MiniSqlite.Buffer MiniSqlite.Catalog
  MiniSqlite.Parser MiniSqlite.Planner

variable {Double : Type} {region : Set PageId} {bpm : BufferPoolManager} {cat : CatalogT}

/-! ## Trees -/

/-- The tables start in the region, or have no pages. -/
def Rooted (cat : CatalogT) (region : Set PageId) : Prop :=
  ∀ tableName tableMeta, catalogGetTable cat tableName = .ok tableMeta →
    tableMeta.rootPageId = invalidPageId ∨ tableMeta.rootPageId ∈ region

variable [Platform Double] {session : Session BufferPoolManager}
  {exec : ExecutorT Double PageId} {exec' : ExecutorT Double FrameId}

section Inserts

variable {store : PageStore} {firstPageId : PageId} {chain : List PageId}

end Inserts

/-! ## Statements -/

/-- The pages of all tables. -/
def tableRegion (db : Database PageStore) : Set PageId :=
  {pid | ∃ tableName tableMeta, catalogGetTable db.catalog tableName = .ok tableMeta ∧
    pid ∈ tablePages db.bpm tableMeta}

/-- Databases with the same catalog, one of them over a real pool. -/
structure SameDatabase (db : Database PageStore) (db' : Database BufferPoolManager) : Prop where
  catalog : db.catalog = db'.catalog
  mirrors : Mirrors [] db.bpm db'.bpm

section Statements

variable {db : Database PageStore} {db' : Database BufferPoolManager}

omit [Platform Double]

theorem DatabaseSound.rooted (sound : DatabaseSound db) : Rooted db.catalog (tableRegion db) := by
  intro tableName tableMeta known
  obtain ⟨tableId, found⟩ := tableCache_of_get known
  have start := (Chained.closed (sound.heaps tableId tableMeta found).2.chained).1
  exact start.imp_right fun member => ⟨tableName, tableMeta, known, member⟩

theorem DatabaseSound.closed (sound : DatabaseSound db) : Closed db.bpm (tableRegion db) := by
  rintro pid ⟨tableName, tableMeta, known, member⟩
  obtain ⟨tableId, found⟩ := tableCache_of_get known
  obtain ⟨page, used, valid, leads⟩ := (sound.heaps tableId tableMeta found).2.closed pid member
  exact ⟨page, used, valid, leads.imp_right fun later => ⟨tableName, tableMeta, known, later⟩⟩

/-- Both statements have had the same outcome. -/
structure SameExecuted (bpm : BufferPoolManager) (done : Executed PageStore Double)
    (done' : Executed BufferPoolManager Double) : Prop where
  result : done.2 = done'.2
  database : SameDatabase done.1 done'.1
  kept : FramesKept bpm done'.1.bpm

theorem SameDatabase.ended (same : SameDatabase db db') (code : ErrorCode) (affected : Option Nat)
    (kept : FramesKept bpm db'.bpm) :
    @SameExecuted Double bpm (ended db code affected) (ended db' code affected) :=
  ⟨rfl, same, kept⟩

variable [Platform Double]

end Statements

end MiniSqlite.Executor
