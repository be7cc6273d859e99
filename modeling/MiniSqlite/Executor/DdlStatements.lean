import MiniSqlite.Buffer.AllocatedPages
import MiniSqlite.Catalog.CatalogRuns
import MiniSqlite.Executor.ExecutionEngine

/-!
# DDL statements that fail

A DDL statement that fails should leave the catalog and the allocated pages as they
were, and `IF NOT EXISTS` and `IF EXISTS` should make a statement without effect
succeed. `execute_ddl` allocates the root page of an index before it looks the table
up, and does not read either clause. `ddlCorrect_iff` says which statements are
correct all the same.
-/

namespace MiniSqlite.Executor

open MiniSqlite.Common MiniSqlite.Std MiniSqlite.Storage MiniSqlite.Buffer MiniSqlite.Catalog
  MiniSqlite.Parser

variable {Double : Type} {db after : Database BufferPoolManager} {freed : List PageId}
  {stmt : Stmt Double} {result : StatementResult Double}

/-- There is a table of the name. -/
def tableExists (cat : CatalogT) (tableName : CString) : Bool :=
  (cat.nameToId.hashmapGet tableName).isSome

/-- There is an index of the name. -/
def indexExists (cat : CatalogT) (indexName : CString) : Bool :=
  cat.indexCache.entries.any fun entry => entry.2.indexName = indexName

/-- The table has the column. -/
def columnExists (cat : CatalogT) (tableName column : CString) : Bool :=
  match lookUpTable cat tableName with
  | none => false
  | some (_, schema) => (schemaFindColumn schema column).isSome

/-- The catalog and the set of allocated pages are the same. -/
def Unchanged (db after : Database BufferPoolManager) : Prop :=
  after.catalog = db.catalog ∧ after.bpm.diskManager.allocated = db.bpm.diskManager.allocated

/-- A statement that fails changes nothing. One with `IF NOT EXISTS` on a table that
exists, or with `IF EXISTS` on one that does not, succeeds and changes nothing. -/
structure DdlCorrect (db after : Database BufferPoolManager) (stmt : Stmt Double)
    (result : StatementResult Double) : Prop where
  failed : result.code ≠ .ok → Unchanged db after
  ifNotExists : ∀ tableName columns, stmt = .createTable tableName columns true →
    tableExists db.catalog tableName = true → result.code = .ok ∧ Unchanged db after
  ifExists : ∀ tableName, stmt = .dropTable tableName true →
    tableExists db.catalog tableName = false → result.code = .ok ∧ Unchanged db after

/-- The clauses have nothing to do, and an index that gets a page is created. -/
def DdlSpared (db : Database BufferPoolManager) : Stmt Double → Prop
  | .createTable tableName _ ifNotExists =>
      ifNotExists = true → tableExists db.catalog tableName = false
  | .dropTable tableName ifExists => ifExists = true → tableExists db.catalog tableName = true
  | .createIndex tableName indexName column _ => hasFrame db.bpm = true →
      columnExists db.catalog tableName column = true ∧ indexExists db.catalog indexName = false
  | _ => True

theorem Unchanged.refl (db : Database BufferPoolManager) : Unchanged db db := ⟨rfl, rfl⟩

/-! ## Tables -/

theorem catalogGetTable_failed {cat : CatalogT} {tableName : CString} {rc : ErrorCode}
    (unknown : catalogGetTable cat tableName = .error rc) : rc ≠ .ok := by
  unfold catalogGetTable at unknown
  split at unknown
  · rw [← Except.error.inj unknown]
    decide
  · split at unknown
    · rw [← Except.error.inj unknown]
      decide
    · cases unknown

theorem schemaCreate_failed {columns : List ColumnDef} {rc : ErrorCode}
    (refused : schemaCreate columns = .error rc) : rc ≠ .ok := by
  unfold schemaCreate at refused
  split at refused
  · rw [← Except.error.inj refused]
    decide
  · cases refused

theorem catalogGetSchema_failed {cat : CatalogT} {tableId : TableId} {rc : ErrorCode}
    (unknown : catalogGetSchema cat tableId = .error rc) : rc ≠ .ok := by
  unfold catalogGetSchema at unknown
  split at unknown
  · rw [← Except.error.inj unknown]
    decide
  · exact schemaCreate_failed unknown

/-- `CREATE TABLE` fails on a table that exists, and leaves no trace where it fails. -/
theorem createTable_outcome {tableName : CString} {columns : List (AstColumnDef Double)}
    {ifNotExists : Bool}
    (ran : executeDdl db (.createTable tableName columns ifNotExists) = .ok (after, result)) :
    (tableExists db.catalog tableName = true → result.code ≠ .ok) ∧
      (result.code ≠ .ok → after = db) := by
  rw [executeDdl] at ran
  split at ran
  · rename_i rc refused
    obtain ⟨rfl, rfl⟩ := Prod.mk.inj (Except.ok.inj ran)
    exact ⟨fun _ => schemaCreate_failed refused, fun _ => rfl⟩
  · rename_i schema _
    obtain ⟨⟨cat, tableId⟩, created, returned⟩ := Returning.returned ran
    cases tableId with
    | none =>
        obtain ⟨rfl, rfl⟩ := Prod.mk.inj (Except.ok.inj returned)
        obtain rfl := catalogCreateTable_failed created
        exact ⟨fun _ => by simp, fun _ => rfl⟩
    | some tableId =>
        obtain ⟨rfl, rfl⟩ := Prod.mk.inj (Except.ok.inj returned)
        refine ⟨fun present => ?_, fun failed => absurd rfl failed⟩
        obtain ⟨other, found⟩ := Option.isSome_iff_exists.mp present
        have refused : catalogCreateTable db.catalog tableName schema =
            .ok (db.catalog, none) := by
          rw [catalogCreateTable, found]
        have same := Except.ok.inj (refused.symm.trans created)
        cases (Prod.mk.inj same).2

/-- `DROP TABLE` fails without the table, and leaves no trace where it fails. -/
theorem dropTable_outcome {tableName : CString} {ifExists : Bool}
    (ran : executeDdl db (.dropTable tableName ifExists : Stmt Double) = .ok (after, result)) :
    (tableExists db.catalog tableName = false → result.code ≠ .ok) ∧
      (result.code ≠ .ok → after = db) := by
  have failed := catalogDropTable_failed db.catalog tableName
  obtain ⟨rfl, rfl⟩ := Prod.mk.inj (Except.ok.inj ran)
  refine ⟨fun missing => ?_, fun refused => ?_⟩
  · have none : db.catalog.nameToId.hashmapGet tableName = none := by
      simpa [tableExists] using missing
    have refused : catalogDropTable db.catalog tableName = (db.catalog, .unknownTable) := by
      rw [catalogDropTable, none]
    show (catalogDropTable db.catalog tableName).2 ≠ .ok
    rw [refused]
    simp
  · show ({ db with catalog := (catalogDropTable db.catalog tableName).1 } :
      Database BufferPoolManager) = db
    rw [failed refused]

/-- `DROP INDEX` leaves no trace where it fails. -/
theorem dropIndex_outcome {indexName : CString}
    (ran : executeDdl db (.dropIndex indexName : Stmt Double) = .ok (after, result))
    (failed : result.code ≠ .ok) : after = db := by
  have unchanged := catalogDropIndex_failed db.catalog indexName
  obtain ⟨rfl, rfl⟩ := Prod.mk.inj (Except.ok.inj ran)
  show ({ db with catalog := (catalogDropIndex db.catalog indexName).1 } :
    Database BufferPoolManager) = db
  rw [unchanged failed]

/-! ## Indexes -/

/-- What `execute_ddl` does for `CREATE INDEX` once it has the root page. -/
def addIndex (db : Database BufferPoolManager) (tableName indexName column : CString)
    (isUnique : Bool) (rootPid : PageId) :
    Except Fault (Executed BufferPoolManager Double) :=
  match catalogGetTable db.catalog tableName with
  | .error rc => .ok (ended db rc none)
  | .ok tableMeta =>
      match catalogGetSchema db.catalog tableMeta.tableId with
      | .error rc => .ok (ended db rc none)
      | .ok schema =>
          match schemaFindColumn schema column with
          | none => .ok (ended db .unknownColumn none)
          | some colIdx => do
              match ← catalogCreateIndex db.catalog indexName tableMeta.tableId
                (Int32.ofNat colIdx) rootPid isUnique with
              | (cat, none) => return ended { db with catalog := cat } .duplicateKey none
              | (cat, some _) => return ended { db with catalog := cat } .ok (some 0)

/-- The name of an index that exists is refused, and another one is not. -/
theorem catalogCreateIndex_outcome {cat next : CatalogT} {indexName : CString} {tableId : TableId}
    {colId : ColumnId} {rootPid : PageId} {isUnique : Bool} {created : Option IndexId}
    (called : catalogCreateIndex cat indexName tableId colId rootPid isUnique =
      .ok (next, created)) : created = none ↔ indexExists cat indexName = true := by
  unfold catalogCreateIndex at called
  split at called
  · rename_i present
    exact iff_of_true (Prod.mk.inj (Except.ok.inj called)).2.symm present
  · rename_i new
    obtain ⟨following, -, returned⟩ := Returning.returned called
    obtain ⟨-, rfl⟩ := Prod.mk.inj (Except.ok.inj returned)
    exact iff_of_false (by simp) new

/-- A table that the catalog does not know has no column. -/
theorem columnExists_unknown {cat : CatalogT} {tableName column : CString}
    (unknown : lookUpTable cat tableName = none) : columnExists cat tableName column = false := by
  unfold columnExists
  rw [unknown]

/-- A table that the catalog knows has the columns of its schema. -/
theorem columnExists_known {cat : CatalogT} {tableName column : CString} {tableMeta : TableMeta}
    {schema : Schema} (found : lookUpTable cat tableName = some (tableMeta, schema)) :
    columnExists cat tableName column = (schemaFindColumn schema column).isSome := by
  unfold columnExists
  rw [found]

/-- An index is added exactly where its table has the column and its name is new. -/
theorem addIndex_outcome {tableName indexName column : CString} {isUnique : Bool}
    {rootPid : PageId}
    (ran : addIndex db tableName indexName column isUnique rootPid = .ok (after, result)) :
    after.bpm = db.bpm ∧
      (result.code = .ok ↔ columnExists db.catalog tableName column = true ∧
        indexExists db.catalog indexName = false) := by
  unfold addIndex at ran
  cases found : catalogGetTable db.catalog tableName with
  | error rc =>
      have unknown : lookUpTable db.catalog tableName = none := by
        unfold lookUpTable
        rw [found]
      rw [found] at ran
      obtain ⟨rfl, rfl⟩ := Prod.mk.inj (Except.ok.inj ran)
      exact ⟨rfl, iff_of_false (catalogGetTable_failed found) (by
        simp [columnExists_unknown unknown])⟩
  | ok tableMeta =>
      rw [found] at ran
      dsimp only at ran
      cases known : catalogGetSchema db.catalog tableMeta.tableId with
      | error rc =>
          have unknown : lookUpTable db.catalog tableName = none := by
            unfold lookUpTable
            rw [found]
            dsimp only
            rw [known]
          rw [known] at ran
          obtain ⟨rfl, rfl⟩ := Prod.mk.inj (Except.ok.inj ran)
          exact ⟨rfl, iff_of_false (catalogGetSchema_failed known) (by
            simp [columnExists_unknown unknown])⟩
      | ok schema =>
          have both : lookUpTable db.catalog tableName = some (tableMeta, schema) := by
            unfold lookUpTable
            rw [found]
            dsimp only
            rw [known]
          rw [known] at ran
          dsimp only at ran
          rw [columnExists_known both]
          cases column : schemaFindColumn schema column with
          | none =>
              rw [column] at ran
              obtain ⟨rfl, rfl⟩ := Prod.mk.inj (Except.ok.inj ran)
              exact ⟨rfl, iff_of_false (by simp) (by simp)⟩
          | some colIdx =>
              rw [column] at ran
              obtain ⟨⟨cat, indexId⟩, created, returned⟩ := Returning.returned ran
              have refused := catalogCreateIndex_outcome created
              cases indexId with
              | none =>
                  obtain ⟨rfl, rfl⟩ := Prod.mk.inj (Except.ok.inj returned)
                  exact ⟨rfl, iff_of_false (by simp) (by simp [refused.mp rfl])⟩
              | some indexId =>
                  obtain ⟨rfl, rfl⟩ := Prod.mk.inj (Except.ok.inj returned)
                  have new : indexExists db.catalog indexName = false :=
                    Bool.eq_false_iff.mpr fun present => absurd (refused.mpr present) (by simp)
                  exact ⟨rfl, iff_of_true rfl ⟨rfl, new⟩⟩

/-- `CREATE INDEX` gets a page first, if it can, and then adds the index. -/
theorem createIndex_outcome (kept : FreedKept db.bpm freed)
    {tableName indexName column : CString} {isUnique : Bool}
    (ran : executeDdl db (.createIndex tableName indexName column isUnique : Stmt Double) =
      .ok (after, result)) :
    hasFrame db.bpm = false ∧ result.code ≠ .ok ∧ Unchanged db after ∨
      hasFrame db.bpm = true ∧ ¬Unchanged db after ∧
        (result.code = .ok ↔ columnExists db.catalog tableName column = true ∧
          indexExists db.catalog indexName = false) := by
  obtain ⟨⟨bpm, root⟩, allocated, rest⟩ := Returning.returned ran
  rcases (kept.bpmNewPage allocated).2 with
    ⟨some, rootPid, frame, rfl, new, pages⟩ | ⟨none, rfl, pages⟩
  · obtain ⟨unpinned, called, added⟩ := Returning.returned rest
    obtain ⟨⟨unpinned, rc⟩, unpins, returned⟩ := Returning.returned called
    obtain rfl := Returning.pure_inj returned
    obtain ⟨granted, held⟩ := (kept.bpmNewPage allocated).1
    have disk := (held.bpmUnpinPage unpins).1
    obtain ⟨sameBpm, outcome⟩ := @addIndex_outcome Double ⟨db.catalog, unpinned⟩ after result
      tableName indexName column isUnique rootPid added
    refine .inr ⟨some, fun unchanged => ?_, outcome⟩
    have same : after.bpm.diskManager = bpm.diskManager := sameBpm ▸ disk
    rw [Unchanged, same, pages] at unchanged
    exact new (unchanged.2 ▸ Set.mem_insert _ _)
  · obtain ⟨rfl, rfl⟩ := Prod.mk.inj (Except.ok.inj rest)
    exact .inl ⟨none, by simp, rfl, pages⟩

/-! ## All statements -/

/-- A DDL statement that runs is correct exactly where its clauses have nothing to do and an
index that gets a page is created. -/
theorem ddlCorrect_iff (reached : PoolReached db.bpm)
    (ran : executeDdl db stmt = .ok (after, result)) :
    DdlCorrect db after stmt result ↔ DdlSpared db stmt := by
  obtain ⟨freed, kept⟩ := reached.freedKept
  cases stmt with
  | createTable tableName columns ifNotExists =>
      obtain ⟨taken, unchanged⟩ := createTable_outcome ran
      constructor
      · rintro correct rfl
        refine Bool.eq_false_iff.mpr fun present => ?_
        exact taken present (correct.ifNotExists _ _ rfl present).1
      · intro spared
        refine ⟨fun failed => unchanged failed ▸ .refl db, ?_, by simp⟩
        rintro _ _ same present
        obtain ⟨rfl, rfl, rfl⟩ := Stmt.createTable.inj same
        rw [spared rfl] at present
        cases present
  | dropTable tableName ifExists =>
      obtain ⟨missing, unchanged⟩ := dropTable_outcome ran
      constructor
      · rintro correct rfl
        cases present : tableExists db.catalog tableName with
        | true => rfl
        | false => exact absurd (correct.ifExists _ rfl present).1 (missing present)
      · intro spared
        refine ⟨fun failed => unchanged failed ▸ .refl db, by simp, ?_⟩
        rintro _ same absent
        obtain ⟨rfl, rfl⟩ := Stmt.dropTable.inj same
        rw [spared rfl] at absent
        cases absent
  | createIndex tableName indexName column isUnique =>
      rcases createIndex_outcome kept ran with
        ⟨none, failed, unchanged⟩ | ⟨some, changed, outcome⟩
      · refine iff_of_true ⟨fun _ => unchanged, by simp, by simp⟩ fun some => ?_
        rw [none] at some
        cases some
      · constructor
        · intro correct _
          exact outcome.mp (Classical.byContradiction fun failed => changed (correct.failed failed))
        · intro spared
          exact ⟨fun failed => absurd (outcome.mpr (spared some)) failed, by simp, by simp⟩
  | dropIndex indexName =>
      exact iff_of_true
        ⟨fun failed => dropIndex_outcome ran failed ▸ .refl db, by simp, by simp⟩ trivial
  | insert | update | delete | select | transaction | explain =>
      obtain ⟨rfl, rfl⟩ := Prod.mk.inj (Except.ok.inj ran)
      exact iff_of_true ⟨fun _ => .refl db, by simp, by simp⟩ trivial

/-- A new database with a pool of one frame. -/
def newDatabase : Except Fault (Database BufferPoolManager) := do
  let bpm ← bpmInit 1 diskManagerCreate
  return ⟨catalogInit, bpm⟩

/-- `CREATE INDEX i ON t (a)`. -/
def indexOnNothing : Stmt Int :=
  .createIndex (.ofChars ['t']) (.ofChars ['i']) (.ofChars ['a']) false

/-- The statement fails on a new database. -/
theorem newDatabase_indexOnNothing : ∃ db after result, PoolReached db.bpm ∧
    hasFrame db.bpm = true ∧ executeDdl db indexOnNothing = .ok (after, result) ∧
      result.code = .unknownTable := by
  have ran : (newDatabase >>= fun db => (executeDdl db indexOnNothing).map fun executed =>
      (hasFrame db.bpm, executed.2.code)) = .ok (true, .unknownTable) := by
    decide +kernel
  obtain ⟨db, made, executes⟩ := Returning.returned ran
  obtain ⟨bpm, started, returned⟩ := Returning.returned made
  obtain rfl := Returning.pure_inj returned
  cases executed : executeDdl (⟨catalogInit, bpm⟩ : Database BufferPoolManager) indexOnNothing with
  | error fault =>
      rw [executed] at executes
      cases executes
  | ok outcome =>
      rw [executed] at executes
      obtain ⟨some, code⟩ := Prod.mk.inj (Except.ok.inj executes)
      exact ⟨_, outcome.1, outcome.2, .init diskManagerCreate_healthy started, some, executed, code⟩

theorem ddlCorrect_iff_indexOnNothing : ∃ db after result,
    executeDdl db indexOnNothing = .ok (after, result) ∧
      (DdlCorrect db after indexOnNothing result ↔ DdlSpared db indexOnNothing) := by
  obtain ⟨db, after, result, reached, -, ran, -⟩ := newDatabase_indexOnNothing
  exact ⟨db, after, result, ran, ddlCorrect_iff reached ran⟩

/-- The page that was to be the root of the index stays allocated. -/
theorem indexOnNothing_leaks : ¬ ∀ (db after : Database BufferPoolManager) (stmt : Stmt Int)
    (result : StatementResult Int), PoolReached db.bpm →
      executeDdl db stmt = .ok (after, result) → DdlCorrect db after stmt result := by
  intro claimed
  obtain ⟨db, after, result, reached, some, ran, code⟩ := newDatabase_indexOnNothing
  obtain ⟨freed, kept⟩ := reached.freedKept
  have correct := claimed db after indexOnNothing result reached ran
  rcases createIndex_outcome kept ran with ⟨none, -, -⟩ | ⟨-, changed, -⟩
  · rw [some] at none
    cases none
  · exact changed (correct.failed (by simp [code]))

end MiniSqlite.Executor
