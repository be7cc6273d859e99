import MiniSqlite.Executor.ExecutorTree
import MiniSqlite.Planner.Planner

/-!
# The execution engine

`executor/execution_engine.c` with `insert_executor.c`: statements go to the
catalog, or through the planner to a tree of executors that is pulled until it
returns no `DB_OK`. `EXPLAIN` prints a plan, which is left out.
-/

namespace MiniSqlite.Executor

open MiniSqlite.Common MiniSqlite.Storage MiniSqlite.Buffer MiniSqlite.Catalog MiniSqlite.Parser
  MiniSqlite.Planner

variable {Pool Frame Double : Type}

/-! ## Building executors -/

/-- `"col%d"`. -/
def defaultColumnName (i : Nat) : CString :=
  .ofChars (['c', 'o', 'l'] ++ Nat.toDigits 10 i)

/-- A column of the output schema of a projection. A column the child does not have
keeps its name only. -/
def projectColumn (childSchema : SchemaPointer) (entry : Expr Double × Nat) : ColumnDef :=
  match entry.1, childSchema with
  | .columnRef _ column, .to schema =>
      match schemaFindColumn schema column with
      | some ci =>
          match schema.columns[ci]? with
          | some col => { col with name := column }
          | none => { name := column, type := .null, nullable := false, maxLength := 0 }
      | none => { name := column, type := .null, nullable := false, maxLength := 0 }
  | _, _ =>
      { name := defaultColumnName entry.2, type := .integer, nullable := true, maxLength := 0 }

/-- The table and schema that `build_executor` looks up for a node. -/
def lookUpTable (cat : CatalogT) (tableName : CString) : Option (TableMeta × Schema) :=
  match catalogGetTable cat tableName with
  | .error _ => none
  | .ok tableMeta =>
      match catalogGetSchema cat tableMeta.tableId with
      | .error _ => none
      | .ok schema => some (tableMeta, schema)

/-- `build_executor`, with `none` for `NULL`. There is no executor for an index scan. -/
def buildExecutor (cat : CatalogT) :
    PhysicalNode Double → Except Fault (Option (ExecutorT Double Frame))
  | .seqScan scan predicate =>
      match lookUpTable cat scan.tableName with
      | none => .ok none
      | some (tableMeta, schema) =>
          .ok (some (.seqScan tableMeta.rootPageId schema predicate
            ⟨tableMeta.rootPageId, 0, none⟩))
  | .filter predicate child => do
      match ← buildExecutor cat child with
      | none => return none
      | some child => return some (.filter predicate child)
  | .project expressions child => do
      match ← buildExecutor cat child with
      | none => return none
      | some child =>
          let columns := expressions.zipIdx.map (projectColumn child.outputSchema)
          return some (.project expressions (schemaBuild columns) child)
  | .sort items child => do
      match ← buildExecutor cat child with
      | none => return none
      | some child => return some (.sort items none child)
  | .limit rows offset child => do
      match ← buildExecutor cat child with
      | none => return none
      | some child => return some (.limit rows offset 0 0 child)
  | .nestedLoopJoin _ condition left right => do
      let outer ← buildExecutor cat left
      let inner ← buildExecutor cat right
      match outer, inner with
      | some outer, some inner =>
          match outer.outputSchema, inner.outputSchema with
          | .to outerSchema, .to innerSchema =>
              let columns := outerSchema.columns ++ innerSchema.columns
              return some (.nlJoin condition (schemaBuild columns) none outer inner)
          | .uninitialized, _ | _, .uninitialized => .error .indeterminate
          | .null, _ | _, .null => .error .nullPointer
      | _, _ => return none
  | .hashAggregate groupBy aggregates child => do
      match ← buildExecutor cat child with
      | none => return none
      | some child => return some (.hashAgg groupBy aggregates none child)
  | .update tableName assignments child => do
      let child ← buildExecutor cat child
      match lookUpTable cat tableName with
      | none => return none
      | some (tableMeta, schema) =>
          return some (.update tableMeta.rootPageId schema assignments false
            (child.getD .null))
  | .delete tableName child => do
      let child ← buildExecutor cat child
      match lookUpTable cat tableName with
      | none => return none
      | some (tableMeta, schema) =>
          return some (.delete tableMeta.rootPageId schema false (child.getD .null))
  | .insert _ | .indexScan .. => .ok none

/-! ## Statements -/

/-- `execution_engine_t`, with the catalog and the pool it points to. -/
structure Database (Pool : Type) where
  catalog : CatalogT
  bpm : Pool

/-- What `execution_engine_execute` returns and stores through its pointers. -/
structure StatementResult (Double : Type) where
  code : ErrorCode
  tuples : List (Tuple Double) := []
  schema : SchemaPointer := .null
  affected : Option Nat := none
  /-- The error codes returned to the executors on the way. -/
  errors : List Int := []

/-- What a statement returns, and the database it leaves behind. -/
abbrev Executed (Pool Double : Type) := Database Pool × StatementResult Double

/-- A statement that ends with a code. -/
def ended (db : Database Pool) (code : ErrorCode) (affected : Option Nat) :
    Executed Pool Double :=
  (db, { code := code, affected := affected })

/-- `ast_col_type_to_storage`. -/
def astColTypeToStorage : ColDataType → TypeId
  | .integer => .integer
  | .float => .float
  | .varchar => .varchar
  | .boolean => .boolean

/-- `ast_columns_to_storage`. -/
def astColumnToStorage (column : AstColumnDef Double) : ColumnDef where
  name := column.name
  type := astColTypeToStorage column.dataType
  nullable := !column.notNull
  maxLength := if column.dataType = .varchar then column.varcharLen.toUInt32 else 0

variable [PagePool Pool Frame]

/-- `execute_ddl`. -/
def executeDdl (db : Database Pool) (stmt : Stmt Double) : Except Fault (Executed Pool Double) :=
  match stmt with
  | .createTable tableName columns _ =>
      -- `ast_build_schema`
      match schemaCreate (columns.map astColumnToStorage) with
      | .error rc => .ok (ended db rc none)
      | .ok schema => do
          match ← catalogCreateTable db.catalog tableName schema with
          | (cat, none) => return ended { db with catalog := cat } .duplicateKey none
          | (cat, some _) => return ended { db with catalog := cat } .ok (some 0)
  | .dropTable tableName _ =>
      let (cat, rc) := catalogDropTable db.catalog tableName
      .ok (ended { db with catalog := cat } rc (some 0))
  | .createIndex tableName indexName column isUnique => do
      match ← PagePool.newPage db.bpm with
      | (bpm, none) => return ended { db with bpm := bpm } .outOfMemory none
      | (bpm, some (rootPid, _)) =>
          let bpm ← PagePool.unpinPage bpm rootPid true
          let db := { db with bpm := bpm }
          match catalogGetTable db.catalog tableName with
          | .error rc => return ended db rc none
          | .ok tableMeta =>
              match catalogGetSchema db.catalog tableMeta.tableId with
              | .error rc => return ended db rc none
              | .ok schema =>
                  match schemaFindColumn schema column with
                  | none => return ended db .unknownColumn none
                  | some colIdx =>
                      match ← catalogCreateIndex db.catalog indexName tableMeta.tableId
                        (Int32.ofNat colIdx) rootPid isUnique with
                      | (cat, none) =>
                          return ended { db with catalog := cat } .duplicateKey none
                      | (cat, some _) => return ended { db with catalog := cat } .ok (some 0)
  | .dropIndex indexName =>
      let (cat, rc) := catalogDropIndex db.catalog indexName
      .ok (ended { db with catalog := cat } rc (some 0))
  | _ => .ok (ended db .invalidArgument none)

variable [Platform Double]

/-! ### `INSERT` -/

/-- The tuple that `insert_next` builds from a row of expressions. -/
def insertTuple (tableSchema : Schema) (values : List (Expr Double)) :
    Checked (Tuple Double) := do
  -- a row without values leaves the tuple unwritten, and no caller looks at the code
  let tuple ← match tupleCreate values.length with
    | .ok tuple => pure tuple
    | .error _ => undefined .indeterminate
  values.zipIdx.foldlM
    (fun tuple (expr, i) => do
      let val ← exprEvaluate none .null expr
      match tableSchema.columns[i]? with
      | none => undefined .outOfBounds
      | some col =>
          if val.type ≠ col.type ∧ !val.isNull then
            return tupleSetValue tuple i (← valueCastTo val col.type)
          else return tupleSetValue tuple i val)
    tuple

/-- `insert_next` on its next row. -/
def insertNext (tableSchema : Schema) (firstPageId : PageId) (values : List (Expr Double)) :
    ExecM Pool (PageId × Option (Tuple Double)) := do
  match ← note (attempted (insertTuple tableSchema values)) with
  | .error _ => return (firstPageId, none)
  | .ok tuple =>
      let bytes ← heapBytes tuple tableSchema
      let (firstPageId, result) ← onHeap firstPageId (bpmHeapInsert · bytes)
      match result.rid with
      | some rid => return (firstPageId, some { tuple with rid := rid })
      | none => return (firstPageId, none)

/-- The loop of `execute_dml` around `insert_next`. -/
def insertRows (tableSchema : Schema) :
    List (List (Expr Double)) → PageId → ExecM Pool (PageId × List (Tuple Double))
  | [], firstPageId => return (firstPageId, [])
  | values :: rows, firstPageId => do
      match ← insertNext tableSchema firstPageId values with
      | (firstPageId, none) => return (firstPageId, [])
      | (firstPageId, some tuple) =>
          let (firstPageId, tuples) ← insertRows tableSchema rows firstPageId
          return (firstPageId, tuple :: tuples)

/-- The special case of `execute_dml` for `INSERT`. -/
def executeInsert (db : Database Pool) (tableName : CString)
    (rows : List (List (Expr Double))) : Except Fault (Executed Pool Double) :=
  match catalogGetTable db.catalog tableName with
  | .error rc => .ok (ended db rc none)
  | .ok tableMeta =>
      match catalogGetSchema db.catalog tableMeta.tableId with
      | .error rc => .ok (ended db rc none)
      | .ok schema => do
          let ((firstPageId, tuples), session) ←
            (insertRows schema rows tableMeta.rootPageId).run ⟨db.bpm, []⟩
          -- the first insertion may have allocated the first page
          let cat := if firstPageId ≠ invalidPageId ∧ tableMeta.rootPageId = invalidPageId
            then (catalogUpdateRootPage db.catalog tableMeta.tableId firstPageId).1 else db.catalog
          return (⟨cat, session.bpm⟩, {
            code := .ok
            tuples := tuples
            schema := .to schema
            affected := some tuples.length
            errors := session.errors })

/-! ### The other statements -/

/-- Pulls all rows of an executor tree: the loop of `execute_dml`. -/
def runExecutor (turns : Nat) (exec : ExecutorT Double Frame) :
    ExecM Pool (List (Tuple Double)) := do
  let (exec, tuples) ← consume (ExecutorT.next turns)
    (fun tuples tuple => pure (tuples ++ [tuple])) turns exec.init []
  let _ ← exec.close
  return tuples

/-- `execute_dml`. Whatever code ends the loop, a tree that was built gives `DB_OK`. -/
def executeDml (turns : Nat) (db : Database Pool) (stmt : Stmt Double) :
    Except Fault (Executed Pool Double) :=
  match plannerPlan db.catalog stmt with
  | none => .ok (ended db .internalError none)
  | some physical =>
      match stmt with
      | .insert tableName _ rows => executeInsert db tableName rows
      | _ => do
          match ← (buildExecutor db.catalog physical :
            Except Fault (Option (ExecutorT Double Frame))) with
          | none => return ended db .internalError none
          | some exec =>
              let (tuples, session) ← (runExecutor turns exec).run ⟨db.bpm, []⟩
              return ({ db with bpm := session.bpm }, {
                code := .ok
                tuples := tuples
                schema := exec.outputSchema
                affected := some tuples.length
                errors := session.errors })

/-- `execution_engine_execute`, whose loops take at most `turns` turns each. -/
def executionEngineExecute (turns : Nat) (db : Database Pool) (stmt : Stmt Double) :
    Except Fault (Executed Pool Double) :=
  match stmt with
  | .createTable .. | .dropTable .. | .createIndex .. | .dropIndex .. => executeDdl db stmt
  | .select .. | .insert .. | .update .. | .delete .. => executeDml turns db stmt
  | .explain _ => .ok (ended db .ok none)
  | .transaction => .ok (ended db .ok (some 0))

end MiniSqlite.Executor
