import MiniSqlite.Planner.PhysicalPlan

/-!
# The planner

`planner/planner.c`: a statement becomes a logical plan, the logical plan a
physical one, and in that a scan for `column = integer` on an indexed column
becomes an index scan.
-/

namespace MiniSqlite.Planner

open MiniSqlite.Common MiniSqlite.Storage MiniSqlite.Catalog MiniSqlite.Parser

variable {Double : Type}

/-! ## Logical plans -/

/-- `get_table_schema`, with `none` for `NULL`. -/
def getTableSchema (cat : CatalogT) (tableId : TableId) : Option Schema :=
  (catalogGetSchema cat tableId).toOption

/-- A `LOP_SCAN` of a table, or `none` if the catalog does not have it. -/
def scanTable (cat : CatalogT) (tableName : CString) : Option (LogicalNode Double) :=
  match catalogGetTable cat tableName with
  | .error _ => none
  | .ok tableMeta =>
      some (.scan ⟨tableName, tableMeta.tableId, getTableSchema cat tableMeta.tableId⟩)

/-- The joins and the further tables of a `FROM` clause, from the left. -/
def planJoins (cat : CatalogT) (joins : List (TokenType × CString × Option (Expr Double)))
    (current : LogicalNode Double) : Option (LogicalNode Double) :=
  joins.foldlM
    (fun current (joinType, table, condition) => do
      let right ← scanTable cat table
      return .join joinType condition current right)
    current

/-- The `FROM` clause of `plan_select`. Without tables it is a scan of none. -/
def planFrom (cat : CatalogT) (stmt : SelectStmt Double) : Option (LogicalNode Double) :=
  match stmt.fromTables with
  | [] => some (.scan ⟨CString.empty, invalidTableId, none⟩)
  | first :: others => do
      let current ← scanTable cat first
      planJoins cat
        (stmt.joins.map (fun join => (join.joinType, join.table, join.condition)) ++
          others.map fun table => (.join, table, none))
        current

/-- `expr->type == EXPR_FUNCTION_CALL`. -/
def isFunctionCall : Expr Double → Bool
  | .functionCall _ _ _ => true
  | _ => false

/-- The select list is a single `*`. -/
def isStarList : List (Expr Double) → Bool
  | [.columnRef _ column] => column.chars == [42]
  | _ => false

/-- `plan_select`. -/
def planSelect (cat : CatalogT) (stmt : SelectStmt Double) : Option (LogicalNode Double) := do
  let current ← planFrom cat stmt
  let current := match stmt.whereClause with
    | some predicate => .filter predicate current
    | none => current
  let aggregates := stmt.selectList.filter isFunctionCall
  let current := if stmt.groupBy ≠ [] ∨ aggregates ≠ []
    then .aggregate stmt.groupBy aggregates current else current
  let current := match stmt.having with
    | some having => .filter having current
    | none => current
  let current := if stmt.selectList ≠ [] ∧ !isStarList stmt.selectList
    then .project stmt.selectList current else current
  let current := if stmt.orderBy ≠ [] then .sort stmt.orderBy current else current
  return if stmt.limit ≥ 0 then .limit stmt.limit stmt.offset current else current

/-- The scan that `plan_update` and `plan_delete` read their rows from. -/
def planTarget (cat : CatalogT) (tableName : CString) (whereClause : Option (Expr Double)) :
    Option (LogicalNode Double) := do
  let scan ← scanTable cat tableName
  return match whereClause with
    | some predicate => .filter predicate scan
    | none => scan

/-- `planner_plan_logical`. -/
def plannerPlanLogical (cat : CatalogT) : Stmt Double → Option (LogicalNode Double)
  | .select stmt => planSelect cat stmt
  | .insert tableName _ _ =>
      (catalogGetTable cat tableName).toOption.map fun _ => .insert tableName
  | .update tableName assignments whereClause =>
      (planTarget cat tableName whereClause).map (.update tableName assignments)
  | .delete tableName whereClause => (planTarget cat tableName whereClause).map (.delete tableName)
  | _ => none

/-! ## Physical plans -/

/-- `convert_logical`. A filter over a scan becomes part of it. -/
def convertLogical : LogicalNode Double → PhysicalNode Double
  | .scan scan => .seqScan scan none
  | .filter predicate (.scan scan) => .seqScan scan (some predicate)
  | .filter predicate child => .filter predicate (convertLogical child)
  | .project expressions child => .project expressions (convertLogical child)
  | .join joinType condition left right =>
      .nestedLoopJoin joinType condition (convertLogical left) (convertLogical right)
  | .aggregate groupBy aggregates child => .hashAggregate groupBy aggregates (convertLogical child)
  | .sort items child => .sort items (convertLogical child)
  | .limit limit offset child => .limit limit offset (convertLogical child)
  | .insert tableName => .insert tableName
  | .update tableName assignments child => .update tableName assignments (convertLogical child)
  | .delete tableName child => .delete tableName (convertLogical child)

/-- The column and the literal of `column = literal` or `literal = column`. -/
def equalityOf : Expr Double → Option (CString × AstValue Double)
  | .binary (.columnRef _ column) .equal (.literal value) => some (column, value)
  | .binary (.literal value) .equal (.columnRef _ column) => some (column, value)
  | _ => none

/-- The `POP_SEQ_SCAN` case of `optimize_match_index`. -/
def matchIndex (cat : CatalogT) (scan : ScanNode) (predicate : Expr Double) :
    PhysicalNode Double :=
  if scan.tableId = invalidTableId then .seqScan scan predicate
  else
    match equalityOf predicate, scan.outputSchema with
    | some (column, value), some schema =>
        let matching := (catalogGetTableIndexes cat scan.tableId).find? fun index =>
          match schemaFindColumn schema column with
          | some colIdx => Int32.ofNat colIdx = index.columnId
          | none => false
        match matching, value with
        | some index, .int keyVal => .indexScan scan index.indexId index.columnId keyVal keyVal
        | _, _ => .seqScan scan predicate
    | _, _ => .seqScan scan predicate

/-- `optimize_match_index`. -/
def optimizeMatchIndex (cat : CatalogT) : PhysicalNode Double → PhysicalNode Double
  | .seqScan scan (some predicate) => matchIndex cat scan predicate
  | .seqScan scan none => .seqScan scan none
  | .indexScan scan indexId columnId lowKey highKey =>
      .indexScan scan indexId columnId lowKey highKey
  | .filter predicate child => .filter predicate (optimizeMatchIndex cat child)
  | .project expressions child => .project expressions (optimizeMatchIndex cat child)
  | .nestedLoopJoin joinType condition left right =>
      .nestedLoopJoin joinType condition (optimizeMatchIndex cat left)
        (optimizeMatchIndex cat right)
  | .hashAggregate groupBy aggregates child =>
      .hashAggregate groupBy aggregates (optimizeMatchIndex cat child)
  | .sort items child => .sort items (optimizeMatchIndex cat child)
  | .limit limit offset child => .limit limit offset (optimizeMatchIndex cat child)
  | .insert tableName => .insert tableName
  | .update tableName assignments child =>
      .update tableName assignments (optimizeMatchIndex cat child)
  | .delete tableName child => .delete tableName (optimizeMatchIndex cat child)

/-- `planner_plan_physical`. -/
def plannerPlanPhysical (cat : CatalogT) (logical : LogicalNode Double) : PhysicalNode Double :=
  optimizeMatchIndex cat (convertLogical logical)

/-- `planner_plan`. -/
def plannerPlan (cat : CatalogT) (stmt : Stmt Double) : Option (PhysicalNode Double) :=
  (plannerPlanLogical cat stmt).map (plannerPlanPhysical cat)

end MiniSqlite.Planner
