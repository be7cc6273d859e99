import MiniSqlite.Catalog.Catalog
import MiniSqlite.Parser.Ast

/-!
# Plans

The nodes of `planner/logical_plan.h` and `planner/physical_plan.h`. Every node
has the children that the planner gives it, so that no arity is checked later.
Of the output schemas only those of the scans are read; the others, the names of
tables and the keys of an index scan, which no executor reads, are left out where
nothing depends on them.
-/

namespace MiniSqlite.Planner

open MiniSqlite.Common MiniSqlite.Storage MiniSqlite.Catalog MiniSqlite.Parser

/-- A scan of a table, with the schema if the catalog has one. -/
structure ScanNode where
  tableName : CString
  tableId : TableId
  outputSchema : Option Schema

/-- `logical_node_t`. -/
inductive LogicalNode (Double : Type) where
  | scan (scan : ScanNode)
  | filter (predicate : Expr Double) (child : LogicalNode Double)
  | project (expressions : List (Expr Double)) (child : LogicalNode Double)
  | join (joinType : TokenType) (condition : Option (Expr Double))
      (left right : LogicalNode Double)
  | aggregate (groupBy aggregates : List (Expr Double)) (child : LogicalNode Double)
  | sort (items : List (OrderByItem Double)) (child : LogicalNode Double)
  | limit (limit offset : Int32) (child : LogicalNode Double)
  | insert (tableName : CString)
  | update (tableName : CString) (assignments : List (Assignment Double))
      (child : LogicalNode Double)
  | delete (tableName : CString) (child : LogicalNode Double)

/-- `physical_node_t`. -/
inductive PhysicalNode (Double : Type) where
  | seqScan (scan : ScanNode) (predicate : Option (Expr Double))
  | indexScan (scan : ScanNode) (indexId : IndexId) (columnId : ColumnId) (lowKey highKey : Int64)
  | filter (predicate : Expr Double) (child : PhysicalNode Double)
  | project (expressions : List (Expr Double)) (child : PhysicalNode Double)
  | nestedLoopJoin (joinType : TokenType) (condition : Option (Expr Double))
      (left right : PhysicalNode Double)
  | hashAggregate (groupBy aggregates : List (Expr Double)) (child : PhysicalNode Double)
  | sort (items : List (OrderByItem Double)) (child : PhysicalNode Double)
  | limit (limit offset : Int32) (child : PhysicalNode Double)
  | insert (tableName : CString)
  | update (tableName : CString) (assignments : List (Assignment Double))
      (child : PhysicalNode Double)
  | delete (tableName : CString) (child : PhysicalNode Double)

end MiniSqlite.Planner
