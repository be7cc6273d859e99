import MiniSqlite.Parser.Ast
import MiniSqlite.Parser.Token

/-!
# Statements as the parser builds them

The types of `parser/ast.h` with all that the parser writes into them. Of these `Parser.Ast`
keeps what the planner and the executors read.
-/

namespace MiniSqlite.Parser

open MiniSqlite.Common

/-- `expr_t`. The parser builds no `EXPR_SUBQUERY`. -/
inductive ExprT (Double : Type) where
  | literal (value : AstValue Double)
  | columnRef (table column : CString)
  | binary (left : ExprT Double) (op : TokenTypeT) (right : ExprT Double)
  | unary (op : TokenTypeT) (operand : ExprT Double)
  | funcCall (name : CString) (args : List (ExprT Double)) (isStar : Bool)
  | isNull (operand : ExprT Double) (isNot : Bool)
  | inExpr (left : ExprT Double) (list : List (ExprT Double)) (isNot : Bool)
  | between (expr low high : ExprT Double) (isNot : Bool)
  | like (expr : ExprT Double) (pattern : CString) (isNot : Bool)

/-- `ast_column_def_t`. -/
structure AstColumnDefT (Double : Type) where
  name : CString
  dataType : ColDataType
  varcharLen : Int32
  isPrimaryKey : Bool
  notNull : Bool
  isUnique : Bool
  hasDefault : Bool
  defaultValue : AstValue Double
  deriving DecidableEq

/-- `table_ref_t`. -/
structure TableRefT where
  name : CString
  aliasName : CString
  deriving DecidableEq

/-- `join_clause_t`. -/
structure JoinClauseT (Double : Type) where
  joinType : TokenTypeT
  table : TableRefT
  condition : Option (ExprT Double)

/-- `assignment_t`. -/
structure AssignmentT (Double : Type) where
  column : CString
  value : ExprT Double

/-- `order_by_item_t`. -/
structure OrderByItemT (Double : Type) where
  expr : ExprT Double
  ascending : Bool

/-- The `select` member of `stmt_t`. -/
structure SelectT (Double : Type) where
  selectList : List (ExprT Double)
  isDistinct : Bool
  fromTables : List TableRefT
  joins : List (JoinClauseT Double)
  whereClause : Option (ExprT Double)
  groupBy : List (ExprT Double)
  having : Option (ExprT Double)
  orderBy : List (OrderByItemT Double)
  limit : Int32
  offset : Int32

/-- `stmt_t`. -/
inductive StmtT (Double : Type) where
  | createTable (tableName : CString) (columns : List (AstColumnDefT Double)) (ifNotExists : Bool)
  | dropTable (tableName : CString) (ifExists : Bool)
  | createIndex (tableName indexName : CString) (columns : List CString) (isUnique : Bool)
  | dropIndex (indexName tableName : CString)
  | insert (tableName : CString) (columns : List CString) (values : List (List (ExprT Double)))
  | update (tableName : CString) (assignments : List (AssignmentT Double))
      (whereClause : Option (ExprT Double))
  | deleteStmt (tableName : CString) (whereClause : Option (ExprT Double))
  | select (select : SelectT Double)
  | begin (isolationLevel : CString)
  | commit
  | rollback
  | explain (inner : StmtT Double)

end MiniSqlite.Parser
