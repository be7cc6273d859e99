import MiniSqlite.Common.Platform

/-!
# Syntax trees

`parser/ast.h`, and of `parser/token.h` the tokens that occur in a syntax tree.
Names, string literals and patterns are C strings in arrays of one size each, so
copying them cuts nothing off. What the planner and the executors do not read (table aliases,
isolation levels, the second and further columns of an index) is left out, but for
the table of a column reference, which a query is written with.
-/

namespace MiniSqlite.Parser

open MiniSqlite.Common

/-- The `token_type_t`s that stand for operators and joins. -/
inductive TokenType where
  | and
  | or
  | not
  | join
  | inner
  | left
  | right
  | full
  | cross
  | equal
  | notEqual
  | less
  | lessEqual
  | greater
  | greaterEqual
  | plus
  | minus
  | star
  | slash
  deriving DecidableEq, Repr

/-- `ast_value_t`. -/
inductive AstValue (Double : Type) where
  | null
  | bool (boolVal : Int32)
  | int (intVal : Int64)
  | float (floatVal : Double)
  | string (strVal : CString)
  deriving DecidableEq

/-- `expr_t`. -/
inductive Expr (Double : Type) where
  | literal (value : AstValue Double)
  /-- The table is empty for a name without one. -/
  | columnRef (table column : CString)
  | binary (left : Expr Double) (op : TokenType) (right : Expr Double)
  | unary (op : TokenType) (operand : Expr Double)
  | functionCall (name : CString) (args : List (Expr Double)) (isStar : Bool)
  | subquery
  | isNull (operand : Expr Double) (isNot : Bool)
  | inExpr (left : Expr Double) (list : List (Expr Double)) (isNot : Bool)
  | between (expr low high : Expr Double) (isNot : Bool)
  | like (expr : Expr Double) (pattern : CString) (isNot : Bool)

/-- `col_data_type_t`. -/
inductive ColDataType where
  | integer
  | float
  | varchar
  | boolean
  deriving DecidableEq, Repr

/-- `ast_column_def_t`. There is no default value without `has_default`. -/
structure AstColumnDef (Double : Type) where
  name : CString
  dataType : ColDataType
  varcharLen : Int32
  isPrimaryKey : Bool
  notNull : Bool
  isUnique : Bool
  defaultValue : Option (AstValue Double)
  deriving DecidableEq

/-- A column without constraints. -/
def AstColumnDef.plain {Double : Type} (name : CString) (dataType : ColDataType)
    (varcharLen : Int32) : AstColumnDef Double :=
  ⟨name, dataType, varcharLen, false, false, false, none⟩

/-- `join_clause_t`. -/
structure JoinClause (Double : Type) where
  joinType : TokenType
  table : CString
  condition : Option (Expr Double)

/-- `assignment_t`. -/
structure Assignment (Double : Type) where
  column : CString
  value : Expr Double

/-- `order_by_item_t`. -/
structure OrderByItem (Double : Type) where
  expr : Expr Double
  ascending : Bool

/-- The `select` member of `stmt_t`. -/
structure SelectStmt (Double : Type) where
  selectList : List (Expr Double)
  fromTables : List CString
  joins : List (JoinClause Double)
  whereClause : Option (Expr Double)
  groupBy : List (Expr Double)
  having : Option (Expr Double)
  orderBy : List (OrderByItem Double)
  limit : Int32
  offset : Int32

/-- `stmt_t`. -/
inductive Stmt (Double : Type) where
  | createTable (tableName : CString) (columns : List (AstColumnDef Double)) (ifNotExists : Bool)
  | dropTable (tableName : CString) (ifExists : Bool)
  | createIndex (tableName indexName column : CString) (isUnique : Bool)
  | dropIndex (indexName : CString)
  /-- The columns are empty without a list of them. -/
  | insert (tableName : CString) (columns : List CString) (values : List (List (Expr Double)))
  | update (tableName : CString) (assignments : List (Assignment Double))
      (whereClause : Option (Expr Double))
  | delete (tableName : CString) (whereClause : Option (Expr Double))
  | select (select : SelectStmt Double)
  /-- `BEGIN`, `COMMIT`, `ROLLBACK` and `SET ISOLATION`, which do nothing yet. -/
  | transaction
  | explain (inner : Stmt Double)

end MiniSqlite.Parser
