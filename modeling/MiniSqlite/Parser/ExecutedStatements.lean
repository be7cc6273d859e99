import MiniSqlite.Parser.Statement

/-!
# The statements that are executed

In the source one `stmt_t` goes from the parser to the execution engine. Here the parser
writes `StmtT`, and `StmtT.toStmt` is the part of it that the planner and the executors
read.
-/

namespace MiniSqlite.Parser

variable {Double : Type}

/-- The operator or join a token stands for. The parser builds trees with no other
tokens; like those, `TK_JOIN` is an operator that no evaluation knows. -/
def TokenTypeT.toOperator : TokenTypeT → TokenType
  | .tkAnd => .and
  | .tkOr => .or
  | .tkNot => .not
  | .tkInner => .inner
  | .tkLeft => .left
  | .tkRight => .right
  | .tkFull => .full
  | .tkCross => .cross
  | .tkEqual => .equal
  | .tkNotEqual => .notEqual
  | .tkLess => .less
  | .tkLessEqual => .lessEqual
  | .tkGreater => .greater
  | .tkGreaterEqual => .greaterEqual
  | .tkPlus => .plus
  | .tkMinus => .minus
  | .tkStar => .star
  | .tkSlash => .slash
  | _ => .join

mutual

/-- The expression of a tree. -/
def ExprT.toExpr : ExprT Double → Expr Double
  | .literal value => .literal value
  | .columnRef table column => .columnRef table column
  | .binary left op right => .binary left.toExpr op.toOperator right.toExpr
  | .unary op operand => .unary op.toOperator operand.toExpr
  | .funcCall name args isStar => .functionCall name (toExprs args) isStar
  | .isNull operand isNot => .isNull operand.toExpr isNot
  | .inExpr left list isNot => .inExpr left.toExpr (toExprs list) isNot
  | .between expr low high isNot => .between expr.toExpr low.toExpr high.toExpr isNot
  | .like expr pattern isNot => .like expr.toExpr pattern isNot

/-- The expressions of a list of trees. -/
def toExprs : List (ExprT Double) → List (Expr Double)
  | [] => []
  | expr :: exprs => expr.toExpr :: toExprs exprs

end

/-- A column without its default value, if it has none. -/
def AstColumnDefT.toColumn (column : AstColumnDefT Double) : AstColumnDef Double where
  name := column.name
  dataType := column.dataType
  varcharLen := column.varcharLen
  isPrimaryKey := column.isPrimaryKey
  notNull := column.notNull
  isUnique := column.isUnique
  defaultValue := if column.hasDefault then some column.defaultValue else none

/-- A join without the alias of its table. -/
def JoinClauseT.toJoin (clause : JoinClauseT Double) : JoinClause Double :=
  ⟨clause.joinType.toOperator, clause.table.name, clause.condition.map ExprT.toExpr⟩

def AssignmentT.toAssignment (assignment : AssignmentT Double) : Assignment Double :=
  ⟨assignment.column, assignment.value.toExpr⟩

def OrderByItemT.toItem (item : OrderByItemT Double) : OrderByItem Double :=
  ⟨item.expr.toExpr, item.ascending⟩

/-- A query without `DISTINCT` and without aliases. -/
def SelectT.toSelect (select : SelectT Double) : SelectStmt Double where
  selectList := toExprs select.selectList
  fromTables := select.fromTables.map TableRefT.name
  joins := select.joins.map JoinClauseT.toJoin
  whereClause := select.whereClause.map ExprT.toExpr
  groupBy := toExprs select.groupBy
  having := select.having.map ExprT.toExpr
  orderBy := select.orderBy.map OrderByItemT.toItem
  limit := select.limit
  offset := select.offset

/-- A statement. The parser builds no index without a column. -/
def StmtT.toStmt : StmtT Double → Stmt Double
  | .createTable tableName columns ifNotExists =>
      .createTable tableName (columns.map AstColumnDefT.toColumn) ifNotExists
  | .dropTable tableName ifExists => .dropTable tableName ifExists
  | .createIndex tableName indexName columns isUnique =>
      .createIndex tableName indexName (columns.headD .empty) isUnique
  | .dropIndex indexName _ => .dropIndex indexName
  | .insert tableName columns values => .insert tableName columns (values.map toExprs)
  | .update tableName assignments whereClause =>
      .update tableName (assignments.map AssignmentT.toAssignment) (whereClause.map ExprT.toExpr)
  | .deleteStmt tableName whereClause => .delete tableName (whereClause.map ExprT.toExpr)
  | .select query => .select query.toSelect
  | .begin _ | .commit | .rollback => .transaction
  | .explain inner => .explain inner.toStmt

end MiniSqlite.Parser
