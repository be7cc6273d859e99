import MiniSqlite.Parser.Ast
import MiniSqlite.Storage.Tuple

/-!
# Evaluation of expressions

`executor/expr_evaluator.c`, with `ast_value_to_storage` of
`planner/value_bridge.c`. An expression is evaluated against a tuple and the
schema an executor passes for it, which may be `NULL` or never have been written.
-/

namespace MiniSqlite.Executor

open MiniSqlite.Common MiniSqlite.Storage MiniSqlite.Parser

variable {Double : Type} [Platform Double]

/-- A `schema_t*`. -/
inductive SchemaPointer where
  | null
  | to (schema : Schema)
  /-- Memory allocated for a schema and never written. -/
  | uninitialized
  deriving DecidableEq

omit [Platform Double] in
/-- `ast_value_to_storage`. -/
def astValueToStorage : AstValue Double → Value Double
  | .null => .null
  | .bool boolVal => .boolean (boolVal != 0)
  | .int intVal => .integer intVal
  | .float floatVal => .float floatVal
  | .string strVal => .varchar strVal

/-- `is_truthy`. -/
def isTruthy : Value Double → Bool
  | .null => false
  | .integer i => i != 0
  | .float d => !Platform.equal d (Platform.ofInt 0)
  | .boolean b => b
  | .varchar s => s.chars != []

omit [Platform Double] in
/-- `EXPR_COLUMN_REF`. -/
def columnValue (tuple : Option (Tuple Double)) (schema : SchemaPointer) (column : CString) :
    Checked (Value Double) :=
  match tuple, schema with
  | none, _ | _, .null => throw .invalidArgument
  | some _, .uninitialized => undefined .indeterminate
  | some tuple, .to schema =>
      match schemaFindColumn schema column with
      | none => throw .unknownColumn
      | some colIdx =>
          match tupleGetValue tuple colIdx with
          | none => throw .unknownColumn
          | some val => pure val

/-- The value of a comparison operator, given what `value_compare` returned. -/
def comparison (op : TokenType) (cmp : Int) : Bool :=
  match op with
  | .less => cmp < 0
  | .lessEqual => cmp ≤ 0
  | .greater => cmp > 0
  | .greaterEqual => cmp ≥ 0
  | .equal => cmp = 0
  | .notEqual => cmp ≠ 0
  | _ => false

omit [Platform Double] in
/-- A binary operator with a `NULL` operand. -/
def binaryWithNull (op : TokenType) (left right : Value Double) : Value Double :=
  match op, left, right with
  | .and, .boolean false, _ | .and, _, .boolean false => .boolean false
  | .or, .boolean true, _ | .or, _, .boolean true => .boolean true
  | _, _, _ => .null

/-- A binary operator applied to two values. -/
def applyBinary (op : TokenType) (left right : Value Double) : Checked (Value Double) :=
  if left.isNull || right.isNull then pure (binaryWithNull op left right)
  else
    match op with
    | .plus => valueAdd left right
    | .minus => valueSub left right
    | .star => valueMul left right
    | .slash => valueDiv left right
    | .less | .lessEqual | .greater | .greaterEqual | .equal | .notEqual =>
        let cmp := valueCompare left right
        pure (if cmp < -1 then .null else .boolean (comparison op cmp))
    | .and => pure (.boolean (isTruthy left && isTruthy right))
    | .or => pure (.boolean (isTruthy left || isTruthy right))
    | _ => pure .null

/-- A unary operator applied to a value. -/
def applyUnary (op : TokenType) (operand : Value Double) : Checked (Value Double) :=
  match op, operand with
  | .minus, .integer i => do return .integer (← int64Of (-i.toInt))
  | .minus, .float d => pure (.float (Platform.neg d))
  | .not, .null => pure .null
  | .not, v => pure (.boolean (!isTruthy v))
  | _, _ => pure .null

/-- `BETWEEN` of three values. -/
def applyBetween (v low high : Value Double) (isNot : Bool) : Value Double :=
  if v.isNull || low.isNull || high.isNull then .null
  else
    let result : Bool := valueCompare v low ≥ 0 && valueCompare v high ≤ 0
    .boolean (result != isNot)

/-- `strlen(pat) - 2`, a `size_t`. -/
def innerLength (pattern : CString) : Nat := (pattern.length + (2 ^ 64 - 2)) % 2 ^ 64

/-- The match of `EXPR_LIKE`: a pattern between two `%` is searched for, any other is
compared. `strncpy` and the terminator behind it write to a buffer of 256 bytes. -/
def likeMatches (string pattern : CString) : Except Fault Bool :=
  if pattern.chars.head? = some 37 ∧ pattern.chars.getLast? = some 37 then
    if 256 ≤ innerLength pattern then .error .outOfBounds
    else .ok (string.contains (CString.ofBytes (pattern.chars.tail.take (innerLength pattern))))
  else .ok (pattern.chars = string.chars)

omit [Platform Double] in
/-- `LIKE` of a value. -/
def applyLike (v : Value Double) (pattern : CString) (isNot : Bool) : Checked (Value Double) :=
  match v with
  | .null => pure .null
  | .varchar s => do return .boolean ((← likeMatches s pattern) != isNot)
  | _ => do return .boolean ((← likeMatches CString.empty pattern) != isNot)

mutual

/-- `expr_evaluate`. -/
def exprEvaluate (tuple : Option (Tuple Double)) (schema : SchemaPointer) :
    Expr Double → Checked (Value Double)
  | .literal value => pure (astValueToStorage value)
  | .columnRef _ column => columnValue tuple schema column
  | .binary left op right => do
      let leftVal ← exprEvaluate tuple schema left
      let rightVal ← exprEvaluate tuple schema right
      applyBinary op leftVal rightVal
  | .unary op operand => do applyUnary op (← exprEvaluate tuple schema operand)
  | .isNull operand isNot => do
      let v ← exprEvaluate tuple schema operand
      return .boolean (v.isNull != isNot)
  | .inExpr left list isNot => do
      let v ← exprEvaluate tuple schema left
      if v.isNull then return .null
      let found ← foundIn tuple schema v list
      return .boolean (found != isNot)
  | .between expr low high isNot => do
      let v ← exprEvaluate tuple schema expr
      let lowVal ← exprEvaluate tuple schema low
      let highVal ← exprEvaluate tuple schema high
      return applyBetween v lowVal highVal isNot
  | .like expr pattern isNot => do applyLike (← exprEvaluate tuple schema expr) pattern isNot
  | .functionCall _ _ _ => pure .null
  | .subquery => pure .null

/-- The loop of `EXPR_IN_EXPR`: whether an item equals the value. -/
def foundIn (tuple : Option (Tuple Double)) (schema : SchemaPointer) (left : Value Double) :
    List (Expr Double) → Checked Bool
  | [] => pure false
  | item :: list => do
      let itemVal ← exprEvaluate tuple schema item
      if !itemVal.isNull && valueCompare left itemVal = 0 then return true
      foundIn tuple schema left list

end

end MiniSqlite.Executor
