import MiniSqlite.Executor.JoinQueries
import MiniSqlite.Parser.ParserSteps
import MiniSqlite.Storage.Decimals

/-!
# Row limits

Which rows of a query its `LIMIT` clause keeps. The clause is read into two `int`s, the planner
leaves it out if the first is negative, and the executor counts up to the others.
-/

namespace MiniSqlite.Executor

open MiniSqlite.Common MiniSqlite.Std MiniSqlite.Storage MiniSqlite.Buffer MiniSqlite.Catalog
  MiniSqlite.Parser MiniSqlite.Planner

/-! ## The clause -/

/-- An integer literal. -/
structure IntLiteral where
  digits : List UInt8
  areDigits : AreDigits digits

namespace IntLiteral

variable (literal : IntLiteral)

/-- The number that is written. -/
def value : Nat := digitsValue literal.digits

/-- The number that is read: of the digits that a token holds, and as an `int`. -/
def narrowed : Int32 := (nearestInt64 (digitsValue (literal.digits.take 255))).toInt32

/-- The token of the literal. -/
structure Shown (token : TokenT) : Prop where
  type : token.type = .tkIntLiteral
  copied : token.lexeme.chars = literal.digits.take 255

theorem unterminated : 0 ∉ literal.digits :=
  fun member => absurd (literal.areDigits.all 0 member) (by decide)

/-- A token of the literal. -/
def token : TokenT := ⟨.tkIntLiteral, cut 255 ⟨literal.digits, literal.unterminated⟩, 1, 1⟩

variable {literal}

end IntLiteral

/-- `LIMIT` with `OFFSET`, or without. -/
structure LimitClause where
  rows : IntLiteral
  offset : Option IntLiteral

namespace LimitClause

variable (clause : LimitClause)

/-- The number of rows to keep. -/
def count : Nat := clause.rows.value

/-- The first row to keep. -/
def first : Nat := clause.offset.elim 0 IntLiteral.value

/-- The clause as the parser reads it. -/
def limits : Int32 × Int32 := (clause.rows.narrowed, clause.offset.elim (-1) IntLiteral.narrowed)

/-- The tokens of the clause. -/
inductive Written : LimitClause → List TokenT → Prop where
  | rows {limit number : TokenT} {rows : IntLiteral} (isLimit : limit.type = .tkLimit)
      (shown : rows.Shown number) : Written ⟨rows, none⟩ [limit, number]
  | offset {limit number offset number' : TokenT} {rows skipped : IntLiteral}
      (isLimit : limit.type = .tkLimit) (shown : rows.Shown number)
      (isOffset : offset.type = .tkOffset) (shown' : skipped.Shown number') :
      Written ⟨rows, some skipped⟩ [limit, number, offset, number']

variable {clause}

end LimitClause

section Rows

variable {α : Type}

/-- The clause is read as it is written. -/
structure LimitClause.Small (clause : LimitClause) : Prop where
  short : clause.rows.digits.length ≤ 255
  rows : clause.rows.value < 2147483648
  short' : ∀ skipped ∈ clause.offset, skipped.digits.length ≤ 255
  offset : ∀ skipped ∈ clause.offset, skipped.value < 2147483648

end Rows

/-- A `SELECT` with the numbers of a clause. -/
def limited {Double : Type} (stmt : SelectStmt Double) (limits : Int32 × Int32) :
    SelectStmt Double :=
  { stmt with limit := limits.1, offset := limits.2 }

section Running

variable {Double : Type} [Platform Double] {db : Database PageStore} {stmt : SelectStmt Double}
  {tuples : List (Tuple Double)} {limits : Int32 × Int32}

end Running

end MiniSqlite.Executor
