import MiniSqlite.Common.Platform

/-!
# Tokens

`parser/token.h` and `parser/token.c`.
-/

namespace MiniSqlite.Parser

open MiniSqlite.Common

/-- `token_type_t`. -/
inductive TokenTypeT where
  | tkSelect
  | tkFrom
  | tkWhere
  | tkInsert
  | tkInto
  | tkValues
  | tkUpdate
  | tkSet
  | tkDelete
  | tkCreate
  | tkTable
  | tkDrop
  | tkIndex
  | tkOn
  | tkAnd
  | tkOr
  | tkNot
  | tkNull
  | tkPrimary
  | tkKey
  | tkUnique
  | tkInteger
  | tkFloat
  | tkVarchar
  | tkBoolean
  | tkBegin
  | tkCommit
  | tkRollback
  | tkTransaction
  | tkIsolation
  | tkLevel
  | tkRead
  | tkCommitted
  | tkUncommitted
  | tkRepeatable
  | tkExplain
  | tkOrder
  | tkBy
  | tkAsc
  | tkDesc
  | tkGroup
  | tkHaving
  | tkLimit
  | tkJoin
  | tkInner
  | tkLeft
  | tkRight
  | tkAs
  | tkCount
  | tkSum
  | tkAvg
  | tkMin
  | tkMax
  | tkBetween
  | tkIn
  | tkIs
  | tkLike
  | tkTrue
  | tkFalse
  | tkIf
  | tkExists
  | tkAlter
  | tkAdd
  | tkColumn
  | tkConstraint
  | tkDefault
  | tkCheck
  | tkForeign
  | tkReferences
  | tkCascade
  | tkOuter
  | tkCross
  | tkFull
  | tkUnion
  | tkAll
  | tkDistinct
  | tkOffset
  | tkOnly
  | tkSerializable
  | tkIdentifier
  | tkIntLiteral
  | tkFloatLiteral
  | tkStringLiteral
  | tkEqual
  | tkNotEqual
  | tkLess
  | tkLessEqual
  | tkGreater
  | tkGreaterEqual
  | tkPlus
  | tkMinus
  | tkStar
  | tkSlash
  | tkLeftParen
  | tkRightParen
  | tkComma
  | tkSemicolon
  | tkDot
  | tkEof
  | tkError
  deriving DecidableEq, Repr

/-- `token_t`. The lexeme is a string in an array of 256 bytes. -/
structure TokenT where
  type : TokenTypeT
  lexeme : CString
  line : Nat
  column : Nat
  deriving DecidableEq

/-- `token_type_to_string`. -/
def tokenTypeToString : TokenTypeT → String
  | .tkSelect => "SELECT"
  | .tkFrom => "FROM"
  | .tkWhere => "WHERE"
  | .tkInsert => "INSERT"
  | .tkInto => "INTO"
  | .tkValues => "VALUES"
  | .tkUpdate => "UPDATE"
  | .tkSet => "SET"
  | .tkDelete => "DELETE"
  | .tkCreate => "CREATE"
  | .tkTable => "TABLE"
  | .tkDrop => "DROP"
  | .tkIndex => "INDEX"
  | .tkOn => "ON"
  | .tkAnd => "AND"
  | .tkOr => "OR"
  | .tkNot => "NOT"
  | .tkNull => "NULL"
  | .tkPrimary => "PRIMARY"
  | .tkKey => "KEY"
  | .tkUnique => "UNIQUE"
  | .tkInteger => "INTEGER"
  | .tkFloat => "FLOAT"
  | .tkVarchar => "VARCHAR"
  | .tkBoolean => "BOOLEAN"
  | .tkBegin => "BEGIN"
  | .tkCommit => "COMMIT"
  | .tkRollback => "ROLLBACK"
  | .tkTransaction => "TRANSACTION"
  | .tkIsolation => "ISOLATION"
  | .tkLevel => "LEVEL"
  | .tkRead => "READ"
  | .tkCommitted => "COMMITTED"
  | .tkUncommitted => "UNCOMMITTED"
  | .tkRepeatable => "REPEATABLE"
  | .tkExplain => "EXPLAIN"
  | .tkOrder => "ORDER"
  | .tkBy => "BY"
  | .tkAsc => "ASC"
  | .tkDesc => "DESC"
  | .tkGroup => "GROUP"
  | .tkHaving => "HAVING"
  | .tkLimit => "LIMIT"
  | .tkJoin => "JOIN"
  | .tkInner => "INNER"
  | .tkLeft => "LEFT"
  | .tkRight => "RIGHT"
  | .tkAs => "AS"
  | .tkCount => "COUNT"
  | .tkSum => "SUM"
  | .tkAvg => "AVG"
  | .tkMin => "MIN"
  | .tkMax => "MAX"
  | .tkBetween => "BETWEEN"
  | .tkIn => "IN"
  | .tkIs => "IS"
  | .tkLike => "LIKE"
  | .tkTrue => "TRUE"
  | .tkFalse => "FALSE"
  | .tkIf => "IF"
  | .tkExists => "EXISTS"
  | .tkAlter => "ALTER"
  | .tkAdd => "ADD"
  | .tkColumn => "COLUMN"
  | .tkConstraint => "CONSTRAINT"
  | .tkDefault => "DEFAULT"
  | .tkCheck => "CHECK"
  | .tkForeign => "FOREIGN"
  | .tkReferences => "REFERENCES"
  | .tkCascade => "CASCADE"
  | .tkOuter => "OUTER"
  | .tkCross => "CROSS"
  | .tkFull => "FULL"
  | .tkUnion => "UNION"
  | .tkAll => "ALL"
  | .tkDistinct => "DISTINCT"
  | .tkOffset => "OFFSET"
  | .tkOnly => "ONLY"
  | .tkSerializable => "SERIALIZABLE"
  | .tkIdentifier => "IDENTIFIER"
  | .tkIntLiteral => "INT_LITERAL"
  | .tkFloatLiteral => "FLOAT_LITERAL"
  | .tkStringLiteral => "STRING_LITERAL"
  | .tkEqual => "="
  | .tkNotEqual => "<>"
  | .tkLess => "<"
  | .tkLessEqual => "<="
  | .tkGreater => ">"
  | .tkGreaterEqual => ">="
  | .tkPlus => "+"
  | .tkMinus => "-"
  | .tkStar => "*"
  | .tkSlash => "/"
  | .tkLeftParen => "("
  | .tkRightParen => ")"
  | .tkComma => ","
  | .tkSemicolon => ";"
  | .tkDot => "."
  | .tkEof => "EOF"
  | .tkError => "ERROR"

end MiniSqlite.Parser
