import MiniSqlite.Parser.Token
import MiniSqlite.Storage.Value

/-!
# Lexer

`parser/lexer.c`. The position of a lexer is the part of its source that it has not
read yet. Allocations succeed.
-/

namespace MiniSqlite.Parser

open MiniSqlite.Common MiniSqlite.Storage

/-- `isalpha` in the C locale. -/
def isAlpha (char : UInt8) : Bool := (65 ≤ char && char ≤ 90) || (97 ≤ char && char ≤ 122)

/-- `isalnum`. -/
def isAlnum (char : UInt8) : Bool := isAlpha char || isDigit char

/-- `toupper`. -/
def toUpper (char : UInt8) : UInt8 := if 97 ≤ char && char ≤ 122 then char - 32 else char

/-- `KEYWORDS`. -/
def keywords : List (String × TokenTypeT) :=
  [("ADD", .tkAdd), ("ALL", .tkAll), ("ALTER", .tkAlter), ("AND", .tkAnd), ("ASC", .tkAsc),
    ("AVG", .tkAvg), ("BEGIN", .tkBegin), ("BETWEEN", .tkBetween), ("BOOLEAN", .tkBoolean),
    ("BY", .tkBy), ("CASCADE", .tkCascade), ("CHECK", .tkCheck), ("COLUMN", .tkColumn),
    ("COMMIT", .tkCommit), ("COMMITTED", .tkCommitted), ("COUNT", .tkCount),
    ("CREATE", .tkCreate), ("CROSS", .tkCross), ("DEFAULT", .tkDefault), ("DELETE", .tkDelete),
    ("DESC", .tkDesc), ("DISTINCT", .tkDistinct), ("DROP", .tkDrop), ("EXISTS", .tkExists),
    ("EXPLAIN", .tkExplain), ("FLOAT", .tkFloat), ("FOREIGN", .tkForeign), ("FROM", .tkFrom),
    ("FULL", .tkFull), ("GROUP", .tkGroup), ("HAVING", .tkHaving), ("IF", .tkIf), ("IN", .tkIn),
    ("INDEX", .tkIndex), ("INNER", .tkInner), ("INSERT", .tkInsert), ("INTO", .tkInto),
    ("IS", .tkIs), ("ISOLATION", .tkIsolation), ("JOIN", .tkJoin), ("KEY", .tkKey),
    ("LEFT", .tkLeft), ("LEVEL", .tkLevel), ("LIKE", .tkLike), ("LIMIT", .tkLimit),
    ("MAX", .tkMax), ("MIN", .tkMin), ("NOT", .tkNot), ("NULL", .tkNull), ("OFFSET", .tkOffset),
    ("ON", .tkOn), ("ONLY", .tkOnly), ("OR", .tkOr), ("ORDER", .tkOrder), ("OUTER", .tkOuter),
    ("PRIMARY", .tkPrimary), ("READ", .tkRead), ("REFERENCES", .tkReferences),
    ("REPEATABLE", .tkRepeatable), ("RIGHT", .tkRight), ("ROLLBACK", .tkRollback),
    ("SELECT", .tkSelect), ("SERIALIZABLE", .tkSerializable), ("SET", .tkSet), ("SUM", .tkSum),
    ("TABLE", .tkTable), ("TRANSACTION", .tkTransaction), ("TRUE", .tkTrue), ("FALSE", .tkFalse),
    ("UNION", .tkUnion), ("UNIQUE", .tkUnique), ("UNCOMMITTED", .tkUncommitted),
    ("UPDATE", .tkUpdate), ("VALUES", .tkValues), ("VARCHAR", .tkVarchar), ("WHERE", .tkWhere),
    ("INTEGER", .tkInteger)]

/-- `lookup_keyword`. -/
def lookupKeyword (word : List UInt8) : TokenTypeT :=
  match keywords.find? fun entry => (CString.ofChars entry.1.toList).chars == word.map toUpper with
  | some entry => entry.2
  | none => .tkIdentifier

/-- `lexer_t`. -/
structure LexerT where
  rest : List UInt8
  line : Nat
  column : Nat
  deriving DecidableEq

/-- The result of an addition or multiplication of `int`s that are not negative. -/
def intOf (result : Nat) : Except Fault Nat :=
  if result ≤ 2147483647 then .ok result else .error .overflow

namespace LexerT

/-- `lex->pos >= lex->length`. -/
def atEnd (lex : LexerT) : Bool := lex.rest.isEmpty

/-- `peek`. -/
def peek (lex : LexerT) : UInt8 := lex.rest.headD 0

/-- `peek_next`. -/
def peekNext (lex : LexerT) : UInt8 := lex.rest.tail.headD 0

/-- `advance`. -/
def advance (lex : LexerT) : Except Fault LexerT :=
  match lex.rest with
  | [] => .error .outOfBounds
  | c :: rest =>
      if c = 10 then do
        return ⟨rest, ← intOf (lex.line + 1), 1⟩
      else do
        return ⟨rest, lex.line, ← intOf (lex.column + 1)⟩

/-- The bytes between two positions of a lexer. -/
def readUpTo (start lex : LexerT) : List UInt8 :=
  start.rest.take (start.rest.length - lex.rest.length)

/-- A loop that calls `advance` while the next byte is of a kind. -/
def advanceWhile (continues : UInt8 → Bool) : Nat → LexerT → Except Fault LexerT
  | 0, _ => .error .unending
  | turns + 1, lex =>
      if !lex.atEnd && continues lex.peek then do
        advanceWhile continues turns (← lex.advance)
      else return lex

/-- Bound on the turns of a loop that calls `advance` in each. -/
def turns (lex : LexerT) : Nat := lex.rest.length + 1

end LexerT

/-- What `skip_whitespace` skips. -/
def isWhitespace (c : UInt8) : Bool := c == 32 || c == 9 || c == 13 || c == 10

/-- `skip_whitespace`. -/
def skipWhitespace (lex : LexerT) : Except Fault LexerT :=
  lex.advanceWhile isWhitespace lex.turns

/-- `skip_line_comment`. -/
def skipLineComment (lex : LexerT) : Except Fault LexerT :=
  lex.advanceWhile (· != 10) lex.turns

/-- The loop of `skip_block_comment`. -/
def skipBlockCommentLoop : Nat → LexerT → Except Fault LexerT
  | 0, _ => .error .unending
  | turns + 1, lex =>
      if lex.atEnd then return lex
      else if lex.peek == 42 && lex.peekNext == 47 then do
        (← lex.advance).advance
      else do
        skipBlockCommentLoop turns (← lex.advance)

/-- `skip_block_comment`. -/
def skipBlockComment (lex : LexerT) : Except Fault LexerT := skipBlockCommentLoop lex.turns lex

/-- `make_token`. -/
def makeToken (type : TokenTypeT) (start : List UInt8) (line col : Nat) : TokenT :=
  ⟨type, CString.ofBytes (start.take 255), line, col⟩

/-- A byte of an identifier or keyword behind its first. -/
def isWordByte (c : UInt8) : Bool := isAlnum c || c == 95

/-- Identifiers and keywords. -/
def scanWord (lex : LexerT) : Except Fault (TokenT × LexerT) := do
  let after ← lex.advanceWhile isWordByte lex.turns
  let word := lex.readUpTo after
  return (makeToken (lookupKeyword word) word lex.line lex.column, after)

/-- Digits. -/
def skipDigits (lex : LexerT) : Except Fault LexerT := lex.advanceWhile isDigit lex.turns

/-- The fraction of a number, and the type of the token behind it. -/
def scanFraction (type : TokenTypeT) (lex : LexerT) : Except Fault (TokenTypeT × LexerT) :=
  if !lex.atEnd && lex.peek == 46 then do
    return (.tkFloatLiteral, ← skipDigits (← lex.advance))
  else return (type, lex)

/-- The `+` or `-` of an exponent. -/
def isSign (c : UInt8) : Bool := c == 43 || c == 45

/-- The `e` or `E` of an exponent. -/
def isExponent (c : UInt8) : Bool := c == 101 || c == 69

/-- The exponent of a number, and the type of the token behind it. -/
def scanExponent (type : TokenTypeT) (lex : LexerT) : Except Fault (TokenTypeT × LexerT) :=
  if !lex.atEnd && isExponent lex.peek then do
    let lex ← lex.advance
    let lex ← if !lex.atEnd && isSign lex.peek then lex.advance else pure lex
    return (.tkFloatLiteral, ← skipDigits lex)
  else return (type, lex)

/-- Number literals. -/
def scanNumber (lex : LexerT) : Except Fault (TokenT × LexerT) := do
  let after ← skipDigits lex
  let (type, after) ← scanFraction .tkIntLiteral after
  let (type, after) ← scanExponent type after
  return (makeToken type (lex.readUpTo after) lex.line lex.column, after)

/-- The loop over the bytes of a string literal. -/
def skipString : Nat → LexerT → Except Fault LexerT
  | 0, _ => .error .unending
  | turns + 1, lex =>
      if !lex.atEnd && lex.peek != 39 then do
        let lex ← if lex.peek == 92 && lex.peekNext == 39 then lex.advance else pure lex
        skipString turns (← lex.advance)
      else return lex

/-- String literals. -/
def scanString (lex : LexerT) : Except Fault (TokenT × LexerT) := do
  let start ← lex.advance
  let after ← skipString start.turns start
  let body := start.readUpTo after
  let after ← if !after.atEnd then after.advance else pure after
  return (makeToken .tkStringLiteral body lex.line lex.column, after)

/-- The operators of two characters. -/
def twoType (c next : UInt8) : TokenTypeT :=
  if c == 60 && next == 62 then .tkNotEqual
  else if c == 60 && next == 61 then .tkLessEqual
  else if c == 62 && next == 61 then .tkGreaterEqual
  else if c == 33 && next == 61 then .tkNotEqual
  else .tkError

/-- Single-character tokens. -/
def singleType (c : UInt8) : TokenTypeT :=
  if c == 61 then .tkEqual
  else if c == 60 then .tkLess
  else if c == 62 then .tkGreater
  else if c == 43 then .tkPlus
  else if c == 45 then .tkMinus
  else if c == 42 then .tkStar
  else if c == 47 then .tkSlash
  else if c == 40 then .tkLeftParen
  else if c == 41 then .tkRightParen
  else if c == 44 then .tkComma
  else if c == 59 then .tkSemicolon
  else if c == 46 then .tkDot
  else .tkError

/-- Operators and all other characters. -/
def scanOperator (lex : LexerT) : Except Fault (TokenT × LexerT) := do
  let type := twoType lex.peek lex.peekNext
  if !lex.rest.tail.isEmpty && type != .tkError then
    let token := makeToken type (lex.rest.take 2) lex.line lex.column
    return (token, ← (← lex.advance).advance)
  else
    let token := makeToken (singleType lex.peek) [lex.peek] lex.line lex.column
    return (token, ← lex.advance)

/-- The token at a position where neither whitespace nor a comment is. -/
def scanToken (lex : LexerT) : Except Fault (TokenT × LexerT) :=
  let c := lex.peek
  if isAlpha c || c == 95 then scanWord lex
  else if isDigit c then scanNumber lex
  else if c == 39 then scanString lex
  else scanOperator lex

/-- An array that doubles its capacity when it is full. -/
def growCapacity (capacity count : Nat) : Except Fault Nat :=
  if capacity ≤ count then intOf (capacity * 2) else return capacity

/-- The loop of `lexer_tokenize`: the tokens, the capacity of their array and the lexer at
the end of its source. -/
def tokenizeLoop : Nat → Nat → List TokenT → LexerT → Except Fault (Nat × List TokenT × LexerT)
  | 0, _, _, _ => .error .unending
  | turns + 1, capacity, tokens, lex => do
      if lex.atEnd then return (capacity, tokens, lex)
      let lex ← skipWhitespace lex
      if lex.atEnd then return (capacity, tokens, lex)
      if lex.peek == 45 && lex.peekNext == 45 then
        tokenizeLoop turns capacity tokens (← skipLineComment lex)
      else if lex.peek == 47 && lex.peekNext == 42 then
        tokenizeLoop turns capacity tokens (← skipBlockComment (← (← lex.advance).advance))
      else
        let capacity ← growCapacity capacity tokens.length
        let (token, lex) ← scanToken lex
        tokenizeLoop turns capacity (tokens ++ [token]) lex

/-- `lexer_init`. -/
def lexerInit (source : CString) : LexerT := ⟨source.chars, 1, 1⟩

/-- `lexer_tokenize`. -/
def lexerTokenize (lex : LexerT) : Except Fault (List TokenT) := do
  let (capacity, tokens, lex) ← tokenizeLoop lex.turns 64 [] lex
  let _ ← if capacity ≤ tokens.length then intOf (capacity + 1) else pure capacity
  return tokens ++ [⟨.tkEof, .empty, lex.line, lex.column⟩]

end MiniSqlite.Parser
