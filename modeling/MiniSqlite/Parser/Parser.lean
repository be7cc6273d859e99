import MiniSqlite.Parser.Lexer
import MiniSqlite.Parser.Statement
import MiniSqlite.Std.Procedures

/-!
# Parser

`parser/parser.c`. The functions of the parser call each other, so that each is the body
of a procedure (`Call`), and so is each of its loops, which calls itself for the next
turn. The position of a parser is the part of its tokens that it has not consumed yet.

Allocations succeed, and what is released is not modelled, but for two places where memory
is used that holds no object: both end in `Fault.indeterminate`.
-/

namespace MiniSqlite.Parser

open MiniSqlite.Common MiniSqlite.Std MiniSqlite.Std.Code MiniSqlite.Storage

/-! ## Tokens -/

/-- `parser_t`. -/
structure ParserT where
  rest : List TokenT
  errorMsg : CString
  errorLine : Nat
  errorColumn : Nat
  hasError : Bool
  deriving DecidableEq

namespace ParserT

/-- `PEEK`. -/
def peek (p : ParserT) : Except Fault TokenT :=
  match p.rest with
  | [] => .error .outOfBounds
  | token :: _ => .ok token

/-- `PEEK_TYPE`. -/
def peekType (p : ParserT) : Except Fault TokenTypeT := do return (← p.peek).type

/-- `PEEK_NEXT`. -/
def peekNext (p : ParserT) : TokenTypeT :=
  match p.rest with
  | _ :: next :: _ => next.type
  | _ => .tkEof

/-- `ADVANCE`. -/
def advance (p : ParserT) : ParserT := { p with rest := p.rest.tail }

/-- `IS_AT_END`. -/
def isAtEnd (p : ParserT) : Bool :=
  match p.rest with
  | [] => true
  | token :: _ => token.type = .tkEof

/-- The bytes of a text. -/
def text (string : String) : List UInt8 := (CString.ofChars string.toList).chars

/-- `%d`. -/
def decimal (number : Nat) : List UInt8 := (CString.ofChars (Nat.toDigits 10 number)).chars

/-- `parser_error`, with the formatted message. -/
def parserError (p : ParserT) (message : List UInt8) : Except Fault ParserT := do
  let token ← p.peek
  return { p with
    errorMsg := CString.ofBytes (message.take 511)
    errorLine := token.line
    errorColumn := token.column
    hasError := true }

/-- `match`. -/
def matchToken (p : ParserT) (type : TokenTypeT) : Except Fault (Bool × ParserT) := do
  if (← p.peekType) = type then return (true, p.advance) else return (false, p)

/-- `expect`. -/
def expect (p : ParserT) (type : TokenTypeT) : Except Fault (Bool × ParserT) := do
  let token ← p.peek
  if token.type = type then return (true, p.advance)
  else
    let p ← p.parserError (text "Syntax error at line " ++ decimal token.line ++ text ", column " ++
      decimal token.column ++ text ": expected " ++ text (tokenTypeToString type) ++
      text " but found " ++ text (tokenTypeToString token.type))
    return (false, p)

end ParserT

/-- `strncpy` of a string to an array that is terminated behind `count` bytes. -/
def cut (count : Nat) (string : CString) : CString :=
  ⟨string.chars.take count, fun member => string.unterminated (List.mem_of_mem_take member)⟩

/-! ## Procedures -/

/-- The procedures of the parser, with what they return: nothing stands for a null pointer. -/
inductive Call (Double : Type) : Type → Type where
  /-- `parse_primary`. -/
  | primary (p : ParserT) : Call Double (Option (ExprT Double) × ParserT)
  /-- `parse_expression_prec`. -/
  | expressionPrec (minPrec : Nat) (p : ParserT) : Call Double (Option (ExprT Double) × ParserT)
  /-- The loop of `parse_expression_prec`. -/
  | precLoop (minPrec : Nat) (left : ExprT Double) (p : ParserT) :
      Call Double (Option (ExprT Double) × ParserT)
  /-- What `parse_expression_prec` does with the pattern of a `LIKE`. -/
  | likePattern (minPrec : Nat) (left : ExprT Double) (isNot : Bool) (pattern : ExprT Double)
      (p : ParserT) : Call Double (Option (ExprT Double) × ParserT)
  /-- A loop that reads expressions as long as commas follow. -/
  | expressionList (items : List (ExprT Double)) (p : ParserT) :
      Call Double (Option (List (ExprT Double)) × ParserT)
  /-- The loop over the select list in `parse_select`. -/
  | selectList (items : List (ExprT Double)) (p : ParserT) :
      Call Double (Option (List (ExprT Double)) × ParserT)
  /-- The loop over the tables of `FROM`. -/
  | fromTables (tables : List TableRefT) (p : ParserT) :
      Call Double (Option (List TableRefT) × ParserT)
  /-- The loop over the joins. -/
  | joins (joins : List (JoinClauseT Double)) (p : ParserT) :
      Call Double (Option (List (JoinClauseT Double)) × ParserT)
  /-- The loop over the items of `ORDER BY`. -/
  | orderBy (items : List (OrderByItemT Double)) (p : ParserT) :
      Call Double (Option (List (OrderByItemT Double)) × ParserT)
  /-- The loop over the column definitions in `parse_create_table`. -/
  | columns (columns : List (AstColumnDefT Double)) (p : ParserT) :
      Call Double (Option (List (AstColumnDefT Double)) × ParserT)
  /-- The loop over the constraints of a column. -/
  | constraints (col : AstColumnDefT Double) (p : ParserT) :
      Call Double (AstColumnDefT Double × ParserT)
  /-- The loop over the columns in `parse_create_index`. -/
  | indexColumns (columns : List CString) (p : ParserT) :
      Call Double (Option (List CString) × ParserT)
  /-- The loop over the column list in `parse_insert`. -/
  | insertColumns (columns : List CString) (p : ParserT) : Call Double (List CString × ParserT)
  /-- The loop over the rows of `VALUES`. -/
  | rows (rows : List (List (ExprT Double))) (p : ParserT) :
      Call Double (Option (List (List (ExprT Double))) × ParserT)
  /-- The loop over the assignments in `parse_update`. -/
  | assignments (assignments : List (AssignmentT Double)) (p : ParserT) :
      Call Double (Option (List (AssignmentT Double)) × ParserT)
  /-- `parse_statement`. -/
  | statement (p : ParserT) : Call Double (Option (StmtT Double) × ParserT)
  /-- The loop of `parser_parse_all`. -/
  | statements (stmts : List (StmtT Double)) (capacity : Nat) (p : ParserT) :
      Call Double (List (StmtT Double) × ParserT)
  /-- What `parser_parse_all` does with a statement. -/
  | store (stmts : List (StmtT Double)) (capacity : Nat) (s : StmtT Double) (p : ParserT) :
      Call Double (List (StmtT Double) × ParserT)

/-- Code of the parser. -/
abbrev Parse (Double : Type) := Code (Call Double) Fault

variable {Double : Type} [Platform Double]

/-- Goes on unless the last function has returned a null pointer, which is passed on. -/
def whenParsed {α β : Type} (result : Option α × ParserT)
    (next : α → ParserT → Parse Double (Option β × ParserT)) :
    Parse Double (Option β × ParserT) :=
  match result.1 with
  | none => pure (none, result.2)
  | some value => next value result.2

/-! ## Expressions -/

/-- `get_precedence`. -/
def getPrecedence : TokenTypeT → Nat
  | .tkOr => 1
  | .tkAnd => 2
  | .tkNot => 3
  | .tkEqual | .tkNotEqual | .tkLess | .tkLessEqual | .tkGreater | .tkGreaterEqual
  | .tkIs | .tkIn | .tkBetween | .tkLike => 4
  | .tkPlus | .tkMinus => 5
  | .tkStar | .tkSlash => 6
  | _ => 0

/-- `parse_literal_expr`. -/
def parseLiteralExpr (p : ParserT) : Except Fault (Option (ExprT Double) × ParserT) := do
  let tok ← p.peek
  match tok.type with
  | .tkIntLiteral => return (some (.literal (.int (strtoll tok.lexeme.chars).1)), p.advance)
  | .tkFloatLiteral => return (some (.literal (.float (Platform.strtod tok.lexeme).1)), p.advance)
  | .tkStringLiteral => return (some (.literal (.string (cut 255 tok.lexeme))), p.advance)
  | .tkTrue => return (some (.literal (.bool 1)), p.advance)
  | .tkFalse => return (some (.literal (.bool 0)), p.advance)
  | .tkNull => return (some (.literal .null), p.advance)
  | type =>
      return (none, ← p.parserError
        (ParserT.text "Expected literal but found " ++ ParserT.text (tokenTypeToString type)))

/-- `parse_column_ref_or_identifier`. -/
def parseColumnRefOrIdentifier (p : ParserT) : Except Fault (Option (ExprT Double) × ParserT) := do
  let tok ← p.peek
  if tok.type ≠ .tkIdentifier then
    return (none, ← p.parserError
      (ParserT.text "Expected identifier but found " ++ ParserT.text (tokenTypeToString tok.type)))
  else
    let column := cut 63 tok.lexeme
    let p := p.advance
    if (← p.peekType) = .tkDot then
      let p := p.advance
      let colTok ← p.peek
      if colTok.type = .tkIdentifier ∨ colTok.type = .tkStar then
        return (some (.columnRef column (cut 63 colTok.lexeme)), p.advance)
      else
        return (none, ← p.parserError (ParserT.text "Expected column name after '.'"))
    else
      return (some (.columnRef .empty column), p)

/-- `parse_expression`. -/
def parseExpression (p : ParserT) : Parse Double (Option (ExprT Double) × ParserT) :=
  invoke (.expressionPrec 1 p)

/-- `parse_function_call`. -/
def parseFunctionCall (p : ParserT) (name : CString) :
    Parse Double (Option (ExprT Double) × ParserT) := do
  let (_, p) ← p.expect .tkLeftParen
  if (← p.peekType) = .tkStar then
    let (_, p) ← p.advance.expect .tkRightParen
    return (some (.funcCall name [] true), p)
  else if (← p.peekType) ≠ .tkRightParen then
    let args ← invoke (.expressionList [] p)
    whenParsed args fun args p => do
      let (_, p) ← p.expect .tkRightParen
      return (some (.funcCall name args false), p)
  else
    let (_, p) ← p.expect .tkRightParen
    return (some (.funcCall name [] false), p)

/-- `parse_primary`. -/
def parsePrimary (p : ParserT) : Parse Double (Option (ExprT Double) × ParserT) := do
  if p.hasError then return (none, p)
  else
    let token ← p.peek
    match token.type with
    | .tkIntLiteral | .tkFloatLiteral | .tkStringLiteral | .tkNull | .tkTrue | .tkFalse =>
        parseLiteralExpr p
    | .tkLeftParen =>
        let (e, p) ← parseExpression p.advance
        let (_, p) ← p.expect .tkRightParen
        return (e, p)
    | .tkMinus =>
        let operand ← invoke (.primary p.advance)
        whenParsed operand fun operand p => return (some (.unary .tkMinus operand), p)
    | .tkNot =>
        let operand ← invoke (.expressionPrec 3 p.advance)
        whenParsed operand fun operand p => return (some (.unary .tkNot operand), p)
    | .tkCount | .tkSum | .tkAvg | .tkMin | .tkMax =>
        parseFunctionCall p.advance (cut 63 token.lexeme)
    | .tkIdentifier =>
        if p.peekNext = .tkLeftParen then
          parseFunctionCall p.advance (cut 63 token.lexeme)
        else parseColumnRefOrIdentifier p
    | .tkStar => return (some (.columnRef .empty (CString.ofChars ['*'])), p.advance)
    | type =>
        let p ← p.parserError (ParserT.text "Unexpected token: " ++
          ParserT.text (tokenTypeToString type) ++ ParserT.text " ('" ++ token.lexeme.chars ++
          ParserT.text "')")
        return (none, p)

/-- The part of the loop of `parse_expression_prec` from `[NOT] IN` on: an operator `op` of
the precedence `prec`, in front of which `NOT` has been consumed if `isNot` is set. -/
def parseOperator (minPrec : Nat) (left : ExprT Double) (prec : Nat) (isNot : Bool)
    (op : TokenTypeT) (p : ParserT) : Parse Double (Option (ExprT Double) × ParserT) :=
  match op with
  | .tkIn => do
      let (_, p) ← p.advance.expect .tkLeftParen
      let list ← invoke (.expressionList [] p)
      whenParsed list fun list p => do
        let (_, p) ← p.expect .tkRightParen
        invoke (.precLoop minPrec (.inExpr left list isNot) p)
  | .tkBetween => do
      let low ← invoke (.expressionPrec (prec + 1) p.advance)
      whenParsed low fun low p => do
        let (_, p) ← p.expect .tkAnd
        let high ← invoke (.expressionPrec (prec + 1) p)
        whenParsed high fun high p =>
          invoke (.precLoop minPrec (.between left low high isNot) p)
  | .tkLike => do
      let pattern ← invoke (.primary p.advance)
      whenParsed pattern fun pattern p => invoke (.likePattern minPrec left isNot pattern p)
  | op => do
      let right ← invoke (.expressionPrec (prec + 1) p.advance)
      whenParsed right fun right p => invoke (.precLoop minPrec (.binary left op right) p)

/-- The part of the loop behind `IS`, an operator of the precedence `prec`. -/
def parseIs (minPrec : Nat) (left : ExprT Double) (prec : Nat) (p : ParserT) :
    Parse Double (Option (ExprT Double) × ParserT) := do
  let (isNot, p) ← p.matchToken .tkNot
  if (← p.peekType) = .tkNull then
    invoke (.precLoop minPrec (.isNull left isNot) p.advance)
  else
    let right ← invoke (.expressionPrec (prec + 1) p)
    whenParsed right fun right p =>
      invoke (.precLoop minPrec
        (.binary left (if isNot then .tkNotEqual else .tkEqual) right) p)

/-- The loop of `parse_expression_prec`. -/
def parsePrecLoop (minPrec : Nat) (left : ExprT Double) (p : ParserT) :
    Parse Double (Option (ExprT Double) × ParserT) := do
  let op ← p.peekType
  let prec := getPrecedence op
  if prec = 0 ∨ prec < minPrec then return (some left, p)
  else if op = .tkIs then parseIs minPrec left prec p.advance
  else if op = .tkNot then
    let next := p.peekNext
    if next = .tkIn ∨ next = .tkBetween ∨ next = .tkLike then
      parseOperator minPrec left prec true (← p.advance.peekType) p.advance
    else return (some left, p)
  else parseOperator minPrec left prec false op p

/-- `LIKE` with a pattern. Unless this is a string literal, the tree on the left, which
`ast_destroy_expr(e)` has released, is used as the left operand of a binary operator. -/
def parseLikePattern (minPrec : Nat) (left : ExprT Double) (isNot : Bool) (pattern : ExprT Double)
    (p : ParserT) : Parse Double (Option (ExprT Double) × ParserT) :=
  match pattern with
  | .literal (.string pattern) => invoke (.precLoop minPrec (.like left (cut 255 pattern) isNot) p)
  | _ => .fail .indeterminate

/-- `parse_expression_prec`. -/
def parseExpressionPrec (minPrec : Nat) (p : ParserT) :
    Parse Double (Option (ExprT Double) × ParserT) := do
  let left ← invoke (.primary p)
  whenParsed left fun left p => invoke (.precLoop minPrec left p)

/-- The loop over expressions between commas in `parse_function_call`, in `IN`, in
`GROUP BY` and in the rows of `parse_insert`. -/
def parseExpressionList (items : List (ExprT Double)) (p : ParserT) :
    Parse Double (Option (List (ExprT Double)) × ParserT) := do
  let item ← parseExpression p
  whenParsed item fun item p => do
    let (more, p) ← p.matchToken .tkComma
    if more then invoke (.expressionList (items ++ [item]) p)
    else return (some (items ++ [item]), p)

/-! ## SELECT -/

/-- An expression behind a keyword that may be missing. -/
def parseClause (keyword : TokenTypeT) (p : ParserT) :
    Parse Double (Option (Option (ExprT Double)) × ParserT) := do
  let (present, p) ← p.matchToken keyword
  if present then
    let e ← parseExpression p
    whenParsed e fun e p => return (some (some e), p)
  else return (some none, p)

/-- Skips the aliasName of an item of the select list. -/
def skipAlias (p : ParserT) : Except Fault ParserT := do
  let p := if (← p.peekType) = .tkAs then p.advance else p
  if (← p.peekType) = .tkIdentifier ∧ p.peekNext ≠ .tkLeftParen then
    let type ← p.advance.peekType
    if type = .tkComma ∨ type = .tkFrom then return p.advance else return p
  else return p

/-- The loop over the select list. -/
def parseSelectList (items : List (ExprT Double)) (p : ParserT) :
    Parse Double (Option (List (ExprT Double)) × ParserT) := do
  let expr ← parseExpression p
  whenParsed expr fun expr p => do
    let p ← skipAlias p
    let (more, p) ← p.matchToken .tkComma
    if more then invoke (.selectList (items ++ [expr]) p) else return (some (items ++ [expr]), p)

/-- An identifier, if one is next, and else the empty string. -/
def takeIdentifier (p : ParserT) : Except Fault (CString × ParserT) := do
  let token ← p.peek
  if token.type = .tkIdentifier then return (cut 63 token.lexeme, p.advance)
  else return (.empty, p)

/-- An identifier that has to be there. -/
def requireIdentifier (message : String) (p : ParserT) :
    Except Fault (Option CString × ParserT) := do
  let token ← p.peek
  if token.type = .tkIdentifier then return (some (cut 63 token.lexeme), p.advance)
  else return (none, ← p.parserError (ParserT.text message))

/-- The identifier behind a keyword, if there are both. -/
def takeIdentifierBehind (keyword : TokenTypeT) (p : ParserT) :
    Except Fault (CString × ParserT) := do
  let (present, p) ← p.matchToken keyword
  if present then takeIdentifier p else return (.empty, p)

/-- The loop over the tables of `FROM`. -/
def parseFromTables (tables : List TableRefT) (p : ParserT) :
    Parse Double (Option (List TableRefT) × ParserT) := do
  let name ← requireIdentifier "Expected table name after FROM" p
  whenParsed name fun name p => do
    let (_, p) ← p.matchToken .tkAs
    let (aliasName, p) ← takeIdentifier p
    let (more, p) ← p.matchToken .tkComma
    let tables := tables ++ [⟨name, aliasName⟩]
    if more then invoke (.fromTables tables p) else return (some tables, p)

/-- `INNER`, `LEFT [OUTER]`, `RIGHT [OUTER]`, `CROSS` and `FULL [OUTER]`. -/
def joinWords (p : ParserT) : Except Fault (Option TokenTypeT × ParserT) := do
  match ← p.peekType with
  | .tkInner => return (some .tkInner, p.advance)
  | .tkLeft => return (some .tkLeft, (← p.advance.matchToken .tkOuter).2)
  | .tkRight => return (some .tkRight, (← p.advance.matchToken .tkOuter).2)
  | .tkCross => return (some .tkCross, p.advance)
  | .tkFull => return (some .tkFull, (← p.advance.matchToken .tkOuter).2)
  | _ => return (none, p)

/-- The condition of a join. A null pointer is not told from a missing condition. -/
def parseCondition (p : ParserT) : Parse Double (Option (ExprT Double) × ParserT) := do
  let (on, p) ← p.matchToken .tkOn
  if on then parseExpression p else return (none, p)

/-- The loop over the joins. -/
def parseJoins (joins : List (JoinClauseT Double)) (p : ParserT) :
    Parse Double (Option (List (JoinClauseT Double)) × ParserT) := do
  match ← joinWords p with
  | (none, p) => return (some joins, p)
  | (some joinType, p) =>
      let (joined, p) ← p.expect .tkJoin
      if !joined then return (none, p)
      else
        let name ← requireIdentifier "Expected table name after JOIN" p
        whenParsed name fun name p => do
          let (aliasName, p) ← takeIdentifierBehind .tkAs p
          let (condition, p) ← parseCondition p
          invoke (.joins (joins ++ [⟨joinType, ⟨name, aliasName⟩, condition⟩]) p)

/-- `ASC` or `DESC`. -/
def parseAscending (p : ParserT) : Except Fault (Bool × ParserT) := do
  let (asc, p) ← p.matchToken .tkAsc
  if asc then return (true, p)
  else
    let (desc, p) ← p.matchToken .tkDesc
    return (!desc, p)

/-- The loop over the items of `ORDER BY`. -/
def parseOrderBy (items : List (OrderByItemT Double)) (p : ParserT) :
    Parse Double (Option (List (OrderByItemT Double)) × ParserT) := do
  let expr ← parseExpression p
  whenParsed expr fun expr p => do
    let (ascending, p) ← parseAscending p
    let items := items ++ [⟨expr, ascending⟩]
    let (more, p) ← p.matchToken .tkComma
    if more then invoke (.orderBy items p) else return (some items, p)

/-- `(int)strtol`. -/
def intLiteral (token : TokenT) : Int32 := (strtoll token.lexeme.chars).1.toInt32

/-- `LIMIT` and `OFFSET`. -/
def parseLimit (p : ParserT) : Except Fault (Option (Int32 × Int32) × ParserT) := do
  let (limited, p) ← p.matchToken .tkLimit
  if !limited then return (some (-1, -1), p)
  else
    let token ← p.peek
    if token.type ≠ .tkIntLiteral then
      return (none, ← p.parserError (ParserT.text "Expected integer after LIMIT"))
    else
      let limit := intLiteral token
      let (shifted, p) ← p.advance.matchToken .tkOffset
      if !shifted then return (some (limit, -1), p)
      else
        let token ← p.peek
        if token.type = .tkIntLiteral then return (some (limit, intLiteral token), p.advance)
        else return (some (limit, -1), p)

/-- The list behind `GROUP BY` or `ORDER BY`, which `loop` reads. -/
def parseByClause {α : Type} (keyword : TokenTypeT)
    (loop : ParserT → Call Double (Option (List α) × ParserT)) (p : ParserT) :
    Parse Double (Option (List α) × ParserT) := do
  let (present, p) ← p.matchToken keyword
  if present then
    let (_, p) ← p.expect .tkBy
    invoke (loop p)
  else return (some [], p)

/-- The clauses of `parse_select` behind `FROM`. -/
def parseSelectTail (selectList : List (ExprT Double)) (isDistinct : Bool)
    (fromTables : List TableRefT) (joins : List (JoinClauseT Double)) (p : ParserT) :
    Parse Double (Option (StmtT Double) × ParserT) := do
  let whereClause ← parseClause .tkWhere p
  whenParsed whereClause fun whereClause p => do
    let groupBy ← parseByClause .tkGroup (.expressionList []) p
    whenParsed groupBy fun groupBy p => do
      let having ← parseClause .tkHaving p
      whenParsed having fun having p => do
        let orderBy ← parseByClause .tkOrder (.orderBy []) p
        whenParsed orderBy fun orderBy p => do
          let limits ← parseLimit p
          whenParsed limits fun limits p =>
            return (some (.select ⟨selectList, isDistinct, fromTables, joins, whereClause, groupBy,
              having, orderBy, limits.1, limits.2⟩), p)

/-- `parse_select`. -/
def parseSelect (p : ParserT) : Parse Double (Option (StmtT Double) × ParserT) := do
  let (isDistinct, p) ← p.advance.matchToken .tkDistinct
  let selectList ← invoke (.selectList [] p)
  whenParsed selectList fun selectList p => do
    let (hasTables, p) ← p.matchToken .tkFrom
    if hasTables then
      let fromTables ← invoke (.fromTables [] p)
      whenParsed fromTables fun fromTables p => do
        let joins ← invoke (.joins [] p)
        whenParsed joins fun joins p => parseSelectTail selectList isDistinct fromTables joins p
    else parseSelectTail selectList isDistinct [] [] p

/-! ## CREATE and DROP -/

/-- The data type of a column and the length of a `VARCHAR`. -/
def parseDataType (p : ParserT) : Except Fault (Option (ColDataType × Int32) × ParserT) := do
  match ← p.peekType with
  | .tkInteger => return (some (.integer, 0), p.advance)
  | .tkFloat => return (some (.float, 0), p.advance)
  | .tkVarchar =>
      let (sized, p) ← p.advance.matchToken .tkLeftParen
      if sized then
        let token ← p.peek
        if token.type = .tkIntLiteral then
          let (_, p) ← p.advance.expect .tkRightParen
          return (some (.varchar, intLiteral token), p)
        else
          let (_, p) ← p.expect .tkRightParen
          return (some (.varchar, 0), p)
      else return (some (.varchar, 0), p)
  | .tkBoolean => return (some (.boolean, 0), p.advance)
  | type =>
      return (none, ← p.parserError
        (ParserT.text "Expected data type but found " ++ ParserT.text (tokenTypeToString type)))

/-- The loop over the constraints of a column. -/
def parseConstraints (col : AstColumnDefT Double) (p : ParserT) :
    Parse Double (AstColumnDefT Double × ParserT) := do
  match ← p.peekType with
  | .tkPrimary =>
      let (_, p) ← p.advance.expect .tkKey
      invoke (.constraints { col with isPrimaryKey := true, notNull := true } p)
  | .tkNot =>
      let (_, p) ← p.advance.expect .tkNull
      invoke (.constraints { col with notNull := true } p)
  | .tkUnique => invoke (.constraints { col with isUnique := true } p.advance)
  | .tkDefault =>
      match ← parseExpression p.advance with
      | (some (.literal value), p) =>
          invoke (.constraints { col with hasDefault := true, defaultValue := value } p)
      | (_, p) => invoke (.constraints { col with hasDefault := true } p)
  | _ => return (col, p)

/-- The loop over the column definitions. -/
def parseColumns (columns : List (AstColumnDefT Double)) (p : ParserT) :
    Parse Double (Option (List (AstColumnDefT Double)) × ParserT) := do
  let name ← requireIdentifier "Expected column name" p
  whenParsed name fun name p => do
    let dataType ← parseDataType p
    whenParsed dataType fun dataType p => do
      let (col, p) ← invoke (.constraints
        ⟨name, dataType.1, dataType.2, false, false, false, false, .null⟩ p)
      let (more, p) ← p.matchToken .tkComma
      if more then invoke (.columns (columns ++ [col]) p) else return (some (columns ++ [col]), p)

/-- `IF NOT EXISTS`. -/
def parseIfNotExists (p : ParserT) : Except Fault (Bool × ParserT) := do
  let (ifNotExists, p) ← p.matchToken .tkIf
  if ifNotExists then
    let (_, p) ← p.expect .tkNot
    let (_, p) ← p.expect .tkExists
    return (true, p)
  else return (false, p)

/-- `parse_create_table`. -/
def parseCreateTable (p : ParserT) : Parse Double (Option (StmtT Double) × ParserT) := do
  let (_, p) ← p.advance.expect .tkTable
  let (ifNotExists, p) ← parseIfNotExists p
  let tableName ← requireIdentifier "Expected table name" p
  whenParsed tableName fun tableName p => do
    let (_, p) ← p.expect .tkLeftParen
    let columns ← invoke (.columns [] p)
    whenParsed columns fun columns p => do
      let (_, p) ← p.expect .tkRightParen
      return (some (.createTable tableName columns ifNotExists), p)

/-- The loop over the columns of an index. -/
def parseIndexColumns (columns : List CString) (p : ParserT) :
    Parse Double (Option (List CString) × ParserT) := do
  if 8 ≤ columns.length then
    return (none, ← p.parserError (ParserT.text "Too many columns in index"))
  else
    let column ← requireIdentifier "Expected column name in index" p
    whenParsed column fun column p => do
      let (more, p) ← p.matchToken .tkComma
      if more then invoke (.indexColumns (columns ++ [column]) p)
      else return (some (columns ++ [column]), p)

/-- `parse_create_index`. -/
def parseCreateIndex (p : ParserT) : Parse Double (Option (StmtT Double) × ParserT) := do
  let (_, p) ← p.advance.expect .tkIndex
  let indexName ← requireIdentifier "Expected index name" p
  whenParsed indexName fun indexName p => do
    let (_, p) ← p.expect .tkOn
    let tableName ← requireIdentifier "Expected table name after ON" p
    whenParsed tableName fun tableName p => do
      let (_, p) ← p.expect .tkLeftParen
      let columns ← invoke (.indexColumns [] p)
      whenParsed columns fun columns p => do
        let (_, p) ← p.expect .tkRightParen
        return (some (.createIndex tableName indexName columns false), p)

/-- `IF EXISTS`. -/
def parseIfExists (p : ParserT) : Except Fault (Bool × ParserT) := do
  let (ifExists, p) ← p.matchToken .tkIf
  if ifExists then
    let (_, p) ← p.expect .tkExists
    return (true, p)
  else return (false, p)

/-- `parse_drop_table`. -/
def parseDropTable (p : ParserT) : Parse Double (Option (StmtT Double) × ParserT) := do
  let (_, p) ← p.advance.expect .tkTable
  let (ifExists, p) ← parseIfExists p
  let tableName ← requireIdentifier "Expected table name after DROP TABLE" p
  whenParsed tableName fun tableName p => return (some (.dropTable tableName ifExists), p)

/-- `parse_drop_index`. -/
def parseDropIndex (p : ParserT) : Parse Double (Option (StmtT Double) × ParserT) := do
  let (_, p) ← p.advance.expect .tkIndex
  let indexName ← requireIdentifier "Expected index name after DROP INDEX" p
  whenParsed indexName fun indexName p => do
    let (tableName, p) ← takeIdentifierBehind .tkOn p
    return (some (.dropIndex indexName tableName), p)

/-! ## INSERT, UPDATE and DELETE -/

/-- The loop over a column list. -/
def parseInsertColumns (columns : List CString) (p : ParserT) :
    Parse Double (List CString × ParserT) := do
  let token ← p.peek
  if token.type ≠ .tkIdentifier then return (columns, p)
  else
    let columns := columns ++ [cut 63 token.lexeme]
    let (more, p) ← p.advance.matchToken .tkComma
    if more then invoke (.insertColumns columns p) else return (columns, p)

/-- The loop over the rows of `VALUES`. -/
def parseRows (rows : List (List (ExprT Double))) (p : ParserT) :
    Parse Double (Option (List (List (ExprT Double))) × ParserT) := do
  let (_, p) ← p.expect .tkLeftParen
  let row ← invoke (.expressionList [] p)
  whenParsed row fun row p => do
    let (_, p) ← p.expect .tkRightParen
    let (more, p) ← p.matchToken .tkComma
    if more then invoke (.rows (rows ++ [row]) p) else return (some (rows ++ [row]), p)

/-- The column list of `parse_insert`. -/
def parseColumnList (p : ParserT) : Parse Double (List CString × ParserT) := do
  if (← p.peekType) = .tkLeftParen ∧ p.peekNext = .tkIdentifier then
    let (columns, p) ← invoke (.insertColumns [] p.advance)
    let (_, p) ← p.expect .tkRightParen
    return (columns, p)
  else return ([], p)

/-- `parse_insert`. -/
def parseInsert (p : ParserT) : Parse Double (Option (StmtT Double) × ParserT) := do
  let (_, p) ← p.advance.expect .tkInto
  let tableName ← requireIdentifier "Expected table name after INSERT INTO" p
  whenParsed tableName fun tableName p => do
    let (columns, p) ← parseColumnList p
    let (_, p) ← p.expect .tkValues
    let rows ← invoke (.rows [] p)
    whenParsed rows fun rows p => return (some (.insert tableName columns rows), p)

/-- The loop over the assignments. The place for the next one is counted and not yet written
when its column turns out to be missing: `ast_destroy_stmt` then follows a pointer in it. -/
def parseAssignments (assignments : List (AssignmentT Double)) (p : ParserT) :
    Parse Double (Option (List (AssignmentT Double)) × ParserT) := do
  let token ← p.peek
  if token.type ≠ .tkIdentifier then .fail .indeterminate
  else
    let (_, p) ← p.advance.expect .tkEqual
    let value ← parseExpression p
    whenParsed value fun value p => do
      let assignments := assignments ++ [⟨cut 63 token.lexeme, value⟩]
      let (more, p) ← p.matchToken .tkComma
      if more then invoke (.assignments assignments p) else return (some assignments, p)

/-- `parse_update`. -/
def parseUpdate (p : ParserT) : Parse Double (Option (StmtT Double) × ParserT) := do
  let tableName ← requireIdentifier "Expected table name after UPDATE" p.advance
  whenParsed tableName fun tableName p => do
    let (_, p) ← p.expect .tkSet
    let assignments ← invoke (.assignments [] p)
    whenParsed assignments fun assignments p => do
      let whereClause ← parseClause .tkWhere p
      whenParsed whereClause fun whereClause p =>
        return (some (.update tableName assignments whereClause), p)

/-- `parse_delete`. -/
def parseDelete (p : ParserT) : Parse Double (Option (StmtT Double) × ParserT) := do
  let (_, p) ← p.advance.expect .tkFrom
  let tableName ← requireIdentifier "Expected table name after DELETE FROM" p
  whenParsed tableName fun tableName p => do
    let whereClause ← parseClause .tkWhere p
    whenParsed whereClause fun whereClause p =>
      return (some (.deleteStmt tableName whereClause), p)

/-! ## Statements -/

/-- The level of `BEGIN ISOLATION`. -/
def parseIsolation (p : ParserT) : Except Fault (CString × ParserT) := do
  let (_, p) ← p.matchToken .tkLevel
  match ← p.peekType with
  | .tkRead =>
      match ← p.advance.peekType with
      | .tkUncommitted =>
          return (CString.ofChars "READ UNCOMMITTED".toList, p.advance.advance)
      | .tkCommitted => return (CString.ofChars "READ COMMITTED".toList, p.advance.advance)
      | _ => return (.empty, p.advance)
  | .tkRepeatable =>
      let (_, p) ← p.advance.expect .tkRead
      return (CString.ofChars "REPEATABLE READ".toList, p)
  | .tkSerializable => return (CString.ofChars "SERIALIZABLE".toList, p.advance)
  | _ => return (.empty, p)

/-- `parse_begin`. -/
def parseBegin (p : ParserT) : Except Fault (Option (StmtT Double) × ParserT) := do
  let (_, p) ← p.advance.matchToken .tkTransaction
  let (isolated, p) ← p.matchToken .tkIsolation
  if isolated then
    let (level, p) ← parseIsolation p
    return (some (.begin level), p)
  else return (some (.begin .empty), p)

/-- `parse_explain`. -/
def parseExplain (p : ParserT) : Parse Double (Option (StmtT Double) × ParserT) := do
  let inner ← invoke (.statement p.advance)
  whenParsed inner fun inner p => return (some (.explain inner), p)

/-- `parse_statement`. -/
def parseStatement (p : ParserT) : Parse Double (Option (StmtT Double) × ParserT) := do
  if p.hasError then return (none, p)
  else if p.isAtEnd then return (none, p)
  else
    let token ← p.peek
    match token.type with
    | .tkSelect => parseSelect p
    | .tkCreate =>
        if p.peekNext = .tkIndex ∨ p.peekNext = .tkUnique then parseCreateIndex p
        else parseCreateTable p
    | .tkDrop => if p.peekNext = .tkIndex then parseDropIndex p else parseDropTable p
    | .tkInsert => parseInsert p
    | .tkUpdate => parseUpdate p
    | .tkDelete => parseDelete p
    | .tkBegin => parseBegin p
    | .tkCommit => return (some .commit, p.advance)
    | .tkRollback => return (some .rollback, p.advance)
    | .tkExplain => parseExplain p
    | type =>
        let p ← p.parserError (ParserT.text "Unexpected token: " ++
          ParserT.text (tokenTypeToString type) ++ ParserT.text " ('" ++ token.lexeme.chars ++
          ParserT.text "') at line " ++ ParserT.decimal token.line ++ ParserT.text ", column " ++
          ParserT.decimal token.column)
        return (none, p)

/-- The loop of `parser_parse_all`. -/
def parseStatements (stmts : List (StmtT Double)) (capacity : Nat) (p : ParserT) :
    Parse Double (List (StmtT Double) × ParserT) := do
  if p.isAtEnd ∨ p.hasError then return (stmts, p)
  else if (← p.peekType) = .tkSemicolon then invoke (.statements stmts capacity p.advance)
  else
    match ← invoke (.statement p) with
    | (none, p) => return (stmts, p)
    | (some s, p) => invoke (.store stmts capacity s p)

/-- Stores a statement and consumes the semicolon behind it, if there is one. The other arrays
of the parser grow by less than one item for two tokens, so that their capacities fit. -/
def storeStatement (stmts : List (StmtT Double)) (capacity : Nat) (s : StmtT Double)
    (p : ParserT) : Parse Double (List (StmtT Double) × ParserT) := do
  let capacity ← growCapacity capacity stmts.length
  let (_, p) ← p.matchToken .tkSemicolon
  invoke (.statements (stmts ++ [s]) capacity p)

/-- The bodies of the procedures. -/
def body : {α : Type} → Call Double α → Parse Double α
  | _, .primary p => parsePrimary p
  | _, .expressionPrec minPrec p => parseExpressionPrec minPrec p
  | _, .precLoop minPrec left p => parsePrecLoop minPrec left p
  | _, .likePattern minPrec left isNot pattern p => parseLikePattern minPrec left isNot pattern p
  | _, .expressionList items p => parseExpressionList items p
  | _, .selectList items p => parseSelectList items p
  | _, .fromTables tables p => parseFromTables tables p
  | _, .joins joins p => parseJoins joins p
  | _, .orderBy items p => parseOrderBy items p
  | _, .columns columns p => parseColumns columns p
  | _, .constraints col p => parseConstraints col p
  | _, .indexColumns columns p => parseIndexColumns columns p
  | _, .insertColumns columns p => parseInsertColumns columns p
  | _, .rows rows p => parseRows rows p
  | _, .assignments assignments p => parseAssignments assignments p
  | _, .statement p => parseStatement p
  | _, .statements stmts capacity p => parseStatements stmts capacity p
  | _, .store stmts capacity s p => storeStatement stmts capacity s p

/-! ## Public functions -/

/-- `parser_init`. -/
def parserInit (tokens : List TokenT) : ParserT := ⟨tokens, .empty, 0, 0, false⟩

/-- A depth of calls that no run of the parser exceeds. -/
def maxDepth (p : ParserT) : Nat := 16 * (p.rest.length + 2)

/-- Runs code of the parser from a position. -/
def runParser {α : Type} (p : ParserT) (code : Parse Double α) : Except Fault α :=
  code.run (answer body .unending (maxDepth p))

/-- `parser_parse`. -/
def parserParse (p : ParserT) : Parse Double (Option (StmtT Double) × ParserT) := do
  let (s, p) ← invoke (.statement p)
  if s.isSome ∧ !p.hasError then
    let (_, p) ← p.matchToken .tkSemicolon
    return (s, p)
  else return (s, p)

/-- `parser_parse_all`. -/
def parserParseAll (p : ParserT) : Parse Double (List (StmtT Double) × ParserT) :=
  invoke (.statements [] 16 p)

end MiniSqlite.Parser
