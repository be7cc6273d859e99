import MiniSqlite.Parser.ExpressionRules
import MiniSqlite.Storage.Decimals

/-!
# Expressions that are printed and parsed again

`exprWords` prints an expression with parentheses only where the table of precedences needs
them, and the parser reads the same expression from the tokens. The induction runs over the
expression; what it carries is that the loop of `parse_expression_prec` goes on with the whole
expression behind its last token (`Reads`).
-/

namespace MiniSqlite.Parser

open MiniSqlite.Common MiniSqlite.Std MiniSqlite.Std.Code MiniSqlite.Storage

variable {Double : Type}

/-! ## Printing -/

/-- The type and the text of a token. -/
def TokenT.word (token : TokenT) : TokenTypeT × CString := (token.type, token.lexeme)

/-- A keyword or a symbol. -/
def symbol (type : TokenTypeT) : TokenTypeT × CString :=
  (type, CString.ofChars (tokenTypeToString type).toList)

/-- The table of precedences: the operators with two operands, and no others. -/
def binaryLevel : TokenTypeT → Nat
  | .tkOr => 1
  | .tkAnd => 2
  | .tkEqual | .tkNotEqual | .tkLess | .tkLessEqual | .tkGreater | .tkGreaterEqual => 4
  | .tkPlus | .tkMinus => 5
  | .tkStar | .tkSlash => 6
  | _ => 0

/-- The table of precedences: what an expression is at its root. -/
def exprLevel : ExprT Double → Nat
  | .binary _ op _ => binaryLevel op
  | .unary .tkNot _ => 3
  | .unary _ _ => 7
  | .isNull .. | .inExpr .. | .between .. | .like .. => 4
  | _ => 8

/-- Parentheses around an operand, if it binds less than a place asks for. -/
def enclose (level : Nat) (e : ExprT Double) (words : List (TokenTypeT × CString)) :
    List (TokenTypeT × CString) :=
  if exprLevel e < level then symbol .tkLeftParen :: words ++ [symbol .tkRightParen] else words

/-- The type of a token that names a function. -/
def functionType (name : CString) : TokenTypeT :=
  if lookupKeyword name.chars ∈ functionTypes then lookupKeyword name.chars else .tkIdentifier

/-- `NOT`, if there is one. -/
def negation (isNot : Bool) : List (TokenTypeT × CString) := if isNot then [symbol .tkNot] else []

variable (render : Double → CString)

mutual

/-- The tokens of an expression. -/
def exprWords : ExprT Double → List (TokenTypeT × CString)
  | .literal .null => [symbol .tkNull]
  | .literal (.bool boolVal) => [symbol (if boolVal = 0 then .tkFalse else .tkTrue)]
  | .literal (.int intVal) => [(.tkIntLiteral, formatInt intVal)]
  | .literal (.float floatVal) => [(.tkFloatLiteral, render floatVal)]
  | .literal (.string strVal) => [(.tkStringLiteral, strVal)]
  | .columnRef table column =>
      if table = .empty then [(.tkIdentifier, column)]
      else [(.tkIdentifier, table), symbol .tkDot, (.tkIdentifier, column)]
  | .binary left op right =>
      enclose (binaryLevel op) left (exprWords left) ++
        symbol op :: enclose (binaryLevel op + 1) right (exprWords right)
  | .unary op operand =>
      symbol op :: enclose (exprLevel (.unary op operand)) operand (exprWords operand)
  | .funcCall name args isStar =>
      (functionType name, name) :: symbol .tkLeftParen ::
        (if isStar then [symbol .tkStar] else listWords args) ++ [symbol .tkRightParen]
  | .isNull operand isNot =>
      enclose 4 operand (exprWords operand) ++ symbol .tkIs :: negation isNot ++ [symbol .tkNull]
  | .inExpr left list isNot =>
      enclose 4 left (exprWords left) ++ negation isNot ++ symbol .tkIn :: symbol .tkLeftParen ::
        listWords list ++ [symbol .tkRightParen]
  | .between expr low high isNot =>
      enclose 4 expr (exprWords expr) ++ negation isNot ++
        symbol .tkBetween :: enclose 5 low (exprWords low) ++
          symbol .tkAnd :: enclose 5 high (exprWords high)
  | .like expr pattern isNot =>
      enclose 4 expr (exprWords expr) ++ negation isNot ++
        [symbol .tkLike, (.tkStringLiteral, pattern)]

/-- The tokens of expressions between commas. -/
def listWords : List (ExprT Double) → List (TokenTypeT × CString)
  | [] => []
  | [last] => exprWords last
  | e :: next :: more => exprWords e ++ symbol .tkComma :: listWords (next :: more)

end

/-- The expressions that are printed: built from literals that a token can stand for, names
that fit their fields, and the operators of the table. -/
inductive Printable [Platform Double] : ExprT Double → Prop where
  | null : Printable (.literal .null)
  | bool {boolVal : Int32} (binary : boolVal = 0 ∨ boolVal = 1) :
      Printable (.literal (.bool boolVal))
  | int {intVal : Int64} (nonnegative : 0 ≤ intVal) : Printable (.literal (.int intVal))
  | float {floatVal : Double} (read : (Platform.strtod (render floatVal)).1 = floatVal) :
      Printable (.literal (.float floatVal))
  | string {strVal : CString} (fits : strVal.length ≤ 255) : Printable (.literal (.string strVal))
  | columnRef {table column : CString} (fits : table.length ≤ 63) (fits' : column.length ≤ 63) :
      Printable (.columnRef table column)
  | binary {left right : ExprT Double} {op : TokenTypeT} (operator : binaryLevel op ≠ 0)
      (printable : Printable left) (printable' : Printable right) :
      Printable (.binary left op right)
  | unary {operand : ExprT Double} {op : TokenTypeT} (operator : op = .tkMinus ∨ op = .tkNot)
      (printable : Printable operand) : Printable (.unary op operand)
  | star {name : CString} (fits : name.length ≤ 63) : Printable (.funcCall name [] true)
  | funcCall {name : CString} {args : List (ExprT Double)} (fits : name.length ≤ 63)
      (printable : ∀ arg ∈ args, Printable arg) : Printable (.funcCall name args false)
  | isNull {operand : ExprT Double} {isNot : Bool} (printable : Printable operand) :
      Printable (.isNull operand isNot)
  | inExpr {left : ExprT Double} {list : List (ExprT Double)} {isNot : Bool}
      (printable : Printable left) (some : list ≠ []) (printable' : ∀ item ∈ list, Printable item) :
      Printable (.inExpr left list isNot)
  | between {expr low high : ExprT Double} (printable : Printable expr)
      (printable' : Printable low) (printable'' : Printable high) :
      Printable (.between expr low high false)
  | like {expr : ExprT Double} {pattern : CString} {isNot : Bool} (printable : Printable expr)
      (fits : pattern.length ≤ 255) : Printable (.like expr pattern isNot)

/-! ## Reading -/

variable {render : Double → CString} {e : ExprT Double} {tokens more : List TokenT} {next : TokenT}
  {level m : Nat}

/-- A token behind an expression that does not make a longer name of its last one, nor a call. -/
structure Ends (next : TokenT) : Prop where
  noCall : next.type ≠ .tkLeftParen
  unqualified : next.type ≠ .tkDot

/-- The highest precedence of a token that does not extend the right end of an expression. -/
def edge (e : ExprT Double) : Nat := if exprLevel e = 3 then 2 else exprLevel e

variable (render) in
/-- The parser reads an expression from its tokens: the loop goes on with it behind its last
token, and where it is a primary expression it is read as one. -/
structure Reads [Platform Double] (e : ExprT Double) : Prop where
  positive : 1 ≤ exprLevel e
  loop : ∀ {tokens more : List TokenT} {next : TokenT} {m : Nat}
    {result : Option (ExprT Double) × ParserT},
    tokens.map TokenT.word = exprWords render e → Ends next → getPrecedence next.type ≤ edge e →
    m ≤ exprLevel e → m ≠ 4 → (Call.precLoop m e (parserInit (next :: more))).Gives result →
    (Call.expressionPrec m (parserInit (tokens ++ next :: more))).Gives result
  primary : ∀ {tokens more : List TokenT} {next : TokenT}, 7 ≤ exprLevel e →
    tokens.map TokenT.word = exprWords render e → Ends next →
    (Call.primary (parserInit (tokens ++ next :: more))).Gives (some e, parserInit (next :: more))

theorem type_of_word {token : TokenT} {type : TokenTypeT} {lexeme : CString}
    (word : token.word = (type, lexeme)) : token.type = type := congrArg Prod.fst word

theorem lexeme_of_word {token : TokenT} {type : TokenTypeT} {lexeme : CString}
    (word : token.word = (type, lexeme)) : token.lexeme = lexeme := congrArg Prod.snd word

theorem ends_of_type {type : TokenTypeT} (same : next.type = type)
    (other : type ≠ .tkLeftParen ∧ type ≠ .tkDot) : Ends next :=
  ⟨same ▸ other.1, same ▸ other.2⟩

variable [Platform Double]

/-- In parentheses every expression is a primary one. -/
theorem Reads.paren (reads : Reads render e)
    (spelled : tokens.map TokenT.word =
      symbol .tkLeftParen :: exprWords render e ++ [symbol .tkRightParen]) :
    (Call.primary (parserInit (tokens ++ next :: more))).Gives
      (some e, parserInit (next :: more)) := by
  obtain ⟨⟨_, lexeme, line, column⟩, inner, rfl, opens, words⟩ := List.map_eq_cons_iff.mp spelled
  obtain ⟨inner, last, rfl, body, words⟩ := List.map_eq_append_iff.mp words
  obtain ⟨closing, rfl, closed⟩ := List.map_eq_singleton_iff.mp words
  cases type_of_word opens
  have closes := type_of_word closed
  rw [List.cons_append, List.append_assoc, List.singleton_append]
  refine primary_paren ?_ closes
  refine reads.loop body (ends_of_type closes (by decide)) ?_ reads.positive (by decide)
    (precLoop_stops (.inl (by rw [closes]; rfl)))
  rw [closes]
  exact Nat.zero_le _

/-- An operand in parentheses, if it needs them. -/
theorem Reads.operand {result : Option (ExprT Double) × ParserT} (reads : Reads render e)
    (spelled : tokens.map TokenT.word = enclose level e (exprWords render e)) (ends : Ends next)
    (low : getPrecedence next.type ≤ level) (low' : level = 3 → getPrecedence next.type ≤ 2)
    (le : m ≤ level) (ne : m ≠ 4)
    (gives : (Call.precLoop m e (parserInit (next :: more))).Gives result) :
    (Call.expressionPrec m (parserInit (tokens ++ next :: more))).Gives result := by
  rw [enclose] at spelled
  split at spelled
  case isTrue => exact expressionPrec_gives (reads.paren spelled) gives
  case isFalse binds =>
    refine reads.loop spelled ends ?_ (by omega) ne gives
    rw [edge]
    split <;> omega

/-- An operand that ends in front of a token of lower precedence. -/
theorem Reads.last (reads : Reads render e)
    (spelled : tokens.map TokenT.word = enclose level e (exprWords render e)) (ends : Ends next)
    (low : getPrecedence next.type < level) (ne : level ≠ 4) :
    (Call.expressionPrec level (parserInit (tokens ++ next :: more))).Gives
      (some e, parserInit (next :: more)) :=
  reads.operand spelled ends (by omega) (by omega) (Nat.le_refl level) ne
    (precLoop_stops (.inr low))

/-- The operand of a unary minus. -/
theorem Reads.tight (reads : Reads render e)
    (spelled : tokens.map TokenT.word = enclose 7 e (exprWords render e)) (ends : Ends next) :
    (Call.primary (parserInit (tokens ++ next :: more))).Gives
      (some e, parserInit (next :: more)) := by
  rw [enclose] at spelled
  split at spelled
  case isTrue => exact reads.paren spelled
  case isFalse binds => exact reads.primary (Nat.le_of_not_lt binds) spelled ends

/-- A primary expression is read by the loop as well. -/
theorem reads_of_primary (high : 7 ≤ exprLevel e)
    (primary : ∀ {tokens more : List TokenT} {next : TokenT},
      tokens.map TokenT.word = exprWords render e → Ends next →
      (Call.primary (parserInit (tokens ++ next :: more))).Gives
        (some e, parserInit (next :: more))) : Reads render e where
  positive := by omega
  loop spelled ends _ _ _ gives := expressionPrec_gives (primary spelled ends) gives
  primary _ := primary

/-- What an expression with an operator at its root takes. -/
theorem reads_of_loop (bounds : 1 ≤ exprLevel e ∧ exprLevel e < 7)
    (loop : ∀ {tokens more : List TokenT} {next : TokenT} {m : Nat}
      {result : Option (ExprT Double) × ParserT},
      tokens.map TokenT.word = exprWords render e → Ends next →
      getPrecedence next.type ≤ edge e → m ≤ exprLevel e → m ≠ 4 →
      (Call.precLoop m e (parserInit (next :: more))).Gives result →
      (Call.expressionPrec m (parserInit (tokens ++ next :: more))).Gives result) :
    Reads render e where
  positive := bounds.1
  loop := loop
  primary high := absurd high (Nat.not_le_of_lt bounds.2)

/-- A list between commas. -/
theorem listWords_read {list : List (ExprT Double)} (reads : ∀ e ∈ list, Reads render e)
    (some : list ≠ []) (spelled : tokens.map TokenT.word = listWords render list)
    (closes : next.type = .tkRightParen) (items : List (ExprT Double)) :
    (Call.expressionList items (parserInit (tokens ++ next :: more))).Gives
      (.some (items ++ list), parserInit (next :: more)) := by
  induction list generalizing tokens items with
  | nil => exact absurd rfl some
  | cons e list ih =>
      have first := reads e List.mem_cons_self
      cases list with
      | nil =>
          refine expressionList_last (first.loop spelled (ends_of_type closes (by decide)) ?_
            first.positive (by decide) (precLoop_stops (.inl (by rw [closes]; rfl)))) ?_
          · rw [closes]
            exact Nat.zero_le _
          · rw [closes]
            decide
      | cons other list =>
          obtain ⟨front, rest, rfl, start, words⟩ := List.map_eq_append_iff.mp spelled
          obtain ⟨comma, rest, rfl, separator, words⟩ := List.map_eq_cons_iff.mp words
          have isComma := type_of_word separator
          rw [List.append_assoc, List.cons_append]
          refine expressionList_more (first.loop start (ends_of_type isComma (by decide)) ?_
            first.positive (by decide) (precLoop_stops (.inl (by rw [isComma]; rfl)))) isComma ?_
          · rw [isComma]
            exact Nat.zero_le _
          · have more := ih (fun e member => reads e (List.mem_cons_of_mem _ member)) (by simp)
              words (items ++ [e])
            rwa [List.append_assoc, List.singleton_append] at more

/-! ## The first token -/

/-- The tokens of an expression start neither with `*` nor with a closing parenthesis, which
mean something else behind the name of a function. -/
def Starts (words : List (TokenTypeT × CString)) : Prop :=
  ∃ word rest, words = word :: rest ∧ word.1 ≠ .tkStar ∧ word.1 ≠ .tkRightParen

omit [Platform Double] in
theorem starts_cons {type : TokenTypeT} {lexeme : CString} {rest : List (TokenTypeT × CString)}
    (other : type ≠ .tkStar ∧ type ≠ .tkRightParen) : Starts ((type, lexeme) :: rest) :=
  ⟨(type, lexeme), rest, rfl, other⟩

omit [Platform Double] in
theorem Starts.append {words : List (TokenTypeT × CString)} (starts : Starts words)
    (behind : List (TokenTypeT × CString)) : Starts (words ++ behind) := by
  obtain ⟨word, rest, rfl, noStar, noParen⟩ := starts
  exact ⟨word, rest ++ behind, rfl, noStar, noParen⟩

omit [Platform Double] in
theorem Starts.enclose {words : List (TokenTypeT × CString)} (starts : Starts words) (level : Nat)
    (e : ExprT Double) : Starts (enclose level e words) := by
  rw [Parser.enclose]
  split
  case isTrue => exact starts_cons (by decide)
  case isFalse => exact starts

omit [Platform Double] in
theorem functionType_mem (name : CString) : functionType name ∈ functionTypes := by
  rw [functionType]
  split
  case isTrue named => exact named
  case isFalse => decide

theorem Printable.starts (printable : Printable render e) : Starts (exprWords render e) := by
  induction printable with
  | null | int | float | string => exact starts_cons (by decide)
  | @bool boolVal =>
      refine starts_cons ?_
      split <;> decide
  | @columnRef table column =>
      rw [exprWords]
      split <;> exact starts_cons (by decide)
  | binary operator printable printable' ih => exact (ih.enclose _ _).append _
  | unary operator => rcases operator with rfl | rfl <;> exact starts_cons (by decide)
  | @star name | @funcCall name =>
      have table : ∀ type ∈ functionTypes, type ≠ .tkStar ∧ type ≠ .tkRightParen := by decide
      exact starts_cons (table _ (functionType_mem name))
  | isNull printable ih => exact ((ih.enclose _ _).append _).append _
  | inExpr printable some printable' ih => exact (((ih.enclose _ _).append _).append _).append _
  | between printable printable' printable'' ih =>
      exact (((ih.enclose _ _).append _).append _).append _
  | like printable fits ih => exact ((ih.enclose _ _).append _).append _

omit [Platform Double] in
theorem Starts.list {list : List (ExprT Double)} (some : list ≠ [])
    (starts : ∀ e ∈ list, Starts (exprWords render e)) : Starts (listWords render list) := by
  cases list with
  | nil => exact absurd rfl some
  | cons e list =>
      cases list with
      | nil => exact starts e List.mem_cons_self
      | cons other list => exact (starts e List.mem_cons_self).append _

/-! ## Round trip -/

omit [Platform Double] in
theorem operator_regular {op : TokenTypeT} (operator : binaryLevel op ≠ 0) :
    op ∈ regularTypes ∧ getPrecedence op = binaryLevel op ∧ binaryLevel op ≤ 6 ∧
      binaryLevel op ≠ 3 := by
  cases op <;> first | exact absurd rfl operator | decide

omit [Platform Double] in
theorem ends_of_regular {op : TokenT} (regular : op.type ∈ regularTypes) : Ends op := by
  have table : ∀ type ∈ regularTypes, type ≠ .tkLeftParen ∧ type ≠ .tkDot := by decide
  exact ends_of_type rfl (table _ regular)

/-- `strncpy` keeps what fits. -/
theorem cut_of_le {count : Nat} {string : CString} (fits : string.length ≤ count) :
    cut count string = string := by
  obtain ⟨chars, unterminated⟩ := string
  simp only [cut, List.take_of_length_le (show chars.length ≤ count from fits)]

theorem reads_binary {left right : ExprT Double} {op : TokenTypeT} (operator : binaryLevel op ≠ 0)
    (reads : Reads render left) (reads' : Reads render right) :
    Reads render (.binary left op right) := by
  obtain ⟨regular, same, small, notThree⟩ := operator_regular operator
  refine reads_of_loop (show 1 ≤ binaryLevel op ∧ binaryLevel op < 7 by omega) ?_
  intro tokens more next m result spelled ends low le ne gives
  obtain ⟨front, rest, rfl, start, words⟩ := List.map_eq_append_iff.mp spelled
  obtain ⟨⟨type, lexeme, line, column⟩, back, rfl, isOp, operand⟩ := List.map_eq_cons_iff.mp words
  obtain rfl : op = type := (type_of_word isOp).symm
  rw [List.append_assoc, List.cons_append]
  have edge : edge (.binary left op right) = binaryLevel op := if_neg notThree
  rw [edge] at low
  have le : m ≤ binaryLevel op := le
  refine reads.operand start (ends_of_regular regular) (Nat.le_of_eq same)
    (fun three => absurd three notThree) le ne ?_
  refine precLoop_regular regular (by omega) ?_ gives
  rw [same]
  exact reads'.last operand ends (by omega) (by omega)

theorem reads_unary {operand : ExprT Double} {op : TokenTypeT}
    (operator : op = .tkMinus ∨ op = .tkNot) (reads : Reads render operand) : Reads render (.unary op operand) := by
  rcases operator with rfl | rfl
  · refine reads_of_primary (Nat.le_refl 7) fun {tokens more next} spelled ends => ?_
    obtain ⟨⟨type, lexeme, line, column⟩, back, rfl, isOp, words⟩ := List.map_eq_cons_iff.mp spelled
    obtain rfl : .tkMinus = type := (type_of_word isOp).symm
    exact primary_minus (reads.tight words ends)
  · refine reads_of_loop (show 1 ≤ 3 ∧ 3 < 7 by decide) ?_
    intro tokens more next m result spelled ends low le ne gives
    obtain ⟨⟨type, lexeme, line, column⟩, back, rfl, isOp, words⟩ := List.map_eq_cons_iff.mp spelled
    obtain rfl : .tkNot = type := (type_of_word isOp).symm
    have low : getPrecedence next.type ≤ 2 := low
    exact expressionPrec_gives (primary_not (reads.last words ends (by omega) (by decide))) gives

theorem reads_isNull {operand : ExprT Double} {isNot : Bool} (reads : Reads render operand) :
    Reads render (.isNull operand isNot) := by
  refine reads_of_loop (show 1 ≤ 4 ∧ 4 < 7 by decide) ?_
  intro tokens more next m result spelled ends low le ne gives
  have le : m ≤ 4 := le
  obtain ⟨front, last, rfl, body, closed⟩ := List.map_eq_append_iff.mp spelled
  obtain ⟨null, rfl, isNull⟩ := List.map_eq_singleton_iff.mp closed
  obtain ⟨front, rest, rfl, start, words⟩ := List.map_eq_append_iff.mp body
  obtain ⟨⟨type, lexeme, line, column⟩, negated, rfl, isOp, words'⟩ := List.map_eq_cons_iff.mp words
  obtain rfl : .tkIs = type := (type_of_word isOp).symm
  rw [List.append_assoc, List.append_assoc, List.cons_append]
  refine reads.operand start (ends_of_type (show _ = TokenTypeT.tkIs from rfl) (by decide))
    (Nat.le_refl 4) (fun three => absurd three (by decide)) le ne ?_
  cases isNot with
  | false =>
      obtain rfl := List.map_eq_nil_iff.mp words'
      exact precLoop_isNull le (type_of_word isNull) gives
  | true =>
      obtain ⟨not, rfl, isNot⟩ := List.map_eq_singleton_iff.mp words'
      exact precLoop_isNotNull le (type_of_word isNot) (type_of_word isNull) gives

/-- An operand in front of an operator of the comparison level that may be negated. -/
theorem Reads.negatable {left : ExprT Double} {isNot : Bool} {front negated rest : List TokenT}
    {op : TokenT} {result : Option (ExprT Double) × ParserT} (reads : Reads render left)
    (start : front.map TokenT.word = enclose 4 left (exprWords render left))
    (negates : negated.map TokenT.word = negation isNot)
    (negatable : op.type = .tkIn ∨ op.type = .tkBetween ∨ op.type = .tkLike) (le : m ≤ 4)
    (ne : m ≠ 4)
    (gives : Gives (parseOperator m left (if isNot then 3 else 4) isNot op.type
      (parserInit (op :: rest))) result) :
    (Call.expressionPrec m (parserInit (front ++ negated ++ op :: rest))).Gives result := by
  rw [List.append_assoc]
  cases isNot with
  | false =>
      obtain rfl := List.map_eq_nil_iff.mp negates
      have binds : getPrecedence op.type = 4 ∧ op.type ≠ .tkLeftParen ∧ op.type ≠ .tkDot := by
        rcases negatable with same | same | same <;> rw [same] <;> decide
      exact reads.operand start ⟨binds.2.1, binds.2.2⟩ (Nat.le_of_eq binds.1)
        (fun three => absurd three (by decide)) le ne (precLoop_plain le negatable gives)
  | true =>
      obtain ⟨⟨type, lexeme, line, column⟩, rfl, isNot⟩ := List.map_eq_singleton_iff.mp negates
      obtain rfl : .tkNot = type := (type_of_word isNot).symm
      exact reads.operand start (ends_of_type (show _ = TokenTypeT.tkNot from rfl) (by decide))
        (Nat.le_succ 3) (fun three => absurd three (by decide)) le ne
          (precLoop_negated (by omega) negatable gives)

theorem reads_inExpr {left : ExprT Double} {list : List (ExprT Double)} {isNot : Bool}
    (reads : Reads render left) (some : list ≠ []) (reads' : ∀ item ∈ list, Reads render item) :
    Reads render (.inExpr left list isNot) := by
  refine reads_of_loop (show 1 ≤ 4 ∧ 4 < 7 by decide) ?_
  intro tokens more next m result spelled ends low le ne gives
  obtain ⟨front, last, rfl, body, closed⟩ := List.map_eq_append_iff.mp spelled
  obtain ⟨closing, rfl, closes⟩ := List.map_eq_singleton_iff.mp closed
  obtain ⟨front, rest, rfl, body', words⟩ := List.map_eq_append_iff.mp body
  obtain ⟨front, negated, rfl, start, negates⟩ := List.map_eq_append_iff.mp body'
  obtain ⟨op, rest, rfl, isOp, words'⟩ := List.map_eq_cons_iff.mp words
  obtain ⟨opening, items, rfl, opens, items'⟩ := List.map_eq_cons_iff.mp words'
  have isIn := type_of_word isOp
  rw [List.append_assoc, List.append_assoc, List.cons_append, List.cons_append]
  refine reads.negatable start negates (.inl isIn) le ne ?_
  rw [isIn]
  exact operator_in (type_of_word opens)
    (listWords_read reads' some items' (type_of_word closes) []) (type_of_word closes) gives

theorem reads_between {expr low high : ExprT Double} (reads : Reads render expr)
    (reads' : Reads render low) (reads'' : Reads render high) :
    Reads render (.between expr low high false) := by
  refine reads_of_loop (show 1 ≤ 4 ∧ 4 < 7 by decide) ?_
  intro tokens more next m result spelled ends below le ne gives
  have below : getPrecedence next.type ≤ 4 := below
  obtain ⟨front, last, rfl, body, words⟩ := List.map_eq_append_iff.mp spelled
  obtain ⟨and, back, rfl, isAnd, second⟩ := List.map_eq_cons_iff.mp words
  obtain ⟨front, rest, rfl, body', words'⟩ := List.map_eq_append_iff.mp body
  obtain ⟨front, negated, rfl, start, negates⟩ := List.map_eq_append_iff.mp body'
  obtain ⟨op, bound, rfl, isOp, first⟩ := List.map_eq_cons_iff.mp words'
  have isBetween := type_of_word isOp
  have isAnd := type_of_word isAnd
  rw [List.append_assoc, List.append_assoc, List.cons_append, List.cons_append]
  refine reads.negatable start negates (.inr (.inl isBetween)) le ne ?_
  rw [isBetween]
  refine operator_between (reads'.last first (ends_of_type isAnd (by decide)) ?_ (by decide)) isAnd
    (reads''.last second ends (by show _ < 5; omega) (by decide)) gives
  rw [isAnd]
  decide

theorem reads_literal {value : AstValue Double} {type : TokenTypeT} {lexeme : CString}
    (printed : exprWords render (.literal value) = [(type, lexeme)]) (literal : type ∈ literalTypes)
    (read : ∀ line column rest,
      parseLiteralExpr (parserInit (⟨type, lexeme, line, column⟩ :: rest)) =
        .ok (some (.literal value), parserInit rest)) : Reads render (.literal value) := by
  refine reads_of_primary (Nat.le_succ 7) fun {tokens more next} spelled ends => ?_
  rw [printed] at spelled
  obtain ⟨⟨type', lexeme', line, column⟩, rfl, same⟩ := List.map_eq_singleton_iff.mp spelled
  obtain rfl : type = type' := (type_of_word same).symm
  obtain rfl : lexeme = lexeme' := (lexeme_of_word same).symm
  exact primary_literal literal (read line column _)

theorem reads_like {expr : ExprT Double} {pattern : CString} {isNot : Bool}
    (reads : Reads render expr) (fits : pattern.length ≤ 255) :
    Reads render (.like expr pattern isNot) := by
  refine reads_of_loop (show 1 ≤ 4 ∧ 4 < 7 by decide) ?_
  intro tokens more next m result spelled ends low le ne gives
  obtain ⟨front, last, rfl, body, words⟩ := List.map_eq_append_iff.mp spelled
  obtain ⟨front, negated, rfl, start, negates⟩ := List.map_eq_append_iff.mp body
  obtain ⟨op, rest, rfl, isOp, words'⟩ := List.map_eq_cons_iff.mp words
  obtain ⟨⟨type, lexeme, line, column⟩, rfl, same⟩ := List.map_eq_singleton_iff.mp words'
  obtain rfl : .tkStringLiteral = type := (type_of_word same).symm
  obtain rfl : pattern = lexeme := (lexeme_of_word same).symm
  have isLike := type_of_word isOp
  rw [List.append_assoc]
  refine reads.negatable start negates (.inr (.inr isLike)) le ne ?_
  rw [isLike]
  have read : (Call.primary (parserInit (⟨.tkStringLiteral, pattern, line, column⟩ ::
      next :: more))).Gives ((some (.literal (.string pattern)) : Option (ExprT Double)),
        parserInit (next :: more)) := by
    refine primary_literal (by decide) ?_
    have read : parseLiteralExpr (parserInit (⟨.tkStringLiteral, pattern, line, column⟩ ::
        next :: more)) = .ok ((some (.literal (.string (cut 255 pattern))) :
          Option (ExprT Double)), parserInit (next :: more)) := rfl
    rw [read, cut_of_le fits]
  refine operator_like read ?_
  rw [cut_of_le fits]
  exact gives

theorem reads_columnRef {table column : CString} (fits : table.length ≤ 63)
    (fits' : column.length ≤ 63) : Reads render (.columnRef table column : ExprT Double) := by
  refine reads_of_primary (Nat.le_succ 7) fun {tokens more next} spelled ends => ?_
  rw [exprWords] at spelled
  split at spelled
  case isTrue unqualified =>
    obtain ⟨⟨type, lexeme, line, col⟩, rfl, same⟩ := List.map_eq_singleton_iff.mp spelled
    obtain rfl : .tkIdentifier = type := (type_of_word same).symm
    obtain rfl : column = lexeme := (lexeme_of_word same).symm
    have cut : (.columnRef table column : ExprT Double) = .columnRef .empty (cut 63 column) := by
      rw [unqualified, cut_of_le fits']
    rw [cut]
    exact primary_column ends.noCall ends.unqualified
  case isFalse =>
    obtain ⟨⟨type, lexeme, line, col⟩, rest, rfl, same, words⟩ := List.map_eq_cons_iff.mp spelled
    obtain rfl : .tkIdentifier = type := (type_of_word same).symm
    obtain rfl : table = lexeme := (lexeme_of_word same).symm
    obtain ⟨dot, rest, rfl, isDot, words'⟩ := List.map_eq_cons_iff.mp words
    obtain ⟨name, rfl, named⟩ := List.map_eq_singleton_iff.mp words'
    have cut : (.columnRef table column : ExprT Double) =
        .columnRef (cut 63 table) (cut 63 name.lexeme) := by
      rw [lexeme_of_word named, cut_of_le fits, cut_of_le fits']
    rw [cut]
    exact primary_qualified (type_of_word isDot) (.inl (type_of_word named))

/-- A call of a function, whose parentheses and arguments `parse_function_call` reads. -/
theorem reads_funcCall {name : CString} {args : List (ExprT Double)} {isStar : Bool}
    (fits : name.length ≤ 63)
    (call : ∀ {front more : List TokenT} {next opening closing : TokenT},
      front.map TokenT.word = (if isStar then [symbol .tkStar] else listWords render args) →
      opening.type = .tkLeftParen → closing.type = .tkRightParen →
      Gives (parseFunctionCall (parserInit (opening :: front ++ closing :: next :: more)) name)
        (some (.funcCall name args isStar), parserInit (next :: more))) :
    Reads render (.funcCall name args isStar) := by
  refine reads_of_primary (Nat.le_succ 7) fun {tokens more next} spelled ends => ?_
  obtain ⟨front, last, rfl, body, closed⟩ := List.map_eq_append_iff.mp spelled
  obtain ⟨closing, rfl, closes⟩ := List.map_eq_singleton_iff.mp closed
  obtain ⟨⟨type, lexeme, line, column⟩, rest, rfl, same, words⟩ := List.map_eq_cons_iff.mp body
  obtain rfl : functionType name = type := (type_of_word same).symm
  obtain rfl : name = lexeme := (lexeme_of_word same).symm
  obtain ⟨opening, rest, rfl, opens, words'⟩ := List.map_eq_cons_iff.mp words
  rw [List.append_assoc, List.singleton_append]
  refine primary_function (functionType_mem name) (type_of_word opens) ?_
  rw [cut_of_le fits]
  exact call words' (type_of_word opens) (type_of_word closes)

/-- The parser reads every printed expression. -/
theorem Printable.reads (printable : Printable render e) : Reads render e := by
  induction printable with
  | null => exact reads_literal rfl (by decide) fun _ _ _ => rfl
  | bool binary =>
      rcases binary with rfl | rfl <;> exact reads_literal rfl (by decide) fun _ _ _ => rfl
  | @int intVal nonnegative =>
      refine reads_literal rfl (by decide) fun line column rest => ?_
      have read : parseLiteralExpr (parserInit (⟨.tkIntLiteral, formatInt intVal, line, column⟩ ::
          rest)) = .ok ((some (.literal (.int (strtoll (formatInt intVal).chars).1)) :
            Option (ExprT Double)), parserInit rest) := rfl
      rw [read, strtoll_formatInt]
  | @float floatVal same =>
      refine reads_literal rfl (by decide) fun line column rest => ?_
      have read : parseLiteralExpr (parserInit (⟨.tkFloatLiteral, render floatVal, line, column⟩ ::
          rest)) = .ok ((some (.literal (.float (Platform.strtod (render floatVal)).1)) :
            Option (ExprT Double)), parserInit rest) := rfl
      rw [read, same]
  | @string strVal fits =>
      refine reads_literal rfl (by decide) fun line column rest => ?_
      have read : parseLiteralExpr (parserInit (⟨.tkStringLiteral, strVal, line, column⟩ ::
          rest)) = .ok ((some (.literal (.string (cut 255 strVal))) :
            Option (ExprT Double)), parserInit rest) := rfl
      rw [read, cut_of_le fits]
  | columnRef fits fits' => exact reads_columnRef fits fits'
  | binary operator _ _ reads reads' => exact reads_binary operator reads reads'
  | unary operator _ reads => exact reads_unary operator reads
  | star fits =>
      refine reads_funcCall fits fun {front more next opening closing} spelled opens closes => ?_
      obtain ⟨star, rfl, isStar⟩ := List.map_eq_singleton_iff.mp spelled
      exact functionCall_star opens (type_of_word isStar) closes
  | @funcCall name args fits printable reads =>
      refine reads_funcCall fits fun {front more next opening closing} spelled opens closes => ?_
      rw [if_neg Bool.false_ne_true] at spelled
      by_cases some : args = []
      · subst some
        obtain rfl := List.map_eq_nil_iff.mp spelled
        exact functionCall_empty opens closes
      · obtain ⟨word, words, same, noStar, noParen⟩ :=
          Starts.list some fun arg member => (printable arg member).starts
        have list : (Call.expressionList [] (parserInit (front ++ closing :: next :: more))).Gives _ :=
          listWords_read reads some spelled closes []
        rw [same] at spelled
        obtain ⟨first, rest, rfl, rfl, -⟩ := List.map_eq_cons_iff.mp spelled
        exact functionCall_args opens noStar noParen list closes
  | isNull _ reads => exact reads_isNull reads
  | inExpr _ some _ reads reads' => exact reads_inExpr reads some reads'
  | between _ _ _ reads reads' reads'' => exact reads_between reads reads' reads''
  | like _ fits reads => exact reads_like reads fits

/-- No word is the end of the input. -/
def Unended (words : List (TokenTypeT × CString)) : Prop := ∀ word ∈ words, word.1 ≠ .tkEof

section Unended

variable {words behind : List (TokenTypeT × CString)}

omit [Platform Double] in
theorem Unended.append (unended : Unended words) (unended' : Unended behind) :
    Unended (words ++ behind) := List.forall_mem_append.mpr ⟨unended, unended'⟩

omit [Platform Double] in
theorem Unended.cons {type : TokenTypeT} {lexeme : CString} (unended : Unended words)
    (other : type ≠ .tkEof) : Unended ((type, lexeme) :: words) :=
  List.forall_mem_cons.mpr ⟨other, unended⟩

omit [Platform Double] in
theorem unended_nil : Unended [] := List.forall_mem_nil _

omit [Platform Double] in
theorem unended_singleton {type : TokenTypeT} {lexeme : CString} (other : type ≠ .tkEof) :
    Unended [(type, lexeme)] := unended_nil.cons other

omit [Platform Double] in
theorem Unended.enclose (unended : Unended words) (level : Nat) (e : ExprT Double) :
    Unended (enclose level e words) := by
  rw [Parser.enclose]
  split
  case isTrue => exact (unended.cons (by decide)).append (unended_singleton (by decide))
  case isFalse => exact unended

omit [Platform Double] in
theorem unended_negation (isNot : Bool) : Unended (negation isNot) := by
  cases isNot with
  | false => exact unended_nil
  | true => exact unended_singleton (by decide)

omit [Platform Double] in
theorem unended_listWords {list : List (ExprT Double)}
    (unended : ∀ e ∈ list, Unended (exprWords render e)) : Unended (listWords render list) := by
  induction list with
  | nil => exact unended_nil
  | cons e list ih =>
      cases list with
      | nil => exact unended e List.mem_cons_self
      | cons other list =>
          exact (unended e List.mem_cons_self).append
            ((ih fun e member => unended e (List.mem_cons_of_mem _ member)).cons (by decide))

end Unended

theorem Printable.unended (printable : Printable render e) : Unended (exprWords render e) := by
  have function (name : CString) : functionType name ≠ .tkEof := by
    have table : ∀ type ∈ functionTypes, type ≠ .tkEof := by decide
    exact table _ (functionType_mem name)
  induction printable with
  | null | int | float | string => exact unended_singleton (by decide)
  | bool =>
      refine unended_singleton ?_
      split <;> decide
  | columnRef =>
      rw [exprWords]
      split
      case isTrue => exact unended_singleton (by decide)
      case isFalse =>
        exact ((unended_singleton (by decide)).cons (by decide)).cons (by decide)
  | binary operator _ _ unended unended' =>
      have table : ∀ type ∈ regularTypes, type ≠ .tkEof := by decide
      exact (unended.enclose _ _).append
        ((unended'.enclose _ _).cons (table _ (operator_regular operator).1))
  | unary operator _ unended =>
      refine (unended.enclose _ _).cons ?_
      rcases operator with rfl | rfl <;> decide
  | @star name =>
      exact (((unended_singleton (by decide)).cons (by decide)).cons (function name)).append
        (unended_singleton (by decide))
  | @funcCall name _ _ _ unended =>
      exact (((unended_listWords unended).cons (by decide)).cons (function name)).append
        (unended_singleton (by decide))
  | isNull _ unended =>
      exact ((unended.enclose _ _).append ((unended_negation _).cons (by decide))).append
        (unended_singleton (by decide))
  | inExpr _ _ _ unended unended' =>
      exact (((unended.enclose _ _).append (unended_negation _)).append
        (((unended_listWords unended').cons (by decide)).cons (by decide))).append
          (unended_singleton (by decide))
  | between _ _ _ unended unended' unended'' =>
      exact (((unended.enclose _ _).append (unended_negation _)).append
        ((unended'.enclose _ _).cons (by decide))).append ((unended''.enclose _ _).cons (by decide))
  | like _ _ unended =>
      exact ((unended.enclose _ _).append (unended_negation _)).append
        ((unended_singleton (by decide)).cons (by decide))

/-- An expression that is printed and parsed again is the same, and its tokens are what has
been consumed. -/
theorem parseExpression_printed {e : ExprT Double} (printable : Printable render e)
    {tokens : List TokenT} (spelled : tokens.map TokenT.word = exprWords render e) {eof : TokenT}
    (isEof : eof.type = .tkEof) :
    runParser (parserInit (tokens ++ [eof])) (parseExpression (parserInit (tokens ++ [eof]))) =
      .ok (some e, parserInit [eof]) := by
  have reads := printable.reads
  have gives : (Call.expressionPrec 1 (parserInit (tokens ++ [eof]))).Gives
      (some e, parserInit [eof]) :=
    reads.loop spelled (ends_of_type isEof (by decide)) (by rw [isEof]; exact Nat.zero_le _)
      reads.positive (by decide) (precLoop_stops (.inl (by rw [isEof]; rfl)))
  have ready : (parserInit (tokens ++ [eof])).Ready := by
    refine ⟨tokens, eof, rfl, isEof, fun token member => ?_⟩
    exact printable.unended token.word (spelled ▸ List.mem_map_of_mem member)
  rw [parseExpression, runParser, run_invoke]
  refine gives.answer ready ?_
  rw [maxDepth]
  show 16 * (tokens ++ [eof]).length + 2 < 16 * ((tokens ++ [eof]).length + 2)
  omega

/-- `(a OR 1) AND NOT b IN (-2, 0.0)`. -/
def filterExpr : ExprT Int :=
  .binary (.binary (.columnRef .empty (CString.ofChars ['a'])) .tkOr (.literal (.int 1))) .tkAnd
    (.unary .tkNot (.inExpr (.columnRef .empty (CString.ofChars ['b']))
      [.unary .tkMinus (.literal (.int 2)), .literal (.float 0)] false))

/-- The tokens of `filterExpr`, without their positions. -/
def filterTokens : List TokenT :=
  (exprWords (fun _ => CString.ofChars "0.0".toList) filterExpr).map fun word =>
    ⟨word.1, word.2, 1, 1⟩

theorem filterExpr_parsed :
    runParser (parserInit (filterTokens ++ [⟨.tkEof, .empty, 1, 1⟩]))
      (parseExpression (parserInit (filterTokens ++ [⟨.tkEof, .empty, 1, 1⟩]))) =
      .ok (some filterExpr, parserInit [⟨.tkEof, .empty, 1, 1⟩]) := by
  refine @parseExpression_printed Int (fun _ => CString.ofChars "0.0".toList) _ filterExpr ?_
    filterTokens rfl ⟨.tkEof, .empty, 1, 1⟩ rfl
  have column (name : Char) : Printable (fun _ : Int => CString.ofChars "0.0".toList)
      (.columnRef .empty (CString.ofChars [name])) :=
    .columnRef (Nat.zero_le _) ((List.takeWhile_sublist _).length_le.trans (show 1 ≤ 63 by decide))
  have items : ∀ item ∈ [.unary .tkMinus (.literal (.int 2)), .literal (.float 0)],
      Printable (fun _ : Int => CString.ofChars "0.0".toList) item := by
    intro item member
    simp only [List.mem_cons, List.not_mem_nil, or_false] at member
    rcases member with rfl | rfl
    · exact .unary (.inl rfl) (.int (by decide))
    · exact .float rfl
  exact .binary (by decide) (.binary (by decide) (column 'a') (.int (by decide)))
    (.unary (.inr rfl) (.inExpr (column 'b') (by simp) items))

end MiniSqlite.Parser
