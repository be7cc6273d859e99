import MiniSqlite.Parser.ParserSound

/-!
# Rules for parsing expressions

What the procedures for expressions return when no error occurs: one rule for each form of a
primary expression, and one for each operator that the loop of `parse_expression_prec` reads.
A position without an error is `parserInit` of the tokens that are left.
-/

namespace MiniSqlite.Parser

open MiniSqlite.Common MiniSqlite.Std MiniSqlite.Std.Code MiniSqlite.Storage

open ParserT

variable {Double : Type} [Platform Double]

/-- A call returns a value. -/
abbrev Call.Gives {α : Type} (procedure : Call Double α) (value : α) : Prop :=
  Returns (@body Double _) Fault.unending procedure value

/-- Code yields a value. -/
abbrev Gives {α : Type} (code : Parse Double α) (value : α) : Prop :=
  Yields (@body Double _) Fault.unending code value

/-- A call that returns is answered at every sufficient depth. -/
theorem Call.Gives.answer {α : Type} {procedure : Call Double α} {value : α}
    (gives : procedure.Gives value) (ready : procedure.Pre) {depth : Nat}
    (enough : procedure.size < depth) :
    answer (@body Double _) Fault.unending depth procedure = .ok value := by
  have fine {γ : Type} (target : Call Double γ) (visits : target.Comes procedure) :
      target.Fine := by
    obtain ⟨used, answered⟩ := gives
    have deeper := answer_mono (@body Double _) Fault.unending
      (Nat.le_max_left used (procedure.size + 1)) answered
    exact (answers_iff ready (Nat.lt_of_succ_le (Nat.le_max_right used _))).mp ⟨value, deeper⟩
      target visits
  obtain ⟨other, answered⟩ := (answers_iff ready enough).mpr fine
  obtain rfl := gives.unique ⟨depth, answered⟩
  exact answered

section Rules

variable {α β : Type} {type : TokenTypeT} {lexeme : CString} {line column : Nat}
  {rest rest' rest'' : List TokenT} {m : Nat} {left : ExprT Double}
  {result : Option (ExprT Double) × ParserT}

theorem gives_invoke {procedure : Call Double α} {next : α → Parse Double β} {answer : α}
    {value : β} (returned : procedure.Gives answer) (more : Gives (next answer) value) :
    Gives (invoke procedure >>= next) value := .call returned more

theorem gives_last {procedure : Call Double α} {answer : α} (returned : procedure.Gives answer) :
    Gives (invoke procedure) answer := .call returned (.done answer)

/-! ## Primary expressions -/

theorem primary_literal {value : ExprT Double} (literal : type ∈ literalTypes)
    (read : parseLiteralExpr (parserInit (⟨type, lexeme, line, column⟩ :: rest)) =
      .ok (some value, parserInit rest)) :
    (Call.primary (parserInit (⟨type, lexeme, line, column⟩ :: rest))).Gives
      (some value, parserInit rest) := by
  refine returns_iff.mpr ?_
  have same : body (Call.primary (parserInit (⟨type, lexeme, line, column⟩ :: rest))) =
      liftM (parseLiteralExpr (parserInit (⟨type, lexeme, line, column⟩ :: rest)) :
        Except Fault (Option (ExprT Double) × ParserT)) := by
    simp only [literalTypes, List.mem_cons, List.not_mem_nil, or_false] at literal
    rcases literal with rfl | rfl | rfl | rfl | rfl | rfl <;> rfl
  rw [same, read]
  exact .done _

theorem primary_column {next : TokenT} (noCall : next.type ≠ .tkLeftParen)
    (unqualified : next.type ≠ .tkDot) :
    (Call.primary (parserInit (⟨.tkIdentifier, lexeme, line, column⟩ :: next :: rest))).Gives
      ((some (.columnRef .empty (cut 63 lexeme)) : Option (ExprT Double)),
        parserInit (next :: rest)) := by
  have read : parseColumnRefOrIdentifier
      (parserInit (⟨.tkIdentifier, lexeme, line, column⟩ :: next :: rest)) =
      .ok ((some (.columnRef .empty (cut 63 lexeme)) : Option (ExprT Double)),
        parserInit (next :: rest)) := by
    have first : (parserInit (⟨.tkIdentifier, lexeme, line, column⟩ :: next :: rest)).rest =
      ⟨.tkIdentifier, lexeme, line, column⟩ :: next :: rest := rfl
    have second : (parserInit
      (⟨.tkIdentifier, lexeme, line, column⟩ :: next :: rest)).advance.rest = next :: rest := rfl
    simp only [parseColumnRefOrIdentifier, peek_eq first, Std.ok_bind, ne_eq, not_true_eq_false,
      if_false, peekType_eq second, if_neg unqualified]
    rfl
  refine returns_iff.mpr ?_
  have same : (body (.primary
      (parserInit (⟨.tkIdentifier, lexeme, line, column⟩ :: next :: rest))) : Parse Double _) =
      if next.type = .tkLeftParen then
        parseFunctionCall (parserInit (next :: rest)) (cut 63 lexeme)
      else liftM (parseColumnRefOrIdentifier
        (parserInit (⟨.tkIdentifier, lexeme, line, column⟩ :: next :: rest))) := rfl
  rw [same, if_neg noCall, read]
  exact .done _

theorem primary_qualified {dot col : TokenT} (isDot : dot.type = .tkDot)
    (named : col.type = .tkIdentifier ∨ col.type = .tkStar) :
    (Call.primary
      (parserInit (⟨.tkIdentifier, lexeme, line, column⟩ :: dot :: col :: rest))).Gives
      ((some (.columnRef (cut 63 lexeme) (cut 63 col.lexeme)) : Option (ExprT Double)),
        parserInit rest) := by
  obtain ⟨_, _, _, _⟩ := dot
  obtain ⟨type, _, _, _⟩ := col
  cases isDot
  dsimp only at named
  rcases named with rfl | rfl <;> exact returns_iff.mpr (.done _)

theorem primary_paren {e : ExprT Double} {closing : TokenT}
    (inner : (Call.expressionPrec 1 (parserInit rest)).Gives
      (some e, parserInit (closing :: rest'))) (closes : closing.type = .tkRightParen) :
    (Call.primary (parserInit (⟨.tkLeftParen, lexeme, line, column⟩ :: rest))).Gives
      (some e, parserInit rest') := by
  obtain ⟨_, _, _, _⟩ := closing
  cases closes
  exact returns_iff.mpr (.call inner (.done _))

theorem primary_minus {operand : ExprT Double}
    (inner : (Call.primary (parserInit rest)).Gives (some operand, parserInit rest')) :
    (Call.primary (parserInit (⟨.tkMinus, lexeme, line, column⟩ :: rest))).Gives
      (some (.unary .tkMinus operand), parserInit rest') :=
  returns_iff.mpr (.call inner (.done _))

theorem primary_not {operand : ExprT Double}
    (inner : (Call.expressionPrec 3 (parserInit rest)).Gives (some operand, parserInit rest')) :
    (Call.primary (parserInit (⟨.tkNot, lexeme, line, column⟩ :: rest))).Gives
      (some (.unary .tkNot operand), parserInit rest') :=
  returns_iff.mpr (.call inner (.done _))

/-- The types of the tokens that name a function in front of a parenthesis. -/
def functionTypes : List TokenTypeT := [.tkCount, .tkSum, .tkAvg, .tkMin, .tkMax, .tkIdentifier]

theorem primary_function {opening : TokenT} (named : type ∈ functionTypes)
    (opens : opening.type = .tkLeftParen)
    (call : Gives (parseFunctionCall (parserInit (opening :: rest)) (cut 63 lexeme)) result) :
    (Call.primary (parserInit (⟨type, lexeme, line, column⟩ :: opening :: rest))).Gives
      result := by
  obtain ⟨_, _, _, _⟩ := opening
  cases opens
  refine returns_iff.mpr ?_
  simp only [functionTypes, List.mem_cons, List.not_mem_nil, or_false] at named
  rcases named with rfl | rfl | rfl | rfl | rfl | rfl <;> exact call

theorem functionCall_star {opening star closing : TokenT} {name : CString}
    (opens : opening.type = .tkLeftParen) (isStar : star.type = .tkStar)
    (closes : closing.type = .tkRightParen) :
    Gives (parseFunctionCall (parserInit (opening :: star :: closing :: rest)) name)
      ((some (.funcCall name [] true) : Option (ExprT Double)), parserInit rest) := by
  obtain ⟨_, _, _, _⟩ := opening
  obtain ⟨_, _, _, _⟩ := star
  obtain ⟨_, _, _, _⟩ := closing
  cases opens
  cases isStar
  cases closes
  exact .done _

theorem functionCall_empty {opening closing : TokenT} {name : CString}
    (opens : opening.type = .tkLeftParen) (closes : closing.type = .tkRightParen) :
    Gives (parseFunctionCall (parserInit (opening :: closing :: rest)) name)
      ((some (.funcCall name [] false) : Option (ExprT Double)), parserInit rest) := by
  obtain ⟨_, _, _, _⟩ := opening
  obtain ⟨_, _, _, _⟩ := closing
  cases opens
  cases closes
  exact .done _

theorem functionCall_args {opening first closing : TokenT} {name : CString}
    {args : List (ExprT Double)} (opens : opening.type = .tkLeftParen)
    (noStar : first.type ≠ .tkStar) (some : first.type ≠ .tkRightParen)
    (list : (Call.expressionList [] (parserInit (first :: rest))).Gives
      (.some args, parserInit (closing :: rest'))) (closes : closing.type = .tkRightParen) :
    Gives (parseFunctionCall (parserInit (opening :: first :: rest)) name)
      (.some (.funcCall name args false), parserInit rest') := by
  obtain ⟨_, text, line, column⟩ := opening
  obtain ⟨_, _, _, _⟩ := closing
  cases opens
  cases closes
  have same : (parseFunctionCall
      (parserInit (⟨.tkLeftParen, text, line, column⟩ :: first :: rest)) name : Parse Double _) =
      if first.type = .tkStar then (liftM ((parserInit rest).expect .tkRightParen) : Parse Double _)
        >>= fun found => pure (.some (.funcCall name [] true), found.2)
      else if first.type ≠ .tkRightParen then
        invoke (.expressionList [] (parserInit (first :: rest))) >>= fun args =>
          whenParsed args fun args p => (liftM (p.expect .tkRightParen) : Parse Double _)
            >>= fun found => pure (.some (.funcCall name args false), found.2)
      else (liftM ((parserInit (first :: rest)).expect .tkRightParen) : Parse Double _)
        >>= fun found => pure (.some (.funcCall name [] false), found.2) := rfl
  rw [same, if_neg noStar, if_pos some]
  exact gives_invoke list (.done _)

/-! ## Lists -/

theorem expressionList_last {items : List (ExprT Double)} {item : ExprT Double} {p : ParserT}
    {next : TokenT} (first : (Call.expressionPrec 1 p).Gives (some item, parserInit (next :: rest)))
    (noComma : next.type ≠ .tkComma) :
    (Call.expressionList items p).Gives (some (items ++ [item]), parserInit (next :: rest)) := by
  refine returns_iff.mpr (gives_invoke first ?_)
  have same : (parserInit (next :: rest)).matchToken .tkComma =
      .ok (false, parserInit (next :: rest)) := by
    rw [matchToken, peekType_eq rfl, Std.ok_bind, if_neg noComma]
    rfl
  show Gives ((liftM ((parserInit (next :: rest)).matchToken .tkComma) : Parse Double _) >>= _) _
  rw [same]
  exact .done _

theorem expressionList_more {items : List (ExprT Double)} {item : ExprT Double} {p : ParserT}
    {comma : TokenT} {result : Option (List (ExprT Double)) × ParserT}
    (first : (Call.expressionPrec 1 p).Gives (some item, parserInit (comma :: rest)))
    (isComma : comma.type = .tkComma)
    (more : (Call.expressionList (items ++ [item]) (parserInit rest)).Gives result) :
    (Call.expressionList items p).Gives result := by
  obtain ⟨_, _, _, _⟩ := comma
  cases isComma
  exact returns_iff.mpr (gives_invoke first (gives_last more))

/-! ## Operators -/

theorem expressionPrec_gives {p q : ParserT} (first : (Call.primary p).Gives (some left, q))
    (more : (Call.precLoop m left q).Gives result) : (Call.expressionPrec m p).Gives result :=
  returns_iff.mpr (gives_invoke first (gives_last more))

/-- The loop stops in front of a token that is no operator, or one of lower precedence. -/
theorem precLoop_stops {next : TokenT}
    (low : getPrecedence next.type = 0 ∨ getPrecedence next.type < m) :
    (Call.precLoop m left (parserInit (next :: rest))).Gives
      (some left, parserInit (next :: rest)) := by
  refine returns_iff.mpr ?_
  have same : body (Call.precLoop m left (parserInit (next :: rest))) =
      if getPrecedence next.type = 0 ∨ getPrecedence next.type < m then
        pure (some left, parserInit (next :: rest)) else _ := rfl
  rw [same, if_pos low]
  exact .done _

/-- The operators with two operands that the loop reads in one way. -/
def regularTypes : List TokenTypeT :=
  [.tkOr, .tkAnd, .tkEqual, .tkNotEqual, .tkLess, .tkLessEqual, .tkGreater, .tkGreaterEqual,
    .tkPlus, .tkMinus, .tkStar, .tkSlash]

theorem precLoop_regular {right : ExprT Double} {q : ParserT} (regular : type ∈ regularTypes)
    (binds : m ≤ getPrecedence type)
    (operand : (Call.expressionPrec (getPrecedence type + 1) (parserInit rest)).Gives
      (some right, q))
    (more : (Call.precLoop m (.binary left type right) q).Gives result) :
    (Call.precLoop m left (parserInit (⟨type, lexeme, line, column⟩ :: rest))).Gives
      result := by
  refine returns_iff.mpr ?_
  have positive : ∀ type ∈ regularTypes, getPrecedence type ≠ 0 := by decide
  have positive := positive type regular
  have same : body (Call.precLoop m left (parserInit (⟨type, lexeme, line, column⟩ :: rest))) =
      if getPrecedence type = 0 ∨ getPrecedence type < m then
        pure (some left, parserInit (⟨type, lexeme, line, column⟩ :: rest))
      else invoke (.expressionPrec (getPrecedence type + 1) (parserInit rest)) >>= fun right =>
        whenParsed right fun right p => invoke (.precLoop m (.binary left type right) p) := by
    simp only [regularTypes, List.mem_cons, List.not_mem_nil, or_false] at regular
    rcases regular with
      rfl | rfl | rfl | rfl | rfl | rfl | rfl | rfl | rfl | rfl | rfl | rfl <;> rfl
  rw [same, if_neg (by omega)]
  exact gives_invoke operand (gives_last more)

/-- `IS NULL`. -/
theorem precLoop_isNull {null : TokenT} (binds : m ≤ 4) (isNull : null.type = .tkNull)
    (more : (Call.precLoop m (.isNull left false) (parserInit rest)).Gives result) :
    (Call.precLoop m left (parserInit (⟨.tkIs, lexeme, line, column⟩ :: null :: rest))).Gives
      result := by
  obtain ⟨_, _, _, _⟩ := null
  cases isNull
  refine returns_iff.mpr ?_
  have same (tail : List TokenT) : body (Call.precLoop m left
      (parserInit (⟨.tkIs, lexeme, line, column⟩ :: tail))) =
      if 4 = 0 ∨ 4 < m then pure (some left, parserInit (⟨.tkIs, lexeme, line, column⟩ :: tail))
      else _ := rfl
  rw [same, if_neg (by omega)]
  exact gives_last more

/-- `IS NOT NULL`. -/
theorem precLoop_isNotNull {not null : TokenT} (binds : m ≤ 4) (isNot : not.type = .tkNot)
    (isNull : null.type = .tkNull)
    (more : (Call.precLoop m (.isNull left true) (parserInit rest)).Gives result) :
    (Call.precLoop m left
      (parserInit (⟨.tkIs, lexeme, line, column⟩ :: not :: null :: rest))).Gives result := by
  obtain ⟨_, _, _, _⟩ := not
  obtain ⟨_, _, _, _⟩ := null
  cases isNot
  cases isNull
  refine returns_iff.mpr ?_
  have same (tail : List TokenT) : body (Call.precLoop m left
      (parserInit (⟨.tkIs, lexeme, line, column⟩ :: tail))) =
      if 4 = 0 ∨ 4 < m then pure (some left, parserInit (⟨.tkIs, lexeme, line, column⟩ :: tail))
      else _ := rfl
  rw [same, if_neg (by omega)]
  exact gives_last more

/-- `NOT` alone ends an expression. -/
theorem precLoop_not {not : TokenT} (isNot : not.type = .tkNot)
    (alone : ¬ ((parserInit (not :: rest)).peekNext = .tkIn ∨
      (parserInit (not :: rest)).peekNext = .tkBetween ∨
        (parserInit (not :: rest)).peekNext = .tkLike)) :
    (Call.precLoop m left (parserInit (not :: rest))).Gives
      (some left, parserInit (not :: rest)) := by
  obtain ⟨_, _, _, _⟩ := not
  cases isNot
  refine returns_iff.mpr ?_
  show Gives (ite _ _ _) _
  split
  case isTrue => exact .done _
  case isFalse =>
    show Gives (ite _ _ _) _
    rw [if_neg alone]
    exact .done _

/-- `IS` in front of an operand. -/
theorem precLoop_is {next : TokenT} {right : ExprT Double} {q : ParserT} (binds : m ≤ 4)
    (plain : next.type ≠ .tkNot) (some : next.type ≠ .tkNull)
    (operand : (Call.expressionPrec 5 (parserInit (next :: rest))).Gives (.some right, q))
    (more : (Call.precLoop m (.binary left .tkEqual right) q).Gives result) :
    (Call.precLoop m left (parserInit (⟨.tkIs, lexeme, line, column⟩ :: next :: rest))).Gives
      result := by
  have missed : (parserInit (next :: rest)).matchToken .tkNot =
      .ok (false, parserInit (next :: rest)) := by
    rw [matchToken, peekType_eq rfl, Std.ok_bind, if_neg plain]
    rfl
  refine returns_iff.mpr ?_
  have same : body (Call.precLoop m left
      (parserInit (⟨.tkIs, lexeme, line, column⟩ :: next :: rest))) =
      if 4 = 0 ∨ 4 < m then
        pure (.some left, parserInit (⟨.tkIs, lexeme, line, column⟩ :: next :: rest))
      else parseIs m left 4 (parserInit (next :: rest)) := rfl
  rw [same, if_neg (by omega), parseIs, missed]
  show Gives (if next.type = .tkNull then _ else _) _
  rw [if_neg some]
  exact gives_invoke operand (gives_last more)

/-- `IS NOT` in front of an operand. -/
theorem precLoop_isNot {not next : TokenT} {right : ExprT Double} {q : ParserT} (binds : m ≤ 4)
    (isNot : not.type = .tkNot) (some : next.type ≠ .tkNull)
    (operand : (Call.expressionPrec 5 (parserInit (next :: rest))).Gives (.some right, q))
    (more : (Call.precLoop m (.binary left .tkNotEqual right) q).Gives result) :
    (Call.precLoop m left
      (parserInit (⟨.tkIs, lexeme, line, column⟩ :: not :: next :: rest))).Gives result := by
  obtain ⟨_, _, _, _⟩ := not
  cases isNot
  refine returns_iff.mpr ?_
  have same (tail : List TokenT) : body (Call.precLoop m left
      (parserInit (⟨.tkIs, lexeme, line, column⟩ :: tail))) =
      if 4 = 0 ∨ 4 < m then
        pure (.some left, parserInit (⟨.tkIs, lexeme, line, column⟩ :: tail))
      else parseIs m left 4 (parserInit tail) := rfl
  rw [same, if_neg (by omega)]
  show Gives (if next.type = .tkNull then _ else _) _
  rw [if_neg some]
  exact gives_invoke operand (gives_last more)

/-- The loop reads an operator of the comparison level behind `NOT` as it reads it alone, but
with the precedence of `NOT`. -/
theorem precLoop_negated {next : TokenT} (binds : m ≤ 3)
    (negatable : next.type = .tkIn ∨ next.type = .tkBetween ∨ next.type = .tkLike)
    (more : Gives (parseOperator m left 3 true next.type (parserInit (next :: rest))) result) :
    (Call.precLoop m left (parserInit (⟨.tkNot, lexeme, line, column⟩ :: next :: rest))).Gives
      result := by
  refine returns_iff.mpr ?_
  have same : body (Call.precLoop m left
      (parserInit (⟨.tkNot, lexeme, line, column⟩ :: next :: rest))) =
      if 3 = 0 ∨ 3 < m then _
      else if next.type = .tkIn ∨ next.type = .tkBetween ∨ next.type = .tkLike then
        parseOperator m left 3 true next.type (parserInit (next :: rest))
      else _ := rfl
  rw [same, if_neg (by omega), if_pos negatable]
  exact more

theorem precLoop_plain {next : TokenT} (binds : m ≤ 4)
    (negatable : next.type = .tkIn ∨ next.type = .tkBetween ∨ next.type = .tkLike)
    (more : Gives (parseOperator m left 4 false next.type (parserInit (next :: rest))) result) :
    (Call.precLoop m left (parserInit (next :: rest))).Gives result := by
  refine returns_iff.mpr ?_
  have same : body (Call.precLoop m left (parserInit (next :: rest))) =
      if 4 = 0 ∨ 4 < m then pure (some left, parserInit (next :: rest))
      else parseOperator m left 4 false next.type (parserInit (next :: rest)) := by
    obtain ⟨type, _, _, _⟩ := next
    dsimp only at negatable
    rcases negatable with rfl | rfl | rfl <;> rfl
  rw [same, if_neg (by omega)]
  exact more

theorem operator_in {prec : Nat} {isNot : Bool} {op opening closing : TokenT}
    {list : List (ExprT Double)} (opens : opening.type = .tkLeftParen)
    (items : (Call.expressionList [] (parserInit rest)).Gives
      (some list, parserInit (closing :: rest'))) (closes : closing.type = .tkRightParen)
    (more : (Call.precLoop m (.inExpr left list isNot) (parserInit rest')).Gives result) :
    Gives (parseOperator m left prec isNot .tkIn (parserInit (op :: opening :: rest))) result := by
  obtain ⟨_, _, _, _⟩ := opening
  obtain ⟨_, _, _, _⟩ := closing
  cases opens
  cases closes
  exact gives_invoke items (gives_last more)

theorem operator_between {prec : Nat} {isNot : Bool} {op and : TokenT} {low high : ExprT Double}
    {q : ParserT}
    (first : (Call.expressionPrec (prec + 1) (parserInit rest)).Gives
      (some low, parserInit (and :: rest'))) (isAnd : and.type = .tkAnd)
    (second : (Call.expressionPrec (prec + 1) (parserInit rest')).Gives (some high, q))
    (more : (Call.precLoop m (.between left low high isNot) q).Gives result) :
    Gives (parseOperator m left prec isNot .tkBetween (parserInit (op :: rest))) result := by
  obtain ⟨_, _, _, _⟩ := and
  cases isAnd
  exact gives_invoke first (gives_invoke second (gives_last more))

theorem operator_like {prec : Nat} {isNot : Bool} {op : TokenT} {pattern : CString} {q : ParserT}
    (read : (Call.primary (parserInit rest)).Gives
      ((some (.literal (.string pattern)) : Option (ExprT Double)), q))
    (more : (Call.precLoop m (.like left (cut 255 pattern) isNot) q).Gives result) :
    Gives (parseOperator m left prec isNot .tkLike (parserInit (op :: rest))) result :=
  gives_invoke read (gives_last (returns_iff.mpr (gives_last more)))

end Rules

end MiniSqlite.Parser
