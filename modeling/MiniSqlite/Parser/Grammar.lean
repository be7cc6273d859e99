import MiniSqlite.Parser.ExpressionRules

/-!
# The grammar of expressions

What tokens the expression parser reads without an error, and as which tree, told apart from
how it reads them: `Parses` has one rule for each form of a primary expression and for each
operator, with the conditions on the token behind that the parser looks at. A run that returns
without an error has a derivation (`Call.Gives.parses`), and a derivation is what the parser
returns (`Parses.gives`).
-/

namespace MiniSqlite.Parser

open MiniSqlite.Common MiniSqlite.Std MiniSqlite.Std.Code MiniSqlite.Storage

open ParserT

variable {Double : Type} [Platform Double]

/-- What is to be read: a primary expression, an expression of some precedence at least, what
may follow a left operand, or what may follow the items of a list. -/
inductive Goal (Double : Type) where
  | primary
  | prec (minPrec : Nat)
  | loop (minPrec : Nat) (left : ExprT Double)
  | items (before : List (ExprT Double))

/-- What has been read. -/
inductive Tree (Double : Type) where
  | expr (e : ExprT Double)
  | list (items : List (ExprT Double))

/-- The expression of a token that is a literal. -/
def literalExpr (token : TokenT) : ExprT Double :=
  match token.type with
  | .tkIntLiteral => .literal (.int (strtoll token.lexeme.chars).1)
  | .tkFloatLiteral => .literal (.float (Platform.strtod token.lexeme).1)
  | .tkStringLiteral => .literal (.string (cut 255 token.lexeme))
  | .tkTrue => .literal (.bool 1)
  | .tkFalse => .literal (.bool 0)
  | _ => .literal .null

/-- The operators of the comparison level that may be negated. -/
def negatableTypes : List TokenTypeT := [.tkIn, .tkBetween, .tkLike]

/-- An operator that may be negated: alone it has the precedence of comparisons, and with `NOT`
in front the precedence of `NOT`. -/
inductive Infix (minPrec : Nat) (op : TokenTypeT) : Bool → List TokenT → List TokenT → Prop where
  | plain {token : TokenT} {rest : List TokenT} (binds : minPrec ≤ 4) (type : token.type = op) :
      Infix minPrec op false (token :: rest) rest
  | negated {not token : TokenT} {rest : List TokenT} (binds : minPrec ≤ 3)
      (isNot : not.type = .tkNot) (type : token.type = op) :
      Infix minPrec op true (not :: token :: rest) rest

/-- The precedence that the operands of an operator are read with. -/
def infixPrec (isNot : Bool) : Nat := if isNot then 3 else 4

/-- The grammar: what stands in front of the rest of some tokens is read as a tree. -/
inductive Parses : Goal Double → List TokenT → Tree Double → List TokenT → Prop where
  | literal {token : TokenT} {rest : List TokenT} (literal : token.type ∈ literalTypes) :
      Parses .primary (token :: rest) (.expr (literalExpr token)) rest
  | paren {opening closing : TokenT} {inner rest : List TokenT} {e : ExprT Double}
      (opens : opening.type = .tkLeftParen)
      (read : Parses (.prec 1) inner (.expr e) (closing :: rest))
      (closes : closing.type = .tkRightParen) :
      Parses .primary (opening :: inner) (.expr e) rest
  | minus {op : TokenT} {inner rest : List TokenT} {operand : ExprT Double}
      (type : op.type = .tkMinus) (read : Parses .primary inner (.expr operand) rest) :
      Parses .primary (op :: inner) (.expr (.unary .tkMinus operand)) rest
  | not {op : TokenT} {inner rest : List TokenT} {operand : ExprT Double}
      (type : op.type = .tkNot) (read : Parses (.prec 3) inner (.expr operand) rest) :
      Parses .primary (op :: inner) (.expr (.unary .tkNot operand)) rest
  | wildcard {star : TokenT} {rest : List TokenT} (type : star.type = .tkStar) :
      Parses .primary (star :: rest)
        (.expr (.columnRef .empty (CString.ofChars ['*']))) rest
  | column {name next : TokenT} {rest : List TokenT} (type : name.type = .tkIdentifier)
      (noCall : next.type ≠ .tkLeftParen) (unqualified : next.type ≠ .tkDot) :
      Parses .primary (name :: next :: rest)
        (.expr (.columnRef .empty (cut 63 name.lexeme))) (next :: rest)
  | qualified {table dot col : TokenT} {rest : List TokenT} (type : table.type = .tkIdentifier)
      (isDot : dot.type = .tkDot) (named : col.type = .tkIdentifier ∨ col.type = .tkStar) :
      Parses .primary (table :: dot :: col :: rest)
        (.expr (.columnRef (cut 63 table.lexeme) (cut 63 col.lexeme))) rest
  | callStar {name opening star closing : TokenT} {rest : List TokenT}
      (named : name.type ∈ functionTypes) (opens : opening.type = .tkLeftParen)
      (isStar : star.type = .tkStar) (closes : closing.type = .tkRightParen) :
      Parses .primary (name :: opening :: star :: closing :: rest)
        (.expr (.funcCall (cut 63 name.lexeme) [] true)) rest
  | callEmpty {name opening closing : TokenT} {rest : List TokenT}
      (named : name.type ∈ functionTypes) (opens : opening.type = .tkLeftParen)
      (closes : closing.type = .tkRightParen) :
      Parses .primary (name :: opening :: closing :: rest)
        (.expr (.funcCall (cut 63 name.lexeme) [] false)) rest
  | callArgs {name opening first closing : TokenT} {inner rest : List TokenT}
      {args : List (ExprT Double)} (named : name.type ∈ functionTypes)
      (opens : opening.type = .tkLeftParen) (noStar : first.type ≠ .tkStar)
      (some : first.type ≠ .tkRightParen)
      (read : Parses (.items []) (first :: inner) (.list args) (closing :: rest))
      (closes : closing.type = .tkRightParen) :
      Parses .primary (name :: opening :: first :: inner)
        (.expr (.funcCall (cut 63 name.lexeme) args false)) rest
  | prec {minPrec : Nat} {tokens middle rest : List TokenT} {left e : ExprT Double}
      (first : Parses .primary tokens (.expr left) middle)
      (more : Parses (.loop minPrec left) middle (.expr e) rest) :
      Parses (.prec minPrec) tokens (.expr e) rest
  | stop {minPrec : Nat} {left : ExprT Double} {next : TokenT} {rest : List TokenT}
      (low : getPrecedence next.type = 0 ∨ getPrecedence next.type < minPrec) :
      Parses (.loop minPrec left) (next :: rest) (.expr left) (next :: rest)
  | stopNot {minPrec : Nat} {left : ExprT Double} {not : TokenT} {rest : List TokenT}
      (isNot : not.type = .tkNot)
      (alone : (parserInit (not :: rest)).peekNext ∉ negatableTypes) :
      Parses (.loop minPrec left) (not :: rest) (.expr left) (not :: rest)
  | isNull {minPrec : Nat} {left e : ExprT Double} {op null : TokenT} {inner rest : List TokenT}
      (binds : minPrec ≤ 4) (type : op.type = .tkIs) (isNull : null.type = .tkNull)
      (more : Parses (.loop minPrec (.isNull left false)) inner (.expr e) rest) :
      Parses (.loop minPrec left) (op :: null :: inner) (.expr e) rest
  | isNotNull {minPrec : Nat} {left e : ExprT Double} {op not null : TokenT}
      {inner rest : List TokenT} (binds : minPrec ≤ 4) (type : op.type = .tkIs)
      (isNot : not.type = .tkNot) (isNull : null.type = .tkNull)
      (more : Parses (.loop minPrec (.isNull left true)) inner (.expr e) rest) :
      Parses (.loop minPrec left) (op :: not :: null :: inner) (.expr e) rest
  | isEqual {minPrec : Nat} {left right e : ExprT Double} {op next : TokenT}
      {inner middle rest : List TokenT} (binds : minPrec ≤ 4) (type : op.type = .tkIs)
      (plain : next.type ≠ .tkNot) (some : next.type ≠ .tkNull)
      (operand : Parses (.prec 5) (next :: inner) (.expr right) middle)
      (more : Parses (.loop minPrec (.binary left .tkEqual right)) middle (.expr e) rest) :
      Parses (.loop minPrec left) (op :: next :: inner) (.expr e) rest
  | isNotEqual {minPrec : Nat} {left right e : ExprT Double} {op not next : TokenT}
      {inner middle rest : List TokenT} (binds : minPrec ≤ 4) (type : op.type = .tkIs)
      (isNot : not.type = .tkNot) (some : next.type ≠ .tkNull)
      (operand : Parses (.prec 5) (next :: inner) (.expr right) middle)
      (more : Parses (.loop minPrec (.binary left .tkNotEqual right)) middle (.expr e) rest) :
      Parses (.loop minPrec left) (op :: not :: next :: inner) (.expr e) rest
  | regular {minPrec : Nat} {left right e : ExprT Double} {op : TokenT}
      {inner middle rest : List TokenT} (regular : op.type ∈ regularTypes)
      (binds : minPrec ≤ getPrecedence op.type)
      (operand : Parses (.prec (getPrecedence op.type + 1)) inner (.expr right) middle)
      (more : Parses (.loop minPrec (.binary left op.type right)) middle (.expr e) rest) :
      Parses (.loop minPrec left) (op :: inner) (.expr e) rest
  | inExpr {minPrec : Nat} {isNot : Bool} {left e : ExprT Double} {list : List (ExprT Double)}
      {opening closing : TokenT} {tokens inner middle rest : List TokenT}
      (op : Infix minPrec .tkIn isNot tokens (opening :: inner))
      (opens : opening.type = .tkLeftParen)
      (read : Parses (.items []) inner (.list list) (closing :: middle))
      (closes : closing.type = .tkRightParen)
      (more : Parses (.loop minPrec (.inExpr left list isNot)) middle (.expr e) rest) :
      Parses (.loop minPrec left) tokens (.expr e) rest
  | between {minPrec : Nat} {isNot : Bool} {left low high e : ExprT Double} {and : TokenT}
      {tokens inner second middle rest : List TokenT}
      (op : Infix minPrec .tkBetween isNot tokens inner)
      (lower : Parses (.prec (infixPrec isNot + 1)) inner (.expr low) (and :: second))
      (isAnd : and.type = .tkAnd)
      (upper : Parses (.prec (infixPrec isNot + 1)) second (.expr high) middle)
      (more : Parses (.loop minPrec (.between left low high isNot)) middle (.expr e) rest) :
      Parses (.loop minPrec left) tokens (.expr e) rest
  | like {minPrec : Nat} {isNot : Bool} {left e : ExprT Double} {pattern : CString}
      {tokens inner middle rest : List TokenT} (op : Infix minPrec .tkLike isNot tokens inner)
      (read : Parses .primary inner (.expr (.literal (.string pattern))) middle)
      (more : Parses (.loop minPrec (.like left (cut 255 pattern) isNot)) middle (.expr e) rest) :
      Parses (.loop minPrec left) tokens (.expr e) rest
  | last {before : List (ExprT Double)} {item : ExprT Double} {next : TokenT}
      {tokens rest : List TokenT} (read : Parses (.prec 1) tokens (.expr item) (next :: rest))
      (noComma : next.type ≠ .tkComma) :
      Parses (.items before) tokens (.list (before ++ [item])) (next :: rest)
  | more {before list : List (ExprT Double)} {item : ExprT Double} {comma : TokenT}
      {tokens inner rest : List TokenT}
      (read : Parses (.prec 1) tokens (.expr item) (comma :: inner))
      (isComma : comma.type = .tkComma)
      (more : Parses (.items (before ++ [item])) inner (.list list) rest) :
      Parses (.items before) tokens (.list list) rest

/-! ## What a run has read -/

/-- What a call leaves that has read a tree, unless there is an error. -/
structure Derived {α : Type} (goal : Goal Double) (tree : α → Tree Double) (p : ParserT)
    (result : Option α × ParserT) : Prop where
  error : p.hasError = true → result.2.hasError = true
  failed : result.1 = none → result.2.hasError = true
  parses : ∀ value, result.1 = some value → result.2.hasError = false →
    Parses goal p.rest (tree value) result.2.rest

/-- What the procedures for expressions leave. -/
def Call.Derived : {α : Type} → Call Double α → α → Prop
  | _, .primary p, result => Parser.Derived .primary .expr p result
  | _, .expressionPrec minPrec p, result => Parser.Derived (.prec minPrec) .expr p result
  | _, .precLoop minPrec left p, result => Parser.Derived (.loop minPrec left) .expr p result
  | _, .likePattern minPrec left isNot pattern p, result =>
      ∃ string, pattern = .literal (.string string) ∧
        Parser.Derived (.loop minPrec (.like left (cut 255 string) isNot)) .expr p result
  | _, .expressionList items p, result => Parser.Derived (.items items) .list p result
  | _, _, _ => True

section Rules

variable {spec : ∀ {β : Type}, Call Double β → β → Prop} {α β : Type} {p : ParserT}
  {post : β → Prop} {type : TokenTypeT}

omit [Platform Double] in
theorem ensures_peek {next : TokenT → Parse Double β}
    (rest : ∀ token more, p.rest = token :: more → (next token).Ensures @spec post) :
    ((liftM p.peek : Parse Double _) >>= next).Ensures @spec post := by
  refine Ensures.lift_bind fun token peeked => ?_
  cases first : p.rest with
  | nil =>
      rw [peek, first] at peeked
      cases peeked
  | cons other more =>
      rw [peek_eq first] at peeked
      cases peeked
      exact rest _ more first

omit [Platform Double] in
theorem ensures_peekType {next : TokenTypeT → Parse Double β}
    (rest : ∀ token more, p.rest = token :: more → (next token.type).Ensures @spec post) :
    ((liftM p.peekType : Parse Double _) >>= next).Ensures @spec post := by
  refine Ensures.lift_bind fun type peeked => ?_
  cases first : p.rest with
  | nil =>
      rw [peekType, peek, first] at peeked
      cases peeked
  | cons other more =>
      rw [peekType_eq first] at peeked
      cases peeked
      exact rest _ more first

omit [Platform Double] in
theorem ensures_match {next : Bool × ParserT → Parse Double β}
    (yes : ∀ token more, p.rest = token :: more → token.type = type →
      (next (true, p.advance)).Ensures @spec post)
    (no : ∀ token more, p.rest = token :: more → token.type ≠ type →
      (next (false, p)).Ensures @spec post) :
    ((liftM (p.matchToken type) : Parse Double _) >>= next).Ensures @spec post := by
  cases first : p.rest with
  | nil =>
      have failed : p.matchToken type = .error .outOfBounds := by
        rw [matchToken, peekType, peek, first]
        rfl
      rw [failed]
      exact trivial
  | cons token more =>
      by_cases same : token.type = type
      · have matched : p.matchToken type = .ok (true, p.advance) := by
          rw [matchToken, peekType_eq first, Std.ok_bind, if_pos same]
          rfl
        rw [matched]
        exact yes token more first same
      · have missed : p.matchToken type = .ok (false, p) := by
          rw [matchToken, peekType_eq first, Std.ok_bind, if_neg same]
          rfl
        rw [missed]
        exact no token more first same

/-- What reporting an error leaves. -/
theorem parserError_error {message : List UInt8} {q : ParserT}
    (reported : p.parserError message = .ok q) : q.hasError = true := by
  cases first : p.rest with
  | nil =>
      rw [parserError, peek, first] at reported
      cases reported
  | cons token more =>
      rw [parserError, peek_eq first] at reported
      cases reported
      rfl

omit [Platform Double] in
/-- A token that has to be there: unless there is an error afterwards, it is. -/
theorem ensures_expect {next : Bool × ParserT → Parse Double β}
    (rest : ∀ found q, (p.hasError = true → q.hasError = true) →
      (q.hasError = false → ∃ token, p.rest = token :: q.rest ∧ token.type = type) →
      (next (found, q)).Ensures @spec post) :
    ((liftM (p.expect type) : Parse Double _) >>= next).Ensures @spec post := by
  refine Ensures.lift_bind fun result expected => ?_
  obtain ⟨found, q⟩ := result
  cases first : p.rest with
  | nil =>
      rw [expect, peek, first] at expected
      cases expected
  | cons token more =>
      rw [expect, peek_eq first, Std.ok_bind] at expected
      split at expected
      case isTrue same =>
        cases expected
        exact rest _ _ id fun _ => ⟨token, by rw [first, advance, first]; rfl, same⟩
      case isFalse =>
        cases reported : p.parserError _ with
        | error fault =>
            rw [reported] at expected
            cases expected
        | ok r =>
            rw [reported] at expected
            cases expected
            have error := parserError_error reported
            exact rest _ _ (fun _ => error) fun clean => absurd (error.symm.trans clean) (by decide)

/-- Errors stay. -/
theorem clean_of {p q : ParserT} (error : p.hasError = true → q.hasError = true)
    (clean : q.hasError = false) : p.hasError = false := by
  cases recorded : p.hasError with
  | false => rfl
  | true => exact absurd ((error recorded).symm.trans clean) (by decide)

theorem advance_rest {token : TokenT} {more : List TokenT} (first : p.rest = token :: more) :
    p.advance.rest = more := by rw [advance, first]; rfl

/-- An error without a tree. -/
theorem derived_error {goal : Goal Double} {tree : α → Tree Double} {q : ParserT}
    (error : q.hasError = true) : Derived goal tree p ((none : Option α), q) where
  error _ := error
  failed _ := error
  parses value some := by cases some

theorem derived_some {goal : Goal Double} {tree : α → Tree Double} {q : ParserT} {value : α}
    (error : p.hasError = true → q.hasError = true)
    (parses : q.hasError = false → Parses goal p.rest (tree value) q.rest) :
    Derived goal tree p (some value, q) where
  error := error
  failed absent := by cases absent
  parses other same clean := by
    cases same
    exact parses clean

/-- A call that has to read a tree before the code goes on. -/
theorem ensures_parsed {goal : Goal Double} {tree : α → Tree Double}
    {procedure : Call Double (Option α × ParserT)}
    {next : α → ParserT → Parse Double (Option β × ParserT)} {post : Option β × ParserT → Prop}
    (derived : ∀ answer, spec procedure answer → Derived goal tree p answer)
    (failed : ∀ q, q.hasError = true → post (none, q))
    (rest : ∀ value q, (p.hasError = true → q.hasError = true) →
      (q.hasError = false → Parses goal p.rest (tree value) q.rest) →
      (next value q).Ensures @spec post) :
    (invoke procedure >>= fun result => whenParsed result next).Ensures @spec post := by
  intro answer answers
  obtain ⟨value, q⟩ := answer
  have derived := derived _ answers
  cases value with
  | none => exact failed q (derived.failed rfl)
  | some value => exact rest value q derived.error fun clean => derived.parses value rfl clean

omit [Platform Double] in
/-- A call that has the last word. -/
theorem ensures_last {procedure : Call Double α} {post : α → Prop}
    (rest : ∀ answer, spec procedure answer → post answer) :
    (invoke procedure : Parse Double α).Ensures @spec post := rest

omit [Platform Double] in
theorem ensures_trivial {α : Type} (code : Parse Double α) : code.Ensures @spec fun _ => True := by
  induction code with
  | done value => trivial
  | fail fault => trivial
  | call procedure rest ih => exact fun answer _ => ih answer

end Rules

section Bodies

variable {spec : ∀ {β : Type}, Call Double β → β → Prop} {p : ParserT}
  (expressions : ∀ {β : Type} (procedure : Call Double β) (answer : β),
    spec procedure answer → procedure.Derived answer)

include expressions

theorem parseFunctionCall_ensures {token : TokenT} {more : List TokenT}
    (first : p.rest = token :: more) (named : token.type ∈ functionTypes) :
    (parseFunctionCall p.advance (cut 63 token.lexeme)).Ensures @spec
      (Derived .primary .expr p) := by
  rw [parseFunctionCall]
  refine ensures_expect fun _ q error opened => ?_
  refine ensures_peekType fun second more' ahead => ?_
  split
  case isTrue star =>
    refine ensures_expect fun _ r error' closed => derived_some (error' ∘ error) fun clean => ?_
    obtain ⟨opening, before, opens⟩ := opened (clean_of error' clean)
    obtain ⟨closing, last, closes⟩ := closed clean
    rw [advance_rest first] at before
    rw [advance_rest ahead] at last
    rw [first, before, ahead, last]
    exact .callStar named opens star closes
  case isFalse noStar =>
  refine ensures_peekType fun second' more'' ahead' => ?_
  obtain ⟨rfl, rfl⟩ := List.cons.inj (ahead.symm.trans ahead')
  split
  case isTrue some =>
    refine ensures_parsed (expressions _) (fun r error => derived_error error)
      fun args r error' read => ?_
    refine ensures_expect fun _ t error'' closed =>
      derived_some (error'' ∘ error' ∘ error) fun clean => ?_
    have clean' := clean_of error'' clean
    obtain ⟨opening, before, opens⟩ := opened (clean_of error' clean')
    obtain ⟨closing, last, closes⟩ := closed clean
    have read := read clean'
    rw [advance_rest first] at before
    rw [ahead, last] at read
    rw [first, before, ahead]
    exact .callArgs named opens noStar some read closes
  case isFalse none =>
    refine ensures_expect fun _ r error' closed => derived_some (error' ∘ error) fun clean => ?_
    obtain ⟨opening, before, opens⟩ := opened (clean_of error' clean)
    obtain ⟨closing, last, closes⟩ := closed clean
    rw [advance_rest first] at before
    rw [first, before, last]
    exact .callEmpty named opens closes

omit expressions in
theorem parseLiteralExpr_eq {token : TokenT} {more : List TokenT} (first : p.rest = token :: more)
    (literal : token.type ∈ literalTypes) :
    parseLiteralExpr p = .ok ((some (literalExpr token) : Option (ExprT Double)), p.advance) := by
  rw [parseLiteralExpr, peek_eq first, Std.ok_bind]
  simp only [literalTypes, List.mem_cons, List.not_mem_nil, or_false] at literal
  rcases literal with same | same | same | same | same | same
  all_goals
    simp only [literalExpr, same]
    rfl

omit expressions in
theorem parseColumnRefOrIdentifier_ensures {token : TokenT} {more : List TokenT}
    (first : p.rest = token :: more) (named : token.type = .tkIdentifier)
    (noCall : p.peekNext ≠ .tkLeftParen) :
    (liftM (parseColumnRefOrIdentifier p : Except Fault (Option (ExprT Double) × ParserT)) :
      Parse Double _).Ensures @spec (Derived .primary .expr p) := by
  refine Ensures.lift fun result read => ?_
  rw [parseColumnRefOrIdentifier, peek_eq first, Std.ok_bind, if_neg (not_not.mpr named)] at read
  have second := advance_rest first
  cases more with
  | nil =>
      dsimp only at read
      rw [peekType, peek, second] at read
      cases read
  | cons next more =>
  have noCall : next.type ≠ .tkLeftParen := by
    rw [peekNext, first] at noCall
    exact noCall
  dsimp only at read
  rw [peekType_eq second, Std.ok_bind] at read
  split at read
  case isFalse unqualified =>
    cases read
    refine derived_some id fun _ => ?_
    rw [first, second]
    exact .column named noCall unqualified
  case isTrue dot =>
    have third := advance_rest second
    cases more with
    | nil =>
        rw [peek, third] at read
        cases read
    | cons col more =>
    rw [peek_eq third, Std.ok_bind] at read
    split at read
    case isTrue column =>
      cases read
      refine derived_some id fun _ => ?_
      rw [first, advance_rest third]
      exact .qualified named dot column
    case isFalse =>
      cases reported : p.advance.advance.parserError
          (ParserT.text "Expected column name after '.'") with
      | error fault =>
          rw [reported] at read
          cases read
      | ok q =>
          rw [reported] at read
          cases read
          exact derived_error (parserError_error reported)

theorem parsePrimary_ensures :
    (parsePrimary p).Ensures @spec (Derived (.primary : Goal Double) .expr p) := by
  rw [parsePrimary]
  split
  case isTrue error => exact derived_error error
  case isFalse =>
  refine ensures_peek fun token more first => ?_
  have literal (member : token.type ∈ literalTypes) :
      (liftM (parseLiteralExpr p : Except Fault (Option (ExprT Double) × ParserT)) :
        Parse Double _).Ensures @spec (Derived .primary .expr p) := by
    rw [parseLiteralExpr_eq first member]
    refine derived_some id fun _ => ?_
    rw [first, advance_rest first]
    exact .literal member
  split
  case h_1 same => exact literal (by rw [same]; decide)
  case h_2 same => exact literal (by rw [same]; decide)
  case h_3 same => exact literal (by rw [same]; decide)
  case h_4 same => exact literal (by rw [same]; decide)
  case h_5 same => exact literal (by rw [same]; decide)
  case h_6 same => exact literal (by rw [same]; decide)
  case h_7 same =>
    refine fun answer answers => ?_
    have read := expressions _ answer answers
    refine ensures_expect fun _ q error closed => ?_
    refine ⟨error ∘ read.error, fun failed => error (read.failed failed), fun e some clean => ?_⟩
    obtain ⟨closing, last, closes⟩ := closed clean
    have inner := read.parses e some (clean_of error clean)
    rw [advance_rest first, last] at inner
    rw [first]
    exact .paren same inner closes
  case h_8 same =>
    refine ensures_parsed (expressions _) (fun q error => derived_error error)
      fun operand q error read => derived_some error fun clean => ?_
    have read := read clean
    rw [advance_rest first] at read
    rw [first]
    exact .minus same read
  case h_9 same =>
    refine ensures_parsed (expressions _) (fun q error => derived_error error)
      fun operand q error read => derived_some error fun clean => ?_
    have read := read clean
    rw [advance_rest first] at read
    rw [first]
    exact .not same read
  case h_10 same => exact parseFunctionCall_ensures expressions first (by rw [same]; decide)
  case h_11 same => exact parseFunctionCall_ensures expressions first (by rw [same]; decide)
  case h_12 same => exact parseFunctionCall_ensures expressions first (by rw [same]; decide)
  case h_13 same => exact parseFunctionCall_ensures expressions first (by rw [same]; decide)
  case h_14 same => exact parseFunctionCall_ensures expressions first (by rw [same]; decide)
  case h_15 same =>
    split
    case isTrue =>
      exact parseFunctionCall_ensures expressions first (by rw [same]; decide)
    case isFalse noCall => exact parseColumnRefOrIdentifier_ensures first same noCall
  case h_16 same =>
    refine derived_some id fun _ => ?_
    rw [first, advance_rest first]
    exact .wildcard same
  case h_17 =>
    exact Ensures.lift_bind fun q reported => derived_error (parserError_error reported)

/-- An operator that may be negated, with its operands. -/
theorem parseOperator_ensures {minPrec : Nat} {left : ExprT Double} {isNot : Bool} {q : ParserT}
    {token : TokenT} {more : List TokenT} (error : p.hasError = true → q.hasError = true)
    (first : q.rest = token :: more) (negatable : token.type ∈ negatableTypes)
    (op : Infix minPrec token.type isNot p.rest more) :
    (parseOperator minPrec left (infixPrec isNot) isNot token.type q).Ensures @spec
      (Derived (.loop minPrec left) .expr p) := by
  simp only [negatableTypes, List.mem_cons, List.not_mem_nil, or_false] at negatable
  rcases negatable with same | same | same
  all_goals
    rw [same] at op ⊢
  · refine ensures_expect fun _ r error' opened => ?_
    refine ensures_parsed (expressions _) (fun t error => derived_error error)
      fun list t error'' read => ?_
    refine ensures_expect fun _ u error₃ closed => ensures_last fun answer answers => ?_
    have more := expressions _ _ answers
    have kept := error₃ ∘ error'' ∘ error' ∘ error
    refine ⟨more.error ∘ kept, more.failed, fun e some clean => ?_⟩
    have clean₃ := clean_of more.error clean
    have clean'' := clean_of error₃ clean₃
    obtain ⟨closing, last, closes⟩ := closed clean₃
    obtain ⟨opening, before, opens⟩ := opened (clean_of error'' clean'')
    have read := read clean''
    rw [advance_rest first] at before
    rw [before] at op
    rw [last] at read
    exact .inExpr op opens read closes (more.parses e some clean)
  · refine ensures_parsed (expressions _) (fun t error => derived_error error)
      fun low r error' lower => ?_
    refine ensures_expect fun _ t error'' found => ?_
    refine ensures_parsed (expressions _) (fun t error => derived_error error)
      fun high u error₃ upper => ensures_last fun answer answers => ?_
    have more := expressions _ _ answers
    have kept := error₃ ∘ error'' ∘ error' ∘ error
    refine ⟨more.error ∘ kept, more.failed, fun e some clean => ?_⟩
    have clean₃ := clean_of more.error clean
    have clean'' := clean_of error₃ clean₃
    obtain ⟨and, between, isAnd⟩ := found clean''
    have lower := lower (clean_of error'' clean'')
    rw [advance_rest first, between] at lower
    exact .between op lower isAnd (upper clean₃) (more.parses e some clean)
  · refine ensures_parsed (expressions _) (fun t error => derived_error error)
      fun pattern r error' read => ensures_last fun answer answers => ?_
    obtain ⟨string, rfl, more⟩ := expressions _ _ answers
    refine ⟨more.error ∘ error' ∘ error, more.failed, fun e some clean => ?_⟩
    have read := read (clean_of more.error clean)
    rw [advance_rest first] at read
    exact .like op read (more.parses e some clean)

/-- An operator with two operands. -/
theorem parseRegular_ensures {minPrec : Nat} {left : ExprT Double} {token : TokenT}
    {more : List TokenT} (first : p.rest = token :: more) (regular : token.type ∈ regularTypes)
    (binds : minPrec ≤ getPrecedence token.type) :
    (parseOperator minPrec left (getPrecedence token.type) false token.type p).Ensures @spec
      (Derived (.loop minPrec left) .expr p) := by
  have same : parseOperator minPrec left (getPrecedence token.type) false token.type p =
      invoke (.expressionPrec (getPrecedence token.type + 1) p.advance) >>= fun right =>
        whenParsed right fun right p =>
          invoke (.precLoop minPrec (.binary left token.type right) p) := by
    have cases := regular
    simp only [regularTypes, List.mem_cons, List.not_mem_nil, or_false] at cases
    rcases cases with
      same | same | same | same | same | same | same | same | same | same | same | same
    all_goals
      rw [same]
      rfl
  rw [same]
  refine ensures_parsed (expressions _) (fun t error => derived_error error)
    fun right q error operand => ensures_last fun answer answers => ?_
  have next := expressions _ _ answers
  refine ⟨next.error ∘ error, next.failed, fun e some clean => ?_⟩
  have operand := operand (clean_of next.error clean)
  rw [advance_rest first] at operand
  rw [first]
  exact .regular regular binds operand (next.parses e some clean)

omit [Platform Double] in
omit expressions in
theorem operator_cases {type : TokenTypeT} (operator : getPrecedence type ≠ 0) :
    type = .tkIs ∨ type = .tkNot ∨ type ∈ negatableTypes ∧ getPrecedence type = 4 ∨
      type ∈ regularTypes := by
  cases type <;> first | exact absurd rfl operator | decide

theorem parsePrecLoop_ensures {minPrec : Nat} {left : ExprT Double} :
    (parsePrecLoop minPrec left p).Ensures @spec (Derived (.loop minPrec left) .expr p) := by
  rw [parsePrecLoop]
  refine ensures_peekType fun token more first => ?_
  dsimp only
  split
  case isTrue low =>
    refine derived_some id fun _ => ?_
    rw [first]
    exact .stop low
  case isFalse operator =>
  have binds : minPrec ≤ getPrecedence token.type := Nat.le_of_not_lt fun low => operator (.inr low)
  rcases operator_cases fun none => operator (.inl none) with same | same | ⟨same, four⟩ | same
  · rw [if_pos same]
    have four : getPrecedence token.type = 4 := by rw [same]; rfl
    rw [four] at binds ⊢
    refine ensures_match (fun not rest second isNot => ?_) (fun next rest second plain => ?_)
    · obtain rfl := (advance_rest first).symm.trans second
      have third := advance_rest second
      refine ensures_peekType fun next rest' ahead => ?_
      obtain rfl := third.symm.trans ahead
      split
      case isTrue null =>
        refine ensures_last fun answer answers => ?_
        have next := expressions _ _ answers
        refine ⟨next.error, next.failed, fun e some clean => ?_⟩
        have parses := next.parses e some clean
        rw [advance_rest third] at parses
        rw [first]
        exact .isNotNull binds same isNot null parses
      case isFalse some =>
        refine ensures_parsed (expressions _) (fun t error => derived_error error)
          fun right q error operand => ensures_last fun answer answers => ?_
        have next := expressions _ _ answers
        refine ⟨next.error ∘ error, next.failed, fun e present clean => ?_⟩
        have operand := operand (clean_of next.error clean)
        rw [third] at operand
        rw [first]
        exact .isNotEqual binds same isNot some operand (next.parses e present clean)
    · obtain rfl := (advance_rest first).symm.trans second
      refine ensures_peekType fun next' rest' ahead => ?_
      obtain ⟨rfl, rfl⟩ := List.cons.inj (second.symm.trans ahead)
      split
      case isTrue null =>
        refine ensures_last fun answer answers => ?_
        have more := expressions _ _ answers
        refine ⟨more.error, more.failed, fun e some clean => ?_⟩
        have parses := more.parses e some clean
        rw [advance_rest second] at parses
        rw [first]
        exact .isNull binds same null parses
      case isFalse some =>
        refine ensures_parsed (expressions _) (fun t error => derived_error error)
          fun right q error operand => ensures_last fun answer answers => ?_
        have more := expressions _ _ answers
        refine ⟨more.error ∘ error, more.failed, fun e present clean => ?_⟩
        have operand := operand (clean_of more.error clean)
        rw [second] at operand
        rw [first]
        exact .isEqual binds same plain some operand (more.parses e present clean)
  · rw [if_neg (by rw [same]; decide), if_pos same]
    have three : getPrecedence token.type = 3 := by rw [same]; rfl
    rw [three] at binds ⊢
    have ahead : p.peekNext = (parserInit (token :: more)).peekNext := by rw [peekNext, first]; rfl
    split
    case isFalse alone =>
      refine derived_some id fun _ => ?_
      rw [first]
      refine .stopNot same fun member => alone ?_
      rw [ahead]
      simpa [negatableTypes] using member
    case isTrue negatable =>
      refine ensures_peekType fun next rest second => ?_
      obtain rfl := (advance_rest first).symm.trans second
      refine parseOperator_ensures expressions id second ?_ (first ▸ .negated binds same rfl)
      rw [ahead] at negatable
      simpa [negatableTypes, peekNext, parserInit] using negatable
  · rw [if_neg (by rintro is; rw [is] at same; exact absurd same (by decide)),
      if_neg (by rintro is; rw [is] at same; exact absurd same (by decide)), four]
    rw [four] at binds
    exact parseOperator_ensures expressions id first same (first ▸ .plain binds rfl)
  · rw [if_neg (by rintro is; rw [is] at same; exact absurd same (by decide)),
      if_neg (by rintro is; rw [is] at same; exact absurd same (by decide))]
    exact parseRegular_ensures expressions first same binds

theorem parseLikePattern_ensures {minPrec : Nat} {left pattern : ExprT Double} {isNot : Bool} :
    (parseLikePattern minPrec left isNot pattern p).Ensures @spec
      fun result => ∃ string, pattern = .literal (.string string) ∧
        Derived (.loop minPrec (.like left (cut 255 string) isNot)) .expr p result := by
  unfold parseLikePattern
  split
  case h_1 string => exact fun answer answers => ⟨string, rfl, expressions _ _ answers⟩
  case h_2 => exact trivial

theorem parseExpressionPrec_ensures {minPrec : Nat} :
    (parseExpressionPrec minPrec p).Ensures @spec
      (Derived (.prec minPrec : Goal Double) .expr p) := by
  refine ensures_parsed (expressions _) (fun t error => derived_error error)
    fun left q error first => ensures_last fun answer answers => ?_
  have more := expressions _ _ answers
  refine ⟨more.error ∘ error, more.failed, fun e some clean => ?_⟩
  exact .prec (first (clean_of more.error clean)) (more.parses e some clean)

theorem parseExpressionList_ensures {items : List (ExprT Double)} :
    (parseExpressionList items p).Ensures @spec (Derived (.items items) .list p) := by
  refine ensures_parsed (expressions _) (fun t error => derived_error error)
    fun item q error read => ?_
  refine ensures_match (fun token more first comma => ?_) (fun token more first noComma => ?_)
  · refine ensures_last fun answer answers => ?_
    have next := expressions _ _ answers
    refine ⟨next.error ∘ error, next.failed, fun list some clean => ?_⟩
    have read := read (clean_of next.error clean)
    have parses := next.parses list some clean
    rw [advance_rest first] at parses
    rw [first] at read
    exact .more read comma parses
  · refine derived_some error fun clean => ?_
    have read := read clean
    rw [first] at read ⊢
    exact .last read noComma

end Bodies

/-- What a procedure for expressions returns without an error has a derivation. -/
theorem Call.Gives.derived {α : Type} {procedure : Call Double α} {value : α}
    (gives : procedure.Gives value) : procedure.Derived value := by
  refine Returns.ensures gives fun procedure => ?_
  cases procedure with
  | primary => exact parsePrimary_ensures fun _ _ => id
  | expressionPrec => exact parseExpressionPrec_ensures fun _ _ => id
  | precLoop => exact parsePrecLoop_ensures fun _ _ => id
  | likePattern => exact parseLikePattern_ensures fun _ _ => id
  | expressionList => exact parseExpressionList_ensures fun _ _ => id
  | _ => exact ensures_trivial _

/-! ## Derivations are what the parser returns -/

/-- The call that reads a goal. -/
def Goal.Reads (goal : Goal Double) (tokens : List TokenT) (tree : Tree Double)
    (rest : List TokenT) : Prop :=
  match goal, tree with
  | .primary, .expr e => (Call.primary (parserInit tokens)).Gives (some e, parserInit rest)
  | .prec minPrec, .expr e =>
      (Call.expressionPrec minPrec (parserInit tokens)).Gives (some e, parserInit rest)
  | .loop minPrec left, .expr e =>
      (Call.precLoop minPrec left (parserInit tokens)).Gives (some e, parserInit rest)
  | .items before, .list found =>
      (Call.expressionList before (parserInit tokens)).Gives (some found, parserInit rest)
  | _, _ => False

/-- The loop goes on behind an operator that may be negated. -/
theorem Infix.gives {minPrec : Nat} {op : TokenTypeT} {isNot : Bool} {tokens inner : List TokenT}
    {left : ExprT Double} {result : Option (ExprT Double) × ParserT}
    (infixed : Infix minPrec op isNot tokens inner) (negatable : op ∈ negatableTypes)
    (gives : ∀ token, Gives (parseOperator minPrec left (infixPrec isNot) isNot op
      (parserInit (token :: inner))) result) :
    (Call.precLoop minPrec left (parserInit tokens)).Gives result := by
  simp only [negatableTypes, List.mem_cons, List.not_mem_nil, or_false] at negatable
  cases infixed with
  | @plain token rest binds type =>
      exact precLoop_plain binds (type ▸ negatable) (type ▸ gives token)
  | @negated not token rest binds isNot type =>
      obtain ⟨_, _, _, _⟩ := not
      cases isNot
      exact precLoop_negated binds (type ▸ negatable) (type ▸ gives token)

theorem Parses.gives {goal : Goal Double} {tokens rest : List TokenT} {tree : Tree Double}
    (parses : Parses goal tokens tree rest) : goal.Reads tokens tree rest := by
  induction parses with
  | @literal token rest literal =>
      exact primary_literal literal (parseLiteralExpr_eq rfl literal)
  | @paren opening closing inner rest e opens read closes ih =>
      obtain ⟨_, _, _, _⟩ := opening
      cases opens
      exact primary_paren ih closes
  | @minus op inner rest operand type read ih =>
      obtain ⟨_, _, _, _⟩ := op
      cases type
      exact primary_minus ih
  | @not op inner rest operand type read ih =>
      obtain ⟨_, _, _, _⟩ := op
      cases type
      exact primary_not ih
  | @wildcard star rest type =>
      obtain ⟨_, _, _, _⟩ := star
      cases type
      exact returns_iff.mpr (.done _)
  | @column name next rest type noCall unqualified =>
      obtain ⟨_, _, _, _⟩ := name
      cases type
      exact primary_column noCall unqualified
  | @qualified table dot col rest type isDot named =>
      obtain ⟨_, _, _, _⟩ := table
      cases type
      exact primary_qualified isDot named
  | @callStar name opening star closing rest named opens isStar closes =>
      exact primary_function named opens (functionCall_star opens isStar closes)
  | @callEmpty name opening closing rest named opens closes =>
      exact primary_function named opens (functionCall_empty opens closes)
  | @callArgs name opening first closing inner rest args named opens noStar some read closes ih =>
      exact primary_function named opens (functionCall_args opens noStar some ih closes)
  | prec first more ih ih' => exact expressionPrec_gives ih ih'
  | stop low => exact precLoop_stops low
  | stopNot isNot alone => exact precLoop_not isNot fun negated => alone (by simpa [negatableTypes] using negated)
  | @isNull minPrec left e op null inner rest binds type isNull more ih =>
      obtain ⟨_, _, _, _⟩ := op
      cases type
      exact precLoop_isNull binds isNull ih
  | @isNotNull minPrec left e op not null inner rest binds type isNot isNull more ih =>
      obtain ⟨_, _, _, _⟩ := op
      cases type
      exact precLoop_isNotNull binds isNot isNull ih
  | @isEqual minPrec left right e op next inner middle rest binds type plain some operand more ih
      ih' =>
      obtain ⟨_, _, _, _⟩ := op
      cases type
      exact precLoop_is binds plain some ih ih'
  | @isNotEqual minPrec left right e op not next inner middle rest binds type isNot some operand
      more ih ih' =>
      obtain ⟨_, _, _, _⟩ := op
      cases type
      exact precLoop_isNot binds isNot some ih ih'
  | regular regular binds operand more ih ih' => exact precLoop_regular regular binds ih ih'
  | inExpr op opens read closes more ih ih' =>
      exact op.gives (by decide) fun token => operator_in opens ih closes ih'
  | between op lower isAnd upper more ih ih' ih'' =>
      exact op.gives (by decide) fun token => operator_between ih isAnd ih' ih''
  | like op read more ih ih' => exact op.gives (by decide) fun token => operator_like ih ih'
  | last read noComma ih => exact expressionList_last ih noComma
  | more read isComma more ih ih' => exact expressionList_more ih isComma ih'

end MiniSqlite.Parser
