import MiniSqlite.Executor.TruthValues
import MiniSqlite.Parser.PrintedExpressions

/-!
# Literals

What becomes of the text of a literal on its way through the lexer, the parser and the
evaluator. The text of a string keeps its backslashes and is cut off, and a number that does
not fit becomes the nearest one that does.
-/

namespace MiniSqlite.Executor

open MiniSqlite.Common MiniSqlite.Storage MiniSqlite.Parser

variable {Double : Type}

/-! ## From a text to a value -/

/-- The operators that the evaluator knows among the tokens. -/
def operatorOf : TokenTypeT → Option TokenType
  | .tkAnd => some .and
  | .tkOr => some .or
  | .tkNot => some .not
  | .tkEqual => some .equal
  | .tkNotEqual => some .notEqual
  | .tkLess => some .less
  | .tkLessEqual => some .lessEqual
  | .tkGreater => some .greater
  | .tkGreaterEqual => some .greaterEqual
  | .tkPlus => some .plus
  | .tkMinus => some .minus
  | .tkStar => some .star
  | .tkSlash => some .slash
  | _ => none

mutual

/-- A tree of the parser as the evaluator reads it. -/
def exprOf : ExprT Double → Option (Expr Double)
  | .literal value => some (.literal value)
  | .columnRef table column => some (.columnRef table column)
  | .binary left op right => do
      return .binary (← exprOf left) (← operatorOf op) (← exprOf right)
  | .unary op operand => do return .unary (← operatorOf op) (← exprOf operand)
  | .funcCall name args isStar => do return .functionCall name (← exprsOf args) isStar
  | .isNull operand isNot => do return .isNull (← exprOf operand) isNot
  | .inExpr left list isNot => do return .inExpr (← exprOf left) (← exprsOf list) isNot
  | .between expr low high isNot => do
      return .between (← exprOf expr) (← exprOf low) (← exprOf high) isNot
  | .like expr pattern isNot => do return .like (← exprOf expr) pattern isNot

/-- The trees of a list. -/
def exprsOf : List (ExprT Double) → Option (List (Expr Double))
  | [] => some []
  | item :: list => do return (← exprOf item) :: (← exprsOf list)

end

variable [Platform Double]

/-- The tree that lexing and parsing make of the text of an expression. There is none if
the text is rejected: with an error, or with tokens left over. -/
def parseText (source : CString) : Except Fault (Option (ExprT Double)) := do
  let tokens ← lexerTokenize (lexerInit source)
  let (e, p) ← runParser (parserInit tokens) (parseExpression (parserInit tokens))
  return if p.hasError || !p.isAtEnd then none else e

/-- A text evaluates to a value, whatever it is evaluated against. -/
def TextEvaluates (source : CString) (v : Value Double) : Prop :=
  ∃ e expr, parseText source = .ok (some e) ∧ exprOf e = some expr ∧
    ∀ tuple schema, Evaluates tuple schema expr v

variable (Double) in
/-- A text is rejected with an error. -/
def TextRejected (source : CString) : Prop :=
  (parseText source : Except Fault (Option (ExprT Double))) = .ok none

/-- The tree of a text whose tokens are those of one expression. -/
theorem parseText_eq {source : CString} {tokens : List TokenT} {eof : TokenT} {e : ExprT Double}
    (tiled : Tiles (1, 1) source.chars (tokens ++ [eof])) (isEof : eof.type = .tkEof)
    (few : tokens.length ≤ maxCapacity)
    (gives : (Call.expressionPrec 1 (parserInit (tokens ++ [eof]))).Gives
      (some e, parserInit [eof])) :
    parseText source =
      if Parser.Countable (1, 1) source.chars then .ok (some e) else .error .overflow := by
  have lexed := lexerTokenize_tiles tiled
  have few' : (tokens ++ [eof]).length ≤ maxCapacity + 1 := by simpa using few
  have parsed : runParser (parserInit (tokens ++ [eof]))
      (parseExpression (parserInit (tokens ++ [eof]))) = .ok (some e, parserInit [eof]) := by
    rw [parseExpression, runParser, Std.Code.run_invoke]
    refine gives.answer tiled.endsOnce ?_
    rw [maxDepth]
    show 16 * (tokens ++ [eof]).length + 2 < 16 * ((tokens ++ [eof]).length + 2)
    omega
  rw [parseText, lexed]
  by_cases counted : Parser.Countable (1, 1) source.chars
  · rw [if_pos ⟨counted, few'⟩, if_pos counted, Std.ok_bind, parsed, Std.ok_bind]
    simp [parserInit, ParserT.isAtEnd, isEof, pure, Except.pure]
  · rw [if_neg fun both => counted both.1, if_neg counted]
    rfl

/-- A text evaluates to what its tree does. -/
theorem textEvaluates_iff {source : CString} {e : ExprT Double} {expr : Expr Double}
    {computed v : Value Double} (parsed : parseText source = .ok (some e))
    (known : exprOf e = some expr)
    (evaluated : ∀ tuple schema, Evaluates tuple schema expr computed) :
    TextEvaluates source v ↔ v = computed := by
  constructor
  · rintro ⟨e', expr', parsed', known', evaluated'⟩
    rw [parsed] at parsed'
    cases parsed'
    rw [known] at known'
    cases known'
    exact (evaluated' none .null).unique (evaluated none .null)
  · rintro rfl
    exact ⟨e, expr, parsed, known, evaluated⟩

theorem countable_of_length {text : List UInt8} : ∀ {line column : Nat},
    line + text.length ≤ 2147483647 → column + text.length ≤ 2147483647 →
      Parser.Countable (line, column) text := by
  induction text with
  | nil => exact fun _ _ => trivial
  | cons c text ih =>
      intro line column lines columns
      rw [List.length_cons] at lines columns
      rw [Parser.Countable, movedCounter, stepPlace]
      split
      · exact ⟨by omega, ih (by omega) (by omega)⟩
      · exact ⟨by omega, ih (by omega) (by omega)⟩

/-! ## Strings -/

/-- A string with a backslash in front of each of its quotes. -/
def escapeQuotes (s : List UInt8) : List UInt8 := s.flatMap fun c => if c = 39 then [92, 39] else [c]

/-- The bytes that the lexer takes for a string: a closing quote that stands behind a
backslash is one of them. -/
def scannedString (s : List UInt8) : List UInt8 :=
  escapeQuotes s ++ if s.getLast? = some 92 then [39] else []

theorem escapeQuotes_quote (s : List UInt8) : escapeQuotes (39 :: s) = 92 :: 39 :: escapeQuotes s :=
  rfl

theorem escapeQuotes_char {c : UInt8} (other : c ≠ 39) (s : List UInt8) :
    escapeQuotes (c :: s) = c :: escapeQuotes s := by
  rw [escapeQuotes, List.flatMap_cons, if_neg other]
  rfl

theorem escapeQuotes_append (s t : List UInt8) :
    escapeQuotes (s ++ t) = escapeQuotes s ++ escapeQuotes t := List.flatMap_append

theorem escapeQuotes_plain {s : List UInt8} (plain : 39 ∉ s) : escapeQuotes s = s := by
  induction s with
  | nil => rfl
  | cons c s ih =>
      rw [List.mem_cons, not_or] at plain
      rw [escapeQuotes_char (Ne.symm plain.1), ih plain.2]

theorem zero_not_mem_escapeQuotes {s : List UInt8} (unterminated : 0 ∉ s) :
    0 ∉ escapeQuotes s := by
  intro member
  obtain ⟨c, inside, here⟩ := List.mem_flatMap.mp member
  split at here
  · simp at here
  · obtain rfl := List.mem_singleton.mp here
    exact unterminated inside

/-- A string as a literal. -/
def quoteString (s : CString) : CString where
  chars := 39 :: (escapeQuotes s.chars ++ [39])
  unterminated := by simpa using zero_not_mem_escapeQuotes s.unterminated

/-- No escaped string starts with a quote. -/
theorem escapeQuotes_head {s : List UInt8} (nonempty : s ≠ []) (rest : List UInt8) :
    (escapeQuotes s ++ rest).head? ≠ some 39 := by
  obtain ⟨c, s, rfl⟩ := List.exists_cons_of_ne_nil nonempty
  by_cases quote : c = 39
  · subst quote
    rw [escapeQuotes_quote]
    simp
  · rw [escapeQuotes_char quote]
    simpa using quote

/-- An escaped string continues the inside of a literal, unless its last backslash stands
before a quote. -/
theorem quoted_escape {s inside rest : List UInt8} (quoted : Quoted inside rest)
    (ends : s.getLast? = some 92 → (inside ++ rest).head? ≠ some 39) :
    Quoted (escapeQuotes s ++ inside) rest := by
  induction s with
  | nil => exact quoted
  | cons c s ih =>
      have more : Quoted (escapeQuotes s ++ inside) rest := by
        refine ih fun last => ends ?_
        rw [List.getLast?_cons, last]
        rfl
      by_cases quote : c = 39
      · subst quote
        exact .escape more
      · rw [escapeQuotes_char quote]
        refine .char quote (fun backslash => ?_) more
        rw [List.append_eq, List.append_assoc]
        by_cases nonempty : s = []
        · subst nonempty backslash
          exact ends rfl
        · exact escapeQuotes_head nonempty _

theorem lexed_quoteString (s : List UInt8) :
    Lexed .tkStringLiteral (scannedString s) (39 :: (escapeQuotes s ++ [39])) [] := by
  by_cases last : s.getLast? = some 92
  · obtain ⟨front, rfl⟩ := List.getLast?_eq_some_iff.mp last
    have inside : Quoted (escapeQuotes front ++ [92, 39]) [] :=
      quoted_escape (.escape (.nil (by simp [Stops]))) (by simp)
    have same : escapeQuotes (front ++ [92]) ++ [39] = escapeQuotes front ++ [92, 39] := by
      rw [escapeQuotes_append, List.append_assoc]
      rfl
    rw [scannedString, if_pos last, same]
    exact .openString inside
  · have inside : Quoted (escapeQuotes s ++ []) [39] :=
      quoted_escape (.nil (by simp [Stops])) fun backslash => absurd backslash last
    rw [scannedString, if_neg last, List.append_nil]
    rw [List.append_nil] at inside
    exact .string inside

theorem scannedString_unterminated (s : CString) : 0 ∉ scannedString s.chars := by
  rw [scannedString, List.mem_append, not_or]
  refine ⟨zero_not_mem_escapeQuotes s.unterminated, ?_⟩
  split <;> simp

/-- The tree of a string literal holds what the lexer has taken for the string, cut off. -/
theorem parseText_quoteString (s : CString) :
    (parseText (quoteString s) : Except Fault (Option (ExprT Double))) =
      if Parser.Countable (1, 1) (quoteString s).chars then
        .ok (some (.literal (.string (cut 255 ⟨_, scannedString_unterminated s⟩))))
      else .error .overflow := by
  have tiled : Tiles (1, 1) ([] ++ (quoteString s).chars ++ [])
      ([⟨.tkStringLiteral, cut 255 ⟨_, scannedString_unterminated s⟩, 1, 1⟩] ++
        [⟨.tkEof, .empty, _, _⟩]) :=
    .token (.nil _) (lexed_quoteString s.chars) rfl rfl (.eof (.nil _))
  rw [List.nil_append, List.append_nil] at tiled
  refine parseText_eq tiled rfl (show 1 ≤ maxCapacity by decide) ?_
  have kept : cut 255 (cut 255 ⟨_, scannedString_unterminated s⟩) =
      cut 255 ⟨_, scannedString_unterminated s⟩ := cut_of_le (List.length_take_le _ _)
  refine expressionPrec_gives (primary_literal (by decide) ?_) (precLoop_stops (.inl rfl))
  exact congrArg (fun string => Except.ok (some (ExprT.literal (AstValue.string string)), _)) kept

/-- The strings that come back from their literals: they have no quote, are not cut off, and a
backslash at the end is followed by a quote that is. -/
structure KeepsLiteral (s : List UInt8) : Prop where
  unquoted : 39 ∉ s
  short : s.length ≤ 255
  closed : s.getLast? = some 92 → s.length = 255

/-- A prefix of an escaped string has no quote. -/
theorem unquoted_of_prefix {s rest : List UInt8} (isPrefix : s <+: escapeQuotes s ++ rest) :
    39 ∉ s := by
  intro quote
  obtain ⟨front, back, same, first⟩ := List.eq_append_cons_of_mem quote
  have escaped : escapeQuotes s = front ++ 92 :: 39 :: escapeQuotes back := by
    rw [same, escapeQuotes_append, escapeQuotes_plain first, escapeQuotes_quote]
  rw [escaped, same, List.append_assoc, List.prefix_append_right_inj] at isPrefix
  exact absurd (List.cons_prefix_cons.mp isPrefix).1 (by decide)

theorem keepsLiteral_iff {s : List UInt8} :
    (scannedString s).take 255 = s ↔ KeepsLiteral s := by
  constructor
  · intro same
    have isPrefix : s <+: scannedString s := by
      have := List.take_prefix 255 (scannedString s)
      rwa [same] at this
    have unquoted := unquoted_of_prefix isPrefix
    have lengths : min 255 (scannedString s).length = s.length := by
      rw [← List.length_take, same]
    refine ⟨unquoted, by omega, fun last => ?_⟩
    rw [scannedString, escapeQuotes_plain unquoted, if_pos last, List.length_append,
      List.length_singleton] at lengths
    omega
  · intro ⟨unquoted, short, closed⟩
    rw [scannedString, escapeQuotes_plain unquoted]
    by_cases last : s.getLast? = some 92
    · rw [if_pos last, List.take_append_of_le_length (closed last).ge,
        List.take_of_length_le short]
    · rw [if_neg last, List.append_nil, List.take_of_length_le short]

/-- A string comes back from its literal, or the literal is rejected. -/
def StringLawful (Double : Type) [Platform Double] (s : CString) : Prop :=
  TextEvaluates (quoteString s) (.varchar s : Value Double) ∨ TextRejected Double (quoteString s)

theorem StringLawful.keeps {s : CString} (lawful : StringLawful Double s) :
    KeepsLiteral s.chars := by
  have parsed := @parseText_quoteString Double _ s
  rcases lawful with ⟨e, expr, accepted, known, value⟩ | rejected
  · rw [parsed] at accepted
    split at accepted
    · cases accepted
      cases known
      have same := Except.ok.inj (Except.ok.inj (value none .null))
      exact keepsLiteral_iff.mp (congrArg CString.chars (Value.varchar.inj same))
    · cases accepted
  · rw [TextRejected, parsed] at rejected
    split at rejected <;> cases rejected

theorem KeepsLiteral.lawful {s : CString} (keeps : KeepsLiteral s.chars) :
    StringLawful Double s := by
  have parsed := @parseText_quoteString Double _ s
  have kept : cut 255 ⟨_, scannedString_unterminated s⟩ = s :=
    CString.mk.injEq _ _ _ _ ▸ keepsLiteral_iff.mpr keeps
  have counted : Parser.Countable (1, 1) (quoteString s).chars := by
    have length : (quoteString s).chars.length = s.chars.length + 2 := by
      simp [quoteString, escapeQuotes_plain keeps.unquoted]
    have short := keeps.short
    exact countable_of_length (by omega) (by omega)
  rw [if_pos counted, kept] at parsed
  exact .inl ⟨_, _, parsed, rfl, fun _ _ => rfl⟩

/-- A string comes back from its literal if and only if it has no quote, is not longer than a
token, and does not take the closing quote for its own. -/
theorem stringLawful_iff (s : CString) : StringLawful Double s ↔ KeepsLiteral s.chars :=
  ⟨StringLawful.keeps, KeepsLiteral.lawful⟩

/-- A quote in a string comes back with its backslash. -/
theorem stringWithQuote_unlawful : ¬ StringLawful Int ⟨[105, 116, 39, 115], by decide⟩ :=
  fun lawful => absurd lawful.keeps.unquoted (by decide)

/-! ## Integers -/

/-- A number in decimal, with a sign if it is negative. -/
structure DecimalText where
  negative : Bool
  digits : List UInt8
  areDigits : AreDigits digits

namespace DecimalText

variable (text : DecimalText)

/-- The sign. -/
def sign : List UInt8 := if text.negative then [45] else []

theorem unterminated : 0 ∉ text.sign ++ text.digits := by
  rw [List.mem_append, not_or]
  refine ⟨?_, fun member => absurd (text.areDigits.all 0 member) (by decide)⟩
  rw [sign]
  split <;> decide

/-- The text. -/
def source : CString := ⟨text.sign ++ text.digits, text.unterminated⟩

theorem source_chars : text.source.chars = text.sign ++ text.digits := rfl

/-- The number that the text denotes. -/
def value : Int := signedValue text.negative text.digits

theorem isSign : IsSign text.sign text.negative := by
  rw [sign]
  cases text.negative with
  | false => exact .absent
  | true => exact .minus

theorem digits_unterminated : 0 ∉ text.digits :=
  fun member => text.unterminated (List.mem_append_right _ member)

/-- The token of the digits. -/
def numberToken : TokenT :=
  ⟨.tkIntLiteral, cut 255 ⟨text.digits, text.digits_unterminated⟩, 1, 1 + text.sign.length⟩

/-- The tree of the digits. -/
def magnitude : ExprT Double := .literal (.int (strtoll text.numberToken.lexeme.chars).1)

/-- The tree of the text. -/
def tree : ExprT Double :=
  if text.negative then .unary .tkMinus text.magnitude else text.magnitude

theorem lexed_digits : Lexed .tkIntLiteral text.digits text.digits [] := by
  have none : Stops isDigit [] := by simp [Stops]
  have lexed := @Lexed.number text.digits [] [] [] text.areDigits.nonempty
    ⟨text.areDigits.all, none⟩ (.absent (by simp [Stops])) (.absent (by simp [Stops]))
  rwa [if_pos ⟨rfl, rfl⟩, List.append_nil, List.append_nil] at lexed

theorem lexed_minus : Lexed .tkMinus [45] [45] text.digits := by
  obtain ⟨digit, digits, same⟩ := List.exists_cons_of_ne_nil text.areDigits.nonempty
  have bounds := isDigit_bounds (text.areDigits.all digit (by rw [same]; simp))
  refine Lexed.single (c := 45) (by decide) (by decide) (by decide) (by decide) ?_ ?_
  · rw [same]
    rintro (⟨rest, comment⟩ | ⟨rest, comment⟩)
    · cases comment
      exact absurd bounds (by decide)
    · cases comment
  · intro next _
    simp [twoType]

/-- The digits are the last token of the text. -/
theorem tiles_digits : ∃ eof : TokenT, eof.type = .tkEof ∧
    Tiles (1, 1 + text.sign.length) text.digits ([text.numberToken] ++ [eof]) := by
  have tiled : Tiles (1, 1 + text.sign.length) ([] ++ text.digits ++ [])
      ([text.numberToken] ++ [⟨.tkEof, .empty, _, _⟩]) :=
    .token (.nil _) text.lexed_digits rfl rfl (.eof (.nil _))
  rw [List.nil_append, List.append_nil] at tiled
  exact ⟨_, rfl, tiled⟩

theorem primary_digits (rest : List TokenT) :
    (Call.primary (parserInit (text.numberToken :: rest))).Gives
      ((some text.magnitude : Option (ExprT Double)), parserInit rest) :=
  primary_literal (by decide) rfl

/-- The tree of a decimal is that of its digits, cut off, behind the sign. -/
theorem parseText_source :
    (parseText text.source : Except Fault (Option (ExprT Double))) =
      if Parser.Countable (1, 1) text.source.chars then .ok (some text.tree) else .error .overflow := by
  obtain ⟨eof, isEof, tiled⟩ := text.tiles_digits
  have stops (left : ExprT Double) : (Call.precLoop 1 left (parserInit [eof])).Gives
      (some left, parserInit [eof]) := precLoop_stops (.inl (by rw [isEof]; rfl))
  cases negative : text.negative with
  | false =>
      have unsigned : text.sign = [] := by rw [sign, negative]; rfl
      have same : text.source.chars = text.digits := by
        rw [source_chars, unsigned, List.nil_append]
      rw [unsigned] at tiled
      rw [← same] at tiled
      refine parseText_eq tiled isEof (show 1 ≤ maxCapacity by decide) ?_
      rw [tree, if_neg (by rw [negative]; decide)]
      exact expressionPrec_gives (text.primary_digits [eof]) (stops _)
  | true =>
      have signed : text.sign = [45] := by rw [sign, negative]; rfl
      have same : text.source.chars = [] ++ [45] ++ text.digits := by rw [source_chars, signed]; rfl
      rw [signed] at tiled
      have tiled' : Tiles (1, 1) text.source.chars
          ([⟨.tkMinus, cut 255 ⟨[45], by decide⟩, 1, 1⟩, text.numberToken] ++ [eof]) := by
        rw [same]
        exact .token (.nil _) text.lexed_minus rfl rfl tiled
      refine parseText_eq tiled' isEof (show 2 ≤ maxCapacity by decide) ?_
      rw [tree, if_pos negative]
      exact expressionPrec_gives (primary_minus (text.primary_digits [eof])) (stops _)

/-- The text of an integer comes back as that integer, and a text that denotes none is
rejected. -/
structure Lawful (Double : Type) [Platform Double] : Prop where
  read (n : Int64) (printed : text.source = formatInt n) :
    TextEvaluates text.source (.integer n : Value Double)
  rejected (outside : ¬ FitsInt64 text.value) : TextRejected Double text.source

/-- No decimal is rejected. -/
theorem not_rejected : ¬ TextRejected Double text.source := by
  intro rejected
  rw [TextRejected, parseText_source] at rejected
  split at rejected <;> cases rejected

variable {text}

/-- The number of a text that prints an integer is that integer. -/
theorem value_printed {n : Int64} (printed : text.source = formatInt n)
    (fits : FitsInt64 text.value) : text.value = n.toInt := by
  have read := @strtoll_number [] text.sign text.digits [] _ (by simp) text.isSign text.areDigits
    (by intro char first; cases first)
  rw [List.nil_append, List.append_nil] at read
  have same := strtoll_formatInt n
  rw [← printed, source, read] at same
  rw [← (Prod.mk.inj same).1]
  exact fits.toInt_nearestInt64.symm

omit [Platform Double] in
/-- The digits of a printed integer all reach the tree. -/
theorem magnitude_printed {n : Int64} (printed : text.source = formatInt n) :
    (text.magnitude : ExprT Double) =
      .literal (.int (nearestInt64 (digitsValue text.digits))) := by
  have short : text.digits.length ≤ 255 := by
    have whole : (text.sign ++ text.digits).length ≤ 21 := by
      rw [← source_chars, printed]
      exact formatInt_length n
    rw [List.length_append] at whole
    omega
  have read := @strtoll_number [] [] text.digits [] false (by simp) .absent text.areDigits
    (by intro char first; cases first)
  rw [List.nil_append, List.nil_append, List.append_nil] at read
  rw [magnitude, numberToken, cut_of_le short, read]
  rfl

omit [Platform Double] in
/-- The sign negates the magnitude of an integer. That of the smallest one has become the
largest integer. -/
theorem int64Of_negated {magnitude : Int} {n : Int64} (same : -magnitude = n.toInt) :
    int64Of (-(nearestInt64 magnitude).toInt) =
      .ok (if n = Int64.minValue then n + 1 else n) := by
  by_cases smallest : n = Int64.minValue
  · subst smallest
    obtain rfl : magnitude = 9223372036854775808 := by
      rw [← neg_inj, same]
      rfl
    rfl
  · rw [if_neg smallest]
    have low : n.toInt ≠ Int64.minValue.toInt := fun least => smallest (Int64.toInt_inj.mp least)
    rw [Int64.toInt_minValue] at low
    obtain ⟨atLeast, atMost⟩ := fitsInt64_toInt n
    have fits : FitsInt64 magnitude := by
      constructor <;> omega
    rw [fits.toInt_nearestInt64, same, int64Of, if_pos ⟨atLeast, atMost⟩, Int64.ofInt_toInt]

/-- The integer that evaluating the text of an integer gives. -/
theorem textEvaluates_printed {n : Int64} {v : Value Double} (printed : text.source = formatInt n)
    (fits : FitsInt64 text.value) :
    TextEvaluates text.source v ↔ v = .integer (if n = Int64.minValue then n + 1 else n) := by
  have value := value_printed printed fits
  have counted : Parser.Countable (1, 1) text.source.chars := by
    have short := formatInt_length n
    rw [printed]
    exact countable_of_length (by omega) (by omega)
  have parsed := @parseText_source Double _ text
  rw [if_pos counted] at parsed
  cases negative : text.negative with
  | false =>
      rw [DecimalText.value, signedValue, negative, if_neg (by decide)] at value
      rw [tree, if_neg (by rw [negative]; decide), magnitude_printed printed, value,
        nearestInt64_toInt] at parsed
      rw [if_neg]
      · exact textEvaluates_iff parsed rfl fun _ _ => rfl
      · rintro rfl
        exact absurd value (by simp)
  | true =>
      rw [DecimalText.value, signedValue, negative, if_pos rfl] at value
      rw [tree, if_pos negative, magnitude_printed printed] at parsed
      refine textEvaluates_iff parsed rfl fun tuple schema => ?_
      have negated := int64Of_negated value
      have literal : Evaluates tuple schema
          (.literal (.int (nearestInt64 (digitsValue text.digits))) : Expr Double)
          (.integer (nearestInt64 (digitsValue text.digits))) := rfl
      rw [Evaluates, exprEvaluate_unary .minus literal, applyUnary, negated]
      rfl

theorem Lawful.fits (lawful : text.Lawful Double) : FitsInt64 text.value := by
  by_contra outside
  exact text.not_rejected (lawful.rejected outside)

end DecimalText

/-- The text of an integer comes back as that integer and a text that denotes none is rejected,
if and only if the text denotes an integer and does not print the smallest one: no text is
rejected, and what a sign negates is at most the largest integer. -/
theorem decimalText_lawful_iff (text : DecimalText) : text.Lawful Double ↔
    FitsInt64 text.value ∧ text.source ≠ formatInt Int64.minValue := by
  constructor
  · intro lawful
    refine ⟨lawful.fits, fun printed => ?_⟩
    have same := (DecimalText.textEvaluates_printed printed lawful.fits).mp (lawful.read _ printed)
    rw [if_pos rfl] at same
    exact absurd (Value.integer.inj same) (by decide)
  · rintro ⟨fits, notSmallest⟩
    constructor
    · intro n printed
      refine (DecimalText.textEvaluates_printed printed fits).mpr ?_
      rw [if_neg]
      rintro rfl
      exact notSmallest printed
    · exact fun outside => absurd fits outside

/-- The text of the smallest integer. -/
def smallestText : DecimalText where
  negative := true
  digits := [57, 50, 50, 51, 51, 55, 50, 48, 51, 54, 56, 53, 52, 55, 55, 53, 56, 48, 56]
  areDigits := areDigits_of_all (by decide) (by decide)

/-- The smallest integer comes back as its successor. -/
theorem smallestText_unlawful : ¬ smallestText.Lawful Int := by
  intro lawful
  have printed : smallestText.source = formatInt Int64.minValue := by decide
  have same := (DecimalText.textEvaluates_printed printed lawful.fits).mp (lawful.read _ printed)
  exact absurd (Value.integer.inj same) (by decide)

end MiniSqlite.Executor
