import MiniSqlite.Parser.Lexer
import MiniSqlite.Std.Lockstep

/-!
# Tokens and gaps of a source text

`Tiles` says what the tokens of a text are: the text is cut into gaps of whitespace and
comments and into the spans of the tokens, each as long as its kind allows, and a token
knows the place at which its span starts. Every text has such a tiling, and
`lexerTokenize` returns its tokens as long as its counters do not overflow.
-/

namespace MiniSqlite.Parser

open MiniSqlite.Common MiniSqlite.Storage

/-! ## Places -/

/-- The line and the column behind a byte. -/
def stepPlace (place : Nat × Nat) (c : UInt8) : Nat × Nat :=
  if c = 10 then (place.1 + 1, 1) else (place.1, place.2 + 1)

/-- The line and the column behind some bytes. -/
def placeAfter (place : Nat × Nat) (read : List UInt8) : Nat × Nat := read.foldl stepPlace place

/-- The counter that a byte moves. -/
def movedCounter (place : Nat × Nat) (c : UInt8) : Nat :=
  if c = 10 then place.1 + 1 else place.2 + 1

/-- No line number and no column on the way through some bytes exceeds an `int`. -/
def Countable (place : Nat × Nat) : List UInt8 → Prop
  | [] => True
  | c :: read => movedCounter place c ≤ 2147483647 ∧ Countable (stepPlace place c) read

instance Countable.decidable (place : Nat × Nat) :
    (read : List UInt8) → Decidable (Countable place read)
  | [] => .isTrue trivial
  | c :: read =>
      have := Countable.decidable (stepPlace place c) read
      inferInstanceAs (Decidable (_ ∧ _))

theorem placeAfter_append (place : Nat × Nat) (first second : List UInt8) :
    placeAfter place (first ++ second) = placeAfter (placeAfter place first) second :=
  List.foldl_append

theorem countable_append {place : Nat × Nat} {first second : List UInt8} :
    Countable place (first ++ second) ↔
      Countable place first ∧ Countable (placeAfter place first) second := by
  induction first generalizing place with
  | nil => simp [Countable, placeAfter]
  | cons c first ih => simp [Countable, placeAfter, ih, and_assoc]

/-! ## Gaps -/

/-- A text does not go on with a byte of a kind. -/
def Stops (continues : UInt8 → Bool) (rest : List UInt8) : Prop :=
  ∀ c ∈ rest.head?, continues c = false

/-- Whitespace and comments, with the text behind them. A line comment ends before the next
newline, a block comment with the first `*/`, and either may end with the text. -/
inductive Gap : List UInt8 → List UInt8 → Prop where
  | nil (rest : List UInt8) : Gap [] rest
  | whitespace {c : UInt8} {gap rest : List UInt8} (blank : isWhitespace c = true)
      (more : Gap gap rest) : Gap (c :: gap) rest
  | lineComment {body gap rest : List UInt8} (oneLine : ∀ c ∈ body, (c != 10) = true)
      (ends : Stops (· != 10) (gap ++ rest)) (more : Gap gap rest) :
      Gap (45 :: 45 :: (body ++ gap)) rest
  | blockComment {body gap rest : List UInt8} (first : ¬ [42, 47] <:+: body)
      (more : Gap gap rest) : Gap (47 :: 42 :: (body ++ 42 :: 47 :: gap)) rest
  | openComment {body : List UInt8} (unclosed : ¬ [42, 47] <:+: body) :
      Gap (47 :: 42 :: body) []

/-! ## Spans -/

/-- As many digits as there are. -/
def Digits (digits rest : List UInt8) : Prop :=
  (∀ c ∈ digits, isDigit c = true) ∧ Stops isDigit rest

/-- The fraction of a number, if it has one. -/
inductive Fraction : List UInt8 → List UInt8 → Prop where
  | absent {rest : List UInt8} (ends : Stops (· == 46) rest) : Fraction [] rest
  | digits {digits rest : List UInt8} (more : Digits digits rest) : Fraction (46 :: digits) rest

/-- The exponent of a number, if it has one. -/
inductive Exponent : List UInt8 → List UInt8 → Prop where
  | absent {rest : List UInt8} (ends : Stops isExponent rest) : Exponent [] rest
  | plain {c : UInt8} {digits rest : List UInt8} (mark : isExponent c = true)
      (unsigned : Stops isSign (digits ++ rest)) (more : Digits digits rest) :
      Exponent (c :: digits) rest
  | signed {c sign : UInt8} {digits rest : List UInt8} (mark : isExponent c = true)
      (isSigned : isSign sign = true) (more : Digits digits rest) :
      Exponent (c :: sign :: digits) rest

/-- What stands between the quotes of a string literal, up to a quote that no backslash
escapes or to the end of the text. -/
inductive Quoted : List UInt8 → List UInt8 → Prop where
  | nil {rest : List UInt8} (ends : Stops (· != 39) rest) : Quoted [] rest
  | escape {body rest : List UInt8} (more : Quoted body rest) : Quoted (92 :: 39 :: body) rest
  | char {c : UInt8} {body rest : List UInt8} (unquoted : c ≠ 39)
      (unescaped : c = 92 → (body ++ rest).head? ≠ some 39) (more : Quoted body rest) :
      Quoted (c :: body) rest

theorem Quoted.closes {body rest : List UInt8} {c : UInt8} (inside : Quoted body (c :: rest)) :
    c = 39 := by
  generalize whole : c :: rest = text at inside
  induction inside with
  | nil ends =>
      subst whole
      simpa using ends c rfl
  | escape more ih => exact ih whole
  | char unquoted unescaped more ih => exact ih whole

/-- A comment starts here. -/
def StartsComment (text : List UInt8) : Prop := [45, 45] <+: text ∨ [47, 42] <+: text

/-- A token's type, its lexeme before it is cut off, its span, and the text behind it. -/
inductive Lexed : TokenTypeT → List UInt8 → List UInt8 → List UInt8 → Prop where
  | word {c : UInt8} {body rest : List UInt8} (start : (isAlpha c || c == 95) = true)
      (whole : ∀ c ∈ body, isWordByte c = true) (ends : Stops isWordByte rest) :
      Lexed (lookupKeyword (c :: body)) (c :: body) (c :: body) rest
  | number {digits fraction exponent rest : List UInt8} (nonempty : digits ≠ [])
      (whole : Digits digits (fraction ++ exponent ++ rest))
      (fractional : Fraction fraction (exponent ++ rest)) (scaled : Exponent exponent rest) :
      Lexed (if fraction = [] ∧ exponent = [] then .tkIntLiteral else .tkFloatLiteral)
        (digits ++ fraction ++ exponent) (digits ++ fraction ++ exponent) rest
  | string {body rest : List UInt8} (inside : Quoted body (39 :: rest)) :
      Lexed .tkStringLiteral body (39 :: (body ++ [39])) rest
  | openString {body : List UInt8} (inside : Quoted body []) :
      Lexed .tkStringLiteral body (39 :: body) []
  | two {c next : UInt8} {rest : List UInt8} (operator : twoType c next ≠ .tkError) :
      Lexed (twoType c next) [c, next] [c, next] rest
  | single {c : UInt8} {rest : List UInt8} (other : (isAlpha c || c == 95) = false)
      (noDigit : isDigit c = false) (noQuote : c ≠ 39) (visible : isWhitespace c = false)
      (noComment : ¬ StartsComment (c :: rest))
      (alone : ∀ next ∈ rest.head?, twoType c next = .tkError) :
      Lexed (singleType c) [c] [c] rest

/-- The text from a place on is cut into gaps and the spans of these tokens. -/
inductive Tiles : Nat × Nat → List UInt8 → List TokenT → Prop where
  | eof {place : Nat × Nat} {gap : List UInt8} (blank : Gap gap []) :
      Tiles place gap
        [⟨.tkEof, .empty, (placeAfter place gap).1, (placeAfter place gap).2⟩]
  | token {place : Nat × Nat} {gap span rest lexeme : List UInt8} {token : TokenT}
      {tokens : List TokenT} (blank : Gap gap (span ++ rest))
      (lexed : Lexed token.type lexeme span rest)
      (copied : token.lexeme.chars = lexeme.take 255)
      (placed : (token.line, token.column) = placeAfter place gap)
      (more : Tiles (placeAfter place (gap ++ span)) rest tokens) :
      Tiles place (gap ++ span ++ rest) (token :: tokens)

/-! ## Reading -/

namespace LexerT

/-- A lexer before some text. -/
abbrev before (text : List UInt8) (place : Nat × Nat) : LexerT := ⟨text, place.1, place.2⟩

/-- Calls `advance` once for each of some bytes. -/
def skip : List UInt8 → LexerT → Except Fault LexerT
  | [], lex => pure lex
  | _ :: read, lex => lex.advance >>= skip read

theorem skip_append (first second : List UInt8) (lex : LexerT) :
    lex.skip (first ++ second) = lex.skip first >>= skip second := by
  induction first generalizing lex with
  | nil => rfl
  | cons c first ih =>
      have later : skip (first ++ second) = fun lex => lex.skip first >>= skip second := funext ih
      rw [List.cons_append, skip, skip, later, bind_assoc]

theorem advance_cons (c : UInt8) (rest : List UInt8) (place : Nat × Nat) :
    (before (c :: rest) place).advance =
      if movedCounter place c ≤ 2147483647 then .ok (before rest (stepPlace place c))
      else .error .overflow := by
  by_cases newline : c = 10
  · simp only [advance, before, movedCounter, stepPlace, newline, if_true, intOf]
    split <;> rfl
  · simp only [advance, before, movedCounter, stepPlace, newline, if_false, intOf]
    split <;> rfl

theorem skip_eq (read rest : List UInt8) (place : Nat × Nat) :
    (before (read ++ rest) place).skip read =
      if Countable place read then .ok (before rest (placeAfter place read))
      else .error .overflow := by
  induction read generalizing place with
  | nil => rfl
  | cons c read ih =>
      rw [List.cons_append, skip, advance_cons]
      by_cases fits : movedCounter place c ≤ 2147483647
      · simpa [fits, Countable, placeAfter, Std.ok_bind] using ih (stepPlace place c)
      · simp [fits, Countable, bind, Except.bind]

/-- What follows the reading of some bytes starts behind them. -/
theorem skip_bind_congr {α : Type} {first second : LexerT → Except Fault α}
    (read rest : List UInt8) (place : Nat × Nat)
    (same : ∀ place, first (before rest place) = second (before rest place)) :
    (before (read ++ rest) place).skip read >>= first =
      (before (read ++ rest) place).skip read >>= second := by
  rw [skip_eq]
  split
  · exact same _
  · rfl

theorem advance_bind_congr {α : Type} {first second : LexerT → Except Fault α}
    (c : UInt8) (rest : List UInt8) (place : Nat × Nat)
    (same : ∀ place, first (before rest place) = second (before rest place)) :
    (before (c :: rest) place).advance >>= first =
      (before (c :: rest) place).advance >>= second := by
  rw [advance_cons]
  split
  · exact same _
  · rfl

/-- A turn of the loop. -/
theorem advanceWhile_cons {continues : UInt8 → Bool} {c : UInt8} (here : continues c = true)
    (text : List UInt8) (turns : Nat) (place : Nat × Nat) :
    (before (c :: text) place).advanceWhile continues (turns + 1) =
      (before (c :: text) place).advance >>= advanceWhile continues turns := by
  simp only [advanceWhile, before, atEnd, peek, here, List.isEmpty_cons, List.headD_cons,
    Bool.not_false, Bool.and_self, if_true]

theorem advanceWhile_eq {continues : UInt8 → Bool} {read rest : List UInt8} {turns : Nat}
    (whole : ∀ c ∈ read, continues c = true) (ends : Stops continues rest)
    (enough : read.length < turns) (place : Nat × Nat) :
    (before (read ++ rest) place).advanceWhile continues turns =
      (before (read ++ rest) place).skip read := by
  induction read generalizing turns place with
  | nil =>
      obtain ⟨turns, rfl⟩ := Nat.exists_eq_add_one.mpr (Nat.zero_lt_of_lt enough)
      cases rest with
      | nil => rfl
      | cons c rest =>
          have stops : continues c = false := ends c rfl
          simp [advanceWhile, before, atEnd, peek, skip, stops, pure, Except.pure]
  | cons c read ih =>
      obtain ⟨turns, rfl⟩ := Nat.exists_eq_add_one.mpr (Nat.zero_lt_of_lt enough)
      have here : continues c = true := whole c List.mem_cons_self
      have more := fun place => @ih turns
        (fun c member => whole c (List.mem_cons_of_mem _ member)) (by simpa using enough) place
      rw [skip, List.cons_append, advanceWhile_cons here]
      exact advance_bind_congr c (read ++ rest) place more

/-- Nothing is read by a loop that stops at once. -/
theorem advanceWhile_stop {continues : UInt8 → Bool} {rest : List UInt8} {turns : Nat}
    (ends : Stops continues rest) (enough : 0 < turns) (place : Nat × Nat) :
    (before rest place).advanceWhile continues turns = .ok (before rest place) :=
  @advanceWhile_eq _ [] _ _ (fun _ member => absurd member List.not_mem_nil) ends enough place

theorem readUpTo_before (read rest : List UInt8) (place place' : Nat × Nat) :
    (before (read ++ rest) place).readUpTo (before rest place') = read := by
  simp [readUpTo]

end LexerT

open LexerT

/-! ## Comments -/

/-- The test of two bytes ahead. -/
theorem two_ahead {a b c : UInt8} {text : List UInt8} (nonzero : b ≠ 0) :
    (c == a && text.headD 0 == b) = decide ([a, b] <+: c :: text) := by
  cases text with
  | nil => simp [nonzero.symm]
  | cons d text => simp [List.cons_prefix_cons, eq_comm, Bool.decide_and, beq_eq_decide]

theorem not_closed {c : UInt8} {body rest : List UInt8} (open' : ¬ [42, 47] <+: c :: body) :
    (c == 42 && (body ++ 42 :: 47 :: rest).headD 0 == 47) = false := by
  rw [two_ahead (by decide), decide_eq_false_iff_not]
  intro closed
  cases body with
  | nil => simp [List.cons_prefix_cons] at closed
  | cons d body =>
      simp only [List.cons_append, List.cons_prefix_cons] at closed
      exact open' (by simpa [List.cons_prefix_cons] using closed)

/-- A turn of the loop that finds no end of the comment. -/
theorem skipBlockCommentLoop_cons {c : UInt8} {text : List UInt8}
    (more : (c == 42 && text.headD 0 == 47) = false) (turns : Nat) (place : Nat × Nat) :
    skipBlockCommentLoop (turns + 1) (before (c :: text) place) =
      (before (c :: text) place).advance >>= skipBlockCommentLoop turns := by
  simp only [skipBlockCommentLoop, before, atEnd, peek, peekNext, List.isEmpty_cons,
    List.headD_cons, List.tail_cons, more, Bool.false_eq_true, if_false]

theorem skipBlockCommentLoop_closed {body rest : List UInt8} {turns : Nat}
    (first : ¬ [42, 47] <:+: body) (enough : body.length < turns) (place : Nat × Nat) :
    skipBlockCommentLoop turns (before (body ++ 42 :: 47 :: rest) place) =
      (before (body ++ 42 :: 47 :: rest) place).skip (body ++ [42, 47]) := by
  induction body generalizing turns place with
  | nil =>
      obtain ⟨turns, rfl⟩ := Nat.exists_eq_add_one.mpr (Nat.zero_lt_of_lt enough)
      simp [skipBlockCommentLoop, before, atEnd, peek, peekNext, skip]
  | cons c body ih =>
      obtain ⟨turns, rfl⟩ := Nat.exists_eq_add_one.mpr (Nat.zero_lt_of_lt enough)
      rw [List.infix_cons_iff, not_or] at first
      have more := fun place => @ih turns first.2 (by simpa using enough) place
      rw [List.cons_append, skipBlockCommentLoop_cons (not_closed first.1), List.cons_append, skip]
      exact advance_bind_congr c _ place more

theorem skipBlockCommentLoop_open {body : List UInt8} {turns : Nat}
    (unclosed : ¬ [42, 47] <:+: body) (enough : body.length < turns) (place : Nat × Nat) :
    skipBlockCommentLoop turns (before body place) = (before body place).skip body := by
  induction body generalizing turns place with
  | nil =>
      obtain ⟨turns, rfl⟩ := Nat.exists_eq_add_one.mpr (Nat.zero_lt_of_lt enough)
      rfl
  | cons c body ih =>
      obtain ⟨turns, rfl⟩ := Nat.exists_eq_add_one.mpr (Nat.zero_lt_of_lt enough)
      rw [List.infix_cons_iff, not_or] at unclosed
      have more := fun place => @ih turns unclosed.2 (by simpa using enough) place
      have stillOpen : (c == 42 && body.headD 0 == 47) = false := by
        rw [two_ahead (by decide), decide_eq_false_iff_not]
        exact unclosed.1
      rw [skipBlockCommentLoop_cons stillOpen, skip]
      exact advance_bind_congr c body place more

/-! ## Tokens -/

/-- A token is scanned and the lexer stands behind its span. -/
def scanned (type : TokenTypeT) (lexeme span : List UInt8) (lex : LexerT) :
    Except Fault (TokenT × LexerT) := do
  let after ← lex.skip span
  return (makeToken type lexeme lex.line lex.column, after)

variable {c : UInt8} {body digits fraction exponent span rest : List UInt8} {place : Nat × Nat}

theorem skipDigits_eq (more : Digits digits rest) (place : Nat × Nat) :
    skipDigits (before (digits ++ rest) place) = (before (digits ++ rest) place).skip digits :=
  advanceWhile_eq more.1 more.2 (by simp only [turns, List.length_append]; omega) place

theorem scanWord_eq (whole : ∀ c ∈ span, isWordByte c = true) (ends : Stops isWordByte rest) :
    scanWord (before (span ++ rest) place) =
      scanned (lookupKeyword span) span span (before (span ++ rest) place) := by
  rw [scanWord, scanned, advanceWhile_eq whole ends
    (by simp only [turns, List.length_append]; omega)]
  refine skip_bind_congr span rest place fun after => ?_
  rw [readUpTo_before]

theorem scanFraction_eq (fractional : Fraction fraction rest) (place : Nat × Nat) :
    scanFraction .tkIntLiteral (before (fraction ++ rest) place) = do
      let after ← (before (fraction ++ rest) place).skip fraction
      return (if fraction = [] then .tkIntLiteral else .tkFloatLiteral, after) := by
  cases fractional with
  | absent ends =>
      cases rest with
      | nil => rfl
      | cons c rest =>
          have stops : (c == 46) = false := ends c rfl
          simp [scanFraction, before, atEnd, peek, skip, stops, pure, Except.pure, Std.ok_bind]
  | @digits digits _ more =>
      simp only [scanFraction, before, atEnd, peek, List.cons_append, List.isEmpty_cons,
        List.headD_cons, Bool.not_false, beq_self_eq_true, Bool.and_self, if_true, skip, bind_assoc,
        reduceCtorEq, if_false]
      refine advance_bind_congr 46 (digits ++ rest) place fun place => ?_
      rw [skipDigits_eq more]

theorem scanExponent_eq (scaled : Exponent exponent rest) (type : TokenTypeT)
    (place : Nat × Nat) :
    scanExponent type (before (exponent ++ rest) place) = do
      let after ← (before (exponent ++ rest) place).skip exponent
      return (if exponent = [] then type else .tkFloatLiteral, after) := by
  cases scaled with
  | absent ends =>
      cases rest with
      | nil => rfl
      | cons c rest =>
          have stops : isExponent c = false := ends c rfl
          simp [scanExponent, before, atEnd, peek, skip, stops, pure, Except.pure, Std.ok_bind]
  | @plain c digits _ mark unsigned more =>
      simp only [scanExponent, before, atEnd, peek, List.cons_append, List.isEmpty_cons,
        List.headD_cons, Bool.not_false, mark, Bool.and_self, if_true, skip, bind_assoc,
        reduceCtorEq, if_false]
      refine advance_bind_congr c (digits ++ rest) place fun place => ?_
      have noSign : (!(digits ++ rest).isEmpty && isSign ((digits ++ rest).headD 0)) = false := by
        cases text : digits ++ rest with
        | nil => rfl
        | cons d text => exact unsigned d (by rw [text]; rfl)
      simp only [noSign, Bool.false_eq_true, if_false, pure_bind]
      rw [skipDigits_eq more]
  | @signed c sign digits _ mark isSigned more =>
      simp only [scanExponent, before, atEnd, peek, List.cons_append, List.isEmpty_cons,
        List.headD_cons, Bool.not_false, mark, Bool.and_self, if_true, skip, bind_assoc,
        reduceCtorEq, if_false]
      refine advance_bind_congr c (sign :: (digits ++ rest)) place fun place => ?_
      simp only [before, List.isEmpty_cons, List.headD_cons, Bool.not_false, isSigned,
        Bool.and_self, if_true]
      refine advance_bind_congr sign (digits ++ rest) place fun place => ?_
      rw [skipDigits_eq more]

theorem scanNumber_eq (whole : Digits digits (fraction ++ exponent ++ rest))
    (fractional : Fraction fraction (exponent ++ rest)) (scaled : Exponent exponent rest)
    (place : Nat × Nat) :
    scanNumber (before (digits ++ fraction ++ exponent ++ rest) place) =
      scanned (if fraction = [] ∧ exponent = [] then .tkIntLiteral else .tkFloatLiteral)
        (digits ++ fraction ++ exponent) (digits ++ fraction ++ exponent)
        (before (digits ++ fraction ++ exponent ++ rest) place) := by
  have typed (first : TokenTypeT) : (if exponent = [] then
      (if fraction = [] then first else .tkFloatLiteral) else .tkFloatLiteral) =
        if fraction = [] ∧ exponent = [] then first else .tkFloatLiteral := by
    by_cases empty : exponent = [] <;> simp [empty]
  rw [scanned, skip_append, skip_append, bind_assoc, bind_assoc, List.append_assoc,
    List.append_assoc, ← List.append_assoc fraction, scanNumber, skipDigits_eq whole]
  refine skip_bind_congr digits _ place fun place' => ?_
  rw [List.append_assoc, scanFraction_eq fractional, bind_assoc]
  refine skip_bind_congr fraction _ place' fun place' => ?_
  rw [pure_bind]
  dsimp only
  rw [scanExponent_eq scaled, bind_assoc]
  refine skip_bind_congr exponent _ place' fun place' => ?_
  rw [pure_bind, typed]
  simp only [← List.append_assoc]
  rw [readUpTo_before]

theorem skipString_eq {turns : Nat} (inside : Quoted body rest) (enough : body.length < turns)
    (place : Nat × Nat) :
    skipString turns (before (body ++ rest) place) = (before (body ++ rest) place).skip body := by
  induction inside generalizing turns place with
  | @nil rest ends =>
      obtain ⟨turns, rfl⟩ := Nat.exists_eq_add_one.mpr (Nat.zero_lt_of_lt enough)
      cases rest with
      | nil => rfl
      | cons c rest =>
          have stops : (c != 39) = false := ends c rfl
          simp [skipString, before, atEnd, peek, skip, stops]
  | @escape body rest more ih =>
      obtain ⟨turns, rfl⟩ := Nat.exists_eq_add_one.mpr (Nat.zero_lt_of_lt enough)
      have more := fun place => @ih turns (by simp at enough; omega) place
      simp only [skipString, before, atEnd, peek, peekNext, List.cons_append, List.isEmpty_cons,
        List.headD_cons, List.tail_cons, skip, Bool.not_false, Bool.true_and,
        beq_self_eq_true, if_true, show ((92 : UInt8) != 39) = true by decide]
      refine advance_bind_congr 92 (39 :: (body ++ rest)) place fun place => ?_
      exact advance_bind_congr 39 (body ++ rest) place more
  | @char c body rest unquoted unescaped more ih =>
      obtain ⟨turns, rfl⟩ := Nat.exists_eq_add_one.mpr (Nat.zero_lt_of_lt enough)
      have more := fun place => @ih turns (by simpa using enough) place
      have plain : (c == 92 && (body ++ rest).headD 0 == 39) = false := by
        rw [two_ahead (by decide), decide_eq_false_iff_not]
        rintro ⟨tail, same⟩
        obtain ⟨escape, quote⟩ := List.cons.inj same
        exact unescaped escape.symm (by rw [← quote]; rfl)
      simp only [skipString, before, atEnd, peek, peekNext, List.cons_append, List.isEmpty_cons,
        List.headD_cons, List.tail_cons, skip, Bool.not_false, Bool.true_and, plain,
        Bool.false_eq_true, if_false, pure_bind, bne_iff_ne.mpr unquoted, if_true]
      exact advance_bind_congr c (body ++ rest) place more

theorem scanString_closed (inside : Quoted body (39 :: rest)) :
    scanString (before (39 :: (body ++ [39]) ++ rest) place) =
      scanned .tkStringLiteral body (39 :: (body ++ [39]))
        (before (39 :: (body ++ [39]) ++ rest) place) := by
  rw [scanString, scanned, List.cons_append, List.append_assoc, skip, bind_assoc]
  refine advance_bind_congr 39 _ place fun place' => ?_
  have enough : body.length < (before (body ++ 39 :: rest) place').turns := by
    simp only [turns, List.length_append]
    omega
  rw [List.singleton_append, skipString_eq inside enough, skip_append, bind_assoc]
  refine skip_bind_congr body _ place' fun place' => ?_
  rw [readUpTo_before]
  simp [before, atEnd, skip]

theorem scanString_open (inside : Quoted body rest) (ended : rest = []) :
    scanString (before (39 :: body ++ rest) place) =
      scanned .tkStringLiteral body (39 :: body) (before (39 :: body ++ rest) place) := by
  rw [scanString, scanned, List.cons_append, skip, bind_assoc]
  refine advance_bind_congr 39 _ place fun place' => ?_
  rw [skipString_eq inside (by simp only [turns, List.length_append]; omega)]
  refine skip_bind_congr body _ place' fun place' => ?_
  rw [readUpTo_before, ended]
  rfl

theorem scanOperator_two {next : UInt8} (operator : twoType c next ≠ .tkError) :
    scanOperator (before (c :: next :: rest) place) =
      scanned (twoType c next) [c, next] [c, next] (before (c :: next :: rest) place) := by
  simp [scanOperator, scanned, before, peek, peekNext, operator, skip]

theorem scanOperator_single (alone : ∀ next ∈ rest.head?, twoType c next = .tkError) :
    scanOperator (before (c :: rest) place) =
      scanned (singleType c) [c] [c] (before (c :: rest) place) := by
  have notTwo : (!rest.isEmpty && twoType c (rest.headD 0) != .tkError) = false := by
    cases rest with
    | nil => rfl
    | cons next rest => simp [alone next rfl]
  simp only [scanOperator, scanned, before, peek, peekNext, List.tail_cons, List.headD_cons, notTwo,
    Bool.false_eq_true, if_false, skip, bind_pure]

theorem isAlpha_not_digit (letter : (isAlpha c || c == 95) = true) : isDigit c = false := by
  simp only [isAlpha, isDigit, Bool.or_eq_true, Bool.and_eq_true, decide_eq_true_eq, beq_iff_eq,
    Bool.and_eq_false_iff, decide_eq_false_iff_not, UInt8.not_le] at letter ⊢
  rcases letter with (⟨low, high⟩ | ⟨low, high⟩) | rfl
  · exact .inr (UInt8.lt_of_lt_of_le (show (57 : UInt8) < 65 by decide) low)
  · exact .inr (UInt8.lt_of_lt_of_le (show (57 : UInt8) < 97 by decide) low)
  · exact .inr (by decide)

theorem twoType_first {next : UInt8} (operator : twoType c next ≠ .tkError) :
    c = 60 ∨ c = 62 ∨ c = 33 := by
  by_contra others
  rw [not_or, not_or] at others
  exact operator (by simp [twoType, others])

theorem scanToken_cons (c : UInt8) (text : List UInt8) (place : Nat × Nat) :
    scanToken (before (c :: text) place) =
      if isAlpha c || c == 95 then scanWord (before (c :: text) place)
      else if isDigit c then scanNumber (before (c :: text) place)
      else if c == 39 then scanString (before (c :: text) place)
      else scanOperator (before (c :: text) place) := rfl

variable {type : TokenTypeT} {lexeme : List UInt8}

theorem scanToken_eq (lexed : Lexed type lexeme span rest) :
    scanToken (before (span ++ rest) place) =
      scanned type lexeme span (before (span ++ rest) place) := by
  cases lexed with
  | @word c body rest start whole ends =>
      have bytes : ∀ d ∈ c :: body, isWordByte d = true := by
        rintro d (_ | ⟨_, member⟩)
        · rw [isWordByte, isAlnum]
          simp only [Bool.or_eq_true] at start ⊢
          tauto
        · exact whole d member
      rw [List.cons_append, scanToken_cons, if_pos start]
      exact scanWord_eq bytes ends
  | @number digits fraction exponent rest nonempty whole fractional scaled =>
      obtain ⟨d, more, rfl⟩ := List.exists_cons_of_ne_nil nonempty
      have digit : isDigit d = true := whole.1 d List.mem_cons_self
      have notWord : (isAlpha d || d == 95) ≠ true :=
        fun letter => absurd digit (by rw [isAlpha_not_digit letter]; decide)
      simp only [List.cons_append]
      rw [scanToken_cons, if_neg notWord, if_pos digit]
      exact scanNumber_eq whole fractional scaled place
  | string inside =>
      rw [List.cons_append, scanToken_cons, if_neg (by decide), if_neg (by decide),
        if_pos (by decide)]
      exact scanString_closed inside
  | openString inside =>
      rw [List.cons_append, scanToken_cons, if_neg (by decide), if_neg (by decide),
        if_pos (by decide)]
      exact scanString_open inside rfl
  | @two c next rest operator =>
      rw [List.cons_append, scanToken_cons]
      rcases twoType_first operator with rfl | rfl | rfl
      all_goals
        rw [if_neg (by decide), if_neg (by decide), if_neg (by decide)]
        exact scanOperator_two operator
  | @single c rest other noDigit noQuote visible noComment alone =>
      rw [List.singleton_append, scanToken_cons, if_neg (by simp [other]),
        if_neg (by simp [noDigit]), if_neg (by simp [noQuote])]
      exact scanOperator_single alone

/-! ## Runs of the lexer -/

/-- A token starts here: neither whitespace nor a comment. -/
def StartsToken (text : List UInt8) : Prop :=
  (∃ c ∈ text.head?, isWhitespace c = false) ∧ ¬ StartsComment text

theorem startsToken_cons {c : UInt8} {text : List UInt8} (visible : isWhitespace c = false)
    (noDash : c ≠ 45) (noSlash : c ≠ 47) : StartsToken (c :: text) := by
  refine ⟨⟨c, rfl, visible⟩, ?_⟩
  rintro (⟨rest, same⟩ | ⟨rest, same⟩)
  · exact noDash (List.cons.inj same).1.symm
  · exact noSlash (List.cons.inj same).1.symm

theorem isWhitespace_iff : isWhitespace c = true ↔ c = 32 ∨ c = 9 ∨ c = 13 ∨ c = 10 := by
  simp [isWhitespace, or_assoc]

/-- Letters, digits and quotes start tokens. -/
theorem startsToken_of {kind : UInt8 → Bool} {text : List UInt8} (start : kind c = true)
    (visible : [32, 9, 13, 10, 45, 47].any kind = false) : StartsToken (c :: text) := by
  have differs (d : UInt8) (member : d ∈ [32, 9, 13, 10, 45, 47]) : c ≠ d := by
    rintro rfl
    exact List.any_eq_false.mp visible _ member start
  refine startsToken_cons ?_ (differs 45 (by decide)) (differs 47 (by decide))
  rw [Bool.eq_false_iff, ne_eq, isWhitespace_iff]
  rintro (same | same | same | same)
  · exact differs 32 (by decide) same
  · exact differs 9 (by decide) same
  · exact differs 13 (by decide) same
  · exact differs 10 (by decide) same

theorem Lexed.span_pos (lexed : Lexed type lexeme span rest) : 0 < span.length := by
  cases lexed with
  | number nonempty whole fractional scaled =>
      have := List.length_pos_iff.mpr nonempty
      simp only [List.length_append]
      omega
  | _ => simp

theorem Lexed.startsToken (lexed : Lexed type lexeme span rest) : StartsToken (span ++ rest) := by
  cases lexed with
  | word start whole ends =>
      exact @startsToken_of _ (fun c => isAlpha c || c == 95) _ start (by decide)
  | @number digits fraction exponent rest nonempty whole fractional scaled =>
      obtain ⟨d, more, rfl⟩ := List.exists_cons_of_ne_nil nonempty
      exact startsToken_of (whole.1 d List.mem_cons_self) (by decide)
  | string inside => exact startsToken_cons (by decide) (by decide) (by decide)
  | openString inside => exact startsToken_cons (by decide) (by decide) (by decide)
  | two operator =>
      rcases twoType_first operator with rfl | rfl | rfl
      all_goals exact startsToken_cons (by decide) (by decide) (by decide)
  | single other noDigit noQuote visible noComment alone => exact ⟨⟨_, rfl, visible⟩, noComment⟩

theorem noComment_ahead {c : UInt8} {text : List UInt8} (plain : ¬ StartsComment (c :: text)) :
    (c == 45 && text.headD 0 == 45) = false ∧ (c == 47 && text.headD 0 == 42) = false := by
  rw [StartsComment, not_or] at plain
  rw [two_ahead (by decide), two_ahead (by decide), decide_eq_false_iff_not,
    decide_eq_false_iff_not]
  exact plain

theorem skipWhitespace_stop {c : UInt8} {text : List UInt8} (visible : isWhitespace c = false)
    (place : Nat × Nat) :
    skipWhitespace (before (c :: text) place) = .ok (before (c :: text) place) :=
  advanceWhile_stop (by rintro d ⟨⟩; exact visible) (by simp [turns]) place

/-- Whitespace only moves the place from which the loop goes on. -/
theorem tokenizeLoop_whitespace {c : UInt8} {text : List UInt8} (blank : isWhitespace c = true)
    (turns capacity : Nat) (tokens : List TokenT) (place : Nat × Nat) :
    tokenizeLoop (turns + 1) capacity tokens (before (c :: text) place) =
      (before (c :: text) place).advance >>= tokenizeLoop (turns + 1) capacity tokens := by
  have skipped : skipWhitespace (before (c :: text) place) =
      (before (c :: text) place).advance >>= advanceWhile isWhitespace (text.length + 1) :=
    advanceWhile_cons blank text (text.length + 1) place
  rw [tokenizeLoop]
  simp only [atEnd, before, List.isEmpty_cons, Bool.false_eq_true, if_false]
  rw [skipped, bind_assoc]
  refine advance_bind_congr c text place fun place => ?_
  cases text with
  | nil => rfl
  | cons d text =>
      rw [tokenizeLoop]
      simp only [atEnd, before, List.isEmpty_cons, Bool.false_eq_true, if_false]
      rfl

theorem tokenizeLoop_lineComment {body rest : List UInt8} (oneLine : ∀ c ∈ body, (c != 10) = true)
    (ends : Stops (· != 10) rest) (turns capacity : Nat) (tokens : List TokenT)
    (place : Nat × Nat) :
    tokenizeLoop (turns + 1) capacity tokens (before (45 :: 45 :: (body ++ rest)) place) =
      (before (45 :: 45 :: (body ++ rest)) place).skip (45 :: 45 :: body) >>=
        tokenizeLoop turns capacity tokens := by
  have whole : ∀ c ∈ 45 :: 45 :: body, (c != 10) = true := by
    rintro c (_ | ⟨_, _ | ⟨_, member⟩⟩)
    · rfl
    · rfl
    · exact oneLine c member
  have skipped : skipLineComment (before (45 :: 45 :: (body ++ rest)) place) =
      (before (45 :: 45 :: (body ++ rest)) place).skip (45 :: 45 :: body) :=
    advanceWhile_eq whole ends
      (by simp only [LexerT.turns, List.length_cons, List.length_append]; omega) place
  rw [tokenizeLoop, skipWhitespace_stop (by decide), Std.ok_bind, ← skipped]
  rfl

theorem tokenizeLoop_blockComment {body rest : List UInt8}
    (skipped : ∀ place, skipBlockComment (before (body ++ rest) place) =
      (before (body ++ rest) place).skip body) (turns capacity : Nat) (tokens : List TokenT)
    (place : Nat × Nat) :
    tokenizeLoop (turns + 1) capacity tokens (before (47 :: 42 :: (body ++ rest)) place) =
      (before (47 :: 42 :: (body ++ rest)) place).skip (47 :: 42 :: body) >>=
        tokenizeLoop turns capacity tokens := by
  have opened : (before (47 :: 42 :: (body ++ rest)) place).skip (47 :: 42 :: body) = (do
      let inside ← (← (before (47 :: 42 :: (body ++ rest)) place).advance).advance
      skipBlockComment inside) := by
    rw [skip]
    refine advance_bind_congr 47 _ place fun place => ?_
    rw [skip]
    exact advance_bind_congr 42 _ place fun place => (skipped place).symm
  rw [tokenizeLoop, skipWhitespace_stop (by decide), Std.ok_bind, opened]
  simp only [bind_assoc]
  rfl

theorem tokenizeLoop_token (lexed : Lexed type lexeme span rest) (turns capacity : Nat)
    (tokens : List TokenT) (place : Nat × Nat) :
    tokenizeLoop (turns + 1) capacity tokens (before (span ++ rest) place) = (do
      let capacity ← growCapacity capacity tokens.length
      let after ← (before (span ++ rest) place).skip span
      tokenizeLoop turns capacity (tokens ++ [makeToken type lexeme place.1 place.2]) after) := by
  obtain ⟨⟨c, first, visible⟩, noComment⟩ := lexed.startsToken
  have scan : scanToken (before (span ++ rest) place) = _ := scanToken_eq lexed
  generalize whole : span ++ rest = text at *
  obtain ⟨d, text, rfl⟩ : ∃ d tail, text = d :: tail := by
    cases text with
    | nil => cases first
    | cons d tail => exact ⟨d, tail, rfl⟩
  obtain rfl : d = c := Option.some.inj first
  obtain ⟨noDash, noSlash⟩ := noComment_ahead noComment
  rw [tokenizeLoop, skipWhitespace_stop visible, Std.ok_bind]
  simp only [before, atEnd, peek, peekNext, List.isEmpty_cons, List.headD_cons, List.tail_cons,
    noDash, noSlash, Bool.false_eq_true, if_false] at scan ⊢
  rw [scan]
  simp only [scanned, bind_assoc, pure_bind]

/-- The loop passes a gap. -/
theorem tokenizeLoop_gap {gap : List UInt8} (blank : Gap gap rest) {turns : Nat}
    (enough : gap.length + rest.length < turns) (capacity : Nat) (tokens : List TokenT) :
    ∃ turns', rest.length < turns' ∧ ∀ place,
      tokenizeLoop turns capacity tokens (before (gap ++ rest) place) =
        (before (gap ++ rest) place).skip gap >>= tokenizeLoop turns' capacity tokens := by
  induction blank generalizing turns with
  | nil rest => exact ⟨turns, by simpa using enough, fun place => rfl⟩
  | @whitespace c gap rest blank more ih =>
      simp only [List.length_cons] at enough
      obtain ⟨turns', left, passed⟩ := @ih turns (by omega)
      obtain ⟨turns, rfl⟩ := Nat.exists_eq_add_one.mpr (Nat.zero_lt_of_lt enough)
      refine ⟨turns', left, fun place => ?_⟩
      rw [List.cons_append, tokenizeLoop_whitespace blank, skip, bind_assoc]
      exact advance_bind_congr c (gap ++ rest) place passed
  | @lineComment body gap rest oneLine ends more ih =>
      simp only [List.length_cons, List.length_append] at enough
      obtain ⟨turns, rfl⟩ := Nat.exists_eq_add_one.mpr (Nat.zero_lt_of_lt enough)
      obtain ⟨turns', left, passed⟩ := @ih turns (by omega)
      refine ⟨turns', left, fun place => ?_⟩
      have whole : 45 :: 45 :: (body ++ gap) ++ rest = 45 :: 45 :: (body ++ (gap ++ rest)) := by
        simp
      have parts : 45 :: 45 :: (body ++ gap) = 45 :: 45 :: body ++ gap := rfl
      rw [whole, tokenizeLoop_lineComment oneLine ends, parts, skip_append, bind_assoc]
      exact skip_bind_congr (45 :: 45 :: body) (gap ++ rest) place passed
  | @blockComment body gap rest first more ih =>
      simp only [List.length_cons, List.length_append] at enough
      obtain ⟨turns, rfl⟩ := Nat.exists_eq_add_one.mpr (Nat.zero_lt_of_lt enough)
      obtain ⟨turns', left, passed⟩ := @ih turns (by omega)
      refine ⟨turns', left, fun place => ?_⟩
      have skipped (place : Nat × Nat) :
          skipBlockComment (before ((body ++ [42, 47]) ++ (gap ++ rest)) place) =
            (before ((body ++ [42, 47]) ++ (gap ++ rest)) place).skip (body ++ [42, 47]) := by
        rw [List.append_assoc]
        exact skipBlockCommentLoop_closed first
          (by simp only [LexerT.turns, List.length_append]; omega) place
      have whole : 47 :: 42 :: (body ++ 42 :: 47 :: gap) ++ rest =
          47 :: 42 :: (body ++ [42, 47] ++ (gap ++ rest)) := by simp
      have parts : 47 :: 42 :: (body ++ 42 :: 47 :: gap) =
          47 :: 42 :: (body ++ [42, 47]) ++ gap := by simp
      rw [whole, tokenizeLoop_blockComment skipped, parts, skip_append, bind_assoc]
      exact skip_bind_congr (47 :: 42 :: (body ++ [42, 47])) (gap ++ rest) place passed
  | @openComment body unclosed =>
      simp only [List.length_cons, List.length_nil] at enough
      obtain ⟨turns, rfl⟩ := Nat.exists_eq_add_one.mpr (Nat.zero_lt_of_lt enough)
      refine ⟨turns, by simp; omega, fun place => ?_⟩
      have skipped (place : Nat × Nat) :
          skipBlockComment (before (body ++ []) place) = (before (body ++ []) place).skip body := by
        rw [List.append_nil]
        exact skipBlockCommentLoop_open unclosed (by simp [LexerT.turns]) place
      exact tokenizeLoop_blockComment skipped turns capacity tokens place

/-! ## Growing arrays -/

/-- The largest capacity of an array that fits in an `int`, as capacities are powers of two. -/
def maxCapacity : Nat := 1073741824

/-- A capacity that an array with some items may have. -/
def Roomy (capacity count : Nat) : Prop :=
  count ≤ capacity ∧ ∃ exponent ≤ 30, capacity = 2 ^ exponent

theorem Roomy.le_max {capacity count : Nat} (roomy : Roomy capacity count) :
    capacity ≤ maxCapacity := by
  obtain ⟨-, exponent, small, rfl⟩ := roomy
  calc 2 ^ exponent
    _ ≤ 2 ^ 30 := Nat.pow_le_pow_right (by decide) small
    _ = maxCapacity := by decide

theorem Roomy.grow {capacity count : Nat} (roomy : Roomy capacity count)
    (few : count < maxCapacity) :
    ∃ larger, growCapacity capacity count = .ok larger ∧ Roomy larger (count + 1) := by
  by_cases full : capacity ≤ count
  · obtain ⟨fits, exponent, bound, rfl⟩ := roomy
    have more : exponent < 30 := by
      refine Nat.lt_of_le_of_ne bound fun last => ?_
      subst last
      exact absurd few (Nat.not_lt.mpr full)
    have small : 2 ^ (exponent + 1) ≤ maxCapacity :=
      @Roomy.le_max _ 0 ⟨Nat.zero_le _, exponent + 1, more, rfl⟩
    have positive : 0 < 2 ^ exponent := Nat.two_pow_pos exponent
    rw [pow_succ] at small
    refine ⟨2 ^ exponent * 2, ?_, ?_, exponent + 1, more, (pow_succ 2 exponent).symm⟩
    · rw [growCapacity, if_pos full, intOf, if_pos (small.trans (by decide))]
    · omega
  · exact ⟨capacity, by rw [growCapacity, if_neg full]; rfl, Nat.lt_of_not_le full, roomy.2⟩

theorem Roomy.grow_overflow {capacity count : Nat} (roomy : Roomy capacity count)
    (many : maxCapacity ≤ count) : growCapacity capacity count = .error .overflow := by
  have full := roomy.le_max.trans many
  have last : capacity = maxCapacity := Nat.le_antisymm roomy.le_max (many.trans roomy.1)
  rw [growCapacity, if_pos full, intOf, last, if_neg (by decide)]

/-! ## The lexer reads a tiling -/

/-- The token of type `TK_EOF` comes last, and no token before it has that type. -/
def EndsOnce (tokens : List TokenT) : Prop :=
  ∃ front eof, tokens = front ++ [eof] ∧ eof.type = .tkEof ∧ ∀ token ∈ front, token.type ≠ .tkEof

theorem lookupKeyword_ne_eof (word : List UInt8) : lookupKeyword word ≠ .tkEof := by
  have table : ∀ entry ∈ keywords, entry.2 ≠ .tkEof := by decide
  rw [lookupKeyword]
  cases found : keywords.find? _ with
  | none => decide
  | some entry => exact table entry (List.mem_of_find?_eq_some found)

theorem ite_ne_eof {p : Prop} [Decidable p] {first second : TokenTypeT} (here : first ≠ .tkEof)
    (otherwise : second ≠ .tkEof) : (if p then first else second) ≠ .tkEof := by
  split
  · exact here
  · exact otherwise

theorem Lexed.type_ne_eof (lexed : Lexed type lexeme span rest) : type ≠ .tkEof := by
  cases lexed with
  | word start whole ends => exact lookupKeyword_ne_eof _
  | number nonempty whole fractional scaled => exact ite_ne_eof (by decide) (by decide)
  | string inside => decide
  | openString inside => decide
  | two operator =>
      rw [twoType]
      repeat' apply ite_ne_eof
      all_goals decide
  | single other noDigit noQuote visible noComment alone =>
      rw [singleType]
      repeat' apply ite_ne_eof
      all_goals decide

variable {text : List UInt8} {tokens : List TokenT}

/-- The last token stands where the text ends. -/
theorem Tiles.ends (tiled : Tiles place text tokens) :
    ∃ front, tokens = front ++ [⟨.tkEof, .empty, (placeAfter place text).1,
        (placeAfter place text).2⟩] ∧ ∀ token ∈ front, token.type ≠ .tkEof := by
  induction tiled with
  | @eof place gap blank => exact ⟨[], rfl, fun _ member => absurd member List.not_mem_nil⟩
  | @token place gap span rest lexeme token tokens blank lexed copied placed more ih =>
      obtain ⟨front, rfl, others⟩ := ih
      refine ⟨token :: front, ?_, ?_⟩
      · rw [placeAfter_append place (gap ++ span) rest]
        rfl
      · rintro other (_ | ⟨_, member⟩)
        · exact lexed.type_ne_eof
        · exact others other member

theorem Tiles.endsOnce (tiled : Tiles place text tokens) : EndsOnce tokens := by
  obtain ⟨front, same, others⟩ := tiled.ends
  exact ⟨front, _, same, rfl, others⟩

/-- The loop reads the tokens of a tiled text, unless a counter overflows. -/
theorem tokenizeLoop_tiles (tiled : Tiles place text tokens) {turns capacity : Nat}
    {read : List TokenT} (enough : text.length < turns) (roomy : Roomy capacity read.length) :
    if Countable place text ∧ read.length + tokens.length ≤ maxCapacity + 1 then
      ∃ capacity' ≤ maxCapacity, tokenizeLoop turns capacity read (before text place) =
        .ok (capacity', read ++ tokens.dropLast, before [] (placeAfter place text))
    else tokenizeLoop turns capacity read (before text place) = .error .overflow := by
  induction tiled generalizing turns capacity read with
  | @eof place gap blank =>
      obtain ⟨turns', left, passed⟩ := tokenizeLoop_gap blank
        (show gap.length + [].length < turns by simpa using enough) capacity read
      obtain ⟨turns', rfl⟩ := Nat.exists_eq_add_one.mpr (Nat.zero_lt_of_lt left)
      have few : read.length + 1 ≤ maxCapacity + 1 := Nat.succ_le_succ (roomy.1.trans roomy.le_max)
      have ran := passed place
      rw [skip_eq, List.append_nil] at ran
      by_cases fits : Countable place gap
      · rw [if_pos ⟨fits, few⟩]
        refine ⟨capacity, roomy.le_max, ?_⟩
        rw [ran, if_pos fits, Std.ok_bind]
        simp [tokenizeLoop, before, atEnd, pure, Except.pure]
      · rw [if_neg fun both => fits both.1, ran, if_neg fits]
        rfl
  | @token place gap span rest lexeme token tokens blank lexed copied placed more ih =>
      obtain ⟨front, same, -⟩ := more.ends
      have some : 0 < tokens.length := by rw [same]; simp
      obtain ⟨turns', left, passed⟩ := tokenizeLoop_gap blank
        (show gap.length + (span ++ rest).length < turns by simpa [Nat.add_assoc] using enough)
        capacity read
      obtain ⟨turns', rfl⟩ := Nat.exists_eq_add_one.mpr (Nat.zero_lt_of_lt left)
      have made : makeToken token.type lexeme (placeAfter place gap).1 (placeAfter place gap).2 =
          token := by
        rw [makeToken, ← copied, CString.ofBytes_chars, ← placed]
      have last : (read ++ [token]) ++ tokens.dropLast = read ++ (token :: tokens).dropLast := by
        rw [List.dropLast_cons_of_ne_nil (List.ne_nil_of_length_pos some)]
        simp
      have whole : Countable place (gap ++ span ++ rest) ↔
          (Countable place gap ∧ Countable (placeAfter place gap) span) ∧
            Countable (placeAfter place (gap ++ span)) rest := by
        rw [countable_append, countable_append]
      have ran := passed place
      rw [skip_eq] at ran
      rw [List.append_assoc, ran, ← List.append_assoc]
      by_cases blankFits : Countable place gap
      case neg =>
        rw [if_neg blankFits, if_neg fun both => blankFits (whole.mp both.1).1.1]
        rfl
      rw [if_pos blankFits, Std.ok_bind, tokenizeLoop_token lexed]
      rcases Nat.lt_or_ge read.length maxCapacity with few | many
      case inr =>
        rw [roomy.grow_overflow many, if_neg fun both => by simp at both; omega]
        rfl
      obtain ⟨larger, grown, roomy'⟩ := roomy.grow few
      rw [grown, Std.ok_bind, skip_eq]
      by_cases spanFits : Countable (placeAfter place gap) span
      case neg =>
        rw [if_neg spanFits, if_neg fun both => spanFits (whole.mp both.1).1.2]
        rfl
      rw [if_pos spanFits, Std.ok_bind, made, ← placeAfter_append]
      have later := @ih turns' larger (read ++ [token])
        (by have := lexed.span_pos; simp at left; omega) (by simpa using roomy')
      rw [last, ← placeAfter_append] at later
      have tail : Countable place (gap ++ (span ++ rest)) ↔
          Countable (placeAfter place (gap ++ span)) rest := by
        rw [← List.append_assoc, whole]
        simp [blankFits, spanFits]
      simpa [tail, Nat.add_comm, Nat.add_left_comm] using later

/-- `lexer_tokenize` returns the tokens of a tiled text if its counters do not overflow. -/
theorem lexerTokenize_tiles {source : CString} (tiled : Tiles (1, 1) source.chars tokens) :
    lexerTokenize (lexerInit source) =
      if Countable (1, 1) source.chars ∧ tokens.length ≤ maxCapacity + 1 then .ok tokens
      else .error .overflow := by
  obtain ⟨front, same, -⟩ := tiled.ends
  have roomy : Roomy 64 ([] : List TokenT).length := ⟨by simp, 6, by decide, rfl⟩
  have ran := tokenizeLoop_tiles tiled (Nat.lt_succ_self source.chars.length) roomy
  rw [List.nil_append, List.length_nil, Nat.zero_add] at ran
  have start : lexerInit source = before source.chars (1, 1) := rfl
  by_cases fits : Countable (1, 1) source.chars ∧ tokens.length ≤ maxCapacity + 1
  · rw [if_pos fits] at ran ⊢
    obtain ⟨capacity, bound, ran⟩ := ran
    rw [lexerTokenize, start, LexerT.turns, ran, Std.ok_bind]
    dsimp only
    have room : intOf (capacity + 1) = .ok (capacity + 1) := by
      rw [intOf, if_pos]
      exact (Nat.succ_le_succ bound).trans (by decide)
    have ended : tokens.dropLast ++ [⟨.tkEof, .empty, (placeAfter (1, 1) source.chars).1,
        (placeAfter (1, 1) source.chars).2⟩] = tokens := by
      rw [same, List.dropLast_concat]
    split
    · rw [room, Std.ok_bind]
      exact congrArg Except.ok ended
    · exact congrArg Except.ok ended
  · rw [if_neg fits] at ran ⊢
    rw [lexerTokenize, start, LexerT.turns, ran]
    rfl

/-! ## Every text is tiled -/

/-- A text goes on with a kind of byte as far as it does. -/
theorem exists_while (continues : UInt8 → Bool) (text : List UInt8) :
    ∃ read rest, text = read ++ rest ∧ (∀ c ∈ read, continues c = true) ∧ Stops continues rest := by
  induction text with
  | nil => exact ⟨[], [], rfl, by simp, by simp [Stops]⟩
  | cons c text ih =>
      cases here : continues c with
      | false => exact ⟨[], c :: text, rfl, by simp, by rintro d ⟨⟩; exact here⟩
      | true =>
          obtain ⟨read, rest, rfl, whole, ends⟩ := ih
          exact ⟨c :: read, rest, rfl, by simpa [here] using whole, ends⟩

theorem exists_fraction (text : List UInt8) :
    ∃ fraction rest, text = fraction ++ rest ∧ Fraction fraction rest := by
  by_cases ends : Stops (· == 46) text
  · exact ⟨[], text, rfl, .absent ends⟩
  · obtain ⟨c, text, rfl⟩ : ∃ c tail, text = c :: tail :=
      List.exists_cons_of_ne_nil fun empty => ends (by simp [Stops, empty])
    obtain rfl : c = 46 := by simpa [Stops] using ends
    obtain ⟨digits, rest, rfl, more⟩ := exists_while isDigit text
    exact ⟨46 :: digits, rest, rfl, .digits more⟩

theorem exists_exponent (text : List UInt8) :
    ∃ exponent rest, text = exponent ++ rest ∧ Exponent exponent rest := by
  by_cases ends : Stops isExponent text
  · exact ⟨[], text, rfl, .absent ends⟩
  · obtain ⟨c, text, rfl⟩ : ∃ c tail, text = c :: tail :=
      List.exists_cons_of_ne_nil fun empty => ends (by simp [Stops, empty])
    have mark : isExponent c = true := by simpa [Stops] using ends
    by_cases unsigned : Stops isSign text
    · obtain ⟨digits, rest, rfl, more⟩ := exists_while isDigit text
      exact ⟨c :: digits, rest, rfl, .plain mark unsigned more⟩
    · obtain ⟨sign, text, rfl⟩ : ∃ sign tail, text = sign :: tail :=
        List.exists_cons_of_ne_nil fun empty => unsigned (by simp [Stops, empty])
      obtain ⟨digits, rest, rfl, more⟩ := exists_while isDigit text
      exact ⟨c :: sign :: digits, rest, rfl, .signed mark (by simpa [Stops] using unsigned) more⟩

/-- A string literal ends with the text or with a quote. -/
theorem exists_quoted (text : List UInt8) :
    ∃ body rest, text = body ++ rest ∧ Quoted body rest := by
  match text with
  | [] => exact ⟨[], [], rfl, .nil (by simp [Stops])⟩
  | c :: text =>
      by_cases quote : c = 39
      · exact ⟨[], c :: text, rfl, .nil (by simp [Stops, quote])⟩
      · by_cases escape : c = 92 ∧ text.head? = some 39
        · obtain ⟨rfl, next⟩ := escape
          obtain ⟨tail, rfl⟩ := List.head?_eq_some_iff.mp next
          obtain ⟨body, rest, rfl, inside⟩ := exists_quoted tail
          exact ⟨92 :: 39 :: body, rest, rfl, .escape inside⟩
        · obtain ⟨body, rest, rfl, inside⟩ := exists_quoted text
          exact ⟨c :: body, rest, rfl, .char quote (fun same next => escape ⟨same, next⟩) inside⟩

/-- A block comment is closed by its first `*/`, or never. -/
theorem exists_closed (text : List UInt8) (closed : [42, 47] <:+: text) :
    ∃ body rest, text = body ++ 42 :: 47 :: rest ∧ ¬ [42, 47] <:+: body := by
  induction text with
  | nil => simp at closed
  | cons c text ih =>
      rw [List.infix_cons_iff] at closed
      by_cases here : [42, 47] <+: c :: text
      · obtain ⟨rest, same⟩ := here
        exact ⟨[], rest, same.symm, by simp⟩
      · obtain ⟨body, rest, rfl, first⟩ := ih (closed.resolve_left here)
        refine ⟨c :: body, rest, rfl, ?_⟩
        rw [List.infix_cons_iff, not_or]
        refine ⟨fun before => here ?_, first⟩
        exact before.trans ⟨42 :: 47 :: rest, rfl⟩

theorem exists_gap (text : List UInt8) :
    ∃ gap rest, text = gap ++ rest ∧ Gap gap rest ∧ (rest = [] ∨ StartsToken rest) := by
  match text with
  | [] => exact ⟨[], [], rfl, .nil [], .inl rfl⟩
  | c :: text =>
      cases blank : isWhitespace c with
      | true =>
          obtain ⟨gap, rest, rfl, more, stops⟩ := exists_gap text
          exact ⟨c :: gap, rest, rfl, .whitespace blank more, stops⟩
      | false =>
          by_cases comment : StartsComment (c :: text)
          case neg => exact ⟨[], c :: text, rfl, .nil _, .inr ⟨⟨c, rfl, blank⟩, comment⟩⟩
          rcases comment with ⟨tail, same⟩ | ⟨tail, same⟩
          · obtain ⟨rfl, rfl⟩ := List.cons.inj same
            obtain ⟨body, after, rfl, oneLine, ends⟩ := exists_while (· != 10) tail
            obtain ⟨gap, rest, rfl, more, stops⟩ := exists_gap after
            exact ⟨45 :: 45 :: (body ++ gap), rest, by simp, .lineComment oneLine ends more, stops⟩
          · obtain ⟨rfl, rfl⟩ := List.cons.inj same
            by_cases closed : [42, 47] <:+: tail
            · obtain ⟨body, after, rfl, first⟩ := exists_closed tail closed
              obtain ⟨gap, rest, rfl, more, stops⟩ := exists_gap after
              exact ⟨47 :: 42 :: (body ++ 42 :: 47 :: gap), rest, by simp,
                .blockComment first more, stops⟩
            · exact ⟨47 :: 42 :: tail, [], by simp, .openComment closed, .inl rfl⟩
  termination_by text.length

theorem exists_lexed (starts : StartsToken text) :
    ∃ type lexeme span rest, text = span ++ rest ∧ Lexed type lexeme span rest ∧
      ∀ c ∈ lexeme, c ∈ span := by
  obtain ⟨⟨c, first, visible⟩, noComment⟩ := starts
  obtain ⟨text, rfl⟩ := List.head?_eq_some_iff.mp first
  by_cases start : (isAlpha c || c == 95) = true
  · obtain ⟨body, rest, rfl, whole, ends⟩ := exists_while isWordByte text
    exact ⟨_, _, c :: body, rest, rfl, .word start whole ends, fun _ => id⟩
  by_cases digit : isDigit c = true
  · obtain ⟨digits, after, same, whole⟩ := exists_while isDigit (c :: text)
    obtain ⟨fraction, after, rfl, fractional⟩ := exists_fraction after
    obtain ⟨exponent, rest, rfl, scaled⟩ := exists_exponent after
    have nonempty : digits ≠ [] := by
      rintro rfl
      have stopped : isDigit c = false :=
        whole.2 c (by rw [← List.nil_append (_ ++ _), ← same]; rfl)
      exact absurd digit (by rw [stopped]; decide)
    rw [← List.append_assoc] at whole
    exact ⟨_, _, digits ++ fraction ++ exponent, rest, by simp [same],
      .number nonempty whole fractional scaled, fun _ => id⟩
  by_cases quote : c = 39
  · obtain ⟨body, rest, rfl, inside⟩ := exists_quoted text
    rcases rest with _ | ⟨d, rest⟩
    · exact ⟨_, _, 39 :: body, [], by simp [quote], .openString inside,
        fun _ member => List.mem_cons_of_mem _ member⟩
    · obtain rfl : d = 39 := inside.closes
      exact ⟨_, _, 39 :: (body ++ [39]), rest, by simp [quote], .string inside,
        fun _ member => List.mem_cons_of_mem _ (List.mem_append_left _ member)⟩
  by_cases operator : ∃ next ∈ text.head?, twoType c next ≠ .tkError
  · obtain ⟨next, second, operator⟩ := operator
    obtain ⟨rest, rfl⟩ := List.head?_eq_some_iff.mp second
    exact ⟨_, _, [c, next], rest, rfl, .two operator, fun _ => id⟩
  · push Not at operator
    exact ⟨_, _, [c], text, rfl, .single (by simpa using start) (by simpa using digit) quote visible
      noComment operator, fun _ => id⟩

/-- Every text without a zero byte has a tiling. -/
theorem exists_tiles (text : List UInt8) (unterminated : 0 ∉ text) (place : Nat × Nat) :
    ∃ tokens, Tiles place text tokens := by
  obtain ⟨gap, after, same, blank, stops⟩ := exists_gap text
  rcases stops with rfl | starts
  · rw [List.append_nil] at same
    exact ⟨_, .eof (same ▸ blank)⟩
  · obtain ⟨type, lexeme, span, rest, rfl, lexed, inside⟩ := exists_lexed starts
    rw [← List.append_assoc] at same
    have shorter : rest.length < text.length := by
      have := lexed.span_pos
      simp only [same, List.length_append]
      omega
    have noZero : 0 ∉ lexeme.take 255 := fun member =>
      unterminated (by simp [same, inside 0 (List.mem_of_mem_take member)])
    obtain ⟨tokens, more⟩ := exists_tiles rest (fun member => unterminated (by simp [same, member]))
      (placeAfter place (gap ++ span))
    let token : TokenT :=
      ⟨type, ⟨lexeme.take 255, noZero⟩, (placeAfter place gap).1, (placeAfter place gap).2⟩
    exact ⟨token :: tokens, same ▸ @Tiles.token _ _ _ _ _ token _ blank lexed rfl rfl more⟩
  termination_by text.length

/-- What `lexer_tokenize` does with a source text: its tokens tile the text, and it returns
them if no line number, no column and no capacity of their array exceeds an `int`. -/
theorem lexerTokenize_tokens (source : CString) :
    ∃ tokens, Tiles (1, 1) source.chars tokens ∧ EndsOnce tokens ∧
      lexerTokenize (lexerInit source) =
        if Countable (1, 1) source.chars ∧ tokens.length ≤ maxCapacity + 1 then .ok tokens
        else .error .overflow := by
  obtain ⟨tokens, tiled⟩ := exists_tiles source.chars source.unterminated (1, 1)
  exact ⟨tokens, tiled, tiled.endsOnce, lexerTokenize_tiles tiled⟩

/-- A text of newlines. -/
def newlines (count : Nat) : CString where
  chars := List.replicate count 10
  unterminated member := absurd (List.eq_of_mem_replicate member) (by decide)

theorem not_countable_newlines {line count : Nat} (column : Nat) (fits : line ≤ 2147483647)
    (many : 2147483647 < line + count) : ¬ Countable (line, column) (List.replicate count 10) := by
  induction count generalizing line column with
  | zero => exact absurd many (Nat.not_lt.mpr fits)
  | succ count ih =>
      rw [List.replicate_succ, Countable]
      rintro ⟨counted, more⟩
      have next : line + 1 ≤ 2147483647 := counted
      exact ih 1 next (by omega) more

theorem newlines_overflow {count : Nat} (many : 2147483647 ≤ count) :
    lexerTokenize (lexerInit (newlines count)) = .error .overflow := by
  obtain ⟨tokens, tiled⟩ := exists_tiles (newlines count).chars (newlines count).unterminated (1, 1)
  rw [lexerTokenize_tiles tiled, if_neg]
  exact fun both => not_countable_newlines 1 (by decide) (by omega) both.1

/-- A text may have more lines than an `int` counts. -/
theorem newlines_without_tokens :
    ¬ ∃ tokens, lexerTokenize (lexerInit (newlines 2147483647)) = .ok tokens := by
  rintro ⟨tokens, ran⟩
  rw [newlines_overflow (Nat.le_refl _)] at ran
  cases ran

end MiniSqlite.Parser
