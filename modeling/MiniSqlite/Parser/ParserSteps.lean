import MiniSqlite.Parser.Parser
import MiniSqlite.Parser.SourceTiling

/-!
# Steps of the parser

What the functions that read single tokens leave: a later position (`ParserT.After`), on
tokens that still end with their only `TK_EOF` (`ParserT.Ready`), with an error recorded
where they report that something is missing.
-/

namespace MiniSqlite.Parser

open MiniSqlite.Common MiniSqlite.Std MiniSqlite.Std.Code MiniSqlite.Storage

namespace ParserT

/-- What is left to parse ends with its only `TK_EOF`. -/
def Ready (p : ParserT) : Prop := EndsOnce p.rest

/-- A position at or behind another one: no `TK_EOF` has been consumed in between, and
recorded errors stay. -/
structure After (p q : ParserT) : Prop where
  read : ∃ tokens, p.rest = tokens ++ q.rest ∧ ∀ token ∈ tokens, token.type ≠ .tkEof
  error : p.hasError = true → q.hasError = true

/-- A position behind another one. -/
structure Past (p q : ParserT) : Prop extends After p q where
  shorter : q.rest.length < p.rest.length

variable {p q r : ParserT} {token : TokenT} {rest : List TokenT}

theorem After.refl (p : ParserT) : p.After p := ⟨⟨[], rfl, by simp⟩, id⟩

theorem After.trans (first : p.After q) (second : q.After r) : p.After r := by
  obtain ⟨⟨tokens, split, noEof⟩, error⟩ := first
  obtain ⟨⟨tokens', split', noEof'⟩, error'⟩ := second
  refine ⟨⟨tokens ++ tokens', by rw [split, split', List.append_assoc], ?_⟩, error' ∘ error⟩
  intro token member
  exact (List.mem_append.mp member).elim (noEof token) (noEof' token)

theorem After.length_le (after : p.After q) : q.rest.length ≤ p.rest.length := by
  obtain ⟨tokens, split, -⟩ := after.read
  rw [split, List.length_append]
  exact Nat.le_add_left _ _

theorem Past.trans_after (past : p.Past q) (after : q.After r) : p.Past r :=
  ⟨past.toAfter.trans after, Nat.lt_of_le_of_lt after.length_le past.shorter⟩

theorem After.trans_past (after : p.After q) (past : q.Past r) : p.Past r :=
  ⟨after.trans past.toAfter, Nat.lt_of_lt_of_le past.shorter after.length_le⟩

theorem Ready.cons (ready : p.Ready) : ∃ token rest, p.rest = token :: rest := by
  obtain ⟨front, eof, split, -, -⟩ := ready
  exact List.exists_cons_of_ne_nil (by simp [split])

/-- The last token is never consumed. -/
theorem Ready.after (ready : p.Ready) (after : p.After q) : q.Ready := by
  obtain ⟨front, eof, split, isEof, others⟩ := ready
  obtain ⟨tokens, split', noEof⟩ := after.read
  rw [split] at split'
  rcases List.append_eq_append_iff.mp split' with ⟨more, same, last⟩ | ⟨more, same, last⟩
  · rcases more with _ | ⟨first, more⟩
    · exact ⟨[], eof, by simpa using last.symm, isEof, by simp⟩
    · obtain ⟨rfl, -⟩ := List.cons.inj last
      exact absurd isEof (noEof eof (by simp [same]))
  · exact ⟨more, eof, last, isEof, fun token member => others token (by simp [same, member])⟩

theorem peek_eq (first : p.rest = token :: rest) : p.peek = .ok token := by rw [peek, first]

theorem peekType_eq (first : p.rest = token :: rest) : p.peekType = .ok token.type := by
  rw [peekType, peek_eq first]
  rfl

theorem past_advance (first : p.rest = token :: rest) (notEof : token.type ≠ .tkEof) :
    p.Past p.advance := by
  refine ⟨⟨⟨[token], by simp [advance, first], by simpa using notEof⟩, id⟩, ?_⟩
  simp [advance, first]

theorem parserError_after (ready : p.Ready) (message : List UInt8) :
    ∃ q, p.parserError message = .ok q ∧ p.After q ∧ q.hasError = true := by
  obtain ⟨token, rest, first⟩ := ready.cons
  refine ⟨{ p with
    errorMsg := CString.ofBytes (message.take 511)
    errorLine := token.line
    errorColumn := token.column
    hasError := true }, ?_, ⟨⟨[], rfl, by simp⟩, fun _ => rfl⟩, rfl⟩
  rw [parserError, peek_eq first]
  rfl

theorem matchToken_after (ready : p.Ready) {type : TokenTypeT} (notEof : type ≠ .tkEof) :
    ∃ matched q, p.matchToken type = .ok (matched, q) ∧ p.After q ∧
      (matched = true → p.Past q) := by
  obtain ⟨token, rest, first⟩ := ready.cons
  by_cases same : token.type = type
  · have past := past_advance first (same ▸ notEof)
    exact ⟨true, p.advance, by rw [matchToken, peekType_eq first, Std.ok_bind, if_pos same]; rfl,
      past.toAfter, fun _ => past⟩
  · exact ⟨false, p, by rw [matchToken, peekType_eq first, Std.ok_bind, if_neg same]; rfl,
      After.refl p, fun absurd => by cases absurd⟩

theorem expect_after (ready : p.Ready) {type : TokenTypeT} (notEof : type ≠ .tkEof) :
    ∃ found q, p.expect type = .ok (found, q) ∧ p.After q ∧
      (found = false → q.hasError = true) := by
  obtain ⟨token, rest, first⟩ := ready.cons
  by_cases same : token.type = type
  · have past := past_advance first (same ▸ notEof)
    exact ⟨true, p.advance, by rw [expect, peek_eq first, Std.ok_bind, if_pos same]; rfl,
      past.toAfter, fun absurd => by cases absurd⟩
  · obtain ⟨q, ran, after, error⟩ := parserError_after ready
      (text "Syntax error at line " ++ decimal token.line ++ text ", column " ++
        decimal token.column ++ text ": expected " ++ text (tokenTypeToString type) ++
        text " but found " ++ text (tokenTypeToString token.type))
    exact ⟨false, q, by rw [expect, peek_eq first, Std.ok_bind, if_neg same, ran]; rfl,
      after, fun _ => error⟩

end ParserT

open ParserT

variable {p q : ParserT} {α : Type}

/-- What a function leaves that may return a null pointer: it does so only with an error,
and has consumed something if it does not. -/
structure Result (p : ParserT) (result : Option α × ParserT) : Prop where
  after : p.After result.2
  error : result.1 = none → result.2.hasError = true
  shorter : result.1 ≠ none → result.2.rest.length < p.rest.length

/-- What a loop leaves that may consume nothing. -/
structure Continues (p : ParserT) (result : Option α × ParserT) : Prop where
  after : p.After result.2
  error : result.1 = none → result.2.hasError = true

theorem Result.continues {result : Option α × ParserT} (left : Result p result) :
    Continues p result := ⟨left.after, left.error⟩

theorem ParserT.After.continues {result : Option α × ParserT} (after : p.After q)
    (left : Continues q result) : Continues p result := ⟨after.trans left.after, left.error⟩

theorem ParserT.Past.of_continues {result : Option α × ParserT} (past : p.Past q)
    (left : Continues q result) : Result p result :=
  ⟨past.toAfter.trans left.after, left.error, fun _ => (past.trans_after left.after).shorter⟩

theorem Result.past {value : α} (left : Result p (some value, q)) : p.Past q :=
  ⟨left.after, left.shorter (by simp)⟩

theorem ParserT.Past.result (past : p.Past q) (value : Option α)
    (error : value = none → q.hasError = true) : Result p (value, q) :=
  ⟨past.toAfter, error, fun _ => past.shorter⟩

theorem ParserT.Past.result_some (past : p.Past q) (value : α) : Result p (some value, q) :=
  ⟨past.toAfter, (fun absurd => by cases absurd), fun _ => past.shorter⟩

theorem ParserT.After.result_none (after : p.After q) (error : q.hasError = true) :
    Result p ((none : Option α), q) := ⟨after, fun _ => error, fun some => absurd rfl some⟩

theorem requireIdentifier_result (ready : p.Ready) (message : String) :
    ∃ result, requireIdentifier message p = .ok result ∧ Result p result := by
  obtain ⟨token, rest, first⟩ := ready.cons
  by_cases named : token.type = .tkIdentifier
  · exact ⟨_, by rw [requireIdentifier, peek_eq first, Std.ok_bind, if_pos named]; rfl,
      Past.result_some (past_advance first (by rw [named]; decide)) _⟩
  · obtain ⟨q, ran, after, error⟩ := parserError_after ready (ParserT.text message)
    exact ⟨(none, q), by rw [requireIdentifier, peek_eq first, Std.ok_bind, if_neg named, ran]; rfl,
      After.result_none after error⟩

theorem takeIdentifier_after (ready : p.Ready) :
    ∃ name q, takeIdentifier p = .ok (name, q) ∧ p.After q := by
  obtain ⟨token, rest, first⟩ := ready.cons
  by_cases named : token.type = .tkIdentifier
  · exact ⟨_, _, by rw [takeIdentifier, peek_eq first, Std.ok_bind, if_pos named]; rfl,
      (past_advance first (by rw [named]; decide)).toAfter⟩
  · exact ⟨_, _, by rw [takeIdentifier, peek_eq first, Std.ok_bind, if_neg named]; rfl,
      After.refl p⟩

theorem takeIdentifierBehind_after (ready : p.Ready) {keyword : TokenTypeT}
    (notEof : keyword ≠ .tkEof) :
    ∃ name q, takeIdentifierBehind keyword p = .ok (name, q) ∧ p.After q := by
  obtain ⟨present, q, ran, after, -⟩ := matchToken_after ready notEof
  rw [takeIdentifierBehind, ran, Std.ok_bind]
  cases present with
  | false => exact ⟨_, _, rfl, after⟩
  | true =>
      obtain ⟨name, r, ran', after'⟩ := takeIdentifier_after (ready.after after)
      exact ⟨name, r, ran', after.trans after'⟩

theorem parseAscending_after (ready : p.Ready) :
    ∃ ascending q, parseAscending p = .ok (ascending, q) ∧ p.After q := by
  obtain ⟨asc, q, ran, after, -⟩ := matchToken_after ready
    (show TokenTypeT.tkAsc ≠ .tkEof by decide)
  rw [parseAscending, ran, Std.ok_bind]
  cases asc with
  | true => exact ⟨_, _, rfl, after⟩
  | false =>
      obtain ⟨desc, r, ran', after', -⟩ := matchToken_after (ready.after after)
        (show TokenTypeT.tkDesc ≠ .tkEof by decide)
      exact ⟨!desc, r, by simp only [ran', Std.ok_bind]; rfl, after.trans after'⟩

theorem parseIfNotExists_after (ready : p.Ready) :
    ∃ present q, parseIfNotExists p = .ok (present, q) ∧ p.After q := by
  obtain ⟨present, q, ran, after, -⟩ := matchToken_after ready
    (show TokenTypeT.tkIf ≠ .tkEof by decide)
  rw [parseIfNotExists, ran, Std.ok_bind]
  cases present with
  | false => exact ⟨_, _, rfl, after⟩
  | true =>
      obtain ⟨_, r, ran', after', -⟩ := expect_after (ready.after after)
        (show TokenTypeT.tkNot ≠ .tkEof by decide)
      have after := after.trans after'
      obtain ⟨_, t, ran'', after', -⟩ := expect_after (ready.after after)
        (show TokenTypeT.tkExists ≠ .tkEof by decide)
      exact ⟨true, t, by simp only [if_true, ran', ran'', Std.ok_bind]; rfl, after.trans after'⟩

theorem parseIfExists_after (ready : p.Ready) :
    ∃ present q, parseIfExists p = .ok (present, q) ∧ p.After q := by
  obtain ⟨present, q, ran, after, -⟩ := matchToken_after ready
    (show TokenTypeT.tkIf ≠ .tkEof by decide)
  rw [parseIfExists, ran, Std.ok_bind]
  cases present with
  | false => exact ⟨_, _, rfl, after⟩
  | true =>
      obtain ⟨_, r, ran', after', -⟩ := expect_after (ready.after after)
        (show TokenTypeT.tkExists ≠ .tkEof by decide)
      exact ⟨true, r, by simp only [if_true, ran', Std.ok_bind]; rfl, after.trans after'⟩

variable {Double : Type} [Platform Double]

/-- The types of the tokens that `parse_literal_expr` reads. -/
def literalTypes : List TokenTypeT :=
  [.tkIntLiteral, .tkFloatLiteral, .tkStringLiteral, .tkNull, .tkTrue, .tkFalse]

theorem parseLiteralExpr_result {token : TokenT} {rest : List TokenT}
    (first : p.rest = token :: rest) (literal : token.type ∈ literalTypes) :
    ∃ e, parseLiteralExpr p = .ok (some e, p.advance) ∧
      Result p ((some e : Option (ExprT Double)), p.advance) := by
  have past : p.Past p.advance := past_advance first fun same => by
    rw [same] at literal
    exact absurd literal (by decide)
  have read : ∃ e : ExprT Double, parseLiteralExpr p = .ok (some e, p.advance) := by
    rw [parseLiteralExpr, peek_eq first, Std.ok_bind]
    simp only [literalTypes, List.mem_cons, List.not_mem_nil, or_false] at literal
    rcases literal with same | same | same | same | same | same
    all_goals
      simp only [same]
      exact ⟨_, rfl⟩
  obtain ⟨e, ran⟩ := read
  exact ⟨e, ran, past.result_some e⟩

omit [Platform Double] in
theorem parseColumnRefOrIdentifier_result (ready : p.Ready) {token : TokenT} {rest : List TokenT}
    (first : p.rest = token :: rest) (named : token.type = .tkIdentifier) :
    ∃ result, parseColumnRefOrIdentifier p = .ok result ∧
      Result (α := ExprT Double) p result := by
  have past : p.Past p.advance := past_advance first (by rw [named]; decide)
  obtain ⟨next, rest', second⟩ := (ready.after past.toAfter).cons
  by_cases dot : next.type = .tkDot
  case neg =>
    refine ⟨(some (.columnRef .empty (cut 63 token.lexeme)), p.advance), ?_, past.result_some _⟩
    simp only [parseColumnRefOrIdentifier, peek_eq first, Std.ok_bind, named, ne_eq,
      not_true_eq_false, if_false, peekType_eq second, if_neg dot]
    rfl
  have past' := past.trans_after (past_advance second (by rw [dot]; decide)).toAfter
  obtain ⟨column, rest'', third⟩ := (ready.after past'.toAfter).cons
  have ran : parseColumnRefOrIdentifier p =
      (if column.type = .tkIdentifier ∨ column.type = .tkStar then
      .ok (some (.columnRef (cut 63 token.lexeme) (cut 63 column.lexeme)),
        p.advance.advance.advance)
      else do return (none, ← p.advance.advance.parserError
        (ParserT.text "Expected column name after '.'")) :
        Except Fault (Option (ExprT Double) × ParserT)) := by
    simp only [parseColumnRefOrIdentifier, peek_eq first, Std.ok_bind, named, ne_eq,
      not_true_eq_false, if_false, peekType_eq second, if_pos dot, peek_eq third]
    rfl
  by_cases column' : column.type = .tkIdentifier ∨ column.type = .tkStar
  · rw [if_pos column'] at ran
    have past'' := past_advance third (by rcases column' with same | same <;> rw [same] <;> decide)
    exact ⟨_, ran, (past'.trans_after past''.toAfter).result_some _⟩
  · rw [if_neg column'] at ran
    obtain ⟨q, failed, after, error⟩ := parserError_after (ready.after past'.toAfter)
      (ParserT.text "Expected column name after '.'")
    rw [failed] at ran
    exact ⟨_, ran, (past'.toAfter.trans after).result_none error⟩

theorem skipAlias_after (ready : p.Ready) : ∃ q, skipAlias p = .ok q ∧ p.After q := by
  obtain ⟨token, rest, first⟩ := ready.cons
  have skipped : ∃ q, (if token.type = .tkAs then p.advance else p) = q ∧ p.After q := by
    by_cases same : token.type = .tkAs
    · exact ⟨_, if_pos same, (past_advance first (by rw [same]; decide)).toAfter⟩
    · exact ⟨_, if_neg same, After.refl p⟩
  obtain ⟨q, same, after⟩ := skipped
  obtain ⟨next, rest', second⟩ := (ready.after after).cons
  by_cases named : next.type = .tkIdentifier ∧ q.peekNext ≠ .tkLeftParen
  case neg =>
    refine ⟨q, ?_, after⟩
    simp only [skipAlias, peekType_eq first, Std.ok_bind, same, peekType_eq second, if_neg named]
    rfl
  have past := past_advance second (by rw [named.1]; decide)
  obtain ⟨third, rest'', ahead⟩ := (ready.after (after.trans past.toAfter)).cons
  have ran : skipAlias p =
      if third.type = .tkComma ∨ third.type = .tkFrom then .ok q.advance else .ok q := by
    simp only [skipAlias, peekType_eq first, Std.ok_bind, same, peekType_eq second, if_pos named,
      peekType_eq ahead]
    rfl
  by_cases behind : third.type = .tkComma ∨ third.type = .tkFrom
  · exact ⟨q.advance, by rw [ran, if_pos behind], after.trans past.toAfter⟩
  · exact ⟨q, by rw [ran, if_neg behind], after⟩

/-- A keyword with one that may follow it. -/
theorem outer_past (ready : p.Ready) (past : p.Past p.advance) (joinType : TokenTypeT) :
    ∃ result, (do return (some joinType, (← p.advance.matchToken .tkOuter).2) :
        Except Fault (Option TokenTypeT × ParserT)) = .ok result ∧ p.After result.2 ∧
      (result.1 ≠ none → p.Past result.2) := by
  obtain ⟨matched, q, ran, after, -⟩ := matchToken_after (ready.after past.toAfter)
    (show TokenTypeT.tkOuter ≠ .tkEof by decide)
  exact ⟨(some joinType, q), by rw [ran]; rfl, past.toAfter.trans after,
    fun _ => past.trans_after after⟩

theorem joinWords_after (ready : p.Ready) :
    ∃ result, joinWords p = .ok result ∧ p.After result.2 ∧
      (result.1 ≠ none → p.Past result.2) := by
  obtain ⟨token, rest, first⟩ := ready.cons
  have past (notEof : token.type ≠ .tkEof) : p.Past p.advance := past_advance first notEof
  rw [joinWords, peekType_eq first, Std.ok_bind]
  split
  case h_1 same =>
    have past := past (by rw [same]; decide)
    exact ⟨_, rfl, past.toAfter, fun _ => past⟩
  case h_4 same =>
    have past := past (by rw [same]; decide)
    exact ⟨_, rfl, past.toAfter, fun _ => past⟩
  case h_6 => exact ⟨_, rfl, After.refl p, fun some => absurd rfl some⟩
  case h_2 same => exact outer_past ready (past (by rw [same]; decide)) _
  case h_3 same => exact outer_past ready (past (by rw [same]; decide)) _
  case h_5 same => exact outer_past ready (past (by rw [same]; decide)) _

theorem parseLimit_continues (ready : p.Ready) :
    ∃ result, parseLimit p = .ok result ∧ Continues p result := by
  obtain ⟨limited, q, ran, after, -⟩ := matchToken_after ready
    (show TokenTypeT.tkLimit ≠ .tkEof by decide)
  rw [parseLimit, ran, Std.ok_bind]
  cases limited with
  | false => exact ⟨_, rfl, after, fun absurd => by cases absurd⟩
  | true =>
      obtain ⟨token, rest, first⟩ := (ready.after after).cons
      by_cases literal : token.type = .tkIntLiteral
      case neg =>
        obtain ⟨r, failed, after', error⟩ := parserError_after (ready.after after)
          (text "Expected integer after LIMIT")
        refine ⟨(none, r), ?_, after.trans after', fun _ => error⟩
        simp only [Bool.not_true, Bool.false_eq_true, if_false, peek_eq first, Std.ok_bind, ne_eq,
          literal, not_false_eq_true, if_true, failed]
        rfl
      have past := past_advance first (by rw [literal]; decide)
      obtain ⟨shifted, r, ran', after', -⟩ := matchToken_after
        (ready.after (after.trans past.toAfter)) (show TokenTypeT.tkOffset ≠ .tkEof by decide)
      have before := (after.trans past.toAfter).trans after'
      simp only [Bool.not_true, Bool.false_eq_true, if_false, peek_eq first, Std.ok_bind, ne_eq,
        literal, not_true_eq_false, ran']
      cases shifted with
      | false => exact ⟨_, rfl, before, fun absurd => by cases absurd⟩
      | true =>
          obtain ⟨next, rest', second⟩ := (ready.after before).cons
          simp only [Bool.not_true, Bool.false_eq_true, if_false, peek_eq second, Std.ok_bind]
          by_cases number : next.type = .tkIntLiteral
          · have past' := past_advance second (by rw [number]; decide)
            exact ⟨_, by rw [if_pos number]; rfl, before.trans past'.toAfter,
              fun absurd => by cases absurd⟩
          · exact ⟨_, by rw [if_neg number]; rfl, before, fun absurd => by cases absurd⟩

theorem parseDataType_result (ready : p.Ready) :
    ∃ result, parseDataType p = .ok result ∧ Result p result := by
  obtain ⟨token, rest, first⟩ := ready.cons
  have past (notEof : token.type ≠ .tkEof) : p.Past p.advance := past_advance first notEof
  rw [parseDataType, peekType_eq first, Std.ok_bind]
  split
  case h_1 same => exact ⟨_, rfl, (past (by rw [same]; decide)).result_some _⟩
  case h_2 same => exact ⟨_, rfl, (past (by rw [same]; decide)).result_some _⟩
  case h_4 same => exact ⟨_, rfl, (past (by rw [same]; decide)).result_some _⟩
  case h_5 =>
    obtain ⟨q, failed, after, error⟩ := parserError_after ready
      (text "Expected data type but found " ++ text (tokenTypeToString token.type))
    exact ⟨(none, q), by rw [failed]; rfl, after.result_none error⟩
  case h_3 same =>
    have past := past (by rw [same]; decide)
    obtain ⟨sized, q, ran, after, -⟩ := matchToken_after (ready.after past.toAfter)
      (show TokenTypeT.tkLeftParen ≠ .tkEof by decide)
    have past := past.trans_after after
    rw [ran, Std.ok_bind]
    cases sized with
    | false => exact ⟨_, rfl, past.result_some _⟩
    | true =>
        obtain ⟨next, rest', second⟩ := (ready.after past.toAfter).cons
        simp only [if_true, peek_eq second, Std.ok_bind]
        by_cases number : next.type = .tkIntLiteral
        · have past := past.trans_after (past_advance second (by rw [number]; decide)).toAfter
          obtain ⟨found, r, ran', after', -⟩ := expect_after (ready.after past.toAfter)
            (show TokenTypeT.tkRightParen ≠ .tkEof by decide)
          exact ⟨_, by rw [if_pos number, ran']; rfl, (past.trans_after after').result_some _⟩
        · obtain ⟨found, r, ran', after', -⟩ := expect_after (ready.after past.toAfter)
            (show TokenTypeT.tkRightParen ≠ .tkEof by decide)
          exact ⟨_, by rw [if_neg number, ran']; rfl, (past.trans_after after').result_some _⟩

theorem parseIsolation_after (ready : p.Ready) :
    ∃ level q, parseIsolation p = .ok (level, q) ∧ p.After q := by
  obtain ⟨matched, q, ran, after, -⟩ := matchToken_after ready
    (show TokenTypeT.tkLevel ≠ .tkEof by decide)
  have ready := ready.after after
  obtain ⟨token, rest, first⟩ := ready.cons
  have past (notEof : token.type ≠ .tkEof) : q.Past q.advance := past_advance first notEof
  rw [parseIsolation, ran, Std.ok_bind]
  dsimp only
  rw [peekType_eq first, Std.ok_bind]
  split
  case h_1 same =>
    have past := past (by rw [same]; decide)
    obtain ⟨next, rest', second⟩ := (ready.after past.toAfter).cons
    rw [peekType_eq second, Std.ok_bind]
    split
    case h_1 same =>
      exact ⟨_, _, rfl, after.trans
        (past.trans_after (past_advance second (by rw [same]; decide)).toAfter).toAfter⟩
    case h_2 same =>
      exact ⟨_, _, rfl, after.trans
        (past.trans_after (past_advance second (by rw [same]; decide)).toAfter).toAfter⟩
    case h_3 => exact ⟨_, _, rfl, after.trans past.toAfter⟩
  case h_2 same =>
    have past := past (by rw [same]; decide)
    obtain ⟨found, r, ran', after', -⟩ := expect_after (ready.after past.toAfter)
      (show TokenTypeT.tkRead ≠ .tkEof by decide)
    exact ⟨_, r, by rw [ran']; rfl, after.trans (past.toAfter.trans after')⟩
  case h_3 same => exact ⟨_, _, rfl, after.trans (past (by rw [same]; decide)).toAfter⟩
  case h_4 => exact ⟨_, _, rfl, after⟩

omit [Platform Double] in
theorem parseBegin_result (ready : p.Ready) (past : p.Past p.advance) :
    ∃ result, parseBegin p = .ok result ∧ Result (α := StmtT Double) p result := by
  obtain ⟨matched, q, ran, after, -⟩ := matchToken_after (ready.after past.toAfter)
    (show TokenTypeT.tkTransaction ≠ .tkEof by decide)
  have past := past.trans_after after
  obtain ⟨isolated, r, ran', after', -⟩ := matchToken_after (ready.after past.toAfter)
    (show TokenTypeT.tkIsolation ≠ .tkEof by decide)
  have past := past.trans_after after'
  rw [parseBegin, ran, Std.ok_bind]
  dsimp only
  rw [ran', Std.ok_bind]
  cases isolated with
  | false => exact ⟨_, rfl, past.result_some _⟩
  | true =>
      obtain ⟨level, q, ran'', after''⟩ := parseIsolation_after (ready.after past.toAfter)
      exact ⟨_, by simp only [if_true, ran'', Std.ok_bind]; rfl,
        (past.trans_after after'').result_some _⟩

end MiniSqlite.Parser
