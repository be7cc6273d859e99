import MiniSqlite.Parser.ParserSteps

/-!
# What the parser does with any tokens

Every procedure of the parser terminates at a later position, or reaches one of the places
where the source uses memory that holds no object (`Call.Fine`). The size of a call goes
down with the tokens that are left, and at one position from the statements to their parts.
-/

namespace MiniSqlite.Parser

open MiniSqlite.Common MiniSqlite.Std MiniSqlite.Std.Code MiniSqlite.Storage

open ParserT

variable {Double : Type} [Platform Double]

/-! ## Specifications -/

namespace Call

/-- The position at which a call starts. -/
def parser : {α : Type} → Call Double α → ParserT
  | _, .primary p => p
  | _, .expressionPrec _ p => p
  | _, .precLoop _ _ p => p
  | _, .likePattern _ _ _ _ p => p
  | _, .expressionList _ p => p
  | _, .selectList _ p => p
  | _, .fromTables _ p => p
  | _, .joins _ p => p
  | _, .orderBy _ p => p
  | _, .columns _ p => p
  | _, .constraints _ p => p
  | _, .indexColumns _ p => p
  | _, .insertColumns _ p => p
  | _, .rows _ p => p
  | _, .assignments _ p => p
  | _, .statement p => p
  | _, .statements _ _ p => p
  | _, .store _ _ _ p => p

/-- Calls at one position have higher ranks than the calls that they make there. -/
def rank : {α : Type} → Call Double α → Nat
  | _, .primary _ | _, .likePattern .. => 1
  | _, .expressionPrec .. => 2
  | _, .expressionList .. | _, .selectList .. | _, .orderBy .. => 3
  | _, .rows .. => 4
  | _, .statement _ => 5
  | _, .statements .. => 6
  | _, .store .. => 7
  | _, _ => 0

/-- The size of a call. -/
def size {α : Type} (procedure : Call Double α) : Nat :=
  16 * procedure.parser.rest.length + procedure.rank

omit [Platform Double] in
theorem rank_lt {α : Type} (procedure : Call Double α) : procedure.rank < 16 := by
  cases procedure <;> exact Nat.lt_of_sub_eq_succ rfl

omit [Platform Double] in
theorem size_lt_of_past {α : Type} {procedure : Call Double α} {p : ParserT} {rank : Nat}
    (past : p.Past procedure.parser) : procedure.size < 16 * p.rest.length + rank := by
  have shorter := past.shorter
  have small := procedure.rank_lt
  rw [size]
  omega

omit [Platform Double] in
theorem size_lt_of_after {α : Type} {procedure : Call Double α} {p : ParserT} {rank : Nat}
    (after : p.After procedure.parser) (lower : procedure.rank < rank) :
    procedure.size < 16 * p.rest.length + rank := by
  have shorter := after.length_le
  rw [size]
  omega

/-- What holds whenever a procedure is called. -/
def Pre : {α : Type} → Call Double α → Prop
  | _, .statements stmts capacity p => p.Ready ∧ Roomy capacity stmts.length
  | _, .store stmts capacity _ p => p.Ready ∧ Roomy capacity stmts.length
  | _, procedure => procedure.parser.Ready

/-- That a call does not end where the source uses memory that holds no object, or overflows
a counter. -/
def Fine : {α : Type} → Call Double α → Prop
  | _, .likePattern _ _ _ pattern _ => ∃ string, pattern = .literal (.string string)
  | _, .assignments _ p => p.peekType = .ok .tkIdentifier
  | _, .store stmts _ _ _ => stmts.length < maxCapacity
  | _, _ => True

end Call

/-- Only the last token is left. -/
def ParserT.AtEnd (p : ParserT) : Prop := ∃ eof, p.rest = [eof]

/-- Statements that have been read between two positions, each from a segment of its own that
is not empty, with nothing but semicolons in front of each. -/
inductive Segments : ParserT → List (StmtT Double) → ParserT → Prop where
  | nil (p : ParserT) : Segments p [] p
  | semicolon {p r : ParserT} {token : TokenT} {rest : List TokenT} {stmts : List (StmtT Double)}
      (first : p.rest = token :: rest) (type : token.type = .tkSemicolon)
      (more : Segments p.advance stmts r) : Segments p stmts r
  | statement {p q r : ParserT} {s : StmtT Double} {stmts : List (StmtT Double)}
      (read : Returns body Fault.unending (.statement p) (some s, q)) (past : p.Past q)
      (more : Segments q stmts r) : Segments p (s :: stmts) r

theorem Segments.after {p q : ParserT} {stmts : List (StmtT Double)}
    (segments : Segments p stmts q) : p.After q := by
  induction segments with
  | nil p => exact After.refl p
  | semicolon first type more ih =>
      exact (past_advance first (by rw [type]; decide)).toAfter.trans ih
  | statement read past more ih => exact past.toAfter.trans ih

/-- What `parse_statement` leaves. Without an error it reads no statement only at the end. -/
structure StatementLeft (p : ParserT) (result : Option (StmtT Double) × ParserT) : Prop where
  after : p.After result.2
  ended : result.1 = none → result.2.hasError = true ∨ result.2.AtEnd
  shorter : result.1 ≠ none → result.2.rest.length < p.rest.length

/-- What the loop of `parser_parse_all` leaves. -/
structure StatementsLeft (stmts : List (StmtT Double)) (p : ParserT)
    (result : List (StmtT Double) × ParserT) : Prop where
  segments : ∃ more q, result.1 = stmts ++ more ∧ Segments p more q ∧ q.After result.2
  ended : result.2.hasError = true ∨ result.2.AtEnd

omit [Platform Double] in
theorem Call.Pre.ready {α : Type} {procedure : Call Double α} (pre : procedure.Pre) :
    procedure.parser.Ready := by
  cases procedure with
  | statements | store => exact pre.1
  | _ => exact pre

/-- What a call returns. -/
def Call.Spec : {α : Type} → Call Double α → α → Prop
  | _, .primary p, result => Result p result
  | _, .expressionPrec _ p, result => Result p result
  | _, .precLoop _ _ p, result => Continues p result
  | _, .likePattern _ _ _ _ p, result => Continues p result
  | _, .expressionList _ p, result => Result p result
  | _, .selectList _ p, result => Result p result
  | _, .fromTables _ p, result => Result p result
  | _, .joins _ p, result => Continues p result
  | _, .orderBy _ p, result => Result p result
  | _, .columns _ p, result => Result p result
  | _, .constraints _ p, result => p.After result.2
  | _, .indexColumns _ p, result => Result p result
  | _, .insertColumns _ p, result => p.After result.2
  | _, .rows _ p, result => Result p result
  | _, .assignments _ p, result => Result p result
  | _, .statement p, result => StatementLeft p result
  | _, .statements stmts _ p, result => StatementsLeft stmts p result
  | _, .store stmts _ s p, result => StatementsLeft (stmts ++ [s]) p result

/-! ## Rules -/

/-- Code that meets a condition when the calls it makes, of a size below the bound, return
what is specified. -/
abbrev Does {α : Type} (bound : Nat) (code : Parse Double α) (post : α → Prop) : Prop :=
  code.Meets (Smaller (@Call.Pre Double) (@Call.size Double) bound)
    (Answers (@body Double _) Fault.unending (@Call.Spec Double _)) post

variable {α β : Type} {bound : Nat} {p q : ParserT} {post : β → Prop}

theorem does_expect {type : TokenTypeT} {next : Bool × ParserT → Parse Double β}
    (ready : p.Ready) (notEof : type ≠ .tkEof)
    (rest : ∀ found q, p.After q → (found = false → q.hasError = true) →
      Does bound (next (found, q)) post) :
    Does bound ((liftM (p.expect type) : Parse Double _) >>= next) post := by
  obtain ⟨found, q, ran, after, error⟩ := expect_after ready notEof
  exact Meets.lift_bind ran (rest found q after error)

theorem does_match {type : TokenTypeT} {next : Bool × ParserT → Parse Double β}
    (ready : p.Ready) (notEof : type ≠ .tkEof)
    (rest : ∀ matched q, p.After q → (matched = true → p.Past q) →
      Does bound (next (matched, q)) post) :
    Does bound ((liftM (p.matchToken type) : Parse Double _) >>= next) post := by
  obtain ⟨matched, q, ran, after, past⟩ := matchToken_after ready notEof
  exact Meets.lift_bind ran (rest matched q after past)

/-- A null pointer is passed on with the error that has been recorded. -/
theorem does_whenParsed {result : Option α × ParserT}
    {next : α → ParserT → Parse Double (Option β × ParserT)} {post : Option β × ParserT → Prop}
    (left : Continues p result)
    (failed : ∀ q, p.After q → q.hasError = true → post (none, q))
    (rest : ∀ value q, result = (some value, q) → p.After q → Does bound (next value q) post) :
    Does bound (whenParsed result next) post := by
  obtain ⟨value, q⟩ := result
  cases value with
  | none => exact failed q left.after (left.error rfl)
  | some value => exact rest value q rfl left.after

/-- A call: what its procedure specifies is what the rest may rely on. -/
theorem does_invoke {procedure : Call Double α} {next : α → Parse Double β}
    (ready : procedure.Pre) (smaller : procedure.size < bound)
    (rest : ∀ answer, procedure.Spec answer → Does bound (next answer) post) :
    Does bound (invoke procedure >>= next) post :=
  Meets.invoke_bind ⟨ready, smaller⟩ fun answer answers => rest answer answers.1

/-- A call that has to parse something. -/
theorem does_parsed {procedure : Call Double (Option α × ParserT)}
    {next : α → ParserT → Parse Double (Option β × ParserT)} {post : Option β × ParserT → Prop}
    (ready : procedure.Pre) (smaller : procedure.size < bound)
    (left : ∀ answer, procedure.Spec answer → Result procedure.parser answer)
    (failed : ∀ q, procedure.parser.After q → q.hasError = true → post (none, q))
    (rest : ∀ value q, procedure.parser.Past q → Does bound (next value q) post) :
    Does bound (invoke procedure >>= fun result => whenParsed result next) post := by
  refine does_invoke ready smaller fun answer answers => ?_
  refine does_whenParsed (left answer answers).continues failed fun value q same _ => ?_
  subst same
  exact rest value q (left _ answers).past

/-- A function that has to parse something. -/
theorem does_read {computed : Except Fault (Option α × ParserT)}
    {next : α → ParserT → Parse Double (Option β × ParserT)} {post : Option β × ParserT → Prop}
    (read : ∃ result, computed = .ok result ∧ Result p result)
    (failed : ∀ q, p.After q → q.hasError = true → post (none, q))
    (rest : ∀ value q, p.Past q → Does bound (next value q) post) :
    Does bound ((liftM computed : Parse Double _) >>= fun result => whenParsed result next)
      post := by
  obtain ⟨result, ran, left⟩ := read
  refine Meets.lift_bind ran (does_whenParsed left.continues failed fun value q same _ => ?_)
  subst same
  exact rest value q left.past

/-- A call that has the last word. -/
theorem does_last {procedure : Call Double α} {post : α → Prop} (ready : procedure.Pre)
    (smaller : procedure.size < bound) (rest : ∀ answer, procedure.Spec answer → post answer) :
    Does bound (invoke procedure) post :=
  Meets.invoke ⟨ready, smaller⟩ fun answer answers => rest answer answers.1

/-! ## Expressions -/

theorem parseFunctionCall_does (past : p.Past q) (ready : q.Ready) (rank : Nat) (name : CString) :
    Does (16 * p.rest.length + rank) (parseFunctionCall q name)
      (Result (α := ExprT Double) p) := by
  rw [parseFunctionCall]
  refine does_expect ready (by decide) fun _ q' after _ => ?_
  have past := past.trans_after after
  have ready := ready.after after
  obtain ⟨token, rest, first⟩ := ready.cons
  refine Meets.lift_bind (peekType_eq first) ?_
  split
  case isTrue star =>
    have after := (past_advance first (by rw [star]; decide)).toAfter
    exact does_expect (ready.after after) (by decide) fun _ r after' _ =>
      (past.trans_after (after.trans after')).result_some _
  case isFalse =>
  refine Meets.lift_bind (peekType_eq first) ?_
  split
  case isTrue =>
    refine does_parsed ready (Call.size_lt_of_past past) (fun _ left => left)
      (fun r after => (past.toAfter.trans after).result_none) fun args r past' => ?_
    exact does_expect (ready.after past'.toAfter) (by decide) fun _ t after _ =>
      (past.trans_after (past'.toAfter.trans after)).result_some _
  case isFalse =>
    exact does_expect ready (by decide) fun _ r after _ => (past.trans_after after).result_some _

theorem parsePrimary_does (ready : p.Ready) :
    Does (16 * p.rest.length + 1) (parsePrimary p) (Result (α := ExprT Double) p) := by
  rw [parsePrimary]
  by_cases error : p.hasError = true
  · rw [if_pos error]
    exact (After.refl p).result_none error
  rw [if_neg error]
  obtain ⟨token, rest, first⟩ := ready.cons
  have past (notEof : token.type ≠ .tkEof) : p.Past p.advance := past_advance first notEof
  have literal (member : token.type ∈ literalTypes) :
      Does (16 * p.rest.length + 1)
        (liftM (parseLiteralExpr p) : Parse Double _) (Result (α := ExprT Double) p) := by
    obtain ⟨e, ran, left⟩ : ∃ e : ExprT Double, _ := parseLiteralExpr_result first member
    exact Meets.lift ran left
  have function (notEof : token.type ≠ .tkEof) :
      Does (16 * p.rest.length + 1) (parseFunctionCall p.advance (cut 63 token.lexeme))
        (Result (α := ExprT Double) p) :=
    parseFunctionCall_does (past notEof) (ready.after (past notEof).toAfter) 1 _
  refine Meets.lift_bind (peek_eq first) ?_
  split
  case h_1 same => exact literal (by rw [same]; decide)
  case h_2 same => exact literal (by rw [same]; decide)
  case h_3 same => exact literal (by rw [same]; decide)
  case h_4 same => exact literal (by rw [same]; decide)
  case h_5 same => exact literal (by rw [same]; decide)
  case h_6 same => exact literal (by rw [same]; decide)
  case h_7 same =>
    have past := past (by rw [same]; decide)
    have ready := ready.after past.toAfter
    refine does_invoke ready (Call.size_lt_of_past past) fun answer left => ?_
    refine does_expect (ready.after left.after) (by decide) fun _ r after _ => ?_
    exact (past.trans_after (left.after.trans after)).result _ fun failed =>
      after.error (left.error failed)
  case h_8 same =>
    have past := past (by rw [same]; decide)
    exact does_parsed (ready.after past.toAfter) (Call.size_lt_of_past past) (fun _ left => left)
      (fun r after => (past.toAfter.trans after).result_none)
      fun operand r past' => (past.trans_after past'.toAfter).result_some _
  case h_9 same =>
    have past := past (by rw [same]; decide)
    exact does_parsed (ready.after past.toAfter) (Call.size_lt_of_past past) (fun _ left => left)
      (fun r after => (past.toAfter.trans after).result_none)
      fun operand r past' => (past.trans_after past'.toAfter).result_some _
  case h_10 same => exact function (by rw [same]; decide)
  case h_11 same => exact function (by rw [same]; decide)
  case h_12 same => exact function (by rw [same]; decide)
  case h_13 same => exact function (by rw [same]; decide)
  case h_14 same => exact function (by rw [same]; decide)
  case h_15 same =>
    split
    case isTrue => exact function (by rw [same]; decide)
    case isFalse =>
      obtain ⟨result, ran, left⟩ : ∃ result, _ ∧ Result (α := ExprT Double) p result :=
        parseColumnRefOrIdentifier_result ready first same
      exact Meets.lift ran left
  case h_16 same => exact (past (by rw [same]; decide)).result_some _
  case h_17 =>
    obtain ⟨r, ran, after, error⟩ := parserError_after ready
      (text "Unexpected token: " ++ text (tokenTypeToString token.type) ++ text " ('" ++
        token.lexeme.chars ++ text "')")
    exact Meets.lift_bind ran (after.result_none error)

/-- Goes on with the loop of `parse_expression_prec` at a later position. -/
theorem precLoop_does (past : p.Past q) (ready : q.Ready) (rank minPrec : Nat)
    (left : ExprT Double) :
    Does (16 * p.rest.length + rank) (invoke (.precLoop minPrec left q)) (Continues p) :=
  does_last ready (Call.size_lt_of_past past) fun _ left => past.toAfter.continues left

theorem parseOperator_does {minPrec prec : Nat} {left : ExprT Double} {isNot : Bool}
    {token : TokenT} {rest : List TokenT} (after : p.After q) (ready : q.Ready)
    (first : q.rest = token :: rest) (notEof : token.type ≠ .tkEof) (rank : Nat) :
    Does (16 * p.rest.length + rank) (parseOperator minPrec left prec isNot token.type q)
      (Continues p) := by
  have past := after.trans_past (past_advance first notEof)
  have ready := ready.after (past_advance first notEof).toAfter
  have failed {α : Type} (r : ParserT) (after : q.advance.After r) (error : r.hasError = true) :
      Continues p ((none : Option α), r) := ((past.toAfter.trans after).result_none error).continues
  unfold parseOperator
  split
  case h_1 =>
    refine does_expect ready (by decide) fun _ r after _ => ?_
    refine does_parsed (ready.after after) (Call.size_lt_of_past (past.trans_after after))
      (fun _ left => left) (fun t after' => failed t (after.trans after')) fun list t past' => ?_
    have after := after.trans past'.toAfter
    refine does_expect (ready.after after) (by decide) fun _ u after' _ => ?_
    have after := after.trans after'
    exact precLoop_does (past.trans_after after) (ready.after after) _ _ _
  case h_2 =>
    refine does_parsed ready (Call.size_lt_of_past past) (fun _ left => left) failed
      fun low r past' => ?_
    have after := past'.toAfter
    refine does_expect (ready.after after) (by decide) fun _ t after' _ => ?_
    have after := after.trans after'
    refine does_parsed (ready.after after) (Call.size_lt_of_past (past.trans_after after))
      (fun _ left => left) (fun u after' => failed u (after.trans after')) fun high u past' => ?_
    have after := after.trans past'.toAfter
    exact precLoop_does (past.trans_after after) (ready.after after) _ _ _
  case h_3 =>
    refine does_parsed ready (Call.size_lt_of_past past) (fun _ left => left) failed
      fun pattern r past' => ?_
    have past := past.trans_after past'.toAfter
    exact does_last (ready.after past'.toAfter) (Call.size_lt_of_past past)
      fun _ left => past.toAfter.continues left
  case h_4 =>
    refine does_parsed ready (Call.size_lt_of_past past) (fun _ left => left) failed
      fun right r past' => ?_
    exact precLoop_does (past.trans_after past'.toAfter) (ready.after past'.toAfter) _ _ _

theorem parsePrecLoop_does (ready : p.Ready) (minPrec : Nat) (left : ExprT Double) :
    Does (16 * p.rest.length + 0) (parsePrecLoop minPrec left p) (Continues p) := by
  rw [parsePrecLoop]
  obtain ⟨token, rest, first⟩ := ready.cons
  refine Meets.lift_bind (peekType_eq first) ?_
  dsimp only
  split
  case isTrue => exact ⟨After.refl p, fun absurd => by cases absurd⟩
  case isFalse operator =>
  have past : p.Past p.advance := past_advance first fun same => by
    rw [same] at operator
    exact operator (.inl rfl)
  have ready' := ready.after past.toAfter
  split
  case isTrue =>
    refine does_match ready' (by decide) fun isNot q after _ => ?_
    have ready := ready'.after after
    obtain ⟨next, rest', second⟩ := ready.cons
    refine Meets.lift_bind (peekType_eq second) ?_
    split
    case isTrue null =>
      have after := after.trans (past_advance second (by rw [null]; decide)).toAfter
      exact precLoop_does (past.trans_after after) (ready'.after after) _ _ _
    case isFalse =>
      have past := past.trans_after after
      refine does_parsed ready (Call.size_lt_of_past past) (fun _ left => left)
        (fun r after error => ⟨past.toAfter.trans after, fun _ => error⟩) fun right r past' => ?_
      exact precLoop_does (past.trans_after past'.toAfter) (ready.after past'.toAfter) _ _ _
  case isFalse =>
  split
  case isFalse =>
    exact parseOperator_does (After.refl p) ready first
      (fun same => operator (.inl (by rw [same]; rfl))) 0
  case isTrue =>
    split
    case isFalse => exact ⟨After.refl p, fun absurd => by cases absurd⟩
    case isTrue ahead =>
      obtain ⟨next, rest', second⟩ := ready'.cons
      have same : p.peekNext = next.type := by
        have tail : rest = next :: rest' := by rw [← second, advance, first]; rfl
        rw [peekNext, first, tail]
      refine Meets.lift_bind (peekType_eq second) ?_
      exact parseOperator_does past.toAfter ready' second
        (fun eof => by rw [same, eof] at ahead; exact absurd ahead (by decide)) 0

theorem parseLikePattern_does (ready : p.Ready) (minPrec : Nat) (left : ExprT Double) (isNot : Bool)
    {pattern : ExprT Double} (fine : ∃ string, pattern = .literal (.string string)) :
    Does (16 * p.rest.length + 1) (parseLikePattern minPrec left isNot pattern p)
      (Continues p) := by
  obtain ⟨string, rfl⟩ := fine
  exact does_last ready (Call.size_lt_of_after (After.refl p) Nat.one_pos) fun _ left => left

theorem parseExpressionPrec_does (ready : p.Ready) (minPrec : Nat) :
    Does (16 * p.rest.length + 2) (parseExpressionPrec minPrec p)
      (Result (α := ExprT Double) p) := by
  refine does_parsed ready (Call.size_lt_of_after (After.refl p) Nat.one_lt_two)
    (fun _ left => left) (fun _ after => after.result_none) fun value q past => ?_
  exact does_last (ready.after past.toAfter) (Call.size_lt_of_past past)
    fun _ left => past.of_continues left

/-! ## Loops that go on behind commas -/

/-- The end of a turn: another turn behind a comma. -/
theorem turn_does {procedure : ParserT → Call Double (Option α × ParserT)} (past : p.Past q)
    (ready : q.Ready) {last : α} (rank : Nat)
    (called : ∀ r, r.Ready → (procedure r).Pre ∧ (procedure r).parser = r ∧
      ∀ answer, (procedure r).Spec answer → Result r answer) :
    Does (16 * p.rest.length + rank)
      ((liftM (q.matchToken .tkComma) : Parse Double _) >>= fun result =>
        if result.1 = true then invoke (procedure result.2) else pure (some last, result.2))
      (Result p) := by
  refine does_match ready (by decide) fun more r after _ => ?_
  have past := past.trans_after after
  cases more with
  | false => exact past.result_some _
  | true =>
      obtain ⟨pre, same, left⟩ := called r (ready.after after)
      have past' : p.Past (procedure r).parser := same.symm ▸ past
      exact does_last pre (Call.size_lt_of_past past') fun answer answers =>
        past.of_continues (left answer answers).continues

theorem parseExpressionList_does (ready : p.Ready) (items : List (ExprT Double)) :
    Does (16 * p.rest.length + 3) (parseExpressionList items p) (Result p) := by
  refine does_parsed ready (Call.size_lt_of_after (After.refl p) (Nat.lt_succ_self 2))
    (fun _ left => left) (fun _ after => after.result_none) fun value q past => ?_
  exact turn_does past (ready.after past.toAfter) _ fun r ready => ⟨ready, rfl, fun _ left => left⟩

/-! ## SELECT -/

theorem parseSelectList_does (ready : p.Ready) (items : List (ExprT Double)) :
    Does (16 * p.rest.length + 3) (parseSelectList items p) (Result p) := by
  refine does_parsed ready (Call.size_lt_of_after (After.refl p) (Nat.lt_succ_self 2))
    (fun _ left => left) (fun _ after => after.result_none) fun value q past => ?_
  obtain ⟨r, ran, after⟩ := skipAlias_after (ready.after past.toAfter)
  have past := past.trans_after after
  refine Meets.lift_bind ran ?_
  exact turn_does past (ready.after past.toAfter) _ fun r ready => ⟨ready, rfl, fun _ left => left⟩

theorem parseFromTables_does (ready : p.Ready) (tables : List TableRefT) :
    Does (16 * p.rest.length + 0) (parseFromTables tables p : Parse Double _) (Result p) := by
  refine does_read (requireIdentifier_result ready _) (fun _ after => after.result_none)
    fun name q past => ?_
  refine does_match (ready.after past.toAfter) (by decide) fun _ r after _ => ?_
  have past := past.trans_after after
  obtain ⟨aliasName, t, ran, after⟩ := takeIdentifier_after (ready.after past.toAfter)
  have past := past.trans_after after
  refine Meets.lift_bind ran ?_
  exact turn_does past (ready.after past.toAfter) _ fun r ready => ⟨ready, rfl, fun _ left => left⟩

theorem parseCondition_does (past : p.Past q) (ready : q.Ready) (rank : Nat) :
    Does (16 * p.rest.length + rank) (parseCondition q : Parse Double _)
      fun result => q.After result.2 := by
  refine does_match ready (by decide) fun on r after _ => ?_
  cases on with
  | false => exact after
  | true =>
      exact does_last (ready.after after) (Call.size_lt_of_past (past.trans_after after))
        fun _ left => after.trans left.after

theorem parseJoins_does (ready : p.Ready) (joins : List (JoinClauseT Double)) :
    Does (16 * p.rest.length + 0) (parseJoins joins p) (Continues p) := by
  obtain ⟨⟨joinType, q⟩, ran, after, past⟩ := joinWords_after ready
  rw [parseJoins]
  refine Meets.lift_bind ran ?_
  cases joinType with
  | none => exact ⟨after, fun absurd => by cases absurd⟩
  | some joinType =>
  have past := past (by simp)
  refine does_expect (ready.after after) (by decide) fun joined q after error => ?_
  have past := past.trans_after after
  cases joined with
  | false => exact ⟨past.toAfter, fun _ => error rfl⟩
  | true =>
  refine does_read (requireIdentifier_result (ready.after past.toAfter) _)
    (fun r after error => ⟨past.toAfter.trans after, fun _ => error⟩) fun name r past' => ?_
  have past := past.trans_after past'.toAfter
  obtain ⟨aliasName, t, ran, after⟩ := takeIdentifierBehind_after (ready.after past.toAfter)
    (show TokenTypeT.tkAs ≠ .tkEof by decide)
  have past := past.trans_after after
  refine Meets.lift_bind ran ?_
  refine Meets.bind (parseCondition_does past (ready.after past.toAfter) _) fun result after => ?_
  have past := past.trans_after after
  exact does_last (ready.after past.toAfter) (Call.size_lt_of_past past)
    fun _ left => past.toAfter.continues left

theorem parseOrderBy_does (ready : p.Ready) (items : List (OrderByItemT Double)) :
    Does (16 * p.rest.length + 3) (parseOrderBy items p) (Result p) := by
  refine does_parsed ready (Call.size_lt_of_after (After.refl p) (Nat.lt_succ_self 2))
    (fun _ left => left) (fun _ after => after.result_none) fun value q past => ?_
  obtain ⟨ascending, r, ran, after⟩ := parseAscending_after (ready.after past.toAfter)
  have past := past.trans_after after
  refine Meets.lift_bind ran ?_
  exact turn_does past (ready.after past.toAfter) _ fun r ready => ⟨ready, rfl, fun _ left => left⟩

theorem parseClause_does (past : p.Past q) (ready : q.Ready) {keyword : TokenTypeT}
    (notEof : keyword ≠ .tkEof) (rank : Nat) :
    Does (16 * p.rest.length + rank) (parseClause keyword q : Parse Double _) (Continues q) := by
  refine does_match ready notEof fun present r after _ => ?_
  cases present with
  | false => exact ⟨after, fun absurd => by cases absurd⟩
  | true =>
      refine does_parsed (ready.after after) (Call.size_lt_of_past (past.trans_after after))
        (fun _ left => left) (fun t after' error => ⟨after.trans after', fun _ => error⟩)
        fun e t past' => ?_
      exact ⟨after.trans past'.toAfter, fun absurd => by cases absurd⟩

theorem parseByClause_does {loop : ParserT → Call Double (Option (List α) × ParserT)}
    (past : p.Past q) (ready : q.Ready) {keyword : TokenTypeT} (notEof : keyword ≠ .tkEof)
    (rank : Nat)
    (called : ∀ r, r.Ready → (loop r).Pre ∧ (loop r).parser = r ∧
      ∀ answer, (loop r).Spec answer → Result r answer) :
    Does (16 * p.rest.length + rank) (parseByClause keyword loop q) (Continues q) := by
  refine does_match ready notEof fun present r after _ => ?_
  cases present with
  | false => exact ⟨after, fun absurd => by cases absurd⟩
  | true =>
      refine does_expect (ready.after after) (by decide) fun _ t after' _ => ?_
      have after := after.trans after'
      obtain ⟨pre, same, left⟩ := called t (ready.after after)
      have past' : p.Past (loop t).parser := same.symm ▸ past.trans_after after
      exact does_last pre (Call.size_lt_of_past past') fun answer answers =>
        after.continues (left answer answers).continues

theorem parseSelectTail_does (past : p.Past q) (ready : q.Ready) (rank : Nat)
    (selectList : List (ExprT Double)) (isDistinct : Bool) (fromTables : List TableRefT)
    (joins : List (JoinClauseT Double)) :
    Does (16 * p.rest.length + rank) (parseSelectTail selectList isDistinct fromTables joins q)
      (Result p) := by
  have failed {r t : ParserT} (past : p.Past r) (after : r.After t) (error : t.hasError = true) :
      Result p ((none : Option (StmtT Double)), t) :=
    (past.toAfter.trans after).result_none error
  refine Meets.bind (parseClause_does past ready (by decide) rank) fun result left => ?_
  refine does_whenParsed left (fun _ => failed past) fun whereClause r _ after => ?_
  have past := past.trans_after after
  have ready := ready.after after
  refine Meets.bind (parseByClause_does past ready (by decide) rank
    fun r ready => ⟨ready, rfl, fun _ left => left⟩) fun result left => ?_
  refine does_whenParsed left (fun _ => failed past) fun groupBy r _ after => ?_
  have past := past.trans_after after
  have ready := ready.after after
  refine Meets.bind (parseClause_does past ready (by decide) rank) fun result left => ?_
  refine does_whenParsed left (fun _ => failed past) fun having r _ after => ?_
  have past := past.trans_after after
  have ready := ready.after after
  refine Meets.bind (parseByClause_does past ready (by decide) rank
    fun r ready => ⟨ready, rfl, fun _ left => left⟩) fun result left => ?_
  refine does_whenParsed left (fun _ => failed past) fun orderBy r _ after => ?_
  have past := past.trans_after after
  have ready := ready.after after
  obtain ⟨limits, ran, left⟩ := parseLimit_continues ready
  refine Meets.lift_bind ran ?_
  refine does_whenParsed left (fun _ => failed past) fun limits r _ after => ?_
  exact (past.trans_after after).result_some _

theorem parseSelect_does (ready : p.Ready) (past : p.Past p.advance) (rank : Nat) :
    Does (16 * p.rest.length + rank) (parseSelect p) (Result (α := StmtT Double) p) := by
  have failed {r t : ParserT} (past : p.Past r) (after : r.After t) (error : t.hasError = true) :
      Result p ((none : Option (StmtT Double)), t) :=
    (past.toAfter.trans after).result_none error
  refine does_match (ready.after past.toAfter) (by decide) fun isDistinct q after _ => ?_
  have past := past.trans_after after
  refine does_parsed (ready.after past.toAfter) (Call.size_lt_of_past past) (fun _ left => left)
    (fun _ => failed past) fun selectList r past' => ?_
  have past := past.trans_after past'.toAfter
  refine does_match (ready.after past.toAfter) (by decide) fun hasTables t after _ => ?_
  have past := past.trans_after after
  cases hasTables with
  | false => exact parseSelectTail_does past (ready.after past.toAfter) rank _ _ _ _
  | true =>
      refine does_parsed (ready.after past.toAfter) (Call.size_lt_of_past past)
        (fun _ left => left) (fun _ => failed past) fun fromTables u past' => ?_
      have past := past.trans_after past'.toAfter
      refine does_invoke (ready.after past.toAfter) (Call.size_lt_of_past past)
        fun result left => ?_
      refine does_whenParsed left (fun _ => failed past) fun joins v _ after => ?_
      have past := past.trans_after after
      exact parseSelectTail_does past (ready.after past.toAfter) rank _ _ _ _

/-! ## CREATE and DROP -/

theorem parseConstraints_does (ready : p.Ready) (col : AstColumnDefT Double) :
    Does (16 * p.rest.length + 0) (parseConstraints col p) fun result => p.After result.2 := by
  obtain ⟨token, rest, first⟩ := ready.cons
  have past (notEof : token.type ≠ .tkEof) : p.Past p.advance := past_advance first notEof
  have turn {q : ParserT} (past : p.Past q) (col : AstColumnDefT Double) :
      Does (16 * p.rest.length + 0) (invoke (.constraints col q)) fun result => p.After result.2 :=
    does_last (ready.after past.toAfter) (Call.size_lt_of_past past)
      fun _ after => past.toAfter.trans after
  rw [parseConstraints]
  refine Meets.lift_bind (peekType_eq first) ?_
  split
  case h_1 same =>
    have past := past (by rw [same]; decide)
    exact does_expect (ready.after past.toAfter) (by decide) fun _ q after _ =>
      turn (past.trans_after after) _
  case h_2 same =>
    have past := past (by rw [same]; decide)
    exact does_expect (ready.after past.toAfter) (by decide) fun _ q after _ =>
      turn (past.trans_after after) _
  case h_3 same => exact turn (past (by rw [same]; decide)) _
  case h_4 same =>
    have past := past (by rw [same]; decide)
    refine does_invoke (ready.after past.toAfter) (Call.size_lt_of_past past) fun answer left => ?_
    have past := past.trans_after left.after
    split
    case h_1 => exact turn past _
    case h_2 => exact turn past _
  case h_5 => exact After.refl p

theorem parseColumns_does (ready : p.Ready) (columns : List (AstColumnDefT Double)) :
    Does (16 * p.rest.length + 0) (parseColumns columns p) (Result p) := by
  refine does_read (requireIdentifier_result ready _) (fun _ after => after.result_none)
    fun name q past => ?_
  refine does_read (parseDataType_result (ready.after past.toAfter))
    (fun _ after => (past.toAfter.trans after).result_none) fun dataType r past' => ?_
  have past := past.trans_after past'.toAfter
  refine does_invoke (ready.after past.toAfter) (Call.size_lt_of_past past) fun answer after => ?_
  have past := past.trans_after after
  exact turn_does past (ready.after past.toAfter) _ fun r ready => ⟨ready, rfl, fun _ left => left⟩

theorem parseCreateTable_does (ready : p.Ready) (past : p.Past p.advance) (rank : Nat) :
    Does (16 * p.rest.length + rank) (parseCreateTable p) (Result (α := StmtT Double) p) := by
  refine does_expect (ready.after past.toAfter) (by decide) fun _ q after _ => ?_
  have past := past.trans_after after
  obtain ⟨ifNotExists, r, ran, after⟩ := parseIfNotExists_after (ready.after past.toAfter)
  have past := past.trans_after after
  refine Meets.lift_bind ran ?_
  refine does_read (requireIdentifier_result (ready.after past.toAfter) _)
    (fun _ after => (past.toAfter.trans after).result_none) fun tableName t past' => ?_
  have past := past.trans_after past'.toAfter
  refine does_expect (ready.after past.toAfter) (by decide) fun _ u after _ => ?_
  have past := past.trans_after after
  refine does_parsed (ready.after past.toAfter) (Call.size_lt_of_past past) (fun _ left => left)
    (fun _ after => (past.toAfter.trans after).result_none) fun columns v past' => ?_
  have past := past.trans_after past'.toAfter
  exact does_expect (ready.after past.toAfter) (by decide) fun _ w after _ =>
    (past.trans_after after).result_some _

theorem parseIndexColumns_does (ready : p.Ready) (columns : List CString) :
    Does (16 * p.rest.length + 0) (parseIndexColumns columns p : Parse Double _) (Result p) := by
  rw [parseIndexColumns]
  split
  case isTrue =>
    obtain ⟨q, ran, after, error⟩ := parserError_after ready (text "Too many columns in index")
    exact Meets.lift_bind ran (after.result_none error)
  case isFalse =>
    refine does_read (requireIdentifier_result ready _) (fun _ after => after.result_none)
      fun name q past => ?_
    exact turn_does past (ready.after past.toAfter) _
      fun r ready => ⟨ready, rfl, fun _ left => left⟩

theorem parseCreateIndex_does (ready : p.Ready) (past : p.Past p.advance) (rank : Nat) :
    Does (16 * p.rest.length + rank) (parseCreateIndex p) (Result (α := StmtT Double) p) := by
  refine does_expect (ready.after past.toAfter) (by decide) fun _ q after _ => ?_
  have past := past.trans_after after
  refine does_read (requireIdentifier_result (ready.after past.toAfter) _)
    (fun _ after => (past.toAfter.trans after).result_none) fun indexName r past' => ?_
  have past := past.trans_after past'.toAfter
  refine does_expect (ready.after past.toAfter) (by decide) fun _ t after _ => ?_
  have past := past.trans_after after
  refine does_read (requireIdentifier_result (ready.after past.toAfter) _)
    (fun _ after => (past.toAfter.trans after).result_none) fun tableName u past' => ?_
  have past := past.trans_after past'.toAfter
  refine does_expect (ready.after past.toAfter) (by decide) fun _ v after _ => ?_
  have past := past.trans_after after
  refine does_parsed (ready.after past.toAfter) (Call.size_lt_of_past past) (fun _ left => left)
    (fun _ after => (past.toAfter.trans after).result_none) fun columns w past' => ?_
  have past := past.trans_after past'.toAfter
  exact does_expect (ready.after past.toAfter) (by decide) fun _ x after _ =>
    (past.trans_after after).result_some _

theorem parseDropTable_does (ready : p.Ready) (past : p.Past p.advance) (rank : Nat) :
    Does (16 * p.rest.length + rank) (parseDropTable p) (Result (α := StmtT Double) p) := by
  refine does_expect (ready.after past.toAfter) (by decide) fun _ q after _ => ?_
  have past := past.trans_after after
  obtain ⟨ifExists, r, ran, after⟩ := parseIfExists_after (ready.after past.toAfter)
  have past := past.trans_after after
  refine Meets.lift_bind ran ?_
  exact does_read (requireIdentifier_result (ready.after past.toAfter) _)
    (fun _ after => (past.toAfter.trans after).result_none) fun tableName t past' =>
      (past.trans_after past'.toAfter).result_some _

theorem parseDropIndex_does (ready : p.Ready) (past : p.Past p.advance) (rank : Nat) :
    Does (16 * p.rest.length + rank) (parseDropIndex p) (Result (α := StmtT Double) p) := by
  refine does_expect (ready.after past.toAfter) (by decide) fun _ q after _ => ?_
  have past := past.trans_after after
  refine does_read (requireIdentifier_result (ready.after past.toAfter) _)
    (fun _ after => (past.toAfter.trans after).result_none) fun indexName r past' => ?_
  have past := past.trans_after past'.toAfter
  obtain ⟨tableName, t, ran, after⟩ := takeIdentifierBehind_after (ready.after past.toAfter)
    (show TokenTypeT.tkOn ≠ .tkEof by decide)
  exact Meets.lift_bind ran ((past.trans_after after).result_some _)

/-! ## INSERT, UPDATE and DELETE -/

theorem parseInsertColumns_does (ready : p.Ready) (columns : List CString) :
    Does (16 * p.rest.length + 0) (parseInsertColumns columns p : Parse Double _)
      fun result => p.After result.2 := by
  obtain ⟨token, rest, first⟩ := ready.cons
  rw [parseInsertColumns]
  refine Meets.lift_bind (peek_eq first) ?_
  split
  case isTrue => exact After.refl p
  case isFalse named =>
    have past := past_advance first fun eof => named (by rw [eof]; decide)
    refine does_match (ready.after past.toAfter) (by decide) fun more q after _ => ?_
    have past := past.trans_after after
    cases more with
    | false => exact past.toAfter
    | true =>
        exact does_last (ready.after past.toAfter) (Call.size_lt_of_past past)
          fun _ after => past.toAfter.trans after

theorem parseRows_does (ready : p.Ready) (rows : List (List (ExprT Double))) :
    Does (16 * p.rest.length + 4) (parseRows rows p) (Result p) := by
  refine does_expect ready (by decide) fun _ q after _ => ?_
  refine does_parsed (ready.after after) (Call.size_lt_of_after after (Nat.lt_succ_self 3))
    (fun _ left => left) (fun _ after' => (after.trans after').result_none) fun row r past => ?_
  have past := after.trans_past past
  refine does_expect (ready.after past.toAfter) (by decide) fun _ t after _ => ?_
  have past := past.trans_after after
  exact turn_does past (ready.after past.toAfter) _ fun r ready => ⟨ready, rfl, fun _ left => left⟩

theorem parseColumnList_does (past : p.Past q) (ready : q.Ready) (rank : Nat) :
    Does (16 * p.rest.length + rank) (parseColumnList q : Parse Double _)
      fun result => q.After result.2 := by
  obtain ⟨token, rest, first⟩ := ready.cons
  rw [parseColumnList]
  refine Meets.lift_bind (peekType_eq first) ?_
  split
  case isFalse => exact After.refl q
  case isTrue listed =>
    have past' := past_advance first (by rw [listed.1]; decide)
    refine does_invoke (ready.after past'.toAfter)
      (Call.size_lt_of_past (past.trans_after past'.toAfter)) fun answer after => ?_
    have after := past'.toAfter.trans after
    exact does_expect (ready.after after) (by decide) fun _ r after' _ => after.trans after'

theorem parseInsert_does (ready : p.Ready) (past : p.Past p.advance) (rank : Nat) :
    Does (16 * p.rest.length + rank) (parseInsert p) (Result (α := StmtT Double) p) := by
  refine does_expect (ready.after past.toAfter) (by decide) fun _ q after _ => ?_
  have past := past.trans_after after
  refine does_read (requireIdentifier_result (ready.after past.toAfter) _)
    (fun _ after => (past.toAfter.trans after).result_none) fun tableName r past' => ?_
  have past := past.trans_after past'.toAfter
  refine Meets.bind (parseColumnList_does past (ready.after past.toAfter) rank)
    fun result after => ?_
  have past := past.trans_after after
  refine does_expect (ready.after past.toAfter) (by decide) fun _ t after _ => ?_
  have past := past.trans_after after
  exact does_parsed (ready.after past.toAfter) (Call.size_lt_of_past past) (fun _ left => left)
    (fun _ after => (past.toAfter.trans after).result_none) fun rows u past' =>
      (past.trans_after past'.toAfter).result_some _

theorem parseAssignments_does (ready : p.Ready) (assignments : List (AssignmentT Double))
    (fine : p.peekType = .ok .tkIdentifier) :
    Does (16 * p.rest.length + 0) (parseAssignments assignments p) (Result p) := by
  obtain ⟨token, rest, first⟩ := ready.cons
  have named : token.type = .tkIdentifier := Except.ok.inj ((peekType_eq first).symm.trans fine)
  have past := past_advance first (by rw [named]; decide)
  rw [parseAssignments]
  refine Meets.lift_bind (peek_eq first) ?_
  rw [if_neg (not_not.mpr named)]
  refine does_expect (ready.after past.toAfter) (by decide) fun _ q after _ => ?_
  have past := past.trans_after after
  refine does_parsed (ready.after past.toAfter) (Call.size_lt_of_past past) (fun _ left => left)
    (fun _ after => (past.toAfter.trans after).result_none) fun value r past' => ?_
  have past := past.trans_after past'.toAfter
  exact turn_does past (ready.after past.toAfter) _ fun r ready => ⟨ready, rfl, fun _ left => left⟩

theorem parseUpdate_does (ready : p.Ready) (past : p.Past p.advance) (rank : Nat) :
    Does (16 * p.rest.length + rank) (parseUpdate p) (Result (α := StmtT Double) p) := by
  refine does_read (requireIdentifier_result (ready.after past.toAfter) _)
    (fun _ after => (past.toAfter.trans after).result_none) fun tableName q past' => ?_
  have past := past.trans_after past'.toAfter
  refine does_expect (ready.after past.toAfter) (by decide) fun _ r after _ => ?_
  have past := past.trans_after after
  refine does_parsed (ready.after past.toAfter) (Call.size_lt_of_past past) (fun _ left => left)
    (fun _ after => (past.toAfter.trans after).result_none) fun assignments t past' => ?_
  have past := past.trans_after past'.toAfter
  refine Meets.bind (parseClause_does past (ready.after past.toAfter) (by decide) rank)
    fun result left => ?_
  exact does_whenParsed left (fun _ after => (past.toAfter.trans after).result_none)
    fun whereClause u _ after => (past.trans_after after).result_some _

theorem parseDelete_does (ready : p.Ready) (past : p.Past p.advance) (rank : Nat) :
    Does (16 * p.rest.length + rank) (parseDelete p) (Result (α := StmtT Double) p) := by
  refine does_expect (ready.after past.toAfter) (by decide) fun _ q after _ => ?_
  have past := past.trans_after after
  refine does_read (requireIdentifier_result (ready.after past.toAfter) _)
    (fun _ after => (past.toAfter.trans after).result_none) fun tableName r past' => ?_
  have past := past.trans_after past'.toAfter
  refine Meets.bind (parseClause_does past (ready.after past.toAfter) (by decide) rank)
    fun result left => ?_
  exact does_whenParsed left (fun _ after => (past.toAfter.trans after).result_none)
    fun whereClause t _ after => (past.trans_after after).result_some _

/-! ## Statements -/

omit [Platform Double] in
theorem Result.statementLeft {result : Option (StmtT Double) × ParserT} (left : Result p result) :
    StatementLeft p result := ⟨left.after, fun failed => .inl (left.error failed), left.shorter⟩

theorem ParserT.Ready.atEnd (ready : p.Ready) (ended : p.isAtEnd = true) : p.AtEnd := by
  obtain ⟨front, eof, split, isEof, others⟩ := ready
  cases front with
  | nil => exact ⟨eof, split⟩
  | cons token front =>
      rw [isAtEnd, split] at ended
      exact absurd (of_decide_eq_true ended) (others token (by simp))

theorem parseExplain_does (ready : p.Ready) (past : p.Past p.advance) (rank : Nat) :
    Does (16 * p.rest.length + rank) (parseExplain p : Parse Double _) (StatementLeft p) := by
  refine does_invoke (ready.after past.toAfter) (Call.size_lt_of_past past) fun answer left => ?_
  obtain ⟨inner, q⟩ := answer
  have past := past.trans_after left.after
  cases inner with
  | none => exact ⟨past.toAfter, fun _ => left.ended rfl, fun some => absurd rfl some⟩
  | some inner => exact (past.result_some _).statementLeft

theorem parseStatement_does (ready : p.Ready) :
    Does (16 * p.rest.length + 5) (parseStatement p : Parse Double _) (StatementLeft p) := by
  rw [parseStatement]
  by_cases error : p.hasError = true
  · rw [if_pos error]
    exact ((After.refl p).result_none error).statementLeft
  rw [if_neg error]
  by_cases ended : p.isAtEnd = true
  · rw [if_pos ended]
    exact ⟨After.refl p, fun _ => .inr (ready.atEnd ended), fun some => absurd rfl some⟩
  rw [if_neg ended]
  obtain ⟨token, rest, first⟩ := ready.cons
  have past : p.Past p.advance :=
    past_advance first fun eof => ended (by simp [isAtEnd, first, eof])
  have result {code : Parse Double (Option (StmtT Double) × ParserT)}
      (does : Does (16 * p.rest.length + 5) code (Result p)) :
      Does (16 * p.rest.length + 5) code (StatementLeft p) :=
    does.mono fun _ left => left.statementLeft
  refine Meets.lift_bind (peek_eq first) ?_
  split
  case h_1 => exact result (parseSelect_does ready past 5)
  case h_2 =>
    split
    case isTrue => exact result (parseCreateIndex_does ready past 5)
    case isFalse => exact result (parseCreateTable_does ready past 5)
  case h_3 =>
    split
    case isTrue => exact result (parseDropIndex_does ready past 5)
    case isFalse => exact result (parseDropTable_does ready past 5)
  case h_4 => exact result (parseInsert_does ready past 5)
  case h_5 => exact result (parseUpdate_does ready past 5)
  case h_6 => exact result (parseDelete_does ready past 5)
  case h_7 =>
    obtain ⟨begun, ran, left⟩ : ∃ begun, _ ∧ Result (α := StmtT Double) p begun :=
      parseBegin_result ready past
    exact Meets.lift ran left.statementLeft
  case h_8 => exact (past.result_some _).statementLeft
  case h_9 => exact (past.result_some _).statementLeft
  case h_10 => exact parseExplain_does ready past 5
  case h_11 =>
    obtain ⟨q, ran, after, error⟩ := parserError_after ready (text "Unexpected token: " ++
      text (tokenTypeToString token.type) ++ text " ('" ++ token.lexeme.chars ++
      text "') at line " ++ decimal token.line ++ text ", column " ++ decimal token.column)
    exact Meets.lift_bind ran (after.result_none error).statementLeft

/-- A semicolon in front of the next statements. -/
theorem StatementsLeft.semicolon {stmts : List (StmtT Double)} {token : TokenT} {rest : List TokenT}
    (first : p.rest = token :: rest) (type : token.type = .tkSemicolon)
    {result : List (StmtT Double) × ParserT} (left : StatementsLeft stmts p.advance result) :
    StatementsLeft stmts p result := by
  obtain ⟨more, q, same, segments, after⟩ := left.segments
  exact ⟨⟨more, q, same, .semicolon first type segments, after⟩, left.ended⟩

theorem parseStatements_does (ready : p.Ready) (stmts : List (StmtT Double)) {capacity : Nat}
    (roomy : Roomy capacity stmts.length) :
    Does (16 * p.rest.length + 6) (parseStatements stmts capacity p) (StatementsLeft stmts p) := by
  rw [parseStatements]
  split
  case isTrue ended =>
    exact ⟨⟨[], p, (List.append_nil stmts).symm, .nil p, After.refl p⟩,
      ended.elim (fun ended => .inr (ready.atEnd ended)) .inl⟩
  case isFalse more =>
    obtain ⟨token, rest, first⟩ := ready.cons
    refine Meets.lift_bind (peekType_eq first) ?_
    split
    case isTrue semicolon =>
      have past := past_advance first (by rw [semicolon]; decide)
      exact does_last ⟨ready.after past.toAfter, roomy⟩ (Call.size_lt_of_past past)
        fun _ left => left.semicolon first semicolon
    case isFalse =>
      refine Meets.invoke_bind
        ⟨ready, Call.size_lt_of_after (After.refl p) (Nat.lt_succ_self 5)⟩ fun answer answers => ?_
      obtain ⟨left, returned⟩ := answers
      obtain ⟨s, q⟩ := answer
      cases s with
      | none => exact ⟨⟨[], p, (List.append_nil stmts).symm, .nil p, left.after⟩, left.ended rfl⟩
      | some s =>
          have past : p.Past q := ⟨left.after, left.shorter (by simp)⟩
          refine does_last ⟨ready.after past.toAfter, roomy⟩ (Call.size_lt_of_past past)
            fun result stored => ?_
          obtain ⟨more, r, same, segments, after⟩ := stored.segments
          refine ⟨⟨s :: more, r, ?_, .statement returned past segments, after⟩, stored.ended⟩
          rw [same, List.append_assoc, List.singleton_append]

theorem storeStatement_does (ready : p.Ready) (stmts : List (StmtT Double)) {capacity : Nat}
    (roomy : Roomy capacity stmts.length) (few : stmts.length < maxCapacity) (s : StmtT Double) :
    Does (16 * p.rest.length + 7) (storeStatement stmts capacity s p)
      (StatementsLeft (stmts ++ [s]) p) := by
  obtain ⟨larger, grown, roomy⟩ := roomy.grow few
  have roomy : Roomy larger (stmts ++ [s]).length := by
    rw [List.length_append, List.length_singleton]
    exact roomy
  obtain ⟨token, rest, first⟩ := ready.cons
  rw [storeStatement]
  refine Meets.lift_bind grown ?_
  by_cases semicolon : token.type = .tkSemicolon
  · have past := past_advance first (by rw [semicolon]; decide)
    have ran : p.matchToken .tkSemicolon = .ok (true, p.advance) := by
      rw [matchToken, peekType_eq first, Std.ok_bind, if_pos semicolon]
      rfl
    refine Meets.lift_bind ran ?_
    exact does_last ⟨ready.after past.toAfter, roomy⟩ (Call.size_lt_of_past past)
      fun _ left => left.semicolon first semicolon
  · have ran : p.matchToken .tkSemicolon = .ok (false, p) := by
      rw [matchToken, peekType_eq first, Std.ok_bind, if_neg semicolon]
      rfl
    refine Meets.lift_bind ran ?_
    exact does_last ⟨ready, roomy⟩ (Call.size_lt_of_after (After.refl p) (Nat.lt_succ_self 6))
      fun _ left => left

/-- Every procedure meets its specification with calls of smaller size, unless the source uses
memory there that holds no object. -/
theorem body_does : ∀ {α : Type} (procedure : Call Double α), procedure.Pre → procedure.Fine →
    Does procedure.size (body procedure) procedure.Spec
  | _, .primary _, ready, _ => parsePrimary_does ready
  | _, .expressionPrec minPrec _, ready, _ => parseExpressionPrec_does ready minPrec
  | _, .precLoop minPrec left _, ready, _ => parsePrecLoop_does ready minPrec left
  | _, .likePattern minPrec left isNot _ _, ready, fine =>
      parseLikePattern_does ready minPrec left isNot fine
  | _, .expressionList items _, ready, _ => parseExpressionList_does ready items
  | _, .selectList items _, ready, _ => parseSelectList_does ready items
  | _, .fromTables tables _, ready, _ => parseFromTables_does ready tables
  | _, .joins joins _, ready, _ => parseJoins_does ready joins
  | _, .orderBy items _, ready, _ => parseOrderBy_does ready items
  | _, .columns columns _, ready, _ => parseColumns_does ready columns
  | _, .constraints col _, ready, _ => parseConstraints_does ready col
  | _, .indexColumns columns _, ready, _ => parseIndexColumns_does ready columns
  | _, .insertColumns columns _, ready, _ => parseInsertColumns_does ready columns
  | _, .rows rows _, ready, _ => parseRows_does ready rows
  | _, .assignments assignments _, ready, fine => parseAssignments_does ready assignments fine
  | _, .statement _, ready, _ => parseStatement_does ready
  | _, .statements stmts _ _, ready, _ => parseStatements_does ready.1 stmts ready.2
  | _, .store stmts _ s _, ready, fine => storeStatement_does ready.1 stmts ready.2 fine s

/-! ## Runs -/

/-- `procedure` visits `target`. -/
abbrev Call.Comes {γ α : Type} (target : Call Double γ) (procedure : Call Double α) : Prop :=
  Visits (@body Double _) Fault.unending target procedure

/-- A call that returns is fine. -/
theorem Call.fine_of_returns {procedure : Call Double α} (ready : procedure.Pre) {value : α}
    (returned : Returns (@body Double _) Fault.unending procedure value) : procedure.Fine := by
  have yields := returns_iff.mp returned
  cases procedure
  case likePattern minPrec left isNot pattern p =>
    rw [body] at yields
    unfold parseLikePattern at yields
    split at yields
    case h_1 string => exact ⟨string, rfl⟩
    case h_2 => cases yields
  case assignments assignments p =>
    have ready : p.Ready := ready
    obtain ⟨token, rest, first⟩ := ready.cons
    rw [body, parseAssignments, peek_eq first] at yields
    by_cases named : token.type = .tkIdentifier
    · exact (peekType_eq first).trans (congrArg Except.ok named)
    · replace yields : Yields (@body Double _) Fault.unending
          (if token.type ≠ .tkIdentifier then .fail .indeterminate else _) value := yields
      rw [if_pos named] at yields
      cases yields
  case store stmts capacity s p =>
    by_contra many
    rw [body, storeStatement, ready.2.grow_overflow (Nat.le_of_not_lt many)] at yields
    cases yields
  all_goals trivial

/-- A call answers exactly if every call it comes to is fine. -/
theorem answers_iff {procedure : Call Double α} (ready : procedure.Pre) {depth : Nat}
    (enough : procedure.size < depth) :
    (∃ value, answer (@body Double _) Fault.unending depth procedure = .ok value) ↔
      ∀ {γ : Type} (target : Call Double γ), target.Comes procedure → target.Fine := by
  constructor
  · rintro ⟨value, answered⟩ γ target visits
    have returned : Returns (@body Double _) Fault.unending procedure value := ⟨depth, answered⟩
    have bodies {α : Type} (procedure : Call Double α) (ready : procedure.Pre)
        (returns : ∃ value, Returns (@body Double _) Fault.unending procedure value) :
        Does procedure.size (body procedure) procedure.Spec := by
      obtain ⟨_, returned⟩ := returns
      exact body_does procedure ready (Call.fine_of_returns ready returned)
    have pre := Visits.ready bodies visits ready fun target visits => returned.of_visits visits
    obtain ⟨value, returned⟩ := returned.of_visits visits
    exact Call.fine_of_returns pre returned
  · intro fine
    obtain ⟨value, answered, -⟩ := answer_correct (fun procedure => body_does procedure) enough
      ready fine
    exact ⟨value, answered⟩

/-- What `parser_parse_all` does with tokens when all goes well: it terminates, no call that it
comes to starts behind the `TK_EOF`, and its statements come in order from segments of the
tokens, all of which have been consumed unless there is an error. -/
def ParsesAll (Double : Type) [Platform Double] (tokens : List TokenT) : Prop :=
  ∃ (stmts : List (StmtT Double)) (q : ParserT),
    runParser (parserInit tokens) (parserParseAll (parserInit tokens)) = .ok (stmts, q) ∧
      (∀ {γ : Type} (target : Call Double γ),
        target.Comes (.statements [] 16 (parserInit tokens)) → target.parser.Ready) ∧
      (parserInit tokens).After q ∧
      (∃ r, Segments (parserInit tokens) stmts r ∧ r.After q) ∧
      (q.hasError = true ∨ q.AtEnd)

/-- The parser does so exactly if no `LIKE` has a pattern other than a string literal, no item
of a `SET` list starts with anything but an identifier, and the statements can be counted. -/
theorem parserParseAll_iff (tokens : List TokenT) (ends : EndsOnce tokens) :
    ParsesAll Double tokens ↔ ∀ {γ : Type} (target : Call Double γ),
      target.Comes (.statements [] 16 (parserInit tokens)) → target.Fine := by
  have pre : (Call.statements [] 16 (parserInit tokens) : Call Double _).Pre :=
    ⟨ends, Nat.zero_le _, 4, by decide, rfl⟩
  have enough : (Call.statements [] 16 (parserInit tokens) : Call Double _).size <
      maxDepth (parserInit tokens) := by
    rw [Call.size, maxDepth]
    show 16 * tokens.length + 6 < 16 * (tokens.length + 2)
    omega
  have ran : runParser (parserInit tokens) (parserParseAll (parserInit tokens) : Parse Double _) =
      answer body .unending (maxDepth (parserInit tokens))
        (.statements [] 16 (parserInit tokens)) := run_invoke _ _
  rw [ParsesAll, ran]
  constructor
  · rintro ⟨stmts, q, answered, -⟩
    exact (answers_iff pre enough).mp ⟨_, answered⟩
  · intro fine
    obtain ⟨⟨stmts, q⟩, answered, left⟩ :=
      answer_correct (fun procedure => body_does procedure) enough pre fine
    obtain ⟨more, r, same, segments, after⟩ := left.segments
    obtain rfl : stmts = more := same
    refine ⟨stmts, q, answered, fun target visits => ?_, ?_, ⟨r, segments, after⟩, left.ended⟩
    · exact (visits.ready (fun procedure => body_does procedure) pre fine).ready
    · exact segments.after.trans after

/-- The tokens of a transaction's end. -/
def commitTokens : List TokenT :=
  [⟨.tkCommit, CString.ofChars "COMMIT".toList, 1, 1⟩, ⟨.tkEof, .empty, 1, 7⟩]

theorem parserParseAll_commit : ParsesAll Int commitTokens ↔ ∀ {γ : Type} (target : Call Int γ),
    target.Comes (.statements [] 16 (parserInit commitTokens)) → target.Fine :=
  parserParseAll_iff commitTokens ⟨[⟨.tkCommit, CString.ofChars "COMMIT".toList, 1, 1⟩],
    ⟨.tkEof, .empty, 1, 7⟩, rfl, rfl, by decide⟩

/-- An item of the select list that compares with a column, and one that is missing. -/
def likeTokens : List TokenT :=
  [⟨.tkSelect, CString.ofChars "SELECT".toList, 1, 1⟩,
    ⟨.tkIdentifier, CString.ofChars ['a'], 1, 8⟩, ⟨.tkLike, CString.ofChars "LIKE".toList, 1, 10⟩,
    ⟨.tkIdentifier, CString.ofChars ['b'], 1, 15⟩, ⟨.tkComma, CString.ofChars [','], 1, 17⟩,
    ⟨.tkRightParen, CString.ofChars [')'], 1, 19⟩, ⟨.tkEof, .empty, 1, 20⟩]

theorem likeTokens_freed : EndsOnce likeTokens ∧ ¬ ParsesAll Int likeTokens := by
  refine ⟨⟨likeTokens.dropLast, ⟨.tkEof, .empty, 1, 20⟩, rfl, rfl, by decide⟩, ?_⟩
  rintro ⟨stmts, q, ran, -⟩
  have failed : runParser (parserInit likeTokens) (parserParseAll (parserInit likeTokens)) =
      (.error .indeterminate : Except Fault (List (StmtT Int) × ParserT)) := rfl
  rw [failed] at ran
  cases ran

end MiniSqlite.Parser
