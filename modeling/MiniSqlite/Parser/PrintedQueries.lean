import MiniSqlite.Parser.PrintedStatements

/-!
# Queries that are printed and parsed again

The clauses of `parse_select`, in the order in which it reads them. A clause that is missing
leaves the tokens behind it as they are, since none of these is the keyword of the clause.
-/

namespace MiniSqlite.Parser

open MiniSqlite.Common MiniSqlite.Std MiniSqlite.Std.Code MiniSqlite.Storage

variable {Double : Type} [Platform Double] {render : Double → CString} {α β : Type}
  {types : List TokenTypeT}

/-! ## Lists of expressions -/

variable (types) in
theorem expressionList_passes {list : List (ExprT Double)} (some : list ≠ [])
    (printable : ∀ e ∈ list, Printable render e) (other : .tkComma ∉ types)
    (ends : EndsExpr (.tkComma :: types)) :
    Passes (commaWords (exprWords render) list) (· ∈ types)
      (fun p => invoke (.expressionList [] p)) fun p => pure (.some list, p) := by
  refine commaLoop_passes some other fun before item after same => ?_
  have member : item ∈ list := same ▸ List.mem_append_right before List.mem_cons_self
  exact ((printable item member).passes ends).last _

/-- A star is read as a column, with or without a table in front. -/
theorem star_passes {table : CString} (fits : table.length ≤ 63) (ends : EndsExpr types) :
    Passes (optional (table ≠ .empty) [nameWord table, symbol .tkDot] ++ [symbol .tkStar])
      (· ∈ types) parseExpression
      fun p => pure ((some (.columnRef table starText) : Option (ExprT Double)), p) := by
  intro tokens rest spelled begins value yields
  obtain ⟨next, more, rfl, here⟩ := begins
  have stops := (ends next.type here).1
  have read : (Call.primary (parserInit (tokens ++ next :: more))).Gives
      ((some (.columnRef table starText) : Option (ExprT Double)), parserInit (next :: more)) := ?_
  · exact gives_invoke (expressionPrec_gives read (precLoop_stops (.inl stops))) yields
  by_cases named : table ≠ .empty
  case pos =>
    rw [optional, if_pos named] at spelled
    obtain ⟨⟨type, lexeme, line, col⟩, rest, rfl, same, words⟩ := List.map_eq_cons_iff.mp spelled
    obtain rfl : .tkIdentifier = type := (type_of_word same).symm
    obtain rfl : table = lexeme := (lexeme_of_word same).symm
    obtain ⟨dot, rest, rfl, isDot, words'⟩ := List.map_eq_cons_iff.mp words
    obtain ⟨star, rfl, isStar⟩ := List.map_eq_singleton_iff.mp words'
    have cut : (.columnRef table starText : ExprT Double) =
        .columnRef (cut 63 table) (cut 63 star.lexeme) := by
      rw [lexeme_of_word isStar, cut_of_le fits]
      rfl
    rw [cut]
    exact primary_qualified (type_of_word isDot) (.inr (type_of_word isStar))
  case neg =>
    rw [optional, if_neg named] at spelled
    obtain ⟨⟨type, lexeme, line, col⟩, rfl, same⟩ := List.map_eq_singleton_iff.mp spelled
    cases type_of_word same
    rw [not_not.mp named]
    exact returns_iff.mpr (.done _)

theorem item_passes {item : ExprT Double} (printable : Printable render item)
    (ends : EndsExpr types) :
    Passes (itemWords render item) (· ∈ types) parseExpression
      fun p => pure (some item, p) := by
  rw [itemWords.eq_def]
  split
  case h_1 table column =>
    split
    case isTrue star =>
      subst star
      cases printable with
      | columnRef fits _ => exact star_passes fits ends
    case isFalse => exact printable.passes ends
  case h_2 => exact printable.passes ends

theorem finds_noAlias (noAs : .tkAs ∉ types) (noName : .tkIdentifier ∉ types) :
    Finds [] (· ∈ types) skipAlias fun p => p := by
  refine finds_nil fun token rest here => ?_
  have differ : token.type ≠ .tkAs := fun same => noAs (same ▸ here)
  have differ' : token.type ≠ .tkIdentifier := fun same => noName (same ▸ here)
  rw [skipAlias, ParserT.peekType_eq rfl, Std.ok_bind, if_neg differ]
  dsimp only
  rw [ParserT.peekType_eq rfl, Std.ok_bind, if_neg fun both => differ' both.1]
  rfl

variable (types) in
theorem selectList_passes {list : List (ExprT Double)} (some : list ≠ [])
    (printable : ∀ e ∈ list, Printable render e) (other : .tkComma ∉ types)
    (ends : EndsExpr (.tkComma :: types)) (noAs : .tkAs ∉ types) (noName : .tkIdentifier ∉ types) :
    Passes (commaWords (itemWords render) list) (· ∈ types)
      (fun p => invoke (.selectList [] p)) fun p => pure (.some list, p) := by
  refine commaLoop_passes some other fun before item after same => ?_
  have member : item ∈ list := same ▸ List.mem_append_right before List.mem_cons_self
  have first := (item_passes (printable item member) ends).last fun read =>
    whenParsed read fun expr p => do
      let p ← skipAlias p
      goOn .selectList (before ++ [expr]) p
  have second : Passes [] (· ∈ .tkComma :: types)
      (fun p => do goOn .selectList (before ++ [item]) (← skipAlias p))
      (goOn .selectList (before ++ [item])) :=
    (finds_noAlias (by simp [noAs]) (by simp [noName])).passes.last _
  exact first.look second fun _ member => member

/-! ## Tables and joins -/

theorem finds_name {name : CString} (fits : name.length ≤ 63) :
    Finds [nameWord name] anyType takeIdentifier fun p => (name, p) := by
  refine finds_token fun token rest same => ?_
  rw [takeIdentifier, ParserT.peek_eq rfl, Std.ok_bind, if_pos (type_of_word same),
    lexeme_of_word same, cut_of_le fits]
  rfl

/-- A name that may be missing. -/
theorem finds_optionalName {name : CString} (fits : name.length ≤ 63)
    (other : .tkIdentifier ∉ types) :
    Finds (optional (name ≠ .empty) [nameWord name]) (· ∈ types) takeIdentifier
      fun p => (name, p) := by
  by_cases named : name ≠ .empty
  · rw [optional, if_pos named]
    exact (finds_name fits).whatever
  · rw [optional, if_neg named]
    refine finds_nil fun token rest here => ?_
    have differ : token.type ≠ .tkIdentifier := fun same => other (same ▸ here)
    rw [takeIdentifier, ParserT.peek_eq rfl, Std.ok_bind, if_neg differ, not_not.mp named]
    rfl

theorem fromTables_passes {tables : List TableRefT} (some : tables ≠ [])
    (fit : ∀ table ∈ tables, table.name.length ≤ 63 ∧ table.aliasName.length ≤ 63)
    (other : .tkComma ∉ types) (noAs : .tkAs ∉ types) (noName : .tkIdentifier ∉ types) :
    Passes (commaWords tableWords tables) (· ∈ types)
      (fun p => (invoke (.fromTables [] p) : Parse Double _)) fun p => pure (.some tables, p) := by
  refine commaLoop_passes some other fun before table after same => ?_
  obtain ⟨fits, fits'⟩ := fit table (same ▸ List.mem_append_right before List.mem_cons_self)
  refine Passes.seq (finds_identifier fits _).passes ?_ opens_any
  have noAs' : Passes [] (· ∈ .tkIdentifier :: .tkComma :: types)
    (fun p => (liftM (p.matchToken .tkAs) : Parse Double _)) fun p => pure (false, p) :=
    (finds_no_match (by simp [noAs])).passes
  exact Passes.seq noAs' ((finds_optionalName fits' (by simp [noName])).passes.last _)
    (opensAt_optional _)

theorem finds_joinType {type : TokenTypeT} (join : type ∈ joinTypes) :
    Finds [symbol type] (· = .tkJoin) joinWords fun p => (some type, p) := by
  intro tokens rest spelled begins
  obtain ⟨⟨other, text, line, column⟩, rfl, same⟩ := List.map_eq_singleton_iff.mp spelled
  obtain rfl : type = other := (type_of_word same).symm
  obtain ⟨⟨next, text', line', column'⟩, more, rfl, here⟩ := begins
  cases here
  simp only [joinTypes, List.mem_cons, List.not_mem_nil, or_false] at join
  rcases join with rfl | rfl | rfl | rfl | rfl <;> rfl

theorem finds_noJoin (other : ∀ type ∈ types, type ∉ joinTypes) :
    Finds [] (· ∈ types) joinWords fun p => (none, p) := by
  refine finds_nil fun token rest here => ?_
  obtain ⟨type, text, line, column⟩ := token
  have noJoin := other type here
  rw [joinWords, ParserT.peekType_eq rfl, Std.ok_bind]
  dsimp only
  split
  case h_6 => rfl
  all_goals exact absurd (by decide) noJoin

/-- The name behind a keyword, which may be missing with its keyword. -/
theorem finds_nameBehind {keyword : TokenTypeT} {name : CString} (fits : name.length ≤ 63)
    (other : keyword ∉ types) :
    Finds (optional (name ≠ .empty) [symbol keyword, nameWord name]) (· ∈ types)
      (takeIdentifierBehind keyword) fun p => (name, p) := by
  by_cases named : name ≠ .empty
  · rw [optional, if_pos named]
    exact (finds_match keyword).seq ((finds_name fits).whatever) opens_any
  · rw [optional, if_neg named, not_not.mp named]
    exact (finds_no_match other).last fun _ => rfl

theorem condition_passes {condition : Option (ExprT Double)}
    (printable : ClausePrintable render condition) (other : .tkOn ∉ types)
    (ends : EndsExpr types) :
    Passes (clauseWords render .tkOn condition) (· ∈ types) parseCondition
      fun p => pure (condition, p) := by
  cases condition with
  | none => exact (finds_no_match other).passes.last _
  | some e =>
    refine Passes.seq (finds_match .tkOn).passes ?_ opens_any
    exact (printable e rfl).passes ends

theorem join_passes {join : JoinClauseT Double} (printable : JoinPrintable render join)
    (before : List (JoinClauseT Double)) (noAs : .tkAs ∉ types) (noOn : .tkOn ∉ types)
    (ends : EndsExpr types) :
    Passes (joinClauseWords render join) (· ∈ types) (fun p => invoke (.joins before p))
      fun p => invoke (.joins (before ++ [join]) p) := by
  obtain ⟨type, ⟨fits, fits'⟩, condition⟩ := printable
  refine Passes.call ?_
  refine Passes.seq (finds_joinType type).passes ?_ (opensAt_symbol rfl)
  refine Passes.seq (finds_expect .tkJoin).passes ?_ opens_any
  refine Passes.seq (finds_identifier fits _).passes ?_ opens_any
  refine Passes.seq (finds_nameBehind fits' ?_).passes
    ((condition_passes condition noOn ends).last _) (opensAt_clause render _ join.condition)
  simp [noAs]

variable (types) in
theorem joins_pass {joins : List (JoinClauseT Double)}
    (printable : ∀ join ∈ joins, JoinPrintable render join) (noAs : .tkAs ∉ types)
    (noOn : .tkOn ∉ types) (ends : EndsExpr types) (noJoin : ∀ type ∈ types, type ∉ joinTypes) :
    Passes (joins.flatMap (joinClauseWords render)) (· ∈ types) (fun p => invoke (.joins [] p))
        (fun p => pure (some joins, p)) ∧
      OpensAt (joins.flatMap (joinClauseWords render)) (· ∈ joinTypes ++ types) (· ∈ types) := by
  have both : ∀ type ∈ joinTypes, type ≠ .tkAs ∧ type ≠ .tkOn ∧
    getPrecedence type = 0 ∧ type ≠ .tkLeftParen ∧ type ≠ .tkDot := by decide
  have ends' : EndsExpr (joinTypes ++ types) := List.forall_mem_append.mpr
    ⟨fun type member => (both type member).2.2, ends⟩
  have turn (before : List (JoinClauseT Double)) : ∀ join ∈ joins,
      Passes (joinClauseWords render join) (· ∈ joinTypes ++ types)
        (fun p => invoke (.joins before p)) fun p => invoke (.joins (before ++ [join]) p) := by
    intro join member
    refine join_passes (printable join member) before ?_ ?_ ends'
    · exact fun inside => (List.mem_append.mp inside).elim (fun here => (both _ here).1 rfl) noAs
    · exact fun inside => (List.mem_append.mp inside).elim (fun here => (both _ here).2.1 rfl) noOn
  have first : ∀ join ∈ joins, OpensAt (joinClauseWords render join) (· ∈ joinTypes ++ types)
      (· ∈ joinTypes ++ types) := fun join member =>
    opensAt_symbol (List.mem_append_left types (printable join member).type)
  obtain ⟨passes, opens⟩ := skips_flatMap
    (fun before tokens => invoke (Call.joins before (parserInit tokens))) turn first
  have stops : Passes [] (· ∈ types) (fun p => invoke (Call.joins joins p))
      fun p => pure (some joins, p) := Passes.call ((finds_noJoin noJoin).passes.last _)
  exact ⟨passes.look stops fun _ member => List.mem_append_right joinTypes member,
    fun _ _ spelled begins =>
      opens spelled (begins.mono fun _ member => List.mem_append_right _ member)⟩

/-! ## The other clauses -/

/-- A list behind a keyword and `BY`. -/
theorem by_passes {keyword : TokenTypeT} {print : α → List Word} {items : List α}
    {loop : ParserT → Call Double (Option (List α) × ParserT)} (other : keyword ∉ types)
    (list : items ≠ [] → Passes (commaWords print items) (· ∈ types) (fun p => invoke (loop p))
      fun p => pure (some items, p)) :
    Passes (byWords keyword print items) (· ∈ types) (parseByClause keyword loop)
      fun p => pure (some items, p) := by
  cases items with
  | nil => exact (finds_no_match other).passes.last _
  | cons item items =>
    refine Passes.seq (finds_match keyword).passes ?_ opens_any
    refine Passes.seq (finds_expect .tkBy).passes ?_ opens_any
    exact list (List.cons_ne_nil item items)

/-- The direction of an item, which is ascending unless it is said to be descending. -/
theorem finds_ascending {ascending : Bool} (noAsc : .tkAsc ∉ types) (noDesc : .tkDesc ∉ types) :
    Finds (optional (!ascending) [symbol .tkDesc]) (· ∈ types) parseAscending
      fun p => (ascending, p) := by
  cases ascending with
  | true =>
    exact (finds_no_match noAsc).seq ((finds_no_match noDesc).last fun _ => rfl)
      (opens_nil fun _ here => here)
  | false =>
    have noAsc' : Finds [] (· ∈ .tkDesc :: types) (fun p => p.matchToken .tkAsc) fun p => (false, p) :=
      finds_no_match (by simp [noAsc])
    exact noAsc'.seq ((finds_match .tkDesc).whatever.last fun _ => rfl) opensAt_head

theorem orderBy_passes {items : List (OrderByItemT Double)} (some : items ≠ [])
    (printable : ∀ item ∈ items, Printable render item.expr) (other : .tkComma ∉ types)
    (ends : EndsExpr (.tkDesc :: .tkComma :: types)) (noAsc : .tkAsc ∉ types)
    (noDesc : .tkDesc ∉ types) :
    Passes (commaWords (orderWords render) items) (· ∈ types)
      (fun p => invoke (.orderBy [] p)) fun p => pure (.some items, p) := by
  refine commaLoop_passes some other fun before item after same => ?_
  have member : item ∈ items := same ▸ List.mem_append_right before List.mem_cons_self
  refine Passes.seq ((printable item member).passes ends) ?_ (opensAt_optional _)
  have direction : Passes (optional (!item.ascending) [symbol .tkDesc]) (· ∈ .tkComma :: types)
      (fun p => (liftM (parseAscending p) : Parse Double _)) fun p => pure (item.ascending, p) :=
    (finds_ascending (by simp [noAsc]) (by simp [noDesc])).passes
  exact direction.last _

theorem intLiteral_number {token : TokenT} {number : Int32} (same : token.word = numberWord number) :
    intLiteral token = number := by
  rw [intLiteral, lexeme_of_word same, strtoll_formatInt, Int32.toInt32_toInt64]

theorem finds_limit {limit offset : Int32}
    (printed : limit = -1 ∧ offset = -1 ∨ 0 ≤ limit ∧ (offset = -1 ∨ 0 ≤ offset))
    (noLimit : .tkLimit ∉ types) (noOffset : .tkOffset ∉ types) :
    Finds (limitWords limit offset) (· ∈ types) parseLimit fun p => (some (limit, offset), p) := by
  rcases printed with ⟨rfl, rfl⟩ | ⟨limited, shifted⟩
  · rw [limitWords, optional, if_neg (by decide)]
    exact (finds_no_match noLimit).last fun _ => rfl
  · have shift : Finds (optional (0 ≤ offset) [symbol .tkOffset, numberWord offset]) (· ∈ types)
        (fun p => do
          let found ← p.matchToken .tkOffset
          if !found.1 then return (some (limit, -1), found.2)
          else
            let token ← found.2.peek
            if token.type = .tkIntLiteral then
              return (some (limit, intLiteral token), found.2.advance)
            else return (some (limit, -1), found.2)) fun p => (some (limit, offset), p) := by
      rcases shifted with rfl | shifted
      · rw [optional, if_neg (by decide)]
        exact (finds_no_match noOffset).last fun _ => rfl
      · rw [optional, if_pos shifted]
        refine (finds_match .tkOffset).seq ?_ opens_any
        refine (finds_token fun token rest same => ?_).whatever
        obtain ⟨type, text, line, column⟩ := token
        cases type_of_word same
        rw [← intLiteral_number same]
        rfl
    rw [limitWords, optional, if_pos limited]
    intro tokens rest spelled begins
    obtain ⟨⟨type, text, line, column⟩, more, rfl, first, words⟩ :=
      List.map_eq_cons_iff.mp spelled
    cases type_of_word first
    obtain ⟨⟨type, text', line', column'⟩, more, rfl, second, words'⟩ :=
      List.map_eq_cons_iff.mp words
    cases type_of_word second
    have found := shift words' begins
    rw [← intLiteral_number second] at found ⊢
    exact found

/-! ## Queries -/

/-- The tokens behind a statement. -/
def stmtEnds : List TokenTypeT := [.tkSemicolon, .tkEof]

/-- The tokens behind the joins of a query. -/
def tailStarts : List TokenTypeT :=
  .tkWhere :: .tkGroup :: .tkHaving :: .tkOrder :: .tkLimit :: stmtEnds

/-- The clauses behind the joins, and what they start with. -/
theorem tail_passes {select : SelectT Double} (printable : SelectPrintable render select) :
    Passes (tailWords render select) (· ∈ stmtEnds)
        (parseSelectTail select.selectList select.isDistinct select.fromTables select.joins)
        (fun p => pure (some (.select select), p)) ∧
      OpensAt (tailWords render select) (· ∈ tailStarts) (· ∈ stmtEnds) := by
  have limit : OpensAt (limitWords select.limit select.offset) (· ∈ .tkLimit :: stmtEnds)
    (· ∈ stmtEnds) := opensAt_optional _
  have orderBy := (opensAt_by .tkOrder (orderWords render) select.orderBy).append limit
  have having := (opensAt_clause render .tkHaving select.having).append orderBy
  have groupBy := (opensAt_by .tkGroup (exprWords render) select.groupBy).append having
  refine ⟨?_, (opensAt_clause render .tkWhere select.whereClause).append groupBy⟩
  refine Passes.seq (clause_passes printable.whereClause (by decide) (by decide)) ?_ groupBy
  refine Passes.seq (by_passes (by decide) fun some => expressionList_passes _ some printable.groupBy
    (by decide) (by decide)) ?_ having
  refine Passes.seq (clause_passes printable.having (by decide) (by decide)) ?_ orderBy
  refine Passes.seq (by_passes (by decide) fun some => orderBy_passes some printable.orderBy
    (by decide) (by decide) (by decide) (by decide)) ?_ limit
  exact (finds_limit printable.limit (by decide) (by decide)).passes.last _

theorem opensAt_item {item : ExprT Double} (printable : Printable render item) :
    OpensAt (itemWords render item) (· ∈ .tkStar :: exprStarts) anyType := by
  have plain : OpensAt (exprWords render item) (· ∈ .tkStar :: exprStarts) anyType :=
    printable.opens.mono fun _ member => List.mem_cons_of_mem _ member
  rw [itemWords.eq_def]
  split
  case h_1 table column =>
    split
    case isTrue =>
      rw [optional]
      split
      case isTrue => exact opens_cons fun _ same => (type_of_word same).symm ▸ by decide
      case isFalse => exact opensAt_head
    case isFalse => exact plain
  case h_2 => exact plain

/-- A keyword that may be missing. -/
theorem finds_keyword {type : TokenTypeT} (present : Bool) (other : type ∉ types) :
    Finds (optional present [symbol type]) (· ∈ types) (fun p => p.matchToken type)
      fun p => (present, p) := by
  cases present with
  | true => exact (finds_match type).whatever
  | false => exact finds_no_match other

/-- The tables, the joins and what follows them. -/
theorem from_passes {select : SelectT Double} (printable : SelectPrintable render select) :
    Passes (fromWords render select ++ tailWords render select) (· ∈ stmtEnds)
        (fun p => do
          let (hasTables, p) ← p.matchToken .tkFrom
          if hasTables then
            let fromTables ← invoke (.fromTables [] p)
            whenParsed fromTables fun fromTables p => do
              let joins ← invoke (.joins [] p)
              whenParsed joins fun joins p =>
                parseSelectTail select.selectList select.isDistinct fromTables joins p
          else parseSelectTail select.selectList select.isDistinct [] [] p)
        (fun p => pure (some (.select select), p)) ∧
      OpensAt (fromWords render select ++ tailWords render select) (· ∈ .tkFrom :: tailStarts)
        (· ∈ stmtEnds) := by
  obtain ⟨tail, opensTail⟩ := tail_passes printable
  refine ⟨?_, (opensAt_optional _).append opensTail⟩
  by_cases none : select.fromTables = []
  case pos =>
    rw [none, printable.joined none] at tail
    rw [fromWords, none, optional, if_neg (by decide)]
    exact Passes.seq (finds_no_match (by decide)).passes tail opensTail
  case neg =>
    obtain ⟨joins, opensJoins⟩ := joins_pass tailStarts printable.joins (by decide)
      (by decide) (by decide) (by decide)
    have tables : Passes (commaWords tableWords select.fromTables) (· ∈ joinTypes ++ tailStarts)
        (fun p => (invoke (.fromTables [] p) : Parse Double _))
        fun p => pure (some select.fromTables, p) :=
      fromTables_passes none printable.tables (by decide) (by decide) (by decide)
    rw [fromWords, optional, if_pos (List.length_pos_iff.mpr none).ne', List.cons_append,
      List.append_assoc]
    refine Passes.seq (finds_match .tkFrom).passes ?_ opens_any
    exact tables.seq (joins.seq tail opensTail) (opensJoins.append opensTail)

theorem select_passes {select : SelectT Double} (printable : SelectPrintable render select) :
    Passes (selectWords render select) (· ∈ stmtEnds) parseSelect
      fun p => pure (some (.select select), p) := by
  obtain ⟨tables, opensTables⟩ := from_passes printable
  obtain ⟨some, items⟩ := printable.items
  have opensItems : OpensAt (commaWords (itemWords render) select.selectList)
      (· ∈ .tkStar :: exprStarts) (· ∈ .tkFrom :: tailStarts) :=
    opens_separated some fun item member => opensAt_item (items item member)
  have list := selectList_passes (.tkFrom :: tailStarts) some items (by decide) (by decide)
    (by decide) (by decide)
  have distinct : Finds (optional select.isDistinct [symbol .tkDistinct])
      (· ∈ .tkStar :: exprStarts) (fun p => p.matchToken .tkDistinct)
      fun p => (select.isDistinct, p) := finds_keyword _ (by decide)
  exact Passes.seq (distinct.advance (symbol .tkSelect)).passes (list.seq tables opensTables)
    (opensItems.append opensTables)

end MiniSqlite.Parser
