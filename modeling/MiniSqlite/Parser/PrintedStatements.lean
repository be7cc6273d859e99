import MiniSqlite.Parser.PrintedExpressions
import MiniSqlite.Std.PrintedWords

/-!
# Statements that are printed and parsed again

`stmtWords` prints a statement, and the parser reads the same statement from the tokens. Each
clause is read on its own (`Passes`): what the clauses before and behind it look like shows only
in the types of the tokens that may follow.
-/

namespace MiniSqlite.Parser

open MiniSqlite.Common MiniSqlite.Std MiniSqlite.Std.Code MiniSqlite.Storage

variable {Double : Type}

/-! ## Printing -/

/-- The type and the text of a token. -/
abbrev Word := TokenTypeT × CString

/-- A name. -/
def nameWord (name : CString) : Word := (.tkIdentifier, name)

/-- A number that is not negative. -/
def numberWord (number : Int32) : Word := (.tkIntLiteral, formatInt number.toInt64)

/-- Words that may be missing. -/
def optional (present : Prop) [Decidable present] (words : List Word) : List Word :=
  if present then words else []

/-- `*`. -/
def starText : CString := CString.ofChars ['*']

variable (render : Double → CString)

/-- An item of a select list, which may be `*`. -/
def itemWords : ExprT Double → List Word
  | .columnRef table column =>
      if column = starText then
        optional (table ≠ .empty) [nameWord table, symbol .tkDot] ++ [symbol .tkStar]
      else exprWords render (.columnRef table column)
  | e => exprWords render e

/-- A clause of an expression behind a keyword. -/
def clauseWords (keyword : TokenTypeT) : Option (ExprT Double) → List Word
  | none => []
  | some e => symbol keyword :: exprWords render e

/-- A table of `FROM`. -/
def tableWords (table : TableRefT) : List Word :=
  nameWord table.name :: optional (table.aliasName ≠ .empty) [nameWord table.aliasName]

/-- A join. -/
def joinClauseWords (join : JoinClauseT Double) : List Word :=
  symbol join.joinType :: symbol .tkJoin :: nameWord join.table.name ::
    (optional (join.table.aliasName ≠ .empty) [symbol .tkAs, nameWord join.table.aliasName] ++
      clauseWords render .tkOn join.condition)

/-- Items between commas. -/
abbrev commaWords {α : Type} (print : α → List Word) (items : List α) : List Word :=
  separated (symbol .tkComma) print items

/-- A list of names. -/
def nameWords (names : List CString) : List Word := commaWords (fun name => [nameWord name]) names

/-- A list behind `GROUP BY` or `ORDER BY`. -/
def byWords {α : Type} (keyword : TokenTypeT) (print : α → List Word) (items : List α) :
    List Word :=
  optional (items.length ≠ 0) (symbol keyword :: symbol .tkBy :: commaWords print items)

/-- An item of `ORDER BY`. -/
def orderWords (item : OrderByItemT Double) : List Word :=
  exprWords render item.expr ++ optional (!item.ascending) [symbol .tkDesc]

/-- `LIMIT` and `OFFSET`. -/
def limitWords (limit offset : Int32) : List Word :=
  optional (0 ≤ limit) (symbol .tkLimit :: numberWord limit ::
    optional (0 ≤ offset) [symbol .tkOffset, numberWord offset])

/-- The tables of a query and its joins. -/
def fromWords (select : SelectT Double) : List Word :=
  optional (select.fromTables.length ≠ 0) (symbol .tkFrom ::
    (commaWords tableWords select.fromTables ++ select.joins.flatMap (joinClauseWords render)))

/-- What follows the joins of a query. -/
def tailWords (select : SelectT Double) : List Word :=
  clauseWords render .tkWhere select.whereClause ++
    (byWords .tkGroup (exprWords render) select.groupBy ++
      (clauseWords render .tkHaving select.having ++
        (byWords .tkOrder (orderWords render) select.orderBy ++
          limitWords select.limit select.offset)))

/-- A query. -/
def selectWords (select : SelectT Double) : List Word :=
  symbol .tkSelect :: (optional select.isDistinct [symbol .tkDistinct] ++
    (commaWords (itemWords render) select.selectList ++
      (fromWords render select ++ tailWords render select)))

/-- The type of a column. -/
def columnTypeWords (varcharLen : Int32) : ColDataType → List Word
  | .integer => [symbol .tkInteger]
  | .float => [symbol .tkFloat]
  | .varchar => symbol .tkVarchar :: optional (varcharLen ≠ 0)
      [symbol .tkLeftParen, numberWord varcharLen, symbol .tkRightParen]
  | .boolean => [symbol .tkBoolean]

/-- The constraints of a column. -/
def constraintWords (col : AstColumnDefT Double) : List Word :=
  optional col.isPrimaryKey [symbol .tkPrimary, symbol .tkKey] ++
    (optional (!col.isPrimaryKey && col.notNull) [symbol .tkNot, symbol .tkNull] ++
      (optional col.isUnique [symbol .tkUnique] ++
        optional col.hasDefault (symbol .tkDefault :: exprWords render (.literal col.defaultValue))))

/-- A column of a new table. -/
def columnWords (col : AstColumnDefT Double) : List Word :=
  nameWord col.name :: (columnTypeWords col.varcharLen col.dataType ++ constraintWords render col)

/-- Words in parentheses. -/
def parenWords (words : List Word) : List Word :=
  symbol .tkLeftParen :: (words ++ [symbol .tkRightParen])

/-- An assignment. -/
def assignmentWords (assignment : AssignmentT Double) : List Word :=
  nameWord assignment.column :: symbol .tkEqual :: exprWords render assignment.value

/-- The levels of isolation, as they are named and as they are written. -/
def isolationLevels : List (CString × List Word) :=
  [(CString.ofChars "READ UNCOMMITTED".toList, [symbol .tkRead, symbol .tkUncommitted]),
    (CString.ofChars "READ COMMITTED".toList, [symbol .tkRead, symbol .tkCommitted]),
    (CString.ofChars "REPEATABLE READ".toList, [symbol .tkRepeatable, symbol .tkRead]),
    (CString.ofChars "SERIALIZABLE".toList, [symbol .tkSerializable])]

/-- The level of isolation of `BEGIN`. -/
def isolationWords (level : CString) : List Word :=
  match isolationLevels.find? (·.1 = level) with
  | none => []
  | some (_, words) => symbol .tkIsolation :: symbol .tkLevel :: words

/-- A statement. -/
def stmtWords : StmtT Double → List Word
  | .createTable tableName columns ifNotExists =>
      symbol .tkCreate :: symbol .tkTable ::
        (optional ifNotExists [symbol .tkIf, symbol .tkNot, symbol .tkExists] ++
          nameWord tableName :: parenWords (commaWords (columnWords render) columns))
  | .dropTable tableName ifExists =>
      symbol .tkDrop :: symbol .tkTable :: (optional ifExists [symbol .tkIf, symbol .tkExists] ++
        [nameWord tableName])
  | .createIndex tableName indexName columns _ =>
      symbol .tkCreate :: symbol .tkIndex :: nameWord indexName :: symbol .tkOn ::
        nameWord tableName :: parenWords (nameWords columns)
  | .dropIndex indexName tableName =>
      symbol .tkDrop :: symbol .tkIndex :: nameWord indexName ::
        optional (tableName ≠ .empty) [symbol .tkOn, nameWord tableName]
  | .insert tableName columns values =>
      symbol .tkInsert :: symbol .tkInto :: nameWord tableName ::
        (optional (columns.length ≠ 0) (parenWords (nameWords columns)) ++
          symbol .tkValues ::
            commaWords (fun row => parenWords (commaWords (exprWords render) row)) values)
  | .update tableName assignments whereClause =>
      symbol .tkUpdate :: nameWord tableName :: symbol .tkSet ::
        (commaWords (assignmentWords render) assignments ++
          clauseWords render .tkWhere whereClause)
  | .deleteStmt tableName whereClause =>
      symbol .tkDelete :: symbol .tkFrom :: nameWord tableName ::
        clauseWords render .tkWhere whereClause
  | .select select => selectWords render select
  | .begin isolationLevel => symbol .tkBegin :: isolationWords isolationLevel
  | .commit => [symbol .tkCommit]
  | .rollback => [symbol .tkRollback]
  | .explain inner => symbol .tkExplain :: stmtWords inner

variable [Platform Double]

/-- The expressions of a clause are printed. -/
def ClausePrintable (clause : Option (ExprT Double)) : Prop := ∀ e ∈ clause, Printable render e

/-- The types of joins. -/
def joinTypes : List TokenTypeT := [.tkInner, .tkLeft, .tkRight, .tkCross, .tkFull]

/-- Joins whose names fit their fields. -/
structure JoinPrintable (join : JoinClauseT Double) : Prop where
  type : join.joinType ∈ joinTypes
  fits : join.table.name.length ≤ 63 ∧ join.table.aliasName.length ≤ 63
  condition : ClausePrintable render join.condition

/-- Queries whose names fit their fields. There are no joins without a table in front of them,
and no `OFFSET` without `LIMIT`. -/
structure SelectPrintable (select : SelectT Double) : Prop where
  items : select.selectList ≠ [] ∧ ∀ item ∈ select.selectList, Printable render item
  tables : ∀ table ∈ select.fromTables, table.name.length ≤ 63 ∧ table.aliasName.length ≤ 63
  joined : select.fromTables = [] → select.joins = []
  joins : ∀ join ∈ select.joins, JoinPrintable render join
  whereClause : ClausePrintable render select.whereClause
  groupBy : ∀ e ∈ select.groupBy, Printable render e
  having : ClausePrintable render select.having
  orderBy : ∀ item ∈ select.orderBy, Printable render item.expr
  limit : select.limit = -1 ∧ select.offset = -1 ∨
    0 ≤ select.limit ∧ (select.offset = -1 ∨ 0 ≤ select.offset)

/-- Columns whose names fit their fields. A primary key is not null, a length belongs to a
`VARCHAR`, and a default value is one that can be written as a literal. -/
structure ColumnPrintable (col : AstColumnDefT Double) : Prop where
  fits : col.name.length ≤ 63
  sized : col.dataType ≠ .varchar → col.varcharLen = 0
  notNull : col.isPrimaryKey = true → col.notNull = true
  default : if col.hasDefault then Printable render (.literal col.defaultValue)
    else col.defaultValue = .null

/-- Statements whose names fit their fields and whose lists have items. `CREATE INDEX` makes no
unique index, and an index has eight columns at most. -/
inductive StmtPrintable : StmtT Double → Prop where
  | createTable {tableName : CString} {columns : List (AstColumnDefT Double)} {ifNotExists : Bool}
      (fits : tableName.length ≤ 63) (some : columns ≠ [])
      (printable : ∀ col ∈ columns, ColumnPrintable render col) :
      StmtPrintable (.createTable tableName columns ifNotExists)
  | dropTable {tableName : CString} {ifExists : Bool} (fits : tableName.length ≤ 63) :
      StmtPrintable (.dropTable tableName ifExists)
  | createIndex {tableName indexName : CString} {columns : List CString}
      (fits : tableName.length ≤ 63 ∧ indexName.length ≤ 63) (some : columns ≠ [])
      (few : columns.length ≤ 8) (fit : ∀ column ∈ columns, column.length ≤ 63) :
      StmtPrintable (.createIndex tableName indexName columns false)
  | dropIndex {indexName tableName : CString}
      (fits : indexName.length ≤ 63 ∧ tableName.length ≤ 63) :
      StmtPrintable (.dropIndex indexName tableName)
  | insert {tableName : CString} {columns : List CString} {values : List (List (ExprT Double))}
      (fits : tableName.length ≤ 63) (fit : ∀ column ∈ columns, column.length ≤ 63)
      (some : values ≠ []) (rows : ∀ row ∈ values, row ≠ [] ∧ ∀ e ∈ row, Printable render e) :
      StmtPrintable (.insert tableName columns values)
  | update {tableName : CString} {assignments : List (AssignmentT Double)}
      {whereClause : Option (ExprT Double)} (fits : tableName.length ≤ 63) (some : assignments ≠ [])
      (printable : ∀ assignment ∈ assignments,
        assignment.column.length ≤ 63 ∧ Printable render assignment.value)
      (clause : ClausePrintable render whereClause) :
      StmtPrintable (.update tableName assignments whereClause)
  | deleteStmt {tableName : CString} {whereClause : Option (ExprT Double)}
      (fits : tableName.length ≤ 63) (clause : ClausePrintable render whereClause) :
      StmtPrintable (.deleteStmt tableName whereClause)
  | select {select : SelectT Double} (printable : SelectPrintable render select) :
      StmtPrintable (.select select)
  | begin {isolationLevel : CString}
      (level : isolationLevel = .empty ∨ isolationLevel ∈ isolationLevels.map Prod.fst) :
      StmtPrintable (.begin isolationLevel)
  | commit : StmtPrintable .commit
  | rollback : StmtPrintable .rollback
  | explain {inner : StmtT Double} (printable : StmtPrintable inner) :
      StmtPrintable (.explain inner)

/-! ## Reading -/

variable {render} {α β : Type} {words words' : List Word} {middle follows : TokenTypeT → Prop}

/-- Code of the parser reads the tokens of some words and goes on behind them as other code
does. -/
abbrev Passes (words : List Word) (follows : TokenTypeT → Prop)
    (code next : ParserT → Parse Double α) : Prop :=
  Skips (@body Double _) Fault.unending TokenT.word words (fun token => follows token.type)
    (fun tokens => code (parserInit tokens)) (fun tokens => next (parserInit tokens))

/-- The types of the tokens that words and what follows them start with. -/
abbrev OpensAt (words : List Word) (kind follows : TokenTypeT → Prop) : Prop :=
  Opens TokenT.word words (fun token => kind token.type) (fun token => follows token.type)

/-- Any type. -/
abbrev anyType : TokenTypeT → Prop := fun _ => True

/-- Code that reads words and has a value behind them, and what follows it. -/
theorem Passes.seq {code : ParserT → Parse Double β} {value : ParserT → β}
    {more : β → Parse Double α} {next : ParserT → Parse Double α}
    (first : Passes words middle code fun p => pure (value p))
    (second : Passes words' follows (fun p => more (value p)) next)
    (opens : OpensAt words' middle follows) :
    Passes (words ++ words') follows (fun p => code p >>= more) next :=
  (Skips.bind first more).trans second opens

variable (words follows) in
/-- A computation without calls reads the tokens of some words and has a value behind them. -/
def Finds (computed : ParserT → Except Fault β) (value : ParserT → β) : Prop :=
  ∀ ⦃tokens rest : List TokenT⦄, tokens.map TokenT.word = words →
    Begins (fun token => follows token.type) rest →
      computed (parserInit (tokens ++ rest)) = .ok (value (parserInit rest))

theorem Finds.passes {computed : ParserT → Except Fault β} {value : ParserT → β}
    (finds : Finds words follows computed value) :
    Passes words follows (fun p => (liftM (computed p) : Parse Double β))
      fun p => pure (value p) := by
  intro tokens rest spelled begins result yields
  have found := finds spelled begins
  dsimp only
  rw [found]
  exact yields

theorem Finds.seq {computed : ParserT → Except Fault β} {value : ParserT → β}
    {more : β → Except Fault α} {result : ParserT → α} (first : Finds words middle computed value)
    (second : Finds words' follows (fun p => more (value p)) result)
    (opens : OpensAt words' middle follows) :
    Finds (words ++ words') follows (fun p => computed p >>= more) result := by
  intro tokens rest spelled begins
  obtain ⟨front, back, rfl, spelled, spelled'⟩ := List.map_eq_append_iff.mp spelled
  dsimp only
  rw [List.append_assoc, first spelled (opens spelled' begins), Std.ok_bind]
  exact second spelled' begins

theorem Finds.last {computed : ParserT → Except Fault β} {value : ParserT → β}
    {more : β → Except Fault α} {result : ParserT → α} (finds : Finds words follows computed value)
    (same : ∀ p, more (value p) = .ok (result p)) :
    Finds words follows (fun p => computed p >>= more) result := by
  intro tokens rest spelled begins
  dsimp only
  rw [finds spelled begins]
  exact same _

theorem Finds.mono {computed : ParserT → Except Fault β} {value : ParserT → β}
    (finds : Finds words middle computed value) (included : ∀ type, follows type → middle type) :
    Finds words follows computed value :=
  fun _ _ spelled begins => finds spelled (begins.mono fun token => included token.type)

theorem Finds.whatever {computed : ParserT → Except Fault β} {value : ParserT → β}
    (finds : Finds words anyType computed value) : Finds words follows computed value :=
  finds.mono fun _ _ => trivial

theorem finds_token {computed : ParserT → Except Fault β} {value : ParserT → β} {first : Word}
    (found : ∀ token rest, token.word = first →
      computed (parserInit (token :: rest)) = .ok (value (parserInit rest))) :
    Finds [first] anyType computed value := by
  intro tokens rest spelled begins
  obtain ⟨token, rfl, same⟩ := List.map_eq_singleton_iff.mp spelled
  exact found token rest same

theorem finds_nil {computed : ParserT → Except Fault β} {value : ParserT → β}
    (found : ∀ token rest, follows token.type → computed (parserInit (token :: rest)) =
      .ok (value (parserInit (token :: rest)))) : Finds [] follows computed value := by
  intro tokens rest spelled begins
  obtain rfl := List.map_eq_nil_iff.mp spelled
  obtain ⟨first, more, rfl, here⟩ := begins
  exact found first more here

theorem finds_expect (type : TokenTypeT) :
    Finds [symbol type] anyType (fun p => p.expect type) fun p => (true, p) := by
  refine finds_token fun token rest same => ?_
  rw [ParserT.expect, ParserT.peek_eq rfl, Std.ok_bind, if_pos (type_of_word same)]
  rfl

theorem finds_match (type : TokenTypeT) :
    Finds [symbol type] anyType (fun p => p.matchToken type) fun p => (true, p) := by
  refine finds_token fun token rest same => ?_
  rw [ParserT.matchToken, ParserT.peekType_eq rfl, Std.ok_bind, if_pos (type_of_word same)]
  rfl

theorem finds_no_match {type : TokenTypeT} (other : ¬ follows type) :
    Finds [] follows (fun p => p.matchToken type) fun p => (false, p) := by
  refine finds_nil fun token rest here => ?_
  have differ : token.type ≠ type := fun same => other (same ▸ here)
  rw [ParserT.matchToken, ParserT.peekType_eq rfl, Std.ok_bind, if_neg differ]
  rfl

theorem finds_identifier {name : CString} (fits : name.length ≤ 63) (message : String) :
    Finds [nameWord name] anyType (requireIdentifier message) fun p => (some name, p) := by
  refine finds_token fun token rest same => ?_
  rw [requireIdentifier, ParserT.peek_eq rfl, Std.ok_bind, if_pos (type_of_word same),
    lexeme_of_word same, cut_of_le fits]
  rfl

/-- A token that the code before has looked at. -/
theorem Finds.advance {computed : ParserT → Except Fault β} {value : ParserT → β}
    (finds : Finds words follows computed value) (first : Word) :
    Finds (first :: words) follows (fun p => computed p.advance) value := by
  intro tokens rest spelled begins
  obtain ⟨token, more, rfl, -, spelled⟩ := List.map_eq_cons_iff.mp spelled
  exact finds spelled begins

theorem Passes.last {code : ParserT → Parse Double β} {value : ParserT → β}
    (first : Passes words follows code fun p => pure (value p)) (more : β → Parse Double α) :
    Passes words follows (fun p => code p >>= more) fun p => more (value p) :=
  Skips.bind first more

theorem Passes.call {procedure : ParserT → Call Double α} {next : ParserT → Parse Double α}
    (passes : Passes words follows (fun p => body (procedure p)) next) :
    Passes words follows (fun p => invoke (procedure p)) next := Skips.call passes

/-! ## First tokens -/

section Opens

variable {type : TokenTypeT} {types : List TokenTypeT}

omit [Platform Double]

theorem opensAt_symbol {kind : TokenTypeT → Prop} (here : kind type) :
    OpensAt (symbol type :: words) kind follows :=
  opens_cons fun _ same => (type_of_word same).symm ▸ here

theorem opensAt_head {word : Word} : OpensAt (word :: words) (· ∈ word.1 :: types) follows :=
  opens_cons fun _ same => (congrArg Prod.fst same).symm ▸ List.mem_cons_self

theorem opensAt_optional {word : Word} (present : Prop) [Decidable present] :
    OpensAt (optional present (word :: words)) (· ∈ word.1 :: types) (· ∈ types) := by
  by_cases here : present
  · rw [optional, if_pos here]
    exact opensAt_head
  · rw [optional, if_neg here]
    exact opens_nil fun _ member => List.mem_cons_of_mem _ member

variable (render type) in
theorem opensAt_clause (clause : Option (ExprT Double)) :
    OpensAt (clauseWords render type clause) (· ∈ type :: types) (· ∈ types) := by
  cases clause with
  | none => exact opens_nil fun _ member => List.mem_cons_of_mem _ member
  | some e => exact opensAt_head

variable (type) in
theorem opensAt_by (print : α → List Word) (items : List α) :
    OpensAt (byWords type print items) (· ∈ type :: types) (· ∈ types) := opensAt_optional _

/-- The types of the tokens that expressions start with. -/
def exprStarts : List TokenTypeT :=
  .tkLeftParen :: .tkMinus :: .tkNot :: literalTypes ++ functionTypes

theorem opensAt_start {lexeme : CString} (start : type ∈ exprStarts) :
    OpensAt ((type, lexeme) :: words) (· ∈ exprStarts) follows :=
  opens_cons fun _ same => (type_of_word same).symm ▸ start

theorem opensAt_enclose {e : ExprT Double} (opens : OpensAt words (· ∈ exprStarts) anyType)
    (level : Nat) : OpensAt (enclose level e words ++ words') (· ∈ exprStarts) follows := by
  have enclosed : OpensAt (enclose level e words) (· ∈ exprStarts) anyType := by
    rw [enclose]
    split
    case isTrue => exact opensAt_head
    case isFalse => exact opens
  exact enclosed.append opens_any

end Opens

theorem Printable.opens {e : ExprT Double} (printable : Printable render e) :
    OpensAt (exprWords render e) (· ∈ exprStarts) anyType := by
  have function (name : CString) : functionType name ∈ exprStarts :=
    List.mem_append_right _ (functionType_mem name)
  have column : .tkIdentifier ∈ exprStarts := by decide
  induction printable with
  | null => exact opensAt_start (by decide)
  | int | float | string => exact opensAt_start (by decide)
  | bool =>
      refine opensAt_start ?_
      split <;> decide
  | columnRef =>
      rw [exprWords]
      split <;> exact opensAt_start column
  | binary _ _ _ opens => exact opensAt_enclose opens _
  | unary operator =>
      rcases operator with rfl | rfl <;> exact opensAt_symbol (by decide)
  | star => exact opensAt_start (function _)
  | funcCall => exact opensAt_start (function _)
  | isNull _ opens =>
      rw [exprWords, List.append_assoc]
      exact opensAt_enclose opens _
  | inExpr _ _ _ opens | between _ _ _ opens | like _ _ opens =>
      simp only [exprWords, List.append_assoc]
      exact opensAt_enclose opens _

/-! ## Expressions and clauses -/

/-- Tokens that end an expression. -/
def EndsExpr (types : List TokenTypeT) : Prop :=
  ∀ type ∈ types, getPrecedence type = 0 ∧ type ≠ .tkLeftParen ∧ type ≠ .tkDot

instance EndsExpr.decidable (types : List TokenTypeT) : Decidable (EndsExpr types) :=
  inferInstanceAs (Decidable (∀ type ∈ types, _))

variable {types : List TokenTypeT}

theorem Printable.passes {e : ExprT Double} (printable : Printable render e)
    (ends : EndsExpr types) :
    Passes (exprWords render e) (· ∈ types) parseExpression fun p => pure (some e, p) := by
  intro tokens rest spelled begins value yields
  obtain ⟨next, more, rfl, here⟩ := begins
  obtain ⟨low, noCall, unqualified⟩ := ends next.type here
  have reads := printable.reads
  have gives : (Call.expressionPrec 1 (parserInit (tokens ++ next :: more))).Gives
      (some e, parserInit (next :: more)) :=
    reads.loop spelled ⟨noCall, unqualified⟩ (by rw [low]; exact Nat.zero_le _) reads.positive
      (by decide) (precLoop_stops (.inl low))
  exact gives_invoke gives yields

theorem clause_passes {keyword : TokenTypeT} {clause : Option (ExprT Double)}
    (printable : ClausePrintable render clause) (other : keyword ∉ types)
    (ends : EndsExpr types) :
    Passes (clauseWords render keyword clause) (· ∈ types) (parseClause keyword)
      fun p => pure (some clause, p) := by
  cases clause with
  | none => exact (finds_no_match other).passes.last _
  | some e =>
    refine Passes.seq (finds_match keyword).passes ?_ opens_any
    exact ((printable e rfl).passes ends).last _

/-! ## Loops over items between commas -/

/-- The end of a turn. -/
def goOn (loop : List α → ParserT → Call Double (Option (List α) × ParserT)) (items : List α)
    (p : ParserT) : Parse Double (Option (List α) × ParserT) := do
  let (more, p) ← p.matchToken .tkComma
  if more then invoke (loop items p) else return (some items, p)

theorem commaLoop_passes {loop : List α → ParserT → Call Double (Option (List α) × ParserT)}
    {print : α → List Word} {list : List α} (some : list ≠ []) (other : .tkComma ∉ types)
    (turn : ∀ before item after, before ++ item :: after = list →
      Passes (print item) (· ∈ .tkComma :: types) (fun p => body (loop before p))
        (goOn loop (before ++ [item]))) :
    Passes (commaWords print list) (· ∈ types) (fun p => invoke (loop [] p))
      fun p => pure (.some list, p) := by
  refine skips_separated (fun items tokens => invoke (loop items (parserInit tokens)))
    (fun items tokens => pure (Option.some items, parserInit tokens)) some ?_ ?_
  · intro before item same
    have here := Passes.call (turn before item [] same)
    have stops : Passes [] (· ∈ types) (goOn loop (before ++ [item]))
        fun p => pure (Option.some (before ++ [item]), p) := (finds_no_match other).passes.last _
    exact here.look stops fun _ member => List.mem_cons_of_mem _ member
  · intro before item after same
    have here := Passes.call (turn before item after same)
    have more : Passes [symbol .tkComma] anyType (goOn loop (before ++ [item]))
        fun p => invoke (loop (before ++ [item]) p) := (finds_match .tkComma).passes.last _
    have opens : OpensAt [symbol .tkComma] (· ∈ .tkComma :: types) anyType := opensAt_head
    exact here.trans more opens

end MiniSqlite.Parser
