import MiniSqlite.Parser.PrintedQueries

/-!
# Scripts that are printed and parsed again

The other statements, and `parser_parse_all`, which reads one statement after the other.
-/

namespace MiniSqlite.Parser

open MiniSqlite.Common MiniSqlite.Std MiniSqlite.Std.Code MiniSqlite.Storage

variable {Double : Type} [Platform Double] {render : Double → CString} {α β : Type}
  {words : List Word} {types : List TokenTypeT} {follows : TokenTypeT → Prop}

/-! ## Single tokens -/

section Tokens

variable {type type' : TokenTypeT} {code next : ParserT → Parse Double α}

/-- Code that consumes a keyword. -/
theorem passes_one (same : ∀ text line column rest,
      code (parserInit (⟨type, text, line, column⟩ :: rest)) = next (parserInit rest)) :
    Passes [symbol type] follows code next := by
  refine skips_token fun token rest found value yields => ?_
  obtain ⟨other, text, line, column⟩ := token
  cases type_of_word found
  rwa [same]

/-- Code that consumes two keywords. -/
theorem passes_two (same : ∀ text text' line line' column column' rest,
      code (parserInit (⟨type, text, line, column⟩ :: ⟨type', text', line', column'⟩ :: rest)) =
        next (parserInit rest)) :
    Passes [symbol type, symbol type'] anyType code next := by
  intro tokens rest spelled begins value yields
  obtain ⟨⟨first, text, line, column⟩, more, rfl, found, words⟩ :=
    List.map_eq_cons_iff.mp spelled
  obtain ⟨⟨second, text', line', column'⟩, rfl, found'⟩ := List.map_eq_singleton_iff.mp words
  cases type_of_word found
  cases type_of_word found'
  dsimp only at yields ⊢
  rwa [List.cons_append, List.singleton_append, same]

/-- Code that consumes a name. -/
theorem passes_name {name : CString} (same : ∀ line column rest,
      code (parserInit (⟨.tkIdentifier, name, line, column⟩ :: rest)) = next (parserInit rest)) :
    Passes [nameWord name] anyType code next := by
  refine skips_token fun token rest found value yields => ?_
  obtain ⟨other, text, line, column⟩ := token
  cases type_of_word found
  cases lexeme_of_word found
  rwa [same]

/-- Code that reads some words that start with a keyword is all that other code does there. -/
theorem Passes.of_first {code' : ParserT → Parse Double α}
    (passes : Passes (symbol type :: words) follows code next)
    (same : ∀ text line column rest, code' (parserInit (⟨type, text, line, column⟩ :: rest)) =
      code (parserInit (⟨type, text, line, column⟩ :: rest))) :
    Passes (symbol type :: words) follows code' next := by
  intro tokens rest spelled begins value yields
  have ran := passes spelled begins yields
  obtain ⟨⟨other, text, line, column⟩, more, rfl, found, words⟩ := List.map_eq_cons_iff.mp spelled
  cases type_of_word found
  dsimp only at ran ⊢
  rwa [List.cons_append, same]

/-- The same for words that start with two keywords. -/
theorem Passes.of_two {code' : ParserT → Parse Double α}
    (passes : Passes (symbol type :: symbol type' :: words) follows code next)
    (same : ∀ text text' line line' column column' rest,
      code' (parserInit (⟨type, text, line, column⟩ :: ⟨type', text', line', column'⟩ :: rest)) =
        code (parserInit (⟨type, text, line, column⟩ :: ⟨type', text', line', column'⟩ :: rest))) :
    Passes (symbol type :: symbol type' :: words) follows code' next := by
  intro tokens rest spelled begins value yields
  have ran := passes spelled begins yields
  obtain ⟨⟨first, text, line, column⟩, more, rfl, found, words⟩ :=
    List.map_eq_cons_iff.mp spelled
  obtain ⟨⟨second, text', line', column'⟩, more, rfl, found', -⟩ := List.map_eq_cons_iff.mp words
  cases type_of_word found
  cases type_of_word found'
  dsimp only at ran ⊢
  rwa [List.cons_append, List.cons_append, same]

/-- A computation that consumes two keywords. -/
theorem finds_two {computed : ParserT → Except Fault β} {value : ParserT → β}
    (same : ∀ text text' line line' column column' rest,
      computed (parserInit (⟨type, text, line, column⟩ :: ⟨type', text', line', column'⟩ :: rest)) =
        .ok (value (parserInit rest))) :
    Finds [symbol type, symbol type'] anyType computed value := by
  intro tokens rest spelled begins
  obtain ⟨⟨first, text, line, column⟩, more, rfl, found, words⟩ :=
    List.map_eq_cons_iff.mp spelled
  obtain ⟨⟨second, text', line', column'⟩, rfl, found'⟩ := List.map_eq_singleton_iff.mp words
  cases type_of_word found
  cases type_of_word found'
  exact same text text' line line' column column' rest

/-- A computation that consumes a keyword and goes on as another one. -/
theorem Finds.first {computed : ParserT → Except Fault β} {value : ParserT → β}
    (inner : ParserT → Except Fault β) (finds : Finds words follows inner value)
    (same : ∀ text line column rest,
      computed (parserInit (⟨type, text, line, column⟩ :: rest)) = inner (parserInit rest)) :
    Finds (symbol type :: words) follows computed value := by
  intro tokens rest spelled begins
  obtain ⟨⟨other, text, line, column⟩, more, rfl, found, spelled'⟩ :=
    List.map_eq_cons_iff.mp spelled
  cases type_of_word found
  rw [List.cons_append, same]
  exact finds spelled' begins

end Tokens

/-! ## Columns -/

/-- The length behind `VARCHAR`, if it has one. -/
theorem finds_length {varcharLen : Int32} (other : .tkLeftParen ∉ types) :
    Finds (columnTypeWords varcharLen .varchar) (· ∈ types) parseDataType
      fun p => (some (.varchar, varcharLen), p) := by
  refine Finds.first (fun p => do
    let sized ← p.matchToken .tkLeftParen
    if sized.1 then
      let token ← sized.2.peek
      if token.type = .tkIntLiteral then
        let closed ← sized.2.advance.expect .tkRightParen
        return (some (.varchar, intLiteral token), closed.2)
      else
        let closed ← sized.2.expect .tkRightParen
        return (some (.varchar, 0), closed.2)
    else return (some (.varchar, 0), sized.2)) ?_ fun _ _ _ _ => rfl
  by_cases plain : varcharLen = 0
  case pos =>
    rw [plain]
    exact (finds_no_match other).last fun _ => rfl
  case neg =>
    rw [optional, if_pos plain]
    refine (finds_match .tkLeftParen).seq ?_ opens_any
    intro tokens rest spelled begins
    obtain ⟨⟨type, text, line, column⟩, more, rfl, number, words⟩ :=
      List.map_eq_cons_iff.mp spelled
    obtain ⟨⟨type', text', line', column'⟩, rfl, closing⟩ := List.map_eq_singleton_iff.mp words
    rw [← intLiteral_number number]
    cases type_of_word number
    cases type_of_word closing
    rfl

theorem finds_dataType {dataType : ColDataType} {varcharLen : Int32}
    (sized : dataType ≠ .varchar → varcharLen = 0) (other : .tkLeftParen ∉ types) :
    Finds (columnTypeWords varcharLen dataType) (· ∈ types) parseDataType
      fun p => (some (dataType, varcharLen), p) := by
  have keyword {type : TokenTypeT} {result : ColDataType}
      (same : ∀ text line column rest,
        parseDataType (parserInit (⟨type, text, line, column⟩ :: rest)) =
          .ok (some (result, 0), parserInit rest)) :
      Finds [symbol type] (· ∈ types) parseDataType fun p => (some (result, 0), p) :=
    Finds.first (fun p => .ok (some (result, 0), p)) (finds_nil fun _ _ _ => rfl) same
  cases dataType with
  | varchar => exact finds_length other
  | integer =>
    rw [sized (by simp)]
    exact keyword fun _ _ _ _ => rfl
  | float =>
    rw [sized (by simp)]
    exact keyword fun _ _ _ _ => rfl
  | boolean =>
    rw [sized (by simp)]
    exact keyword fun _ _ _ _ => rfl

theorem passes_primary (present : Bool) (col : AstColumnDefT Double) :
    Passes (optional present [symbol .tkPrimary, symbol .tkKey]) anyType
      (fun p => invoke (.constraints col p)) fun p => invoke (.constraints
        { col with isPrimaryKey := col.isPrimaryKey || present
                   notNull := col.notNull || present } p) := by
  cases present with
  | false =>
    simp only [Bool.or_false]
    exact skips_refl
  | true =>
    simp only [Bool.or_true]
    exact Passes.call (passes_two fun _ _ _ _ _ _ _ => by rfl)

theorem passes_notNull (present : Bool) (col : AstColumnDefT Double) :
    Passes (optional present [symbol .tkNot, symbol .tkNull]) anyType
      (fun p => invoke (.constraints col p))
      fun p => invoke (.constraints { col with notNull := col.notNull || present } p) := by
  cases present with
  | false =>
    simp only [Bool.or_false]
    exact skips_refl
  | true =>
    simp only [Bool.or_true]
    exact Passes.call (passes_two fun _ _ _ _ _ _ _ => by rfl)

theorem passes_unique (present : Bool) (col : AstColumnDefT Double) :
    Passes (optional present [symbol .tkUnique]) anyType (fun p => invoke (.constraints col p))
      fun p => invoke (.constraints { col with isUnique := col.isUnique || present } p) := by
  cases present with
  | false =>
    simp only [Bool.or_false]
    exact skips_refl
  | true =>
    simp only [Bool.or_true]
    exact Passes.call (passes_one fun _ _ _ _ => by rfl)

/-- The tokens behind a column. -/
def columnEnds : List TokenTypeT := [.tkComma, .tkRightParen]

theorem constraints_end (col : AstColumnDefT Double) :
    Passes [] (· ∈ columnEnds) (fun p => invoke (.constraints col p)) fun p => pure (col, p) := by
  refine Passes.call (skips_nil fun token rest here value yields => ?_)
  obtain ⟨type, text, line, column⟩ := token
  simp only [columnEnds, List.mem_cons, List.not_mem_nil, or_false] at here
  rcases here with rfl | rfl <;> exact yields

/-- How the loop over the constraints of a column goes on behind a default value. -/
def behindDefault (col : AstColumnDefT Double) :
    Option (ExprT Double) × ParserT → Parse Double (AstColumnDefT Double × ParserT)
  | (some (.literal value), p) =>
      invoke (.constraints { col with hasDefault := true, defaultValue := value } p)
  | (_, p) => invoke (.constraints { col with hasDefault := true, defaultValue := .null } p)

theorem passes_default {present : Bool} (col : AstColumnDefT Double)
    (default : if present then Printable render (.literal col.defaultValue)
      else col.defaultValue = .null) :
    Passes (optional present (symbol .tkDefault :: exprWords render (.literal col.defaultValue)))
      (· ∈ columnEnds)
      (fun p => invoke (.constraints { col with hasDefault := false, defaultValue := .null } p))
      fun p => pure ({ col with hasDefault := present }, p) := by
  cases present with
  | false =>
    rw [if_neg Bool.false_ne_true] at default
    rw [← default]
    exact constraints_end _
  | true =>
    rw [if_pos rfl] at default
    refine Passes.call ?_
    have keyword : Passes [symbol .tkDefault] anyType
        (fun p => body (.constraints { col with hasDefault := false, defaultValue := .null } p))
        (fun p => (parseExpression p : Parse Double _) >>= behindDefault col) :=
      passes_one fun _ _ _ _ => by rfl
    refine keyword.trans ?_ opens_any
    refine Skips.look (Passes.last (default.passes ?_) _) (constraints_end _) fun _ here => here
    decide

theorem constraints_pass {col : AstColumnDefT Double} (printable : ColumnPrintable render col) :
    Passes (constraintWords render col) (· ∈ columnEnds)
      (fun p => invoke (.constraints
        ⟨col.name, col.dataType, col.varcharLen, false, false, false, false, .null⟩ p))
      fun p => pure (col, p) := by
  obtain ⟨name, dataType, varcharLen, isPrimaryKey, notNull, isUnique, hasDefault, defaultValue⟩ := col
  obtain ⟨-, -, primary, default⟩ := printable
  dsimp only at primary default
  have first := passes_primary isPrimaryKey
    ⟨name, dataType, varcharLen, false, false, false, false, (.null : AstValue Double)⟩
  have second := passes_notNull (!isPrimaryKey && notNull)
    ⟨name, dataType, varcharLen, isPrimaryKey, isPrimaryKey, false, false, (.null : AstValue Double)⟩
  have third := passes_unique isUnique
    ⟨name, dataType, varcharLen, isPrimaryKey, notNull, false, false, (.null : AstValue Double)⟩
  have last := passes_default
    ⟨name, dataType, varcharLen, isPrimaryKey, notNull, isUnique, hasDefault, defaultValue⟩ default
  have merged : (isPrimaryKey || !isPrimaryKey && notNull) = notNull := by
    cases isPrimaryKey with
    | false => rfl
    | true => exact (primary rfl).symm
  dsimp only at second
  rw [merged] at second
  exact first.trans (second.trans (third.trans last opens_any) opens_any) opens_any

omit [Platform Double] in
theorem opensAt_constraints (col : AstColumnDefT Double) :
    OpensAt (constraintWords render col)
      (· ∈ .tkPrimary :: .tkNot :: .tkUnique :: .tkDefault :: columnEnds) (· ∈ columnEnds) :=
  (opensAt_optional _).append ((opensAt_optional _).append
    ((opensAt_optional _).append (opensAt_optional _)))

theorem columns_pass {columns : List (AstColumnDefT Double)} (some : columns ≠ [])
    (printable : ∀ col ∈ columns, ColumnPrintable render col) :
    Passes (commaWords (columnWords render) columns) (· ∈ [.tkRightParen])
      (fun p => invoke (.columns [] p)) fun p => pure (.some columns, p) := by
  refine commaLoop_passes some (by decide) fun before col after same => ?_
  have here := printable col (same ▸ List.mem_append_right before List.mem_cons_self)
  refine Passes.seq (finds_identifier here.fits _).passes ?_ opens_any
  refine Passes.seq (finds_dataType here.sized (by decide)).passes ?_ (opensAt_constraints col)
  exact (constraints_pass here).last _

/-! ## Statements that define tables and indexes -/

variable (types) in
theorem finds_ifNotExists {present : Bool} (other : .tkIf ∉ types) :
    Finds (optional present [symbol .tkIf, symbol .tkNot, symbol .tkExists]) (· ∈ types)
      parseIfNotExists fun p => (present, p) := by
  cases present with
  | false => exact (finds_no_match other).last fun _ => rfl
  | true =>
    refine (finds_match .tkIf).seq ?_ opens_any
    refine (finds_expect .tkNot).seq ?_ opens_any
    exact (finds_expect .tkExists).whatever.last fun _ => rfl

variable (types) in
theorem finds_ifExists {present : Bool} (other : .tkIf ∉ types) :
    Finds (optional present [symbol .tkIf, symbol .tkExists]) (· ∈ types)
      parseIfExists fun p => (present, p) := by
  cases present with
  | false => exact (finds_no_match other).last fun _ => rfl
  | true =>
    exact (finds_match .tkIf).seq ((finds_expect .tkExists).whatever.last fun _ => rfl) opens_any

variable (render) in
/-- Code of the parser reads a statement. -/
abbrev ReadsStmt (code : ParserT → Parse Double (Option (StmtT Double) × ParserT))
    (stmt : StmtT Double) : Prop :=
  Passes (stmtWords render stmt) (· ∈ stmtEnds) code fun p => pure (some stmt, p)

theorem createTable_passes {tableName : CString} {columns : List (AstColumnDefT Double)}
    {ifNotExists : Bool} (fits : tableName.length ≤ 63) (some : columns ≠ [])
    (printable : ∀ col ∈ columns, ColumnPrintable render col) :
    ReadsStmt render parseCreateTable (.createTable tableName columns ifNotExists) := by
  refine Passes.seq ((finds_expect .tkTable).advance _).passes ?_ opens_any
  refine Passes.seq (finds_ifNotExists [.tkIdentifier] (by decide)).passes ?_ opensAt_head
  refine Passes.seq (finds_identifier fits _).passes ?_ opens_any
  refine Passes.seq (finds_expect .tkLeftParen).passes ?_ opens_any
  refine Passes.seq (columns_pass some printable) ?_ opensAt_head
  exact (finds_expect .tkRightParen).whatever.passes.last _

theorem dropTable_passes {tableName : CString} {ifExists : Bool} (fits : tableName.length ≤ 63) :
    ReadsStmt render parseDropTable (.dropTable tableName ifExists) := by
  refine Passes.seq ((finds_expect .tkTable).advance _).passes ?_ opens_any
  refine Passes.seq (finds_ifExists [.tkIdentifier] (by decide)).passes ?_ opensAt_head
  exact (finds_identifier fits _).whatever.passes.last _

theorem indexColumns_pass {columns : List CString} (some : columns ≠ []) (few : columns.length ≤ 8)
    (fit : ∀ column ∈ columns, column.length ≤ 63) :
    Passes (nameWords columns) (· ∈ [.tkRightParen])
      (fun p => (invoke (.indexColumns [] p) : Parse Double _)) fun p => pure (.some columns, p) := by
  refine commaLoop_passes some (by decide) fun before column after same => ?_
  have fits := fit column (same ▸ List.mem_append_right before List.mem_cons_self)
  have room : ¬ 8 ≤ before.length := by
    have length := congrArg List.length same
    rw [List.length_append, List.length_cons] at length
    omega
  have turn : (fun p => (body (.indexColumns before p) : Parse Double _)) = (fun p => do
      let column ← requireIdentifier "Expected column name in index" p
      whenParsed column fun column p => goOn .indexColumns (before ++ [column]) p) :=
    funext fun p => if_neg room
  rw [turn]
  exact (finds_identifier fits _).whatever.passes.last _

theorem createIndex_passes {tableName indexName : CString} {columns : List CString}
    (fits : tableName.length ≤ 63 ∧ indexName.length ≤ 63) (some : columns ≠ [])
    (few : columns.length ≤ 8) (fit : ∀ column ∈ columns, column.length ≤ 63) :
    ReadsStmt render parseCreateIndex (.createIndex tableName indexName columns false) := by
  refine Passes.seq ((finds_expect .tkIndex).advance _).passes ?_ opens_any
  refine Passes.seq (finds_identifier fits.2 _).passes ?_ opens_any
  refine Passes.seq (finds_expect .tkOn).passes ?_ opens_any
  refine Passes.seq (finds_identifier fits.1 _).passes ?_ opens_any
  refine Passes.seq (finds_expect .tkLeftParen).passes ?_ opens_any
  refine Passes.seq (indexColumns_pass some few fit) ?_ opensAt_head
  exact (finds_expect .tkRightParen).whatever.passes.last _

theorem dropIndex_passes {indexName tableName : CString}
    (fits : indexName.length ≤ 63 ∧ tableName.length ≤ 63) :
    ReadsStmt render parseDropIndex (.dropIndex indexName tableName) := by
  refine Passes.seq ((finds_expect .tkIndex).advance _).passes ?_ opens_any
  refine Passes.seq (finds_identifier fits.1 _).passes ?_ opens_any
  exact (finds_nameBehind fits.2 (by decide)).passes.last _

/-! ## Statements that change rows -/

/-- The loop over a list of columns returns the columns and no optional value. -/
theorem insertColumns_pass {columns : List CString} (some : columns ≠ [])
    (fit : ∀ column ∈ columns, column.length ≤ 63) :
    Passes (nameWords columns) (· ∈ [.tkRightParen])
      (fun p => (invoke (.insertColumns [] p) : Parse Double _)) fun p => pure (columns, p) := by
  have turn (before : List CString) {column : CString} (member : column ∈ columns) :
      Passes [nameWord column] anyType (fun p => (body (.insertColumns before p) : Parse Double _))
        (fun p => do
          let found ← p.matchToken .tkComma
          if found.1 then invoke (.insertColumns (before ++ [column]) found.2)
          else return (before ++ [column], found.2)) := by
    have read (line col : Nat) (rest : List TokenT) : (body (.insertColumns before
        (parserInit (⟨.tkIdentifier, column, line, col⟩ :: rest))) : Parse Double _) = (do
          let found ← (parserInit rest).matchToken .tkComma
          if found.1 then invoke (.insertColumns (before ++ [cut 63 column]) found.2)
          else return (before ++ [cut 63 column], found.2)) := by rfl
    rw [cut_of_le (fit column member)] at read
    exact passes_name read
  refine skips_separated (fun before tokens => invoke (Call.insertColumns before (parserInit tokens)))
    (fun before tokens => pure (before, parserInit tokens)) some ?_ ?_
  · intro before column same
    have here := Passes.call (turn before (same ▸ List.mem_append_right before List.mem_cons_self))
    have noComma : .tkComma ∉ [TokenTypeT.tkRightParen] := by decide
    exact here.look ((finds_no_match noComma).passes.last _) fun _ _ => trivial
  · intro before column after same
    have here := Passes.call (turn before (same ▸ List.mem_append_right before List.mem_cons_self))
    exact here.trans ((finds_match .tkComma).passes.last _) opens_any

theorem columnList_passes {columns : List CString} (fit : ∀ column ∈ columns, column.length ≤ 63) :
    Passes (optional (columns.length ≠ 0) (parenWords (nameWords columns))) (· ∈ [.tkValues])
      (fun p => (parseColumnList p : Parse Double _)) fun p => pure (columns, p) := by
  by_cases some : columns = []
  case pos =>
    subst some
    refine skips_nil fun token rest here value yields => ?_
    obtain ⟨type, text, line, column⟩ := token
    cases List.mem_singleton.mp here
    exact yields
  case neg =>
    have opens : OpensAt (nameWords columns ++ [symbol .tkRightParen]) (· = .tkIdentifier)
        (· ∈ [.tkValues]) :=
      (opens_separated some fun _ _ => opens_cons fun _ same => type_of_word same).append opens_any
    have closes : Passes [symbol .tkRightParen] (· ∈ [.tkValues])
        (fun p => (do
          let closed ← p.expect .tkRightParen
          return (columns, closed.2) : Parse Double _)) fun p => pure (columns, p) :=
      (finds_expect .tkRightParen).whatever.passes.last _
    have list : Passes (nameWords columns ++ [symbol .tkRightParen]) (· ∈ [.tkValues])
        (fun p => (do
          let read ← invoke (.insertColumns [] p)
          let closed ← read.2.expect .tkRightParen
          return (read.1, closed.2) : Parse Double _)) fun p => pure (columns, p) :=
      (insertColumns_pass some fit).seq closes opensAt_head
    rw [optional, if_pos (mt List.length_eq_zero_iff.mp some)]
    intro tokens rest spelled begins value yields
    obtain ⟨⟨type, text, line, column⟩, more, rfl, opening, words⟩ :=
      List.map_eq_cons_iff.mp spelled
    cases type_of_word opening
    obtain ⟨⟨type, text', line', column'⟩, after, shape, here⟩ := opens words begins
    cases here
    have ran := list words begins yields
    rw [List.cons_append]
    rw [shape] at ran ⊢
    exact ran

theorem rows_pass {values : List (List (ExprT Double))} (some : values ≠ [])
    (rows : ∀ row ∈ values, row ≠ [] ∧ ∀ e ∈ row, Printable render e) :
    Passes (commaWords (fun row => parenWords (commaWords (exprWords render) row)) values)
      (· ∈ stmtEnds) (fun p => invoke (.rows [] p)) fun p => pure (.some values, p) := by
  refine commaLoop_passes some (by decide) fun before row after same => ?_
  obtain ⟨items, printable⟩ := rows row (same ▸ List.mem_append_right before List.mem_cons_self)
  refine Passes.seq (finds_expect .tkLeftParen).passes ?_ opens_any
  refine Passes.seq (expressionList_passes [.tkRightParen] items printable (by decide)
    (by decide)) ?_ opensAt_head
  exact (finds_expect .tkRightParen).whatever.passes.last _

theorem insert_passes {tableName : CString} {columns : List CString}
    {values : List (List (ExprT Double))} (fits : tableName.length ≤ 63)
    (fit : ∀ column ∈ columns, column.length ≤ 63) (some : values ≠ [])
    (rows : ∀ row ∈ values, row ≠ [] ∧ ∀ e ∈ row, Printable render e) :
    ReadsStmt render parseInsert (.insert tableName columns values) := by
  refine Passes.seq ((finds_expect .tkInto).advance _).passes ?_ opens_any
  refine Passes.seq (finds_identifier fits _).passes ?_ opens_any
  refine Passes.seq (columnList_passes fit) ?_ opensAt_head
  refine Passes.seq (finds_expect .tkValues).passes ?_ opens_any
  exact (rows_pass some rows).last _

theorem assignments_pass {assignments : List (AssignmentT Double)} (some : assignments ≠ [])
    (printable : ∀ assignment ∈ assignments,
      assignment.column.length ≤ 63 ∧ Printable render assignment.value) :
    Passes (commaWords (assignmentWords render) assignments) (· ∈ .tkWhere :: stmtEnds)
      (fun p => invoke (.assignments [] p)) fun p => pure (.some assignments, p) := by
  refine commaLoop_passes some (by decide) fun before assignment after same => ?_
  obtain ⟨fits, value⟩ := printable assignment
    (same ▸ List.mem_append_right before List.mem_cons_self)
  have name : Passes [nameWord assignment.column] anyType
      (fun p => body (.assignments before p))
      (fun p => do
        let found ← p.expect .tkEqual
        let value ← (parseExpression found.2 : Parse Double _)
        whenParsed value fun value p =>
          goOn .assignments (before ++ [⟨assignment.column, value⟩]) p) := by
    have read (line column : Nat) (rest : List TokenT) : body (.assignments before
        (parserInit (⟨.tkIdentifier, assignment.column, line, column⟩ :: rest))) = (do
          let found ← (parserInit rest).expect .tkEqual
          let value ← (parseExpression found.2 : Parse Double _)
          whenParsed value fun value p =>
            goOn .assignments (before ++ [⟨cut 63 assignment.column, value⟩]) p) := by rfl
    rw [cut_of_le fits] at read
    exact passes_name read
  refine name.trans ?_ opens_any
  refine Passes.seq (finds_expect .tkEqual).passes ?_ opens_any
  exact (value.passes (by decide)).last _

theorem update_passes {tableName : CString} {assignments : List (AssignmentT Double)}
    {whereClause : Option (ExprT Double)} (fits : tableName.length ≤ 63) (some : assignments ≠ [])
    (printable : ∀ assignment ∈ assignments,
      assignment.column.length ≤ 63 ∧ Printable render assignment.value)
    (clause : ClausePrintable render whereClause) :
    ReadsStmt render parseUpdate (.update tableName assignments whereClause) := by
  refine Passes.seq ((finds_identifier fits _).advance _).passes ?_ opens_any
  refine Passes.seq (finds_expect .tkSet).passes ?_ opens_any
  refine Passes.seq (assignments_pass some printable) ?_ (opensAt_clause render _ whereClause)
  exact (clause_passes clause (by decide) (by decide)).last _

theorem delete_passes {tableName : CString} {whereClause : Option (ExprT Double)}
    (fits : tableName.length ≤ 63) (clause : ClausePrintable render whereClause) :
    ReadsStmt render parseDelete (.deleteStmt tableName whereClause) := by
  refine Passes.seq ((finds_expect .tkFrom).advance _).passes ?_ opens_any
  refine Passes.seq (finds_identifier fits _).passes ?_ opens_any
  exact (clause_passes clause (by decide) (by decide)).last _

/-! ## All statements -/

theorem finds_level {level : CString} {levelWords : List Word}
    (entry : (level, levelWords) ∈ isolationLevels) :
    Finds (symbol .tkLevel :: levelWords) anyType parseIsolation fun p => (level, p) := by
  refine (finds_match .tkLevel).seq ?_ opens_any
  simp only [isolationLevels, List.mem_cons, List.not_mem_nil, or_false, Prod.mk.injEq] at entry
  rcases entry with ⟨rfl, rfl⟩ | ⟨rfl, rfl⟩ | ⟨rfl, rfl⟩ | ⟨rfl, rfl⟩
  · exact finds_two fun _ _ _ _ _ _ _ => by rfl
  · exact finds_two fun _ _ _ _ _ _ _ => by rfl
  · exact finds_two fun _ _ _ _ _ _ _ => by rfl
  · exact Finds.first (fun p => .ok (_, p)) (finds_nil fun _ _ _ => rfl) fun _ _ _ _ => by rfl

theorem isolationWords_of_mem {level : CString} {levelWords : List Word}
    (entry : (level, levelWords) ∈ isolationLevels) :
    isolationWords level = symbol .tkIsolation :: symbol .tkLevel :: levelWords := by
  simp only [isolationLevels, List.mem_cons, List.not_mem_nil, or_false, Prod.mk.injEq] at entry
  rcases entry with ⟨rfl, rfl⟩ | ⟨rfl, rfl⟩ | ⟨rfl, rfl⟩ | ⟨rfl, rfl⟩ <;> decide

theorem begin_passes {isolationLevel : CString}
    (level : isolationLevel = .empty ∨ isolationLevel ∈ isolationLevels.map Prod.fst) :
    ReadsStmt render (fun p => liftM (parseBegin p : Except Fault (Option (StmtT Double) × ParserT)))
      (.begin isolationLevel) := by
  refine Finds.passes ?_
  rcases level with rfl | named
  · have noWords : isolationWords .empty = [] := by decide
    rw [stmtWords, noWords]
    have noTransaction : .tkTransaction ∉ stmtEnds := by decide
    refine Finds.seq ((finds_no_match noTransaction).advance _) ?_ (opens_nil fun _ here => here)
    exact (finds_no_match (by decide)).last fun _ => rfl
  · obtain ⟨⟨_, words⟩, entry, rfl⟩ := List.mem_map.mp named
    rw [stmtWords, isolationWords_of_mem entry]
    have noTransaction : .tkTransaction ∉ [TokenTypeT.tkIsolation] := by decide
    refine Finds.seq ((finds_no_match noTransaction).advance _) ?_ opensAt_head
    refine (finds_match .tkIsolation).seq ?_ opens_any
    exact (finds_level entry).whatever.last fun _ => rfl

theorem StmtPrintable.passes {stmt : StmtT Double} (printable : StmtPrintable render stmt) :
    ReadsStmt render (fun p => body (.statement p)) stmt := by
  induction printable with
  | createTable fits some printable =>
    exact (createTable_passes fits some printable).of_two fun _ _ _ _ _ _ _ => by rfl
  | @dropTable tableName ifExists fits =>
    have reads : ReadsStmt render parseDropTable (.dropTable tableName ifExists) :=
      dropTable_passes fits
    exact reads.of_two fun _ _ _ _ _ _ _ => by rfl
  | @createIndex tableName indexName columns fits some few fit =>
    have reads : ReadsStmt render parseCreateIndex (.createIndex tableName indexName columns false) :=
      createIndex_passes fits some few fit
    exact reads.of_two fun _ _ _ _ _ _ _ => by rfl
  | @dropIndex indexName tableName fits =>
    have reads : ReadsStmt render parseDropIndex (.dropIndex indexName tableName) :=
      dropIndex_passes fits
    exact reads.of_two fun _ _ _ _ _ _ _ => by rfl
  | insert fits fit some rows =>
    exact (insert_passes fits fit some rows).of_first fun _ _ _ _ => by rfl
  | update fits some printable clause =>
    exact (update_passes fits some printable clause).of_first fun _ _ _ _ => by rfl
  | deleteStmt fits clause => exact (delete_passes fits clause).of_first fun _ _ _ _ => by rfl
  | select printable => exact (select_passes printable).of_first fun _ _ _ _ => by rfl
  | begin level =>
    have reads : ReadsStmt render _ _ := begin_passes level
    exact reads.of_first fun _ _ _ _ => by rfl
  | commit => exact passes_one fun _ _ _ _ => by rfl
  | rollback => exact passes_one fun _ _ _ _ => by rfl
  | explain _ ih =>
    have keyword : Passes [symbol .tkExplain] anyType (fun p => body (.statement p)) (fun p => do
        let inner ← (invoke (.statement p) : Parse Double _)
        whenParsed inner fun inner p => return (some (.explain inner), p)) :=
      passes_one fun _ _ _ _ => by rfl
    exact keyword.trans ((Passes.call ih).last _) opens_any

/-! ## Scripts -/

/-- A name of one letter. -/
def letter (name : Char) : CString := CString.ofChars [name]

end MiniSqlite.Parser
