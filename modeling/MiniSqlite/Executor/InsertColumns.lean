import MiniSqlite.Executor.InsertedRows

/-!
# The columns that an `INSERT` writes

`INSERT` should give each column the value written for it, by the list of columns or by
position, and its default otherwise, and refuse rows that are too long. `execute_dml` reads
neither the list nor the defaults, and reports `DB_OK` whatever becomes of the rows.
-/

namespace MiniSqlite.Executor

open MiniSqlite.Common MiniSqlite.Std MiniSqlite.Storage MiniSqlite.Buffer MiniSqlite.Catalog
  MiniSqlite.Parser MiniSqlite.Planner

variable {Double : Type}

/-! ## What a column is to get -/

/-- The expression written for a column, at its position in the list of columns if there is one. -/
def writtenExpr (schema : Schema) (columns : List CString) (values : List (Expr Double))
    (colIdx : Nat) : Option (Expr Double) :=
  if columns = [] then values[colIdx]?
  else (columns.findIdx? fun name => schemaFindColumn schema name = some colIdx).bind (values[·]?)

/-- The default that a column is declared with, or `NULL`. -/
def defaultExpr (declared : List (AstColumnDef Double)) (colIdx : Nat) : Expr Double :=
  .literal ((declared[colIdx]?.bind AstColumnDef.defaultValue).getD .null)

/-- What a statement assigns to a column. -/
def assignedExpr (schema : Schema) (declared : List (AstColumnDef Double)) (columns : List CString)
    (values : List (Expr Double)) (colIdx : Nat) : Expr Double :=
  (writtenExpr schema columns values colIdx).getD (defaultExpr declared colIdx)

/-- What `insert_next` takes for a column. -/
def positionalExpr (values : List (Expr Double)) (colIdx : Nat) : Expr Double :=
  values[colIdx]?.getD (.literal .null)

/-- How many values a row can have. -/
def valueLimit (schema : Schema) (columns : List CString) : Nat :=
  if columns = [] then schema.columns.length else columns.length

variable [Platform Double]

/-- A column that is given an expression, cast to its type, is then read as a value. -/
def ColumnReads (col : ColumnDef) (expr : Expr Double) (v : Value Double) : Prop :=
  ∃ val cast, exprEvaluate none .null expr = pure val ∧ valueCastTo val col.type = pure cast ∧
    storedAs col.type cast = .ok v

/-- A scan finds a row at a place, with the values that the statement assigns. -/
def RowAsWritten (schema : Schema) (declared : List (AstColumnDef Double)) (columns : List CString)
    (values : List (Expr Double)) (heap : StoreHeap) (rid : Rid) : Prop :=
  ∃ read : Tuple Double, selected schema none heap rid = some read ∧
    ∀ colIdx col, schema.columns[colIdx]? = some col →
      ∃ v, ColumnReads col (assignedExpr schema declared columns values colIdx) v ∧
        read.values[colIdx]? = some v

/-- A statement that reports `DB_OK` has stored all its rows as they are written. One with a row
that is too long ends with an error. -/
structure InsertCorrect (schema : Schema) (declared : List (AstColumnDef Double))
    (tableName : CString) (columns : List CString) (rows : List (List (Expr Double)))
    (outcome : Except Fault (Executed PageStore Double)) : Prop where
  stored : ∀ after result, outcome = .ok (after, result) → result.code = .ok →
    result.tuples.length = rows.length ∧
      ∃ tableMeta, lookUpTable after.catalog tableName = some (tableMeta, schema) ∧
        ∀ (k : Nat) values tuple, rows[k]? = some values → result.tuples[k]? = some tuple →
          RowAsWritten schema declared columns values ⟨after.bpm, tableMeta.rootPageId⟩ tuple.rid
  rejected : (∃ values ∈ rows, valueLimit schema columns < values.length) →
    ∃ after result, outcome = .ok (after, result) ∧ result.code ≠ .ok

/-- Each column reads the same of the value in its position as of the one assigned to it, and the
row fits a page and can be read again. -/
def RowInPlace (schema : Schema) (declared : List (AstColumnDef Double)) (columns : List CString)
    (values : List (Expr Double)) : Prop :=
  (∀ colIdx col, schema.columns[colIdx]? = some col →
    ∃ v, ColumnReads col (positionalExpr values colIdx) v ∧
      ColumnReads col (assignedExpr schema declared columns values colIdx) v) ∧
  ∃ bytes, (insertedBytes schema values).run = .ok (.ok bytes) ∧ bytes ≠ [] ∧
    bytes.length ≤ maxTuple ∧ ∃ read : Tuple Double, tupleDeserialize schema bytes = pure read

/-! ## What a stored row reads as -/

section Rows

variable {schema : Schema} {values : List (Expr Double)} {made : Tuple Double}

/-- A tuple made of a short row has no values behind it. -/
theorem insertTuple_beyond (built : insertTuple schema values = pure made) (some : values ≠ [])
    {colIdx : Nat} (beyond : values[colIdx]? = none) : valueAt made colIdx = .null := by
  rw [insertTuple_eq schema values some] at built
  obtain ⟨length, -, -⟩ := setValues_returned built
  rw [List.length_replicate] at length
  rw [valueAt, List.getElem?_eq_none (length ▸ List.getElem?_eq_none_iff.mp beyond)]
  rfl

/-- `NULL` is read as `NULL`. -/
theorem columnReads_null {col : ColumnDef} {v : Value Double} :
    ColumnReads col (.literal .null) v ↔ storedAs col.type (.null : Value Double) = .ok v := by
  constructor
  · rintro ⟨val, cast, evaluated, casts, reads⟩
    rw [exprEvaluate] at evaluated
    obtain rfl : .null = val := Returning.pure_inj (m := Checked) evaluated
    rw [valueCastTo_same (by simp [Value.isNull])] at casts
    rw [← Returning.pure_inj (m := Checked) casts] at reads
    exact reads
  · intro reads
    exact ⟨.null, .null, by rw [exprEvaluate]; rfl, valueCastTo_same (by simp [Value.isNull]), reads⟩

/-- A tuple made of a row has in each column what the expression in its position gives. -/
theorem columnReads_positional (built : insertTuple schema values = pure made) (some : values ≠ [])
    {colIdx : Nat} {col : ColumnDef} (present : schema.columns[colIdx]? = .some col)
    {v : Value Double} :
    ColumnReads col (positionalExpr values colIdx) v ↔
      storedAs col.type (valueAt made colIdx) = .ok v := by
  cases given : values[colIdx]? with
  | none =>
      rw [positionalExpr, given, insertTuple_beyond built some given]
      exact columnReads_null
  | some expr =>
      obtain ⟨other, val, cast, here, evaluated, casts, value⟩ := insertTuple_value built given
      obtain rfl := Option.some.inj (present.symm.trans here)
      rw [positionalExpr, given, value, Option.getD_some]
      constructor
      · rintro ⟨val', cast', evaluated', casts', reads⟩
        obtain rfl := Returning.pure_inj (m := Checked) (evaluated.symm.trans evaluated')
        obtain rfl := Returning.pure_inj (m := Checked) (casts.symm.trans casts')
        exact reads
      · intro reads
        exact ⟨val, cast, evaluated, casts, reads⟩

theorem insertTuple_some (built : insertTuple schema values = pure made) : values ≠ [] := by
  rintro rfl
  cases built

/-- Of a row in place, the scan finds what the statement assigns. -/
theorem rowAsWritten_iff (laid : SchemaLaid schema) {declared : List (AstColumnDef Double)}
    {columns : List CString} {heap : StoreHeap} {rid : Rid} {bytes : List UInt8}
    (built : MadeOf schema values bytes) (nonempty : bytes ≠ [])
    (content : heapContents heap rid = if bytes.length ≤ maxTuple then some bytes else none) :
    RowAsWritten schema declared columns values heap rid ↔
      RowInPlace schema declared columns values := by
  have ran := built.ran
  obtain ⟨made, madeEq, serialized⟩ := built
  have some := insertTuple_some madeEq
  constructor
  · rintro ⟨read, found, written⟩
    obtain ⟨own, plain, stored, readable, rfl⟩ := selected_none_iff.mp found
    rw [stored] at content
    split at content
    · rename_i fits
      obtain rfl := Option.some.inj content
      refine ⟨fun colIdx col present => ?_, own, ran, nonempty, fits, plain, readable⟩
      obtain ⟨v, assigned, here⟩ := written colIdx col present
      obtain ⟨other, storedValue, readValue⟩ := read_column laid serialized readable present
      obtain rfl := Option.some.inj (readValue.symm.trans here)
      exact ⟨other, (columnReads_positional madeEq some present).mpr storedValue, assigned⟩
    · cases content
  · rintro ⟨inPlace, own, ownRan, -, fits, read, readable⟩
    obtain rfl : bytes = own := Except.ok.inj (Except.ok.inj (ran.symm.trans ownRan))
    rw [if_pos fits] at content
    refine ⟨_, selected_none_iff.mpr ⟨bytes, read, content, readable, rfl⟩, ?_⟩
    intro colIdx col present
    obtain ⟨v, positional, assigned⟩ := inPlace colIdx col present
    obtain ⟨other, storedValue, readValue⟩ := read_column laid serialized readable present
    have value := (columnReads_positional madeEq some present).mp positional
    obtain rfl := Except.ok.inj (storedValue.symm.trans value)
    exact ⟨other, assigned, readValue⟩

end Rows

/-! ## Statements -/

section Statements

variable {db : Database PageStore} {tableName : CString} {tableMeta : TableMeta} {schema : Schema}
variable {declared : List (AstColumnDef Double)} {columns : List CString}
variable {rows : List (List (Expr Double))} {turns : Nat}

omit [Platform Double] in
/-- The table that an `INSERT` may have given its first page. -/
theorem lookUpTable_rootUpdated (sound : DatabaseSound db)
    (found : lookUpTable db.catalog tableName = some (tableMeta, schema)) {firstPageId : PageId}
    (first : tableMeta.rootPageId ≠ invalidPageId → firstPageId = tableMeta.rootPageId) :
    lookUpTable (rootUpdated db.catalog tableMeta firstPageId) tableName =
      some ({ tableMeta with rootPageId := firstPageId }, schema) := by
  by_cases rooted : firstPageId ≠ invalidPageId ∧ tableMeta.rootPageId = invalidPageId
  · obtain ⟨known, schemaKnown⟩ := lookUpTable_eq found
    unfold catalogGetTable at known
    split at known
    · cases known
    · rename_i tableId named
      split at known
      · cases known
      · rename_i other cached
        obtain rfl := Except.ok.inj known
        obtain ⟨rfl, -⟩ := sound.heaps tableId other cached
        have again : catalogGetSchema (rootUpdated db.catalog other firstPageId) other.tableId =
            .ok schema := by
          rw [rootUpdated, if_pos rooted, catalogUpdateRootPage, cached]
          exact schemaKnown
        have table : catalogGetTable (rootUpdated db.catalog other firstPageId) tableName =
            .ok { other with rootPageId := firstPageId } := by
          rw [rootUpdated, if_pos rooted, catalogUpdateRootPage, cached, catalogGetTable]
          dsimp only
          rw [named]
          dsimp only
          rw [get_put_id, if_pos rfl]
        rw [lookUpTable, table]
        dsimp only
        rw [again]
  · have same : firstPageId = tableMeta.rootPageId := by
      by_cases empty : tableMeta.rootPageId = invalidPageId
      · by_contra differ
        exact rooted ⟨fun invalid => differ (invalid.trans empty.symm), empty⟩
      · exact first empty
    rw [rootUpdated, if_neg rooted, found, same]

/-- A row in place can be inserted. -/
theorem RowInPlace.insertable {values : List (Expr Double)}
    (inPlace : RowInPlace schema declared columns values) : Insertable schema values := by
  obtain ⟨-, bytes, ran, nonempty, -⟩ := inPlace
  exact ⟨bytes, ran, nonempty⟩

theorem executionEngineExecute_insert :
    executionEngineExecute turns db (.insert tableName columns rows) =
      outcomeOf db (.insert tableName columns rows) := by
  show executeDml turns db _ = executeDml 0 db _
  rw [executeDml, executeDml]

/-- What the correctness of an `INSERT` that has run comes down to. -/
theorem insertCorrect_ran_iff (sound : DatabaseSound db)
    (found : lookUpTable db.catalog tableName = some (tableMeta, schema))
    {after : Database PageStore} {result : StatementResult Double}
    (outcome : outcomeOf db (.insert tableName columns rows) = .ok (after, result)) :
    InsertCorrect schema declared tableName columns rows (.ok (after, result)) ↔
      ∀ values ∈ rows, values.length ≤ valueLimit schema columns ∧
        RowInPlace schema declared columns values := by
  have laid := lookUpTable_laid found
  rcases insertOutcome_cases outcome with
    ⟨missing, -⟩ | ⟨otherMeta, otherSchema, firstPageId, tuples, session, here, ran, rfl, rfl⟩
  · rw [found] at missing
    cases missing
  · obtain ⟨rfl, rfl⟩ := Prod.mk.inj (Option.some.inj (found.symm.trans here))
    obtain ⟨chain, heapSound⟩ := sound.tables tableName tableMeta (lookUpTable_eq found).1
    obtain ⟨⟨chain', sound', moved⟩, -⟩ := insertRows_cases heapSound ran
    have placed := insertRows_placed heapSound ran
    have table := lookUpTable_rootUpdated sound found moved.first
    constructor
    · intro correct values member
      obtain ⟨all, otherMeta, otherFound, written⟩ := correct.stored _ _ rfl rfl
      obtain ⟨rfl, -⟩ := Prod.mk.inj (Option.some.inj (table.symm.trans otherFound))
      refine ⟨Nat.le_of_not_lt fun long => ?_, ?_⟩
      · obtain ⟨after, result, same, failed⟩ := correct.rejected ⟨values, member, long⟩
        obtain ⟨-, rfl⟩ := Prod.mk.inj (Except.ok.inj same)
        exact failed rfl
      · obtain ⟨k, row⟩ := List.getElem?_of_mem member
        have bound : k < tuples.length := all ▸ (List.getElem?_eq_some_iff.mp row).1
        obtain ⟨otherValues, bytes, otherRow, made, nonempty, -, content⟩ :=
          placed.placed k _ (List.getElem?_eq_getElem bound)
        obtain rfl := Option.some.inj (row.symm.trans otherRow)
        exact (rowAsWritten_iff laid made nonempty content).mp
          (written k values _ row (List.getElem?_eq_getElem bound))
    · intro fine
      have all : tuples.length = rows.length :=
        placed.complete.mpr fun values member => (fine values member).2.insertable
      refine ⟨?_, ?_⟩
      · rintro _ _ same -
        obtain ⟨rfl, rfl⟩ := Prod.mk.inj (Except.ok.inj same)
        refine ⟨all, _, table, fun k values tuple row given => ?_⟩
        obtain ⟨otherValues, bytes, otherRow, made, nonempty, -, content⟩ := placed.placed k tuple given
        obtain rfl := Option.some.inj (row.symm.trans otherRow)
        exact (rowAsWritten_iff laid made nonempty content).mpr
          (fine values (List.mem_of_getElem? row)).2
      · rintro ⟨values, member, long⟩
        exact absurd long (Nat.not_lt.mpr (fine values member).1)

/-- An `INSERT` into a table that runs, or has a row that is too long, is correct exactly if no row
is too long and every row is in place. -/
theorem insertCorrect_iff (reached : Reached Double db)
    (found : lookUpTable db.catalog tableName = some (tableMeta, schema))
    (defined : (∃ values ∈ rows, valueLimit schema columns < values.length) ∨
      ∃ ended, executionEngineExecute turns db (.insert tableName columns rows) = .ok ended) :
    InsertCorrect schema declared tableName columns rows
        (executionEngineExecute turns db (.insert tableName columns rows)) ↔
      ∀ values ∈ rows, values.length ≤ valueLimit schema columns ∧
        RowInPlace schema declared columns values := by
  rw [executionEngineExecute_insert] at defined ⊢
  rcases outcome : outcomeOf db (.insert tableName columns rows) with fault | ⟨after, result⟩
  · rw [outcome] at defined
    rcases defined with ⟨values, member, long⟩ | ⟨ended, ran⟩
    · refine iff_of_false (fun correct => ?_) fun fine => ?_
      · obtain ⟨after, result, ran, -⟩ := correct.rejected ⟨values, member, long⟩
        cases ran
      · exact absurd long (Nat.not_lt.mpr (fine values member).1)
    · cases ran
  · exact insertCorrect_ran_iff reached.sound found outcome

end Statements

/-! ## A list of columns in another order -/

/-- `CREATE TABLE t (a INTEGER, b INTEGER)`. -/
def createPair : List (Stmt Int) :=
  [.createTable (.ofChars ['t'])
    [.plain (.ofChars ['a']) .integer 0, .plain (.ofChars ['b']) .integer 0] false]

/-- `(1, 2)`. -/
def oneAndTwo : List (Expr Int) := [.literal (.int 1), .literal (.int 2)]

/-- `INSERT INTO t (b, a) VALUES (1, 2)`. -/
def insertReversed : Stmt Int :=
  .insert (.ofChars ['t']) [.ofChars ['b'], .ofChars ['a']] [oneAndTwo]

theorem insertReversed_ends : ∃ tableMeta schema ended,
    lookUpTable (scriptDatabase createPair).catalog (.ofChars ['t']) = some (tableMeta, schema) ∧
      schema.columns.map ColumnDef.name = [.ofChars ['a'], .ofChars ['b']] ∧
      schema.columns.map ColumnDef.type = [.integer, .integer] ∧
      executionEngineExecute 0 (scriptDatabase createPair) insertReversed = .ok ended := by
  have seen : (lookUpTable (scriptDatabase createPair).catalog (.ofChars ['t'])).map
      (fun entry => (entry.2.columns.map ColumnDef.name, entry.2.columns.map ColumnDef.type)) =
        some ([.ofChars ['a'], .ofChars ['b']], [.integer, .integer]) := by
    decide +kernel
  obtain ⟨⟨tableMeta, schema⟩, found, columns⟩ := Option.map_eq_some_iff.mp seen
  obtain ⟨names, types⟩ := Prod.mk.inj columns
  obtain ⟨ended, ran, -⟩ := @ends_of_map _ _
    (executionEngineExecute 0 (scriptDatabase createPair) insertReversed) (·.2.code) .ok
    (by decide +kernel)
  exact ⟨tableMeta, schema, ended, found, names, types, ran⟩

theorem insertCorrect_iff_reversed : ∃ schema,
    InsertCorrect schema [] (.ofChars ['t']) [.ofChars ['b'], .ofChars ['a']] [oneAndTwo]
        (executionEngineExecute 0 (scriptDatabase createPair) insertReversed) ↔
      ∀ values ∈ [oneAndTwo], values.length ≤ valueLimit schema [.ofChars ['b'], .ofChars ['a']] ∧
        RowInPlace schema [] [.ofChars ['b'], .ofChars ['a']] values := by
  obtain ⟨tableMeta, schema, ended, found, -, -, ran⟩ := insertReversed_ends
  exact ⟨schema, insertCorrect_iff (reached_scriptDatabase createPair) found (.inr ⟨ended, ran⟩)⟩

theorem columnReads_number {col : ColumnDef} (number : col.type = .integer) {i : Int64}
    {v : Value Int} (reads : ColumnReads col (.literal (.int i)) v) : v = .integer i := by
  obtain ⟨val, cast, evaluated, casts, reads⟩ := reads
  rw [exprEvaluate] at evaluated
  obtain rfl : .integer i = val := Returning.pure_inj (m := Checked) evaluated
  rw [number] at casts reads
  rw [valueCastTo_same (by simp [Value.type])] at casts
  rw [← Returning.pure_inj (m := Checked) casts, storedAs_integer] at reads
  exact (Except.ok.inj reads).symm

/-- The value written for `b` is stored in `a`. -/
theorem insertReversed_misplaced : ¬∀ (db : Database PageStore) (tableName : CString)
    (tableMeta : TableMeta) (schema : Schema) (declared : List (AstColumnDef Int))
    (columns : List CString) (rows : List (List (Expr Int))), Reached Int db →
      lookUpTable db.catalog tableName = some (tableMeta, schema) →
      (∃ ended, executionEngineExecute 0 db (.insert tableName columns rows) = .ok ended) →
      InsertCorrect schema declared tableName columns rows
        (executionEngineExecute 0 db (.insert tableName columns rows)) := by
  intro claimed
  obtain ⟨tableMeta, schema, ⟨after, result⟩, found, names, types, ran⟩ := insertReversed_ends
  have reached := reached_scriptDatabase createPair
  have correct := claimed _ _ _ _ [] _ [oneAndTwo] reached found ⟨_, ran⟩
  rw [show executionEngineExecute 0 (scriptDatabase createPair) (.insert (.ofChars ['t'])
    [.ofChars ['b'], .ofChars ['a']] [oneAndTwo]) = .ok (after, result) from ran] at correct
  have outcome := ran
  rw [insertReversed, executionEngineExecute_insert] at outcome
  obtain ⟨-, inPlace, -⟩ :=
    (insertCorrect_ran_iff reached.sound found outcome).mp correct oneAndTwo List.mem_cons_self
  obtain ⟨first, second, shape⟩ : ∃ first second, schema.columns = [first, second] := by
    obtain ⟨first, rest, shape, -, others⟩ := List.map_eq_cons_iff.mp names
    obtain ⟨second, none, shape', -, others'⟩ := List.map_eq_cons_iff.mp others
    exact ⟨first, second, by rw [shape, shape', List.map_eq_nil_iff.mp others']⟩
  rw [shape] at names types
  obtain ⟨v, positional, assigned⟩ := inPlace 0 first (by rw [shape]; rfl)
  have number : first.type = .integer := (List.cons.inj types).1
  have a : first.name = .ofChars ['a'] := (List.cons.inj names).1
  have b : second.name = .ofChars ['b'] := (List.cons.inj (List.cons.inj names).2).1
  have two : assignedExpr schema [] [.ofChars ['b'], .ofChars ['a']] oneAndTwo 0 =
      .literal (.int 2) := by
    have differ : CString.ofChars ['a'] ≠ .ofChars ['b'] := by decide
    simp [assignedExpr, writtenExpr, schemaFindColumn, shape, a, b, oneAndTwo, List.findIdx?_cons,
      differ]
  rw [two] at assigned
  have one := columnReads_number number positional
  rw [columnReads_number number assigned] at one
  cases one

end MiniSqlite.Executor
