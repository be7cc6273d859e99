import MiniSqlite.Executor.InsertColumns
import MiniSqlite.Executor.TableFrames
import MiniSqlite.Std.Run

/-!
# Declared constraints

A column can be declared `NOT NULL`, `PRIMARY KEY` or `UNIQUE`. `ast_columns_to_storage`
drops all but the first, and `insert_next` and `update_next` read none of them, so that the
constraints hold exactly as long as every statement obeys them on its own.
-/

namespace MiniSqlite.Executor

open MiniSqlite.Common MiniSqlite.Std MiniSqlite.Storage MiniSqlite.Buffer MiniSqlite.Catalog
  MiniSqlite.Parser MiniSqlite.Planner

variable {Double : Type}

/-! ## Constraints of rows -/

/-- The column takes no `NULL`. -/
def required (col : AstColumnDef Double) : Bool := col.notNull || col.isPrimaryKey

/-- The column takes no value twice. -/
def keyed (col : AstColumnDef Double) : Bool := col.isPrimaryKey || col.isUnique

/-- A row has values in the columns that take no `NULL`. -/
def RowFilled (columns : List (AstColumnDef Double)) (row : Tuple Double) : Prop :=
  ∀ (colIdx : Nat) col, columns[colIdx]? = some col → required col = true →
    valueAt row colIdx ≠ .null

variable [Platform Double]

/-- Two values that are not `NULL` compare as equal. -/
def SameKey (v w : Value Double) : Prop := v ≠ .null ∧ w ≠ .null ∧ valueCompare v w = 0

/-- Two rows agree on a column that takes no value twice. -/
def RowsClash (columns : List (AstColumnDef Double)) (row other : Tuple Double) : Prop :=
  ∃ (colIdx : Nat) (col : AstColumnDef Double), columns[colIdx]? = some col ∧ keyed col = true ∧
    (SameKey (valueAt row colIdx) (valueAt other colIdx) ∨
      SameKey (valueAt other colIdx) (valueAt row colIdx))

theorem RowsClash.symm {columns : List (AstColumnDef Double)} {row other : Tuple Double}
    (clash : RowsClash columns row other) : RowsClash columns other row := by
  obtain ⟨colIdx, col, present, distinct, agree⟩ := clash
  exact ⟨colIdx, col, present, distinct, agree.symm⟩

/-- The rows of a table obey the constraints. -/
structure ConstraintsHold (columns : List (AstColumnDef Double))
    (rows : Rid → Option (Tuple Double)) : Prop where
  filled : ∀ rid row, rows rid = some row → RowFilled columns row
  apart : ∀ rid other row otherRow, rid ≠ other → rows rid = some row →
    rows other = some otherRow → ¬RowsClash columns row otherRow

theorem constraintsHold_empty (columns : List (AstColumnDef Double)) :
    ConstraintsHold columns fun _ => none :=
  ⟨fun _ _ none => absurd none (by simp), fun _ _ _ _ _ none => absurd none (by simp)⟩

/-- Rows written at some places among rows that stay at the others. -/
theorem ConstraintsHold.write {columns : List (AstColumnDef Double)}
    {before after : Rid → Option (Tuple Double)} (held : ConstraintsHold columns before)
    {stays : Rid → Prop} {written : Rid → Tuple Double → Prop}
    (rows : ∀ rid row, after rid = some row → stays rid ∧ before rid = some row ∨ written rid row)
    (filled : ∀ rid row, written rid row → RowFilled columns row)
    (new : ∀ rid other row otherRow, rid ≠ other → written rid row → written other otherRow →
      ¬RowsClash columns row otherRow)
    (old : ∀ rid other row otherRow, rid ≠ other → written rid row → stays other →
      before other = some otherRow → ¬RowsClash columns row otherRow) :
    ConstraintsHold columns after where
  filled rid row here := by
    rcases rows rid row here with ⟨-, earlier⟩ | isNew
    · exact held.filled rid row earlier
    · exact filled rid row isNew
  apart rid other row otherRow differ here there := by
    rcases rows rid row here with ⟨stay, earlier⟩ | isNew
    · rcases rows other otherRow there with ⟨-, otherEarlier⟩ | otherNew
      · exact held.apart rid other row otherRow differ earlier otherEarlier
      · exact fun clash => old other rid otherRow row differ.symm otherNew stay earlier clash.symm
    · rcases rows other otherRow there with ⟨otherStay, otherEarlier⟩ | otherNew
      · exact old rid other row otherRow differ isNew otherStay otherEarlier
      · exact new rid other row otherRow differ isNew otherNew

/-! ## Statements that obey them -/

/-- What is stored of a row of an `INSERT` reads as `read`. -/
def InsertedAs (schema : Schema) (values : List (Expr Double)) (read : Tuple Double) : Prop :=
  ∃ bytes, (insertedBytes schema values).run = .ok (.ok bytes) ∧
    tupleDeserialize schema bytes = pure read

/-- What is stored of an updated row reads as `read`. -/
def UpdatedAs (schema : Schema) (assignments : List (Assignment Double))
    (old read : Tuple Double) : Prop :=
  ∃ bytes, (updatedBytes schema assignments old).run = .ok (.ok bytes) ∧
    tupleDeserialize schema bytes = pure read

/-- The rows of an `INSERT` have values where they must, and agree neither with rows of the
table nor with each other. -/
structure InsertObeys (columns : List (AstColumnDef Double)) (schema : Schema) (heap : StoreHeap)
    (rows : List (List (Expr Double))) : Prop where
  filled : ∀ values ∈ rows, ∀ read, InsertedAs schema values read → RowFilled columns read
  stored : ∀ values ∈ rows, ∀ read, InsertedAs schema values read → ∀ rid old,
    selected schema none heap rid = some old → ¬RowsClash columns read old
  apart : ∀ (k l : Nat) values others read otherRead, k ≠ l → rows[k]? = some values →
    rows[l]? = some others → InsertedAs schema values read → InsertedAs schema others otherRead →
      ¬RowsClash columns read otherRead

/-- The new rows of an `UPDATE` have values where they must, and agree neither with each other
nor with rows that stay. If some new row does not fit, any row may stay. -/
structure UpdateObeys (columns : List (AstColumnDef Double)) (schema : Schema) (store : PageStore)
    (tableMeta : TableMeta) (assignments : List (Assignment Double))
    (whereClause : Option (Expr Double)) : Prop where
  filled : ∀ rid old read,
    selected schema whereClause ⟨store, tableMeta.rootPageId⟩ rid = some old →
      UpdatedAs schema assignments old read → RowFilled columns read
  apart : ∀ rid other old otherOld read otherRead, rid ≠ other →
    selected schema whereClause ⟨store, tableMeta.rootPageId⟩ rid = some old →
      selected schema whereClause ⟨store, tableMeta.rootPageId⟩ other = some otherOld →
        UpdatedAs schema assignments old read → UpdatedAs schema assignments otherOld otherRead →
          ¬RowsClash columns read otherRead
  stored : ∀ rid other old read otherRow, rid ≠ other →
    selected schema whereClause ⟨store, tableMeta.rootPageId⟩ rid = some old →
      UpdatedAs schema assignments old read →
        selected schema none ⟨store, tableMeta.rootPageId⟩ other = some otherRow →
          (selected schema whereClause ⟨store, tableMeta.rootPageId⟩ other = none ∨
            ¬UpdatesFit schema whereClause assignments store (tableRows store tableMeta)) →
          ¬RowsClash columns read otherRow

/-! ## What statements leave -/

section Tables

variable {columns : List (AstColumnDef Double)} {schema : Schema} {tableMeta : TableMeta}
variable {chain : List PageId} {before after : PageStore}

/-- An `INSERT` that obeys the constraints keeps them. -/
theorem InsertObeys.kept {rows : List (List (Expr Double))} {heap heap' : StoreHeap}
    {tuples : List (Tuple Double)} (obeys : InsertObeys columns schema heap rows)
    (held : ConstraintsHold columns (selected schema none heap))
    (placed : RowsPlaced schema rows heap heap' tuples) :
    ConstraintsHold columns (selected schema none heap') := by
  refine @ConstraintsHold.write _ _ _ _ _ held (fun _ => True)
    (fun rid row => ∃ (k : Nat) (values : List (Expr Double)) (tuple read : Tuple Double),
      rows[k]? = some values ∧ tuples[k]? = some tuple ∧ tuple.rid = rid ∧
        InsertedAs schema values read ∧ row = { read with rid := rid }) ?_ ?_ ?_ ?_
  · intro rid row here
    obtain ⟨bytes, read, stored, readable, rfl⟩ := selected_none_iff.mp here
    rcases placed.others rid bytes stored with earlier | ⟨k, tuple, given, rfl⟩
    · exact .inl ⟨trivial, selected_none_iff.mpr ⟨bytes, read, earlier, readable, rfl⟩⟩
    · obtain ⟨values, own, row, made, -, -, content⟩ := placed.placed k tuple given
      rw [stored] at content
      split at content
      · obtain rfl := Option.some.inj content
        exact .inr ⟨k, values, tuple, read, row, given, rfl, ⟨bytes, made.ran, readable⟩, rfl⟩
      · cases content
  · rintro rid _ ⟨k, values, tuple, read, row, -, -, reads, rfl⟩
    exact obeys.filled values (List.mem_of_getElem? row) read reads
  · rintro rid other _ _ differ ⟨k, values, tuple, read, row, given, rfl, reads, rfl⟩
      ⟨l, others, otherTuple, otherRead, otherRow, otherGiven, rfl, otherReads, rfl⟩
    have apart : k ≠ l := by
      rintro rfl
      exact differ (congrArg Tuple.rid (Option.some.inj (given.symm.trans otherGiven)))
    exact obeys.apart k l values others read otherRead apart row otherRow reads otherReads
  · rintro rid other _ otherRow - ⟨k, values, tuple, read, row, -, -, reads, rfl⟩ - stored
    exact obeys.stored values (List.mem_of_getElem? row) read reads other otherRow stored

/-- A `DELETE` keeps the constraints. -/
theorem ConstraintsHold.delete {whereClause : Option (Expr Double)}
    (held : ConstraintsHold columns (selected schema none ⟨before, tableMeta.rootPageId⟩))
    (deleted : TableDeleted schema whereClause tableMeta.rootPageId chain
      (tableRows before tableMeta) before after) :
    ConstraintsHold columns (selected schema none ⟨after, tableMeta.rootPageId⟩) := by
  refine @ConstraintsHold.write _ _ _ _ _ held (fun _ => True) (fun _ _ => False) ?_
    (fun _ _ => False.elim) (fun _ _ _ _ _ => False.elim) (fun _ _ _ _ _ => False.elim)
  intro rid row here
  obtain ⟨bytes, read, stored, readable, rfl⟩ := selected_none_iff.mp here
  rw [deleted.contents] at stored
  split at stored
  · cases stored
  · exact .inl ⟨trivial, selected_none_iff.mpr ⟨bytes, read, stored, readable, rfl⟩⟩

/-- An `UPDATE` that obeys the constraints keeps them, even where it stops halfway. -/
theorem UpdateObeys.kept {assignments : List (Assignment Double)}
    {whereClause : Option (Expr Double)} {log log' : List Int}
    {tuples : List (Tuple Double)}
    (obeys : UpdateObeys columns schema before tableMeta assignments whereClause)
    (held : ConstraintsHold columns (selected schema none ⟨before, tableMeta.rootPageId⟩))
    (stored : RowsStored tableMeta.rootPageId chain before (tableRows before tableMeta))
    (ran : changeRows schema whereClause (updateTuple tableMeta.rootPageId schema assignments)
      (tableRows before tableMeta) ⟨before, log⟩ [] = .ok (tuples, ⟨after, log'⟩)) :
    ConstraintsHold columns (selected schema none ⟨after, tableMeta.rootPageId⟩) := by
  have updated : ∀ {rid}, HoldsUpdated schema whereClause assignments (tableRows before tableMeta)
      ⟨after, tableMeta.rootPageId⟩ rid → ∃ old bytes,
        selected schema whereClause ⟨before, tableMeta.rootPageId⟩ rid = some old ∧
        (updatedBytes schema assignments old).run = .ok (.ok bytes) ∧
        heapContents ⟨after, tableMeta.rootPageId⟩ rid = some bytes := by
    rintro rid ⟨row, member, old, bytes, same, found, made, content⟩
    exact ⟨old, bytes, (selected_iff stored.sound).mpr ⟨row, member, same, found⟩, made, content⟩
  obtain ⟨changed, errors, -, -, table⟩ := changeRows_update stored ran
  -- where all new rows fit, the rows that stay are those that were not selected
  refine @ConstraintsHold.write _ _ _ _ _ held
    (fun rid => selected schema whereClause ⟨before, tableMeta.rootPageId⟩ rid = none ∨
      ¬UpdatesFit schema whereClause assignments before (tableRows before tableMeta))
    (fun rid row => ∃ old read,
      selected schema whereClause ⟨before, tableMeta.rootPageId⟩ rid = some old ∧
        UpdatedAs schema assignments old read ∧ row = { read with rid := rid }) ?_ ?_ ?_ ?_
  · intro rid row here
    obtain ⟨bytes, read, content, readable, rfl⟩ := selected_none_iff.mp here
    have written : (∃ old bytes,
        selected schema whereClause ⟨before, tableMeta.rootPageId⟩ rid = some old ∧
          (updatedBytes schema assignments old).run = .ok (.ok bytes) ∧
          heapContents ⟨after, tableMeta.rootPageId⟩ rid = some bytes) →
        ∃ old read', selected schema whereClause ⟨before, tableMeta.rootPageId⟩ rid = some old ∧
          UpdatedAs schema assignments old read' ∧
            { read with rid := rid } = { read' with rid := rid } := by
      rintro ⟨old, own, found, made, same⟩
      obtain rfl := Option.some.inj (content.symm.trans same)
      exact ⟨old, read, found, ⟨bytes, made, readable⟩, rfl⟩
    rcases changeRows_update_contents stored ran rid with kept | holds
    · cases chosen : selected schema whereClause ⟨before, tableMeta.rootPageId⟩ rid with
      | none =>
          rw [kept] at content
          exact .inl ⟨.inl rfl, selected_none_iff.mpr ⟨bytes, read, content, readable, rfl⟩⟩
      | some old =>
          rcases table.outcome with ⟨-, all⟩ | ⟨unfit, -⟩
          · obtain ⟨row, inRows, rfl, found⟩ := (selected_iff stored.sound).mp chosen
            have member : old ∈ changed :=
              all.changed_eq ▸ List.mem_filterMap.mpr ⟨row, inRows, found⟩
            obtain ⟨own, made, same⟩ := all.contents old member
            refine .inr ?_
            rw [← chosen]
            exact written ⟨old, own, chosen, made, delivered_rid found ▸ same⟩
          · rw [kept] at content
            exact .inl ⟨.inr unfit, selected_none_iff.mpr ⟨bytes, read, content, readable, rfl⟩⟩
    · exact .inr (written (updated holds))
  · rintro rid _ ⟨old, read, found, reads, rfl⟩
    exact obeys.filled rid old read found reads
  · rintro rid other _ _ differ ⟨old, read, found, reads, rfl⟩
      ⟨otherOld, otherRead, otherFound, otherReads, rfl⟩
    exact obeys.apart rid other old otherOld read otherRead differ found otherFound reads otherReads
  · rintro rid other _ otherRow differ ⟨old, read, found, reads, rfl⟩ stays there
    exact obeys.stored rid other old read otherRow differ found reads there stays

end Tables

/-! ## Databases with their declarations -/

/-- A database, with the columns that its tables were created with. -/
structure SqlState (Double : Type) where
  db : Database PageStore
  declared : CString → Option (List (AstColumnDef Double))

/-- What is declared after a statement. -/
def declaredAfter (declared : CString → Option (List (AstColumnDef Double))) (code : ErrorCode) :
    Stmt Double → CString → Option (List (AstColumnDef Double))
  | .createTable tableName columns _ =>
      if code = .ok then Function.update declared tableName (some columns) else declared
  | .dropTable tableName _ =>
      if code = .ok then Function.update declared tableName none else declared
  | _ => declared

/-- A statement of a run. C defines nothing for one that fails. -/
def sqlStep (turns : Nat) (state : SqlState Double) (stmt : Stmt Double) : SqlState Double :=
  match executionEngineExecute turns state.db stmt with
  | .error _ => state
  | .ok (after, result) => ⟨after, declaredAfter state.declared result.code stmt⟩

/-- An empty database. -/
def SqlState.start (store : PageStore) : SqlState Double :=
  ⟨⟨catalogInit, store⟩, fun _ => none⟩

/-- The schema of a table that was created with the columns. -/
def declaredSchema (columns : List (AstColumnDef Double)) : Schema :=
  schemaBuild (columns.map astColumnToStorage)

/-- The table has the columns, and its rows obey their constraints. -/
def TableConstrained (db : Database PageStore) (tableName : CString)
    (columns : List (AstColumnDef Double)) : Prop :=
  ∃ tableMeta, lookUpTable db.catalog tableName = some (tableMeta, declaredSchema columns) ∧
    ConstraintsHold columns (selected (declaredSchema columns) none ⟨db.bpm, tableMeta.rootPageId⟩)

/-- All tables have the columns declared, and obey their constraints. -/
def SqlState.Constrained (state : SqlState Double) : Prop :=
  ∀ tableName columns, state.declared tableName = some columns →
    TableConstrained state.db tableName columns

/-- The rows that a statement writes obey the constraints of its table. -/
def StatementObeys (state : SqlState Double) : Stmt Double → Prop
  | .insert tableName _ rows => ∀ columns tableMeta schema,
      state.declared tableName = some columns →
        lookUpTable state.db.catalog tableName = some (tableMeta, schema) →
          InsertObeys columns schema ⟨state.db.bpm, tableMeta.rootPageId⟩ rows
  | .update tableName assignments whereClause => ∀ columns tableMeta schema,
      state.declared tableName = some columns →
        lookUpTable state.db.catalog tableName = some (tableMeta, schema) →
          UpdateObeys columns schema state.db.bpm tableMeta assignments whereClause
  | _ => True

/-- A statement leaves all constraints intact, and is rejected if it violates one. -/
structure KeepsConstraints (turns : Nat) (state : SqlState Double) (stmt : Stmt Double) : Prop where
  constrained : (sqlStep turns state stmt).Constrained
  rejected : ¬StatementObeys state stmt →
    ∃ after result, executionEngineExecute turns state.db stmt = .ok (after, result) ∧
      (result.code = .nullViolation ∨ result.code = .duplicateKey)

/-- What every statement keeps that obeys the constraints. -/
structure SqlSound (state : SqlState Double) : Prop where
  sound : DatabaseSound state.db
  filed : TablesFiled state.db.catalog
  constrained : state.Constrained

theorem sqlSound_start (store : PageStore) : SqlSound (SqlState.start store : SqlState Double) where
  sound := databaseSound_init store
  filed := tablesFiled_init
  constrained _ _ absent := absurd absent (by simp [SqlState.start])

section Steps

variable {state : SqlState Double} {stmt : Stmt Double} {turns : Nat}
variable {after : Database PageStore} {result : StatementResult Double}

/-- A table that a statement keeps stays constrained. -/
theorem TableKept.constrained {db : Database PageStore} {tableName : CString}
    {columns : List (AstColumnDef Double)} (kept : TableKept db after tableName)
    (held : TableConstrained db tableName columns) : TableConstrained after tableName columns := by
  obtain ⟨tableMeta, found, holds⟩ := held
  refine ⟨tableMeta, kept.found.trans found, ?_⟩
  unfold selected at holds ⊢
  rw [kept.rows tableMeta _ found]
  exact holds

omit [Platform Double] in
/-- A table just created is found, and has no page. -/
theorem lookUpTable_created {cat other : CatalogT} {tableName : CString} {columns : List ColumnDef}
    {schema : Schema} {tableId : TableId} (laid : schemaCreate columns = .ok schema)
    (created : catalogCreateTable cat tableName schema = .ok (other, some tableId)) :
    lookUpTable other tableName =
      some (⟨tableId, tableName, invalidPageId, .user⟩, schemaBuild columns) := by
  obtain ⟨built, again⟩ := schemaCreate_columns laid
  rcases catalogCreateTable_cases created with ⟨none, -⟩ | ⟨next, -, -, same, rfl⟩
  · cases none
  · obtain rfl := Option.some.inj same
    rw [lookUpTable, catalogGetTable]
    dsimp only [registerTable]
    rw [get_put_name, if_pos rfl]
    dsimp only
    rw [get_put_id, if_pos rfl]
    dsimp only
    rw [catalogGetSchema]
    dsimp only
    rw [get_put_id, if_pos rfl]
    dsimp only
    rw [again, built]

/-- A table without pages has no rows. -/
theorem selected_unrooted (schema : Schema) (store : PageStore) :
    selected schema none ⟨store, invalidPageId⟩ = fun _ => (none : Option (Tuple Double)) := by
  have empty : HeapSound ⟨store, invalidPageId⟩ [] :=
    ⟨rfl, List.nodup_nil, fun _ member => absurd member List.not_mem_nil⟩
  funext rid
  rw [selected, empty.contents_eq, if_neg List.not_mem_nil]
  rfl

/-- `CREATE TABLE` adds an empty table, or leaves everything as it was. -/
theorem createTable_constrained {db : Database PageStore} {tableName : CString}
    {columns : List (AstColumnDef Double)} {ifNotExists : Bool}
    (ran : executeDdl db (.createTable tableName columns ifNotExists) = .ok (after, result)) :
    result.code = .ok ∧ TableConstrained after tableName columns ∨
      result.code ≠ .ok ∧ after = db := by
  rw [executeDdl] at ran
  split at ran
  · rename_i rc failed
    obtain ⟨rfl, rfl⟩ := Prod.mk.inj (Except.ok.inj ran)
    refine .inr ⟨?_, rfl⟩
    rintro rfl
    unfold schemaCreate at failed
    split at failed <;> cases failed
  · rename_i schema laid
    obtain ⟨⟨cat, tableId⟩, created, ran⟩ := Returning.returned ran
    cases tableId with
    | none =>
        obtain ⟨rfl, rfl⟩ := Prod.mk.inj (Except.ok.inj ran)
        rw [catalogCreateTable_failed created]
        exact .inr ⟨by simp, rfl⟩
    | some tableId =>
        obtain ⟨rfl, rfl⟩ := Prod.mk.inj (Except.ok.inj ran)
        refine .inl ⟨rfl, _, lookUpTable_created laid created, ?_⟩
        dsimp only
        rw [selected_unrooted]
        exact constraintsHold_empty columns

omit [Platform Double] in
/-- `DROP TABLE` leaves everything as it was if it fails. -/
theorem dropTable_refused {db : Database PageStore} {tableName : CString} {ifExists : Bool}
    (ran : executeDdl db (.dropTable tableName ifExists) = .ok (after, result))
    (failed : result.code ≠ .ok) : after = db := by
  have ended : (ended { db with catalog := (catalogDropTable db.catalog tableName).1 }
      (catalogDropTable db.catalog tableName).2 (some 0) : Executed PageStore Double) =
        (after, result) := Except.ok.inj ran
  obtain ⟨database, returned⟩ := Prod.mk.inj ended
  rw [← returned] at failed
  rw [← database, catalogDropTable_failed _ _ failed]

theorem SqlSound.insert (sqlSound : SqlSound state) {tableName : CString} {names : List CString}
    {rows : List (List (Expr Double))} {columns : List (AstColumnDef Double)}
    (obeys : StatementObeys state (.insert tableName names rows))
    (declared : state.declared tableName = some columns)
    (outcome : outcomeOf state.db (.insert tableName names rows) = .ok (after, result)) :
    TableConstrained after tableName columns := by
  obtain ⟨tableMeta, found, holds⟩ := sqlSound.constrained tableName columns declared
  rcases insertOutcome_cases outcome with
    ⟨missing, -⟩ | ⟨otherMeta, otherSchema, firstPageId, tuples, session, here, ran, rfl, rfl⟩
  · rw [found] at missing
    cases missing
  · obtain ⟨rfl, rfl⟩ := Prod.mk.inj (Option.some.inj (found.symm.trans here))
    obtain ⟨chain, heapSound⟩ := sqlSound.sound.tables tableName tableMeta (lookUpTable_eq found).1
    obtain ⟨⟨chain', -, moved⟩, -⟩ := insertRows_cases heapSound ran
    refine ⟨_, lookUpTable_rootUpdated sqlSound.sound found moved.first, ?_⟩
    exact (obeys columns tableMeta _ declared found).kept holds (insertRows_placed heapSound ran)

/-- `UPDATE` and `DELETE` leave the catalog alone. -/
theorem SqlSound.change (sqlSound : SqlSound state) {tableName : CString}
    {whereClause : Option (Expr Double)} {columns : List (AstColumnDef Double)}
    {change : PageId → Schema → Tuple Double → ExecM PageStore RowFate}
    (declared : state.declared tableName = some columns)
    (outcome : changeOutcome state.db tableName whereClause change = .ok (after, result))
    (kept : ∀ (tableMeta : TableMeta) chain tuples (session : Session PageStore),
      lookUpTable state.db.catalog tableName = some (tableMeta, declaredSchema columns) →
      ConstraintsHold columns
        (selected (declaredSchema columns) none ⟨state.db.bpm, tableMeta.rootPageId⟩) →
      RowsStored tableMeta.rootPageId chain state.db.bpm (tableRows state.db.bpm tableMeta) →
      changeRows (declaredSchema columns) whereClause
          (change tableMeta.rootPageId (declaredSchema columns))
          (tableRows state.db.bpm tableMeta) ⟨state.db.bpm, []⟩ [] = .ok (tuples, session) →
      ConstraintsHold columns
        (selected (declaredSchema columns) none ⟨session.bpm, tableMeta.rootPageId⟩)) :
    TableConstrained after tableName columns := by
  obtain ⟨tableMeta, found, holds⟩ := sqlSound.constrained tableName columns declared
  rcases changeOutcome_cases outcome with
    ⟨missing, -⟩ | ⟨otherMeta, otherSchema, tuples, session, here, ran, same⟩
  · rw [found] at missing
    cases missing
  · obtain ⟨rfl, rfl⟩ := Prod.mk.inj (Option.some.inj (found.symm.trans here))
    obtain ⟨rfl, rfl⟩ := Prod.mk.inj same
    obtain ⟨chain, stored⟩ := sqlSound.sound.tables.rowsStored (lookUpTable_eq found).1
    exact ⟨tableMeta, found, kept tableMeta chain tuples session found holds stored ran⟩

omit [Platform Double] in
/-- A statement declares nothing about other tables than its target. -/
theorem declaredAfter_other {declared : CString → Option (List (AstColumnDef Double))}
    {code : ErrorCode} {tableName : CString} (other : targetTable stmt ≠ some tableName) :
    declaredAfter declared code stmt tableName = declared tableName := by
  cases stmt with
  | createTable name columns ifNotExists =>
      have differ : tableName ≠ name := fun same => other (congrArg some same.symm)
      rw [declaredAfter]
      split
      · rw [Function.update_of_ne differ]
      · rfl
  | dropTable name ifExists =>
      have differ : tableName ≠ name := fun same => other (congrArg some same.symm)
      rw [declaredAfter]
      split
      · rw [Function.update_of_ne differ]
      · rfl
  | _ => rfl

/-- The target of a statement that obeys the constraints stays constrained. -/
theorem SqlSound.target (sqlSound : SqlSound state) (obeys : StatementObeys state stmt)
    (ran : executionEngineExecute turns state.db stmt = .ok (after, result)) {tableName : CString}
    (target : targetTable stmt = some tableName) {columns : List (AstColumnDef Double)}
    (declared : declaredAfter state.declared result.code stmt tableName = some columns) :
    TableConstrained after tableName columns := by
  have outcome := outcome_of_execute sqlSound.sound.tables ran
  cases stmt with
  | createTable name cols ifNotExists =>
      obtain rfl := Option.some.inj target
      rw [executionEngineExecute] at ran
      rw [declaredAfter] at declared
      rcases createTable_constrained ran with ⟨code, made⟩ | ⟨code, rfl⟩
      · rw [if_pos code, Function.update_self] at declared
        exact Option.some.inj declared ▸ made
      · rw [if_neg code] at declared
        exact sqlSound.constrained _ _ declared
  | dropTable name ifExists =>
      obtain rfl := Option.some.inj target
      rw [executionEngineExecute] at ran
      rw [declaredAfter] at declared
      by_cases code : result.code = .ok
      · rw [if_pos code, Function.update_self] at declared
        cases declared
      · rw [if_neg code] at declared
        rw [dropTable_refused ran code]
        exact sqlSound.constrained _ _ declared
  | insert name names rows =>
      obtain rfl := Option.some.inj target
      exact sqlSound.insert obeys declared outcome
  | update name assignments whereClause =>
      obtain rfl := Option.some.inj target
      rw [outcomeOf] at outcome
      refine sqlSound.change declared outcome fun tableMeta chain tuples session found holds stored ran => ?_
      exact (obeys columns tableMeta _ declared found).kept holds stored ran
  | delete name whereClause =>
      obtain rfl := Option.some.inj target
      rw [outcomeOf] at outcome
      refine sqlSound.change declared outcome fun tableMeta chain tuples session found holds stored ran => ?_
      obtain ⟨-, -, deleted⟩ := changeRows_delete stored ran
      exact holds.delete deleted
  | _ => cases target

/-- Every statement that obeys the constraints keeps them. -/
theorem SqlSound.step (sqlSound : SqlSound state) (obeys : StatementObeys state stmt) :
    SqlSound (sqlStep turns state stmt) := by
  unfold sqlStep
  split
  · exact sqlSound
  · rename_i after result ran
    have others := sqlSound.filed.execute sqlSound.sound ran
    refine ⟨sqlSound.sound.execute ran, others.filed, fun tableName columns declared => ?_⟩
    by_cases target : targetTable stmt = some tableName
    · exact sqlSound.target obeys ran target declared
    · refine (others.kept tableName target).constrained (sqlSound.constrained tableName columns ?_)
      have same : declaredAfter state.declared result.code stmt tableName =
          state.declared tableName := declaredAfter_other target
      rw [← same]
      exact declared

/-- No statement that changes rows is rejected for a constraint. -/
theorem SqlSound.accepted (sqlSound : SqlSound state) (violates : ¬StatementObeys state stmt)
    (ran : executionEngineExecute turns state.db stmt = .ok (after, result)) : result.code = .ok := by
  have outcome := outcome_of_execute sqlSound.sound.tables ran
  cases stmt with
  | insert tableName names rows =>
      rcases insertOutcome_cases outcome with ⟨missing, -⟩ | ⟨_, _, _, _, _, -, -, -, rfl⟩
      · refine absurd (fun columns tableMeta schema declared found => ?_) violates
        rw [found] at missing
        cases missing
      · rfl
  | update tableName assignments whereClause =>
      rw [outcomeOf] at outcome
      rcases changeOutcome_cases outcome with ⟨missing, -⟩ | ⟨_, _, tuples, session, -, -, same⟩
      · refine absurd (fun columns tableMeta schema declared found => ?_) violates
        rw [found] at missing
        cases missing
      · obtain ⟨-, rfl⟩ := Prod.mk.inj same
        rfl
  | _ => exact absurd trivial violates

/-- A statement keeps the constraints exactly if it obeys them on its own. -/
theorem SqlSound.keeps_iff (sqlSound : SqlSound state) :
    KeepsConstraints turns state stmt ↔ StatementObeys state stmt := by
  constructor
  · intro keeps
    by_contra violates
    obtain ⟨after, result, ran, rejected⟩ := keeps.rejected violates
    rw [sqlSound.accepted violates ran] at rejected
    rcases rejected with none | none <;> cases none
  · intro obeys
    exact ⟨(sqlSound.step obeys).constrained, fun violates => absurd obeys violates⟩

end Steps

/-- A run keeps all constraints and rejects what violates them exactly if every statement of it
obeys them on its own. -/
theorem constraintsKept_iff (turns : Nat) (store : PageStore) (stmts : List (Stmt Double)) :
    EachStep (sqlStep turns) (KeepsConstraints turns) (SqlState.start store) stmts ↔
      EachStep (sqlStep turns) StatementObeys (SqlState.start store) stmts :=
  eachStep_iff (fun _ _ sqlSound obeys => sqlSound.step obeys)
    (fun _ _ sqlSound => sqlSound.keeps_iff) stmts (sqlSound_start store)

/-! ## A `NULL` that is stored -/

/-- `n INTEGER NOT NULL`. -/
def requiredNumber : AstColumnDef Int :=
  { AstColumnDef.plain (.ofChars ['n']) .integer 0 with notNull := true }

/-- `CREATE TABLE t (n INTEGER NOT NULL)` and `INSERT INTO t VALUES (NULL)`. -/
def insertNull : List (Stmt Int) :=
  [.createTable (.ofChars ['t']) [requiredNumber] false,
    .insert (.ofChars ['t']) [] [[.literal .null]]]

/-- The table is declared, and its first row reads as `NULL`. -/
theorem insertNull_reads :
    let state := run (sqlStep 0) (SqlState.start smallStore) insertNull
    state.declared (.ofChars ['t']) = some [requiredNumber] ∧
      ((lookUpTable state.db.catalog (.ofChars ['t'])).bind fun (tableMeta, schema) =>
        (@selected Int _ schema none ⟨state.db.bpm, tableMeta.rootPageId⟩ ⟨1, 0⟩).map fun row =>
          (valueAt row 0).isNull) = some true := by
  decide +kernel

/-- `NOT NULL` does not keep `NULL` out. -/
theorem insertNull_stored : ¬∀ (turns : Nat) (store : PageStore) (stmts : List (Stmt Int)),
    EachStep (sqlStep turns) (KeepsConstraints turns) (SqlState.start store) stmts := by
  intro claimed
  obtain ⟨-, keeps, -⟩ := claimed 0 smallStore insertNull
  obtain ⟨declared, reads⟩ := insertNull_reads
  obtain ⟨tableMeta, found, holds⟩ := keeps.constrained _ _ declared
  obtain ⟨⟨otherMeta, schema⟩, here, seen⟩ := Option.bind_eq_some_iff.mp reads
  obtain ⟨rfl, rfl⟩ := Prod.mk.inj (Option.some.inj (here.symm.trans found))
  obtain ⟨row, stored, null⟩ := Option.map_eq_some_iff.mp seen
  refine holds.filled _ row stored 0 requiredNumber rfl rfl ?_
  cases value : valueAt row 0 with
  | null => rfl
  | _ => rw [value] at null; cases null

end MiniSqlite.Executor
