import MiniSqlite.Executor.ChangeResults
import MiniSqlite.Storage.TupleRoundTrip

/-!
# The sizes of stored tuples

`insert_next` and `update_next` serialize a tuple into a buffer of
`schema_max_tuple_size` bytes and pass its size to the heap as a `uint16_t`.
Nothing compares a string with the length its column declares, so that both hold
only of tuples that happen to fit.
-/

namespace MiniSqlite.Executor

open MiniSqlite.Common MiniSqlite.Std MiniSqlite.Storage MiniSqlite.Buffer MiniSqlite.Catalog
  MiniSqlite.Parser MiniSqlite.Planner

variable {Double : Type} [Platform Double]

/-! ## One tuple -/

omit [Platform Double] in
/-- No string of a tuple is longer than its column declares. -/
def StringsDeclared (schema : Schema) (tuple : Tuple Double) : Prop :=
  ∀ entry ∈ schema.indexed, entry.1.type = .varchar →
    (varcharOf tuple entry.2).length ≤ entry.1.maxLength.toNat

/-- A tuple is serialized inside its buffer, the heap is passed its whole size, and no string
in it is too long for its column. -/
structure SizeKept (schema : Schema) (tuple : Tuple Double) : Prop where
  declared : StringsDeclared schema tuple
  written : ∃ row, tupleSerialize tuple schema
      ⟨Platform.uninitialized Double, schemaMaxTupleSize schema⟩ = .ok row ∧
    row.length ≤ schemaMaxTupleSize schema ∧ row.length % 65536 = row.length

omit [Platform Double] in
/-- The strings of a tuple fit their columns, and the tuple its buffer and 16 bits. -/
structure FitsSchema (schema : Schema) (tuple : Tuple Double) : Prop where
  declared : StringsDeclared schema tuple
  buffer : rowSize tuple schema ≤ schemaMaxTupleSize schema
  narrow : rowSize tuple schema < 65536

theorem sizeKept_iff {schema : Schema} {tuple : Tuple Double} (laid : SchemaLaid schema) :
    SizeKept schema tuple ↔ FitsSchema schema tuple := by
  have fits := @tupleSerialize_iff _ tuple _ _ laid (Platform.uninitialized Double)
  constructor
  · rintro ⟨declared, row, ran, inside, narrow⟩
    have buffer := fits.mp ⟨row, ran⟩
    obtain ⟨bytes, same, -⟩ := @tupleSerialize_fits _ tuple _ _ laid
      ⟨Platform.uninitialized Double, schemaMaxTupleSize schema⟩ buffer
    rw [ran, Except.ok.injEq] at same
    have length : row.length = rowSize tuple schema := by rw [same, Block.read_length]
    exact ⟨declared, buffer, by omega⟩
  · rintro ⟨declared, buffer, narrow⟩
    obtain ⟨bytes, ran, -⟩ := @tupleSerialize_fits _ tuple _ _ laid
      ⟨Platform.uninitialized Double, schemaMaxTupleSize schema⟩ buffer
    exact ⟨declared, _, ran, by rwa [Block.read_length],
      by rw [Block.read_length, Nat.mod_eq_of_lt narrow]⟩

omit [Platform Double] in
/-- What the declared lengths add up to, if a `uint32_t` can hold it. -/
theorem schemaMaxTupleSize_eq {schema : Schema}
    (unwrapped : schema.nullBitmapSize + schema.fixedSize +
      ((schema.columns.filter (·.type = .varchar)).map fun col => col.maxLength.toNat + 4).sum <
        4294967296) :
    schemaMaxTupleSize schema = schema.nullBitmapSize + schema.fixedSize +
      ((schema.columns.filter (·.type = .varchar)).map fun col => col.maxLength.toNat + 4).sum := by
  rw [schemaMaxTupleSize]
  generalize schema.nullBitmapSize + schema.fixedSize = start at unwrapped
  generalize schema.columns = columns at unwrapped
  induction columns generalizing start with
  | nil => simp
  | cons col rest ih =>
      rw [List.foldl_cons]
      by_cases varchar : col.type = .varchar
      · simp only [varchar, List.filter_cons, decide_true, if_true, List.map_cons,
          List.sum_cons] at unwrapped ⊢
        rw [Nat.mod_eq_of_lt (by omega), ih _ (by omega)]
        omega
      · simp only [varchar, List.filter_cons, decide_false, if_false, Bool.false_eq_true] at unwrapped ⊢
        exact ih _ unwrapped

omit [Platform Double] in
/-- The strings take at most what their columns declare. -/
theorem varcharArea_length_le {tuple : Tuple Double} {columns : List ColumnDef} {first : Nat}
    (declared : ∀ entry ∈ columns.zipIdx first, entry.1.type = .varchar →
      (varcharOf tuple entry.2).length ≤ entry.1.maxLength.toNat) :
    (varcharArea tuple (columns.zipIdx first)).length ≤
      ((columns.filter (·.type = .varchar)).map fun col => col.maxLength.toNat + 4).sum := by
  induction columns generalizing first with
  | nil => simp [varcharArea]
  | cons col rest ih =>
      rw [List.zipIdx_cons, List.forall_mem_cons] at declared
      have tail := ih declared.2
      rw [List.zipIdx_cons, varcharArea_cons, List.length_append]
      by_cases varchar : col.type = .varchar
      · have here : (varcharOf tuple first).length ≤ col.maxLength.toNat := declared.1 varchar
        have area : (varcharArea tuple [(col, first)]).length =
            4 + (stringPart (valueAt tuple first)).length := by
          simp [varcharArea, varchar, littleEndian_length]
        have part : (stringPart (valueAt tuple first)).length ≤ (varcharOf tuple first).length := by
          rw [← (varcharOf_eq tuple first).1]
          exact Nat.mod_le _ _
        simp only [varchar, List.filter_cons, decide_true, if_true, List.map_cons, List.sum_cons]
        omega
      · have area : (varcharArea tuple [(col, first)]).length = 0 := by simp [varcharArea, varchar]
        simp only [varchar, List.filter_cons, decide_false, if_false, Bool.false_eq_true]
        omega

omit [Platform Double] in
/-- A tuple whose strings fit their columns fits its buffer, unless the declared lengths add up
to more than a `uint32_t` can hold. -/
theorem rowSize_le {schema : Schema} {tuple : Tuple Double} (declared : StringsDeclared schema tuple)
    (unwrapped : schema.nullBitmapSize + schema.fixedSize +
      ((schema.columns.filter (·.type = .varchar)).map fun col => col.maxLength.toNat + 4).sum <
        4294967296) :
    rowSize tuple schema ≤ schemaMaxTupleSize schema := by
  have strings := varcharArea_length_le declared
  rw [schemaMaxTupleSize_eq unwrapped, rowSize]
  exact Nat.add_le_add_left strings _

theorem heapBytes_ok {tuple : Tuple Double} {tableSchema : Schema} {bytes : List UInt8}
    (made : heapBytes tuple tableSchema = .ok bytes) :
    ∃ row, tupleSerialize tuple tableSchema
        ⟨Platform.uninitialized Double, schemaMaxTupleSize tableSchema⟩ = .ok row := by
  rw [heapBytes] at made
  cases serialized : tupleSerialize tuple tableSchema
      ⟨Platform.uninitialized Double, schemaMaxTupleSize tableSchema⟩ with
  | error fault => rw [serialized] at made; cases made
  | ok row => exact ⟨row, rfl⟩

/-! ## The tuples of a statement -/

/-- The tuples that `insert_next` serializes: the loop ends behind a row that has no tuple or
that the heap refuses. -/
def insertedTuples (tableSchema : Schema) : List (List (Expr Double)) → List (Tuple Double)
  | [] => []
  | values :: rows =>
      match (insertTuple tableSchema values).run with
      | .ok (.ok tuple) =>
          tuple :: match heapBytes tuple tableSchema with
            | .ok (_ :: _) => insertedTuples tableSchema rows
            | _ => []
      | _ => []

/-- The tuples that `update_next` serializes for the rows of a table: the loop ends behind a
row that has no new tuple. -/
def replacingTuples (tableSchema : Schema) (whereClause : Option (Expr Double))
    (assignments : List (Assignment Double)) : List (Rid × List UInt8) → List (Tuple Double)
  | [] => []
  | row :: rows =>
      match (scanRow tableSchema whereClause row).run with
      | .error _ => []
      | .ok (none, _) => replacingTuples tableSchema whereClause assignments rows
      | .ok (some old, _) =>
          match (applyAssignments tableSchema old assignments).run with
          | .ok (.ok new) =>
              new :: match heapBytes new tableSchema with
                | .ok _ => replacingTuples tableSchema whereClause assignments rows
                | .error _ => []
          | _ => []

/-- The tuples that a statement serializes, with the schema of their table. -/
def serializedTuples (db : Database PageStore) : Stmt Double → List (Schema × Tuple Double)
  | .insert tableName _ rows =>
      match lookUpTable db.catalog tableName with
      | none => []
      | some (_, schema) => (insertedTuples schema rows).map (schema, ·)
  | .update tableName assignments whereClause =>
      match lookUpTable db.catalog tableName with
      | none => []
      | some (tableMeta, schema) =>
          if isIndexScan (plannerPlanPhysical db.catalog
              (scanUnder (scanOf db.catalog tableName tableMeta) whereClause)) then []
          else (replacingTuples schema whereClause assignments (tableRows db.bpm tableMeta)).map
            (schema, ·)
  | _ => []

section Runs

variable {tableSchema : Schema} {firstPageId : PageId} {chain : List PageId} {store : PageStore}

/-- An `INSERT` that ends has serialized its tuples. -/
theorem insertRows_serialized (sound : HeapSound ⟨store, firstPageId⟩ chain)
    {rows : List (List (Expr Double))} {log : List Int}
    {outcome : (PageId × List (Tuple Double)) × Session PageStore}
    (ran : (insertRows tableSchema rows firstPageId).run ⟨store, log⟩ = .ok outcome) :
    ∀ tuple ∈ insertedTuples tableSchema rows, ∃ row, tupleSerialize tuple tableSchema
      ⟨Platform.uninitialized Double, schemaMaxTupleSize tableSchema⟩ = .ok row := by
  induction rows generalizing firstPageId chain store outcome with
  | nil => exact fun _ member => absurd member List.not_mem_nil
  | cons values rows ih =>
      rw [insertRows, StateT.run_bind] at ran
      cases first : (insertNext tableSchema firstPageId values).run ⟨store, log⟩ with
      | error fault => rw [first] at ran; cases ran
      | ok ended =>
          obtain ⟨inserted, session⟩ := ended
          rw [first, ok_bind] at ran
          have fate := insertNext_cases sound first
          rw [insertNext, StateT.run_bind, note_run, attempted_run] at first
          rw [insertedTuples]
          rcases made : (insertTuple tableSchema values).run with fault | (rc | tuple)
          · exact fun _ member => absurd member List.not_mem_nil
          · exact fun _ member => absurd member List.not_mem_nil
          · rw [made] at first
            simp only [ok_bind, List.append_nil] at first
            rw [StateT.run_bind, lift_run] at first
            dsimp only
            cases bytes : heapBytes tuple tableSchema with
            | error fault => rw [bytes] at first; cases first
            | ok stored =>
                rw [List.forall_mem_cons]
                refine ⟨heapBytes_ok bytes, ?_⟩
                cases stored with
                | nil => exact fun _ member => absurd member List.not_mem_nil
                | cons byte stored =>
                    cases fate with
                    | refused rc uninsertable =>
                        refine absurd ⟨byte :: stored, ?_, by simp⟩ uninsertable
                        simp only [insertedBytes_run, made, ok_bind, bytes]
                    | stored _ _ sound' _ =>
                        dsimp only at ran
                        rw [StateT.run_bind] at ran
                        rename_i middle store' chain' tuple' insertable moved
                        cases others : (insertRows tableSchema rows middle).run ⟨store', log⟩ with
                        | error fault => rw [others] at ran; cases ran
                        | ok ended => exact ih sound' others

/-- An `UPDATE` that ends has serialized its tuples. -/
theorem changeRows_serialized {whereClause : Option (Expr Double)}
    {assignments : List (Assignment Double)} {rows : List (Rid × List UInt8)} {log : List Int}
    {done : List (Tuple Double)} {outcome : List (Tuple Double) × Session PageStore}
    (stored : RowsStored firstPageId chain store rows)
    (ran : changeRows tableSchema whereClause (updateTuple firstPageId tableSchema assignments) rows
      ⟨store, log⟩ done = .ok outcome) :
    ∀ tuple ∈ replacingTuples tableSchema whereClause assignments rows,
      ∃ row, tupleSerialize tuple tableSchema
        ⟨Platform.uninitialized Double, schemaMaxTupleSize tableSchema⟩ = .ok row := by
  induction rows generalizing store log done with
  | nil => exact fun _ member => absurd member List.not_mem_nil
  | cons row rows ih =>
      rw [changeRows] at ran
      rw [replacingTuples]
      cases scanned : (scanRow tableSchema whereClause row).run with
      | error fault => exact fun _ member => absurd member List.not_mem_nil
      | ok found =>
          rw [scanned, ok_bind] at ran
          obtain ⟨_ | old, notes⟩ := found
          · exact ih stored.tail ran
          · dsimp only at ran ⊢
            have rid_eq := scanRow_rid tableSchema whereClause scanned
            have content := stored.stored row List.mem_cons_self
            rw [← rid_eq] at content
            obtain ⟨page, rowIn⟩ := stored.sound.rowIn content
            cases updated : (updateTuple firstPageId tableSchema assignments old).run
                ⟨store, log ++ notes⟩ with
            | error fault => rw [updated] at ran; cases ran
            | ok ended =>
                obtain ⟨fate, session⟩ := ended
                rw [updated, ok_bind] at ran
                have changed := steady_updateTuple tableSchema assignments _ _ _ _ _ stored.sound content updated
                rw [updateTuple_run stored.sound rowIn, updatedBytes_run] at updated
                rcases applied : (applyAssignments tableSchema old assignments).run with
                  fault | (rc | new)
                · exact fun _ member => absurd member List.not_mem_nil
                · exact fun _ member => absurd member List.not_mem_nil
                · rw [applied] at updated
                  simp only [ok_bind] at updated
                  dsimp only
                  cases bytes : heapBytes new tableSchema with
                  | error fault => rw [bytes] at updated; cases updated
                  | ok made =>
                      rw [bytes] at updated
                      simp only [ok_bind] at updated
                      rw [List.forall_mem_cons]
                      refine ⟨heapBytes_ok bytes, ?_⟩
                      have rest := stored.changed rid_eq changed
                      cases fate with
                      | changed => exact ih rest ran
                      | kept => exact ih rest ran
                      | stopped rc =>
                          obtain ⟨never, -⟩ := Prod.mk.inj (Except.ok.inj updated)
                          rw [RowFate.of] at never
                          split at never <;> cases never

end Runs

/-- A statement that ends has serialized its tuples. -/
theorem serialized_of_execute {db after : Database PageStore} {result : StatementResult Double}
    (sound : TablesSound db) {stmt : Stmt Double} {turns : Nat}
    (ended : executionEngineExecute turns db stmt = .ok (after, result)) :
    ∀ entry ∈ serializedTuples db stmt, ∃ row, tupleSerialize entry.2 entry.1
      ⟨Platform.uninitialized Double, schemaMaxTupleSize entry.1⟩ = .ok row := by
  have outcome := outcome_of_execute sound ended
  cases stmt with
  | insert tableName rows =>
      rw [serializedTuples]
      rcases insertOutcome_cases outcome with
        ⟨missing, -⟩ | ⟨tableMeta, schema, firstPageId, tuples, session, found, ran, -⟩
      · simp [missing]
      · obtain ⟨chain, heapSound⟩ := sound _ _ (lookUpTable_eq found).1
        rw [found]
        simpa using insertRows_serialized heapSound ran
  | update tableName assignments whereClause =>
      rw [outcomeOf] at outcome
      rw [serializedTuples]
      rcases changeOutcome_cases outcome with
        ⟨missing, -⟩ | ⟨tableMeta, schema, tuples, session, found, ran, -⟩
      · simp [missing]
      · obtain ⟨chain, stored⟩ := sound.rowsStored (lookUpTable_eq found).1
        rw [found]
        dsimp only
        split
        · simp
        · simpa using changeRows_serialized stored ran
  | _ => exact fun _ member => absurd member List.not_mem_nil

/-- Every tuple that a statement serializes keeps to its buffer, to 16 bits and to the declared
lengths. -/
def SizesKept (db : Database PageStore) (stmt : Stmt Double) : Prop :=
  ∀ entry ∈ serializedTuples db stmt, SizeKept entry.1 entry.2

omit [Platform Double] in
/-- The copy of a schema that the catalog hands out is laid out. -/
theorem lookUpTable_laid {cat : CatalogT} {tableName : CString} {tableMeta : TableMeta}
    {schema : Schema} (found : lookUpTable cat tableName = some (tableMeta, schema)) :
    SchemaLaid schema := by
  obtain ⟨-, known⟩ := lookUpTable_eq found
  unfold catalogGetSchema at known
  split at known
  · cases known
  · rw [schemaCreate] at known
    split at known
    · cases known
    · rename_i nonempty
      rw [← Except.ok.inj known]
      exact schemaBuild_laid nonempty

theorem serializedTuples_laid {db : Database PageStore} {stmt : Stmt Double}
    {entry : Schema × Tuple Double} (member : entry ∈ serializedTuples db stmt) :
    SchemaLaid entry.1 := by
  cases stmt with
  | insert tableName rows =>
      rw [serializedTuples] at member
      split at member
      · exact absurd member List.not_mem_nil
      · rename_i found
        obtain ⟨tuple, -, rfl⟩ := List.mem_map.mp member
        exact lookUpTable_laid found
  | update tableName assignments whereClause =>
      rw [serializedTuples] at member
      split at member
      · exact absurd member List.not_mem_nil
      · rename_i found
        split at member
        · exact absurd member List.not_mem_nil
        · obtain ⟨tuple, -, rfl⟩ := List.mem_map.mp member
          exact lookUpTable_laid found
  | _ => exact absurd member List.not_mem_nil

/-- A statement keeps to the sizes if and only if the strings it stores are as short as their
columns declare, and its rows as short as their buffers and 16 bits allow. -/
theorem sizesKept_iff (db : Database PageStore) (stmt : Stmt Double) :
    SizesKept db stmt ↔ ∀ entry ∈ serializedTuples db stmt, FitsSchema entry.1 entry.2 := by
  constructor
  · intro kept entry member
    exact (sizeKept_iff (serializedTuples_laid member)).mp (kept entry member)
  · intro fits entry member
    exact (sizeKept_iff (serializedTuples_laid member)).mpr (fits entry member)

/-! ## A column without a length -/

/-- `CREATE TABLE t (s VARCHAR)`. -/
def createUnsized : List (Stmt Int) :=
  [.createTable (.ofChars ['t']) [.plain (.ofChars ['s']) .varchar 0] false]

/-- `INSERT INTO t VALUES ('a')`. -/
def insertLetter : Stmt Int :=
  .insert (.ofChars ['t']) [] [[.literal (.string (.ofChars ['a']))]]

/-- One byte is written behind the buffer. -/
theorem insertLetter_overflows :
    (executionEngineExecute 100 (scriptDatabase createUnsized) insertLetter).map
        (fun outcome => outcome.2.code) = .error .outOfBounds ∧
      ¬SizesKept (scriptDatabase createUnsized) insertLetter := by
  refine ⟨by decide +kernel, fun kept => ?_⟩
  have wide : (serializedTuples (scriptDatabase createUnsized) insertLetter).any
      (fun (schema, tuple) => rowSize tuple schema = schemaMaxTupleSize schema + 1) = true := by
    decide +kernel
  obtain ⟨entry, member, wider⟩ := List.any_eq_true.mp wide
  obtain ⟨row, ran, -⟩ := (kept entry member).written
  have inside := (tupleSerialize_iff (serializedTuples_laid member) _).mp ⟨row, ran⟩
  rw [of_decide_eq_true wider] at inside
  exact absurd inside (Nat.not_succ_le_self _)

end MiniSqlite.Executor
