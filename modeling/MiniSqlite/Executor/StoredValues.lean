import MiniSqlite.Executor.StoredSizes

/-!
# What `INSERT` and `UPDATE` store of a value

`insert_next` casts a value to the type of its column, `update_next` does not. The
bytes of a value of another type are then read as if they had the column's type.
-/

namespace MiniSqlite.Executor

open MiniSqlite.Common MiniSqlite.Std MiniSqlite.Storage MiniSqlite.Buffer MiniSqlite.Catalog
  MiniSqlite.Parser MiniSqlite.Planner

variable {Double : Type} [Platform Double]

/-! ## Expressions without a row -/

section Evaluate

variable (tuple : Option (Tuple Double)) (schema : SchemaPointer)

mutual

/-- An expression that has a value without a row has that value on every row. -/
theorem exprEvaluate_of_none : (expr : Expr Double) → {value : Value Double} →
    exprEvaluate none .null expr = pure value → exprEvaluate tuple schema expr = pure value
  | .literal _, _, ran => by
      rw [exprEvaluate] at ran ⊢
      exact ran
  | .columnRef _ column, _, ran => by
      rw [exprEvaluate, columnValue] at ran
      cases ran
  | .binary left op right, _, ran => by
      rw [exprEvaluate] at ran ⊢
      obtain ⟨leftVal, leftRan, ran⟩ := Returning.returned ran
      obtain ⟨rightVal, rightRan, ran⟩ := Returning.returned ran
      rw [exprEvaluate_of_none left leftRan, pure_bind, exprEvaluate_of_none right rightRan,
        pure_bind]
      exact ran
  | .unary op operand, _, ran => by
      rw [exprEvaluate] at ran ⊢
      obtain ⟨v, operandRan, ran⟩ := Returning.returned ran
      rw [exprEvaluate_of_none operand operandRan, pure_bind]
      exact ran
  | .isNull operand isNot, _, ran => by
      rw [exprEvaluate] at ran ⊢
      obtain ⟨v, operandRan, ran⟩ := Returning.returned ran
      rw [exprEvaluate_of_none operand operandRan, pure_bind]
      exact ran
  | .inExpr left list isNot, _, ran => by
      rw [exprEvaluate] at ran ⊢
      obtain ⟨v, leftRan, ran⟩ := Returning.returned ran
      rw [exprEvaluate_of_none left leftRan, pure_bind]
      by_cases null : v.isNull
      · rw [if_pos null] at ran ⊢
        exact ran
      · rw [if_neg null] at ran ⊢
        obtain ⟨found, foundRan, ran⟩ := Returning.returned ran
        rw [foundIn_of_none v list foundRan, pure_bind]
        exact ran
  | .between expr low high isNot, _, ran => by
      rw [exprEvaluate] at ran ⊢
      obtain ⟨v, exprRan, ran⟩ := Returning.returned ran
      obtain ⟨lowVal, lowRan, ran⟩ := Returning.returned ran
      obtain ⟨highVal, highRan, ran⟩ := Returning.returned ran
      rw [exprEvaluate_of_none expr exprRan, pure_bind, exprEvaluate_of_none low lowRan, pure_bind,
        exprEvaluate_of_none high highRan, pure_bind]
      exact ran
  | .like expr pattern isNot, _, ran => by
      rw [exprEvaluate] at ran ⊢
      obtain ⟨v, exprRan, ran⟩ := Returning.returned ran
      rw [exprEvaluate_of_none expr exprRan, pure_bind]
      exact ran
  | .functionCall .., _, ran => by
      rw [exprEvaluate] at ran ⊢
      exact ran
  | .subquery, _, ran => by
      rw [exprEvaluate] at ran ⊢
      exact ran

theorem foundIn_of_none (left : Value Double) : (list : List (Expr Double)) → {found : Bool} →
    foundIn none .null left list = pure found → foundIn tuple schema left list = pure found
  | [], _, ran => by
      rw [foundIn] at ran ⊢
      exact ran
  | item :: list, _, ran => by
      rw [foundIn] at ran ⊢
      obtain ⟨itemVal, itemRan, ran⟩ := Returning.returned ran
      rw [exprEvaluate_of_none item itemRan, pure_bind]
      split at ran
      · rename_i equal
        rw [if_pos equal]
        exact ran
      · rename_i differ
        rw [if_neg differ]
        exact foundIn_of_none left list ran

end

end Evaluate

/-! ## The tuple of an `INSERT` -/

/-- The value that `insert_next` puts into a column. -/
def insertedValue (tableSchema : Schema) (entry : Expr Double × Nat) : Checked (Value Double) := do
  let val ← exprEvaluate none .null entry.1
  match tableSchema.columns[entry.2]? with
  | none => undefined .outOfBounds
  | some col => valueCastTo val col.type

/-- A value that needs no cast is its own cast. -/
theorem valueCastTo_same {val : Value Double} {type : TypeId}
    (same : ¬(val.type ≠ type ∧ !val.isNull)) : valueCastTo val type = pure val := by
  by_cases typed : val.type = type
  · unfold valueCastTo
    exact if_pos typed
  · cases val with
    | null => cases type <;> rfl
    | _ => exact absurd ⟨typed, rfl⟩ same

/-- A loop that sets the values of a tuple, one column after the other. -/
def setValues {α : Type} (call : α × Nat → Checked (Value Double)) (items : List α) (start : Nat)
    (tuple : Tuple Double) : Checked (Tuple Double) :=
  (items.zipIdx start).foldlM
    (fun tuple entry => call entry >>= fun v => pure (tupleSetValue tuple entry.2 v)) tuple

omit [Platform Double] in
theorem setValues_returned {α : Type} {call : α × Nat → Checked (Value Double)} {items : List α}
    {start : Nat} {before after : Tuple Double}
    (ran : setValues call items start before = pure after) :
    after.values.length = before.values.length ∧
      (∀ i < start, after.values[i]? = before.values[i]?) ∧
      ∀ j item, items[j]? = some item → start + j < before.values.length →
        ∃ v, call (item, start + j) = pure v ∧ after.values[start + j]? = some v := by
  induction items generalizing start before with
  | nil =>
      rw [← Returning.pure_inj (m := Checked) ran]
      exact ⟨rfl, fun _ _ => rfl, fun j item here => absurd here (by simp)⟩
  | cons first rest ih =>
      rw [setValues, List.zipIdx_cons, List.foldlM_cons] at ran
      obtain ⟨middle, stepped, others⟩ := Returning.returned ran
      obtain ⟨v, called, set⟩ := Returning.returned stepped
      have middle_eq := (Returning.pure_inj (m := Checked) set).symm
      subst middle_eq
      obtain ⟨length, below, above⟩ := ih others
      rw [tupleSetValue, List.length_set] at length
      refine ⟨length, fun i low => ?_, fun j item here bound => ?_⟩
      · rw [below i (Nat.lt_succ_of_lt low), tupleSetValue, List.getElem?_set_ne (Nat.ne_of_gt low)]
      · cases j with
        | zero =>
            rw [List.getElem?_cons_zero, Option.some.injEq] at here
            refine ⟨v, here ▸ called, ?_⟩
            rw [Nat.add_zero] at bound ⊢
            rw [below start (Nat.lt_succ_self _), tupleSetValue, List.getElem?_set_self bound]
        | succ j =>
            have shifted : start + (j + 1) = start + 1 + j := by omega
            rw [shifted] at bound ⊢
            exact above j item here (by rwa [tupleSetValue, List.length_set])

theorem insertTuple_eq (tableSchema : Schema) (values : List (Expr Double)) (some : values ≠ []) :
    insertTuple tableSchema values =
      setValues (insertedValue tableSchema) values 0
        ⟨List.replicate values.length .null, invalidRid⟩ := by
  have nonempty : values.length ≠ 0 := fun none => some (List.length_eq_zero_iff.mp none)
  rw [insertTuple, tupleCreate, if_neg nonempty]
  dsimp only
  rw [pure_bind, setValues]
  congr 1
  funext tuple entry
  obtain ⟨expr, i⟩ := entry
  rw [insertedValue, bind_assoc]
  refine bind_congr fun val => ?_
  cases tableSchema.columns[i]? with
  | none => rfl
  | some col =>
      dsimp only
      by_cases casts : val.type ≠ col.type ∧ !val.isNull
      · rw [if_pos casts]
      · rw [if_neg casts, valueCastTo_same casts, pure_bind]

/-- The value that the tuple of an `INSERT` has in a column. -/
theorem insertTuple_value {tableSchema : Schema} {values : List (Expr Double)} {tuple : Tuple Double}
    (made : insertTuple tableSchema values = pure tuple) {colIdx : Nat} {expr : Expr Double}
    (given : values[colIdx]? = some expr) :
    ∃ col val cast, tableSchema.columns[colIdx]? = some col ∧
      exprEvaluate none .null expr = pure val ∧ valueCastTo val col.type = pure cast ∧
      valueAt tuple colIdx = cast := by
  have bound := (List.getElem?_eq_some_iff.mp given).1
  have nonempty : values ≠ [] := fun none => by rw [none] at given; exact absurd given (by simp)
  rw [insertTuple_eq _ _ nonempty] at made
  obtain ⟨-, -, set⟩ := setValues_returned made
  obtain ⟨cast, called, stored⟩ := set colIdx expr given (by simpa using bound)
  rw [Nat.zero_add] at called stored
  rw [insertedValue] at called
  obtain ⟨val, evaluated, called⟩ := Returning.returned called
  dsimp only at called
  cases present : tableSchema.columns[colIdx]? with
  | none => rw [present] at called; cases called
  | some col =>
      rw [present] at called
      exact ⟨col, val, cast, rfl, evaluated, called, by rw [valueAt, stored]; rfl⟩

/-! ## The tuple of an `UPDATE` -/

/-- A row with one value replaced. -/
def withValue (old : Tuple Double) (colIdx : Nat) (v : Value Double) : Tuple Double :=
  tupleSetValue { old with rid := invalidRid } colIdx v

/-- One assignment replaces the value of its column. -/
theorem applyAssignments_one {tableSchema : Schema} {old : Tuple Double} {column : CString}
    {expr : Expr Double} {colIdx : Nat} {val : Value Double}
    (length : old.values.length = tableSchema.columns.length)
    (found : schemaFindColumn tableSchema column = some colIdx)
    (evaluated : exprEvaluate none .null expr = pure val) :
    applyAssignments tableSchema old [⟨column, expr⟩] = pure (withValue old colIdx val) := by
  have copied : (List.range tableSchema.numColumns).map
      (fun i => (tupleGetValue old i).getD .null) = old.values := by
    apply List.ext_getElem?
    intro i
    rw [List.getElem?_map, Schema.numColumns, ← length]
    by_cases bound : i < old.values.length
    · rw [List.getElem?_range bound, Option.map_some, tupleGetValue,
        List.getElem?_eq_getElem bound, Option.getD_some]
    · rw [List.getElem?_eq_none (by simpa using bound), Option.map_none,
        List.getElem?_eq_none (Nat.le_of_not_lt bound)]
  rw [applyAssignments, copied, List.foldlM_cons, found]
  dsimp only
  rw [exprEvaluate_of_none _ _ expr evaluated, pure_bind, pure_bind]
  rfl

/-! ## Reading what was stored -/

section Reading

variable {schema : Schema} {tuple read : Tuple Double} {bytes : List UInt8}

omit [Platform Double] in
/-- The size of a buffer for strings is a `uint32_t`. -/
theorem schemaMaxTupleSize_lt (some : ∃ col ∈ schema.columns, col.type = .varchar) :
    schemaMaxTupleSize schema < 4294967296 := by
  have keeps : ∀ (columns : List ColumnDef) (start : Nat), start < 4294967296 →
      columns.foldl (fun size col => if col.type = .varchar then
        (size + col.maxLength.toNat + 4) % 4294967296 else size) start < 4294967296 := by
    intro columns
    induction columns with
    | nil => exact fun _ small => small
    | cons col rest ih =>
        intro start small
        refine ih _ ?_
        dsimp only
        split
        · exact Nat.mod_lt _ (by decide)
        · exact small
  rw [schemaMaxTupleSize]
  generalize schema.nullBitmapSize + schema.fixedSize = start
  generalize schema.columns = columns at some
  induction columns generalizing start with
  | nil => simp at some
  | cons col rest ih =>
      rw [List.foldl_cons]
      by_cases varchar : col.type = .varchar
      · rw [if_pos varchar]
        exact keeps rest _ (Nat.mod_lt _ (by decide))
      · rw [if_neg varchar]
        obtain ⟨other, member, isVarchar⟩ := some
        rcases List.mem_cons.mp member with rfl | inRest
        · exact absurd isVarchar varchar
        · exact ih _ ⟨other, inRest, isVarchar⟩

/-- The bytes that the heap is passed are the front of the serialized tuple. -/
theorem heapBytes_spec (laid : SchemaLaid schema) (made : heapBytes tuple schema = .ok bytes) :
    rowSize tuple schema ≤ schemaMaxTupleSize schema ∧
      ∃ block : Block, Serialized tuple schema block ∧
        bytes = (block.read 0 (rowSize tuple schema)).take (rowSize tuple schema % 65536) := by
  obtain ⟨row, ran⟩ := heapBytes_ok made
  have buffer := (@tupleSerialize_iff _ tuple _ _ laid _).mp ⟨row, ran⟩
  obtain ⟨block, same, written⟩ := @tupleSerialize_fits _ tuple _ _ laid
    ⟨Platform.uninitialized Double, schemaMaxTupleSize schema⟩ buffer
  refine ⟨buffer, block, written, ?_⟩
  rw [heapBytes, same, ok_bind, Block.read_length] at made
  exact (Except.ok.inj made).symm

theorem heapBytes_of_fits (laid : SchemaLaid schema)
    (buffer : rowSize tuple schema ≤ schemaMaxTupleSize schema) :
    ∃ bytes, heapBytes tuple schema = .ok bytes := by
  obtain ⟨row, ran⟩ := (@tupleSerialize_iff _ tuple _ _ laid (Platform.uninitialized Double)).mpr buffer
  rw [heapBytes, ran]
  exact ⟨_, rfl⟩

/-- What the whole serialized tuple is read as. -/
theorem tupleDeserialize_whole (laid : SchemaLaid schema) {block : Block}
    (written : Serialized tuple schema block)
    (buffer : rowSize tuple schema ≤ schemaMaxTupleSize schema) :
    (tupleDeserialize schema (block.read 0 (rowSize tuple schema)) : Checked (Tuple Double)) =
      (schema.indexed.mapM fun entry => storedAs entry.1.type (valueAt tuple entry.2)) >>=
        fun values => .ok (.ok ⟨values, invalidRid⟩) :=
  tupleDeserialize_row laid written fun some =>
    Nat.lt_of_le_of_lt buffer (schemaMaxTupleSize_lt some)

/-- A column of a stored tuple reads as what its type makes of the value. -/
theorem read_column (laid : SchemaLaid schema) (made : heapBytes tuple schema = .ok bytes)
    (ran : tupleDeserialize schema bytes = pure read) {colIdx : Nat} {col : ColumnDef}
    (present : schema.columns[colIdx]? = some col) :
    ∃ v, storedAs col.type (valueAt tuple colIdx) = .ok v ∧ read.values[colIdx]? = some v := by
  obtain ⟨buffer, block, written, rfl⟩ := heapBytes_spec laid made
  have whole := tupleDeserialize_take ran
  rw [tupleDeserialize_whole laid written buffer] at whole
  obtain ⟨values, mapped, result⟩ := Returning.returned (m := Except Fault) whole
  obtain rfl : ⟨values, invalidRid⟩ = read := Except.ok.inj (Except.ok.inj result)
  have entry : schema.indexed[colIdx]? = some (col, colIdx) := by
    rw [Schema.indexed, List.getElem?_zipIdx, present]
    simp
  exact getElem?_of_mapM mapped entry

/-- A tuple that is passed whole can be read if each value can. -/
theorem read_whole (laid : SchemaLaid schema) (made : heapBytes tuple schema = .ok bytes)
    (narrow : rowSize tuple schema < 65536)
    (storable : ∀ i col, schema.columns[i]? = some col →
      ∃ v, storedAs col.type (valueAt tuple i) = .ok v) :
    ∃ read : Tuple Double, tupleDeserialize schema bytes = pure read := by
  obtain ⟨buffer, block, written, rfl⟩ := heapBytes_spec laid made
  obtain ⟨values, mapped⟩ : ∃ values, (schema.indexed.mapM fun entry =>
      storedAs entry.1.type (valueAt tuple entry.2)) = (pure values : Except Fault _) := by
    refine mapM_returns ?_
    rintro ⟨col, i⟩ member
    exact storable i col (List.mk_mem_zipIdx_iff_getElem?.mp member)
  rw [Nat.mod_eq_of_lt narrow, List.take_of_length_le (Nat.le_of_eq (Block.read_length _ _ _)),
    tupleDeserialize_whole laid written buffer, mapped]
  exact ⟨_, rfl⟩

end Reading

/-! ## Both ways to store a value -/

/-- A scan reads a value in a column of the row at a place. -/
def ReadsColumn (tableSchema : Schema) (heap : StoreHeap) (rid : Rid) (colIdx : Nat)
    (v : Value Double) : Prop :=
  ∃ read, selected tableSchema none heap rid = some read ∧ tupleGetValue read colIdx = some v

/-- `insert_next` stores a row, and a value is then read in a column of it. -/
def InsertReads (tableSchema : Schema) (heap : StoreHeap) (values : List (Expr Double))
    (colIdx : Nat) (v : Value Double) : Prop :=
  ∃ firstPageId tuple session,
    (insertNext tableSchema heap.firstPageId values).run ⟨heap.bpm, []⟩ =
        .ok ((firstPageId, some tuple), session) ∧
      ReadsColumn tableSchema ⟨session.bpm, firstPageId⟩ tuple.rid colIdx v

/-- `update_next` changes a row by one assignment, and a value is then read in a column of it. -/
def UpdateReads (tableSchema : Schema) (heap : StoreHeap) (old : Tuple Double)
    (assignment : Assignment Double) (colIdx : Nat) (v : Value Double) : Prop :=
  ∃ session,
    (updateTuple heap.firstPageId tableSchema [assignment] old).run ⟨heap.bpm, []⟩ =
        .ok (.changed, session) ∧
      ReadsColumn tableSchema ⟨session.bpm, heap.firstPageId⟩ old.rid colIdx v

theorem insertReads_iff_run {tableSchema : Schema} {heap : StoreHeap} {values : List (Expr Double)}
    {colIdx : Nat} {v : Value Double} :
    InsertReads tableSchema heap values colIdx v ↔
      ((insertNext tableSchema heap.firstPageId values).run ⟨heap.bpm, []⟩).map
        (fun ended => ended.1.2.bind fun tuple =>
          (selected tableSchema none ⟨ended.2.bpm, ended.1.1⟩ tuple.rid).bind
            (tupleGetValue · colIdx)) = .ok (some v) := by
  constructor
  · rintro ⟨firstPageId, tuple, session, ran, read, found, here⟩
    rw [ran]
    simp [Except.map, found, here]
  · intro seen
    obtain ⟨⟨⟨firstPageId, tuple⟩, session⟩, ran, read⟩ := ends_of_map seen
    obtain ⟨stored, same, read⟩ := Option.bind_eq_some_iff.mp read
    obtain ⟨row, found, here⟩ := Option.bind_eq_some_iff.mp read
    obtain rfl : tuple = some stored := same
    exact ⟨firstPageId, stored, session, ran, row, found, here⟩

theorem updateReads_iff_run {tableSchema : Schema} {heap : StoreHeap} {old : Tuple Double}
    {assignment : Assignment Double} {colIdx : Nat} {v : Value Double} :
    UpdateReads tableSchema heap old assignment colIdx v ↔
      ((updateTuple heap.firstPageId tableSchema [assignment] old).run ⟨heap.bpm, []⟩).map
        (fun ended => (ended.1,
          (selected tableSchema none ⟨ended.2.bpm, heap.firstPageId⟩ old.rid).bind
            (tupleGetValue · colIdx))) = .ok (.changed, some v) := by
  constructor
  · rintro ⟨session, ran, read, found, here⟩
    rw [ran]
    simp [Except.map, found, here]
  · intro seen
    obtain ⟨⟨fate, session⟩, ran, read⟩ := ends_of_map seen
    obtain ⟨rfl, read⟩ := Prod.mk.inj read
    obtain ⟨row, found, here⟩ := Option.bind_eq_some_iff.mp read
    exact ⟨session, ran, row, found, here⟩

instance [DecidableEq Double] {tableSchema : Schema} {heap : StoreHeap} {values : List (Expr Double)}
    {colIdx : Nat} {v : Value Double} : Decidable (InsertReads tableSchema heap values colIdx v) :=
  decidable_of_iff' _ insertReads_iff_run

instance [DecidableEq Double] {tableSchema : Schema} {heap : StoreHeap} {old : Tuple Double}
    {assignment : Assignment Double} {colIdx : Nat} {v : Value Double} :
    Decidable (UpdateReads tableSchema heap old assignment colIdx v) :=
  decidable_of_iff' _ updateReads_iff_run

/-- A value is read in a column as its cast to the column's type is. -/
def ReadsAsCast (type : TypeId) (val : Value Double) : Prop :=
  ∃ cast, valueCastTo val type = pure cast ∧ storedAs type val = storedAs type cast

/-- A value that `INSERT` does not cast is read as its cast. -/
theorem readsAsCast_of_typed {type : TypeId} {val : Value Double}
    (typed : val.isNull ∨ val.type = type) : ReadsAsCast type val := by
  refine ⟨val, valueCastTo_same ?_, rfl⟩
  rintro ⟨differs, full⟩
  rcases typed with null | same
  · simp [null] at full
  · exact differs same

/-- A row can be replaced by a tuple: it fits its buffer and its page. Should its size not fit
16 bits, what is left of it must be readable. -/
structure Replaceable (tableSchema : Schema) (store : PageStore) (rid : Rid)
    (new : Tuple Double) : Prop where
  buffer : rowSize new tableSchema ≤ schemaMaxTupleSize tableSchema
  page : ∀ bytes, heapBytes new tableSchema = .ok bytes → RowFits store rid bytes
  readable : 65536 ≤ rowSize new tableSchema → ∀ bytes, heapBytes new tableSchema = .ok bytes →
    ∃ read : Tuple Double, tupleDeserialize tableSchema bytes = pure read

theorem selected_none_iff {tableSchema : Schema} {heap : StoreHeap} {rid : Rid} {read : Tuple Double} :
    selected tableSchema none heap rid = some read ↔
      ∃ bytes tuple, heapContents heap rid = some bytes ∧
        tupleDeserialize tableSchema bytes = pure tuple ∧ read = { tuple with rid := rid } := by
  rw [selected, Option.bind_eq_some_iff]
  constructor
  · rintro ⟨bytes, stored, found⟩
    obtain ⟨⟨tuple, ran, same⟩, -⟩ := delivered_iff.mp found
    exact ⟨bytes, tuple, stored, ran, same⟩
  · rintro ⟨bytes, tuple, stored, ran, same⟩
    exact ⟨bytes, stored, delivered_iff.mpr ⟨⟨tuple, ran, same⟩, by simp⟩⟩

section Agreement

variable {tableSchema : Schema} {heap heap' : StoreHeap} {chain chain' : List PageId}
variable {values : List (Expr Double)} {colIdx : Nat} {expr : Expr Double} {v : Value Double}

/-- What is read of a value that was inserted. -/
theorem InsertReads.value (laid : SchemaLaid tableSchema) (sound : HeapSound heap chain) (given : values[colIdx]? = some expr)
    (inserted : InsertReads tableSchema heap values colIdx v) :
    ∃ col val cast, tableSchema.columns[colIdx]? = some col ∧
      exprEvaluate none .null expr = pure val ∧ valueCastTo val col.type = pure cast ∧
      storedAs col.type cast = .ok v := by
  obtain ⟨firstPageId, tuple, session, ran, read, found, here⟩ := inserted
  obtain ⟨bytes, plain, stored, deserialized, rfl⟩ := selected_none_iff.mp found
  obtain ⟨made, built, serialized⟩ := insertNext_contents sound ran stored
  obtain ⟨col, val, cast, present, evaluated, casts, value⟩ := insertTuple_value built given
  obtain ⟨other, storedValue, readValue⟩ := read_column laid serialized deserialized present
  obtain rfl := Option.some.inj (readValue.symm.trans here)
  exact ⟨col, val, cast, present, evaluated, casts, value ▸ storedValue⟩

/-- The new tuple of a row that an assignment changes, and what is stored of it. -/
theorem updatedBytes_one {old : Tuple Double} {column : CString} {val : Value Double}
    (typed : TypedAs tableSchema old) (known : schemaFindColumn tableSchema column = some colIdx)
    (evaluated : exprEvaluate none .null expr = pure val) :
    (updatedBytes tableSchema [⟨column, expr⟩] old).run =
      (heapBytes (withValue old colIdx val) tableSchema >>= fun bytes => .ok (.ok bytes)) := by
  have applied := applyAssignments_one typed.length known evaluated
  rw [updatedBytes_run, applied]
  rfl

omit [Platform Double] in
/-- The value that was assigned is the new value of its column. -/
theorem valueAt_withValue {old : Tuple Double} (typed : TypedAs tableSchema old) {col : ColumnDef}
    (present : tableSchema.columns[colIdx]? = some col) (val : Value Double) (i : Nat) :
    valueAt (withValue old colIdx val) i = if i = colIdx then val else valueAt old i := by
  have bound : colIdx < old.values.length := by
    rw [typed.length]
    exact (List.getElem?_eq_some_iff.mp present).1
  rw [valueAt, withValue, tupleSetValue]
  split
  · rename_i same
    rw [same, List.getElem?_set_self bound, Option.getD_some]
  · rename_i differ
    rw [List.getElem?_set_ne (Ne.symm differ), valueAt]

/-- A row changed by an assignment is found with its new bytes, if they fit. -/
theorem updateTuple_changed {old : Tuple Double} {oldBytes bytes : List UInt8}
    {assignments : List (Assignment Double)} (sound : HeapSound heap chain)
    (stored : heapContents heap old.rid = some oldBytes)
    (made : (updatedBytes tableSchema assignments old).run = .ok (.ok bytes))
    (fits : RowFits heap.bpm old.rid bytes) :
    ∃ session, (updateTuple heap.firstPageId tableSchema assignments old).run ⟨heap.bpm, []⟩ =
        .ok (.changed, session) ∧
      heapContents ⟨session.bpm, heap.firstPageId⟩ old.rid = some bytes := by
  obtain ⟨page, row⟩ := sound.rowIn stored
  rcases updatedRow_spec sound row (updatedBytes_length made) with
    ⟨-, ok, -, contents⟩ | ⟨unfit, -⟩
  · refine ⟨⟨updatedRow heap.bpm old.rid bytes, []⟩, ?_, contents⟩
    rw [updateTuple_run sound row, made, ok_bind]
    dsimp only
    rw [ok]
    rfl
  · exact absurd fits unfit

end Agreement

/-- An `UPDATE` stores what an `INSERT` of the expression stores, and the row has room for it. -/
def UpdatesAlike (tableSchema : Schema) (store : PageStore) (old : Tuple Double) (colIdx : Nat)
    (expr : Expr Double) : Prop :=
  ∃ col val, tableSchema.columns[colIdx]? = some col ∧ exprEvaluate none .null expr = pure val ∧
    ReadsAsCast col.type val ∧ Replaceable tableSchema store old.rid (withValue old colIdx val)

/-- If an `INSERT` of an expression is read as a value, an `UPDATE` of a row with it is if and
only if the value is read as its cast is and the row has room for it. -/
theorem updateReads_iff {db db' : Database PageStore} (sound : TablesSound db)
    (sound' : TablesSound db') {tableName tableName' : CString} {tableMeta tableMeta' : TableMeta}
    {schema : Schema} (found : lookUpTable db.catalog tableName = some (tableMeta, schema))
    (found' : lookUpTable db'.catalog tableName' = some (tableMeta', schema))
    {values : List (Expr Double)} {column : CString} {colIdx : Nat} {expr : Expr Double}
    {v : Value Double} (known : schemaFindColumn schema column = some colIdx)
    (given : values[colIdx]? = some expr)
    (inserted : InsertReads schema ⟨db.bpm, tableMeta.rootPageId⟩ values colIdx v)
    {rid : Rid} {old : Tuple Double}
    (existing : selected schema none ⟨db'.bpm, tableMeta'.rootPageId⟩ rid = some old) :
    UpdateReads schema ⟨db'.bpm, tableMeta'.rootPageId⟩ old ⟨column, expr⟩ colIdx v ↔
      UpdatesAlike schema db'.bpm old colIdx expr := by
  have laid := lookUpTable_laid found
  obtain ⟨chain, heapSound⟩ := sound _ _ (lookUpTable_eq found).1
  obtain ⟨chain', heapSound'⟩ := sound' _ _ (lookUpTable_eq found').1
  obtain ⟨col, val, cast, present, evaluated, casts, castRead⟩ := inserted.value laid heapSound given
  obtain ⟨oldBytes, plain, stored, deserialized, rfl⟩ := selected_none_iff.mp existing
  generalize same : { plain with rid := rid } = old at existing ⊢
  have typed : TypedAs schema old := by
    rw [← same]
    exact ⟨(tupleDeserialize_typed deserialized).length, (tupleDeserialize_typed deserialized).typed⟩
  have stored : heapContents ⟨db'.bpm, tableMeta'.rootPageId⟩ old.rid = some oldBytes := by
    rw [← same]
    exact stored
  have made := updatedBytes_one typed known evaluated
  constructor
  · rintro ⟨session, ran, read, foundRead, here⟩
    cases updateTuple_cases heapSound' stored ran with
    | kept rc other refused => exact absurd rfl other
    | @changed bytes madeBytes fits row contents =>
        rw [made] at madeBytes
        obtain ⟨own, serialized, returned⟩ := Returning.returned (m := Except Fault) madeBytes
        obtain rfl : own = bytes := Except.ok.inj (Except.ok.inj returned)
        obtain ⟨again, tuple, storedNow, readable, rfl⟩ := selected_none_iff.mp foundRead
        obtain rfl : own = again := Option.some.inj (contents.symm.trans storedNow)
        obtain ⟨other, storedValue, readValue⟩ := read_column laid serialized readable present
        obtain rfl : other = v := Option.some.inj (readValue.symm.trans here)
        rw [valueAt_withValue typed present, if_pos rfl] at storedValue
        have unique : ∀ bytes, heapBytes (withValue old colIdx val) schema = .ok bytes →
            bytes = own := fun bytes made => Except.ok.inj (made.symm.trans serialized)
        exact ⟨col, val, present, evaluated, ⟨cast, casts, storedValue.trans castRead.symm⟩,
          (heapBytes_spec laid serialized).1, fun bytes made => unique bytes made ▸ fits,
          fun _ bytes made => ⟨tuple, unique bytes made ▸ readable⟩⟩
  · rintro ⟨col', val', present', evaluated', ⟨cast', casts', alike⟩, replaceable⟩
    obtain rfl : col = col' := Option.some.inj (present.symm.trans present')
    obtain rfl : val = val' := Returning.pure_inj (m := Checked) (evaluated.symm.trans evaluated')
    obtain rfl : cast = cast' := Returning.pure_inj (m := Checked) (casts.symm.trans casts')
    obtain ⟨bytes, serialized⟩ := heapBytes_of_fits laid replaceable.buffer
    rw [serialized] at made
    obtain ⟨session, ran, contents⟩ :=
      updateTuple_changed heapSound' stored made (replaceable.page bytes serialized)
    have storable : ∀ i other, schema.columns[i]? = some other →
        ∃ v, storedAs other.type (valueAt (withValue old colIdx val) i) = .ok v := by
      intro i other presentOther
      rw [valueAt_withValue typed present]
      split
      · rename_i here
        obtain rfl : col = other := Option.some.inj (present.symm.trans (here ▸ presentOther))
        exact ⟨v, alike.trans castRead⟩
      · exact storedAs_typed (typed.typed i other presentOther)
    obtain ⟨read, readable⟩ : ∃ read : Tuple Double, tupleDeserialize schema bytes = pure read := by
      by_cases narrow : rowSize (withValue old colIdx val) schema < 65536
      · exact read_whole laid serialized narrow storable
      · exact replaceable.readable (Nat.le_of_not_lt narrow) bytes serialized
    obtain ⟨other, storedValue, readValue⟩ := read_column laid serialized readable present
    rw [valueAt_withValue typed present, if_pos rfl, alike, castRead, Except.ok.injEq] at storedValue
    exact ⟨session, ran, _, selected_none_iff.mpr ⟨bytes, read, contents, readable, rfl⟩,
      storedValue ▸ readValue⟩

/-! ## A number given as a text -/

/-- `'7'`. -/
def sevenText : Expr Int := .literal (.string (.ofChars ['7']))

/-- `7`. -/
def sevenNumber : Expr Int := .literal (.int 7)

/-- An `INSERT` into a column of integers stores `'7'` as `7`, an `UPDATE` stores the address of
the text. -/
theorem sevenText_differs :
    ∃ tableMeta schema old,
      lookUpTable (scriptDatabase createOne).catalog (.ofChars ['t']) = some (tableMeta, schema) ∧
      selected schema none ⟨(scriptDatabase createOne).bpm, tableMeta.rootPageId⟩ ⟨1, 0⟩ =
        some old ∧
      InsertReads schema ⟨(scriptDatabase createOne).bpm, tableMeta.rootPageId⟩ [sevenText] 0
        (.integer 7) ∧
      ¬UpdateReads schema ⟨(scriptDatabase createOne).bpm, tableMeta.rootPageId⟩ old
        ⟨.ofChars ['n'], sevenText⟩ 0 (.integer 7) := by
  have seen : (lookUpTable (scriptDatabase createOne).catalog (.ofChars ['t'])).any
      (fun entry =>
        (selected entry.2 none ⟨(scriptDatabase createOne).bpm, entry.1.rootPageId⟩ ⟨1, 0⟩).any
          fun (old : Tuple Int) =>
            decide (InsertReads entry.2 ⟨(scriptDatabase createOne).bpm, entry.1.rootPageId⟩
                [sevenText] 0 (.integer 7)) &&
              decide (¬UpdateReads entry.2 ⟨(scriptDatabase createOne).bpm, entry.1.rootPageId⟩ old
                ⟨.ofChars ['n'], sevenText⟩ 0 (.integer 7))) = true := by
    decide +kernel
  obtain ⟨⟨tableMeta, schema⟩, found, seen⟩ := (Option.any_eq_true _ _).mp seen
  obtain ⟨old, existing, seen⟩ := (Option.any_eq_true _ _).mp seen
  obtain ⟨inserted, differs⟩ := Bool.and_eq_true_iff.mp seen
  exact ⟨tableMeta, schema, old, found, existing, of_decide_eq_true inserted,
    of_decide_eq_true differs⟩

theorem updateReads_iff_seven :
    ∃ schema old, UpdatesAlike schema (scriptDatabase createOne).bpm old 0 sevenNumber := by
  have seen : (lookUpTable (scriptDatabase createOne).catalog (.ofChars ['t'])).any
      (fun entry =>
        (selected entry.2 none ⟨(scriptDatabase createOne).bpm, entry.1.rootPageId⟩ ⟨1, 0⟩).any
          fun (old : Tuple Int) =>
            decide (schemaFindColumn entry.2 (.ofChars ['n']) = some 0) &&
            (decide (InsertReads entry.2 ⟨(scriptDatabase createOne).bpm, entry.1.rootPageId⟩
                [sevenNumber] 0 (.integer 7)) &&
              decide (UpdateReads entry.2 ⟨(scriptDatabase createOne).bpm, entry.1.rootPageId⟩ old
                ⟨.ofChars ['n'], sevenNumber⟩ 0 (.integer 7)))) = true := by
    decide +kernel
  obtain ⟨⟨tableMeta, schema⟩, found, seen⟩ := (Option.any_eq_true _ _).mp seen
  obtain ⟨old, existing, seen⟩ := (Option.any_eq_true _ _).mp seen
  obtain ⟨known, seen⟩ := Bool.and_eq_true_iff.mp seen
  obtain ⟨inserted, updated⟩ := Bool.and_eq_true_iff.mp seen
  have sound := (reached_scriptDatabase createOne).sound.tables
  exact ⟨schema, old, (updateReads_iff sound sound found found (of_decide_eq_true known) rfl
    (of_decide_eq_true inserted) existing).mp (of_decide_eq_true updated)⟩

end MiniSqlite.Executor
