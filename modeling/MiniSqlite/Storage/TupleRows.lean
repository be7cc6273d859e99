import MiniSqlite.Std.Layout
import MiniSqlite.Storage.TupleRoundTrip

/-!
# Rows and tuples

A row gives the tuple back that it was made of, and its parts lie apart. The size
that `schema_max_tuple_size` promises is a sum of declared lengths in 32 bits, so
that it bounds the rows only of schemas whose lengths have a sum that fits.
-/

namespace MiniSqlite.Storage

open MiniSqlite.Common MiniSqlite.Std

variable {Double : Type}

/-! ## Sizes -/

/-- The bytes that a column's string takes with its length. -/
def textWidth (tuple : Tuple Double) (entry : ColumnDef × Nat) : Nat :=
  if entry.1.type = .varchar then 4 + (varcharOf tuple entry.2).length else 0

/-- The size of a row, in any number of bits. -/
def exactSize (tuple : Tuple Double) (schema : Schema) : Nat :=
  schema.nullBitmapSize + schema.fixedSize + totalWidth (textWidth tuple) schema.indexed

variable {tuple : Tuple Double} {schema : Schema}

theorem varcharOf_null {colIdx : Nat} (null : isColumnNull tuple colIdx) :
    varcharOf tuple colIdx = [] := by
  rw [isColumnNull] at null
  rw [varcharOf]
  cases value : tuple.values[colIdx]? with
  | none => rfl
  | some v =>
      rw [value] at null
      cases v with
      | null => rfl
      | _ => cases null

/-- The size is computed in 32 bits. -/
theorem tupleSerializedSize_eq (tuple : Tuple Double) (schema : Schema) :
    tupleSerializedSize tuple schema = exactSize tuple schema % 4294967296 := by
  rw [tupleSerializedSize, exactSize]
  generalize schema.indexed = entries
  generalize schema.nullBitmapSize + schema.fixedSize = start
  induction entries generalizing start with
  | nil => simp
  | cons entry rest ih =>
      rw [List.foldl_cons, totalWidth_cons, textWidth]
      by_cases varchar : entry.1.type = .varchar
      · by_cases null : isColumnNull tuple entry.2
        · have next := ih (start % 4294967296 + 4)
          rw [if_pos varchar, if_pos null, if_pos varchar, next, varcharOf_null null, List.length_nil]
          omega
        · have next := ih (start % 4294967296 + 4 + (varcharOf tuple entry.2).length % 4294967296)
          rw [if_pos varchar, if_neg null, if_pos varchar, next]
          omega
      · rw [if_neg varchar, if_neg varchar, ih, Nat.zero_add]

theorem stringPart_valueAt {colIdx : Nat} (short : (varcharOf tuple colIdx).length < 4294967296) :
    stringPart (valueAt tuple colIdx) = varcharOf tuple colIdx := by
  rw [← (varcharOf_eq tuple colIdx).2, Nat.mod_eq_of_lt short, List.take_length]

/-- The bytes of a column's string with its length. -/
def textBytes (tuple : Tuple Double) (entry : ColumnDef × Nat) : List UInt8 :=
  if entry.1.type = .varchar then
    littleEndian 4 (varcharOf tuple entry.2).length ++ varcharOf tuple entry.2
  else []

theorem textBytes_length (entry : ColumnDef × Nat) :
    (textBytes tuple entry).length = textWidth tuple entry := by
  rw [textBytes, textWidth]
  split <;> simp

/-- The strings of some columns are stored whole. -/
theorem varcharArea_eq {entries : List (ColumnDef × Nat)}
    (short : totalWidth (textWidth tuple) entries < 4294967296) :
    varcharArea tuple entries = entries.flatMap (textBytes tuple) := by
  induction entries with
  | nil => rfl
  | cons entry rest ih =>
      rw [totalWidth_cons] at short
      rw [varcharArea_cons, ih (by omega), List.flatMap_cons]
      congr 1
      rw [textWidth] at short
      by_cases varchar : entry.1.type = .varchar
      · rw [if_pos varchar] at short
        have whole := stringPart_valueAt (by omega : (varcharOf tuple entry.2).length < 4294967296)
        simp [varcharArea, textBytes, varchar, whole]
      · simp [varcharArea, textBytes, varchar]

theorem varcharArea_length {entries : List (ColumnDef × Nat)}
    (short : totalWidth (textWidth tuple) entries < 4294967296) :
    (varcharArea tuple entries).length = totalWidth (textWidth tuple) entries := by
  rw [varcharArea_eq short, List.length_flatMap, totalWidth]
  simp [textBytes_length]

theorem rowSize_eq (short : exactSize tuple schema < 4294967296) :
    rowSize tuple schema = exactSize tuple schema := by
  rw [exactSize] at short
  rw [rowSize, exactSize, varcharArea_length (by omega)]

/-! ## Where the columns lie -/

/-- A stretch of a row. -/
structure Span where
  start : Nat
  size : Nat

/-- One stretch ends before the other begins. -/
def Span.Apart (first second : Span) : Prop :=
  first.start + first.size ≤ second.start ∨ second.start + second.size ≤ first.start

/-- The bytes of a row in a stretch. -/
def Span.bytes (span : Span) (row : List UInt8) : List UInt8 := (row.drop span.start).take span.size

/-- Where a row has a column. -/
def columnSpan (tuple : Tuple Double) (schema : Schema) (entry : ColumnDef × Nat) : Span :=
  if entry.1.type = .varchar then
    ⟨schema.nullBitmapSize + schema.fixedSize +
      offsetOf (textWidth tuple) schema.indexed entry.2, textWidth tuple entry⟩
  else ⟨schema.nullBitmapSize + entry.1.fixedOffset, schemaColumnFixedSize entry.1.type⟩

/-- The fixed-length columns lie one behind the other. -/
theorem ColumnsPlaced.offsets {start finish : Nat} {columns : List ColumnDef}
    (placed : ColumnsPlaced start columns finish) :
    (∀ i col, columns[i]? = some col → col.type ≠ .varchar →
      col.fixedOffset = start + offsetOf (schemaColumnFixedSize ·.type) columns i) ∧
    finish = start + totalWidth (schemaColumnFixedSize ·.type) columns := by
  induction columns generalizing start with
  | nil => exact ⟨by simp, placed.symm⟩
  | cons first rest ih =>
      obtain ⟨offset, placed⟩ := placed
      obtain ⟨offsets, last⟩ := ih placed
      refine ⟨fun i col here fixed => ?_, by rw [last, totalWidth_cons, Nat.add_assoc]⟩
      cases i with
      | zero =>
          rw [List.getElem?_cons_zero, Option.some.injEq] at here
          rw [← here] at fixed ⊢
          rw [offset, if_neg fixed, offsetOf_zero, Nat.add_zero]
      | succ i =>
          rw [offsets i col here fixed, offsetOf_succ, Nat.add_assoc]

theorem SchemaLaid.fixed_inside (laid : SchemaLaid schema) {entry : ColumnDef × Nat}
    (member : entry ∈ schema.indexed) (fixed : entry.1.type ≠ .varchar) :
    entry.1.fixedOffset + schemaColumnFixedSize entry.1.type ≤ schema.fixedSize := by
  have here := List.mk_mem_zipIdx_iff_getElem?.mp member
  obtain ⟨offsets, last⟩ := laid.placed.offsets
  have inside := @offsetOf_inside _ (schemaColumnFixedSize ·.type) _ _ _ here
  rw [offsets _ _ here fixed, last]
  omega

theorem indexed_getElem? {entry : ColumnDef × Nat} (member : entry ∈ schema.indexed) :
    schema.indexed[entry.2]? = some entry := by
  have here := List.mk_mem_zipIdx_iff_getElem?.mp member
  rw [Schema.indexed, List.getElem?_zipIdx, here]
  simp

/-- No two columns share a byte of a row. -/
theorem columnSpan_apart (laid : SchemaLaid schema) {first second : ColumnDef × Nat}
    (firstIn : first ∈ schema.indexed) (secondIn : second ∈ schema.indexed)
    (differ : first.2 ≠ second.2) :
    (columnSpan tuple schema first).Apart (columnSpan tuple schema second) := by
  rw [Span.Apart, columnSpan, columnSpan]
  by_cases text : first.1.type = .varchar <;> by_cases text' : second.1.type = .varchar
  · have apart := @offsetOf_apart _ (textWidth tuple) _ _ _ _ _ (indexed_getElem? firstIn)
      (indexed_getElem? secondIn) differ
    rw [if_pos text, if_pos text']
    dsimp only
    omega
  · have inside := laid.fixed_inside secondIn text'
    rw [if_pos text, if_neg text']
    dsimp only
    omega
  · have inside := laid.fixed_inside firstIn text
    rw [if_neg text, if_pos text']
    dsimp only
    omega
  · have here := List.mk_mem_zipIdx_iff_getElem?.mp firstIn
    have there := List.mk_mem_zipIdx_iff_getElem?.mp secondIn
    have apart := @offsetOf_apart _ (schemaColumnFixedSize ·.type) _ _ _ _ _ here there differ
    obtain ⟨offsets, -⟩ := laid.placed.offsets
    rw [if_neg text, if_neg text', offsets _ _ here text, offsets _ _ there text']
    dsimp only
    omega

/-- A column lies behind the bitmap and inside the row. -/
theorem columnSpan_inside (laid : SchemaLaid schema) {entry : ColumnDef × Nat}
    (member : entry ∈ schema.indexed) :
    schema.nullBitmapSize ≤ (columnSpan tuple schema entry).start ∧
      (columnSpan tuple schema entry).start + (columnSpan tuple schema entry).size ≤
        exactSize tuple schema := by
  rw [columnSpan, exactSize]
  by_cases text : entry.1.type = .varchar
  · have inside := @offsetOf_inside _ (textWidth tuple) _ _ _ (indexed_getElem? member)
    rw [if_pos text]
    dsimp only
    omega
  · have inside := laid.fixed_inside member text
    rw [if_neg text]
    dsimp only
    omega

/-- The bytes that a column puts into its place. -/
def columnBytes [Platform Double] (tuple : Tuple Double) (entry : ColumnDef × Nat) : List UInt8 :=
  if entry.1.type = .varchar then textBytes tuple entry
  else fieldBytes entry.1.type (valueAt tuple entry.2)

/-- A row has the null bits, the fixed-length fields and the strings of a tuple, none of them
over another. -/
structure RowLaid [Platform Double] (tuple : Tuple Double) (schema : Schema)
    (row : List UInt8) : Prop where
  bits : ∀ i < schema.numColumns, i / 8 < schema.nullBitmapSize ∧
    readNullBit row i = .ok (isColumnNull tuple i)
  inside : ∀ entry ∈ schema.indexed,
    schema.nullBitmapSize ≤ (columnSpan tuple schema entry).start ∧
      (columnSpan tuple schema entry).start + (columnSpan tuple schema entry).size ≤ row.length
  apart : ∀ first ∈ schema.indexed, ∀ second ∈ schema.indexed, first.2 ≠ second.2 →
    (columnSpan tuple schema first).Apart (columnSpan tuple schema second)
  columns : ∀ entry ∈ schema.indexed, entry.1.type = .varchar ∨ isColumnNull tuple entry.2 = false →
    (columnSpan tuple schema entry).bytes row = columnBytes tuple entry

variable [Platform Double] {bytes : Block}

theorem Span.bytes_read {span : Span} {size : Nat} (inside : span.start + span.size ≤ size) :
    span.bytes (bytes.read 0 size) = bytes.read span.start span.size := by
  rw [Span.bytes, Block.take_drop_read _ inside, Nat.zero_add]

theorem Serialized.rowLaid (laid : SchemaLaid schema) (written : Serialized tuple schema bytes)
    (small : exactSize tuple schema < 4294967296) :
    RowLaid tuple schema (bytes.read 0 (exactSize tuple schema)) := by
  have size := rowSize_eq small
  refine ⟨fun i bound => ⟨?_, ?_⟩, fun entry member => ?_, fun first firstIn second secondIn =>
    columnSpan_apart laid firstIn secondIn, fun entry member present => ?_⟩
  · have bitmap := laid.bitmap
    rw [Schema.numColumns] at bound
    omega
  · rw [← size, readNullBit_row laid written bound, isColumnNull_eq]
  · rw [Block.read_length]
    exact columnSpan_inside laid member
  · rw [Span.bytes_read (columnSpan_inside laid member).2, columnSpan, columnBytes]
    by_cases text : entry.1.type = .varchar
    · rw [if_pos text, if_pos text]
      dsimp only
      have here := indexed_getElem? member
      have inside := @offsetOf_inside _ (textWidth tuple) _ _ _ here
      have short : totalWidth (textWidth tuple) schema.indexed < 4294967296 := by
        rw [exactSize] at small
        omega
      have whole := written.strings
      rw [varcharArea_length short, varcharArea_eq short] at whole
      have slice := take_drop_flatMap here (fun entry _ => @textBytes_length _ tuple entry) []
      rw [List.append_nil, ← whole, Block.take_drop_read _ inside] at slice
      exact slice
    · rw [if_neg text, if_neg text]
      have full := present.resolve_left text
      rw [isColumnNull_eq] at full
      exact (written.fields entry member text full).2

/-! ## Reading what was written -/

/-- A value of the type of its column is read as it was stored, if copying a double keeps it. -/
theorem storedAs_same (copied : ∀ d : Double, Platform.ofBits (Platform.bits d) = d)
    {type : TypeId} {v : Value Double} (typed : v.isNull ∨ v.type = type)
    (short : ∀ s, v = .varchar s → s.length < 4294967296) : storedAs type v = .ok v := by
  rcases typed with null | rfl
  · rw [storedAs_null null]
    cases v with
    | null => rfl
    | _ => cases null
  · cases v with
    | integer i => exact storedAs_integer i
    | float d =>
        have bytes : fieldBytes .float (.float d : Value Double) =
            littleEndian 8 (Platform.bits d).toNat :=
          List.take_of_length_le (by rw [valueBytes, littleEndian_length]; decide)
        show Except.ok (Value.float (Platform.ofBits (UInt64.ofNat
          (ofLittleEndian (fieldBytes .float (.float d : Value Double)))))) = _
        have small : (Platform.bits d).toNat < 256 ^ 8 := UInt64.toNat_lt _
        rw [bytes, ofLittleEndian_littleEndian, Nat.mod_eq_of_lt small, UInt64.ofNat_toNat, copied]
    | boolean b => cases b <;> rfl
    | varchar s =>
        have small : s.chars.length < 4294967296 := short s rfl
        show Except.ok (Value.varchar (CString.ofBytes (stringPart (.varchar s)))) = _
        rw [stringPart, Nat.mod_eq_of_lt small, List.take_length, CString.ofBytes_chars]
    | null => rfl

omit [Platform Double] in
/-- Each string of a small row is short. -/
theorem varcharOf_short (small : exactSize tuple schema < 4294967296) {entry : ColumnDef × Nat}
    (member : entry ∈ schema.indexed) (varchar : entry.1.type = .varchar) :
    (varcharOf tuple entry.2).length < 4294967296 := by
  have inside := @offsetOf_inside _ (textWidth tuple) _ _ _ (indexed_getElem? member)
  rw [textWidth, if_pos varchar] at inside
  rw [exactSize] at small
  omega

/-- The values read of a small row are those that were stored. -/
theorem storedAs_all (copied : ∀ d : Double, Platform.ofBits (Platform.bits d) = d)
    (typed : TypedAs schema tuple) (small : exactSize tuple schema < 4294967296) :
    (schema.indexed.mapM fun entry => storedAs entry.1.type (valueAt tuple entry.2)) =
      (pure tuple.values : Except Fault (List (Value Double))) := by
  have each : ∀ entry ∈ schema.indexed, storedAs entry.1.type (valueAt tuple entry.2) =
      .ok (valueAt tuple entry.2) := by
    intro entry member
    have here := List.mk_mem_zipIdx_iff_getElem?.mp member
    have ofType := typed.typed _ _ here
    refine storedAs_same copied ofType fun s value => ?_
    rw [value] at ofType
    rcases ofType with null | varchar
    · cases null
    · have short := varcharOf_short small member varchar.symm
      have string : varcharOf tuple entry.2 = s.chars := by
        rw [valueAt] at value
        rw [varcharOf]
        cases present : tuple.values[entry.2]? with
        | none => rw [present] at value; cases value
        | some v =>
            rw [present, Option.getD_some] at value
            rw [value]
      rwa [string] at short
  obtain ⟨values, mapped⟩ := mapM_returns (m := Except Fault) fun entry member =>
    ⟨_, each entry member⟩
  rw [mapped]
  congr 1
  have count := length_of_mapM mapped
  rw [Schema.indexed, List.length_zipIdx] at count
  apply List.ext_getElem?
  intro i
  by_cases bound : i < schema.columns.length
  · have present : schema.indexed[i]? = some (schema.columns[i], i) := by
      rw [Schema.indexed, List.getElem?_zipIdx, List.getElem?_eq_getElem bound]
      simp
    obtain ⟨v, stored, here⟩ := getElem?_of_mapM mapped present
    rw [each _ (List.mem_of_getElem? present)] at stored
    have value := Except.ok.inj stored
    have inTuple : i < tuple.values.length := by rwa [typed.length]
    rw [here, ← value, valueAt, List.getElem?_eq_getElem inTuple]
    rfl
  · rw [List.getElem?_eq_none (by omega), List.getElem?_eq_none (by rw [typed.length]; omega)]

/-! ## The size that a schema promises -/

/-- The most bytes a column's string takes with its length. -/
def declaredWidth (col : ColumnDef) : Nat :=
  if col.type = .varchar then 4 + col.maxLength.toNat else 0

/-- The fewest bytes a column's string takes with its length. -/
def emptyWidth (col : ColumnDef) : Nat := if col.type = .varchar then 4 else 0

/-- The most bytes a row takes whose strings are as long as declared. -/
def longestRow (schema : Schema) : Nat :=
  schema.nullBitmapSize + schema.fixedSize + totalWidth declaredWidth schema.columns

/-- The fewest bytes a row takes. -/
def shortestRow (schema : Schema) : Nat :=
  schema.nullBitmapSize + schema.fixedSize + totalWidth emptyWidth schema.columns

omit [Platform Double] in
/-- No string of a tuple is longer than its column declares. -/
def StringsFit (tuple : Tuple Double) (schema : Schema) : Prop :=
  ∀ entry ∈ schema.indexed, entry.1.type = .varchar →
    (varcharOf tuple entry.2).length ≤ entry.1.maxLength.toNat

/-- The size that is promised is the longest row's in 32 bits. -/
theorem schemaMaxTupleSize_mod (schema : Schema) :
    schemaMaxTupleSize schema % 4294967296 = longestRow schema % 4294967296 := by
  rw [schemaMaxTupleSize, longestRow]
  generalize schema.nullBitmapSize + schema.fixedSize = start
  generalize schema.columns = columns
  induction columns generalizing start with
  | nil => rfl
  | cons col rest ih =>
      rw [List.foldl_cons, totalWidth_cons, ih, declaredWidth]
      by_cases varchar : col.type = .varchar
      · rw [if_pos varchar, if_pos varchar]
        omega
      · rw [if_neg varchar, if_neg varchar, Nat.zero_add]

theorem schemaMaxTupleSize_lt (small : schema.nullBitmapSize + schema.fixedSize < 4294967296) :
    schemaMaxTupleSize schema < 4294967296 := by
  rw [schemaMaxTupleSize]
  revert small
  generalize schema.nullBitmapSize + schema.fixedSize = start
  generalize schema.columns = columns
  intro small
  induction columns generalizing start with
  | nil => exact small
  | cons col rest ih =>
      rw [List.foldl_cons]
      apply ih
      split
      · exact Nat.mod_lt _ (by decide)
      · exact small

omit [Platform Double] in
theorem totalWidth_indexed (width : ColumnDef → Nat) (columns : List ColumnDef) (first : Nat) :
    totalWidth (fun entry => width entry.1) (columns.zipIdx first) = totalWidth width columns := by
  rw [← @totalWidth_map _ _ width _ Prod.fst, List.zipIdx_map_fst]

omit [Platform Double] in
theorem exactSize_le (fits : StringsFit tuple schema) :
    exactSize tuple schema ≤ longestRow schema := by
  rw [exactSize, longestRow, ← totalWidth_indexed declaredWidth schema.columns 0]
  refine Nat.add_le_add_left (totalWidth_le fun entry member => ?_) _
  rw [textWidth, declaredWidth]
  by_cases varchar : entry.1.type = .varchar
  · rw [if_pos varchar, if_pos varchar]
    exact Nat.add_le_add_left (fits entry member varchar) 4
  · rw [if_neg varchar]
    exact Nat.zero_le _

omit [Platform Double] in
theorem shortestRow_le (tuple : Tuple Double) (schema : Schema) :
    shortestRow schema ≤ exactSize tuple schema := by
  rw [exactSize, shortestRow, ← totalWidth_indexed emptyWidth schema.columns 0]
  refine Nat.add_le_add_left (totalWidth_le fun entry member => ?_) _
  rw [textWidth, emptyWidth]
  split <;> omega

/-! ## Rows of every size -/

theorem emptyWidth_le (columns : List ColumnDef) :
    totalWidth emptyWidth columns ≤ totalWidth declaredWidth columns := by
  refine totalWidth_le fun col member => ?_
  rw [emptyWidth, declaredWidth]
  split <;> omega

/-- A string of the given length. -/
def letters (length : Nat) : CString where
  chars := List.replicate length 97
  unterminated member := by
    have byte := List.eq_of_mem_replicate member
    exact absurd byte (by decide)

/-- Values whose strings have the given length together, as far as the columns allow. -/
def filledValues : List ColumnDef → Nat → List (Value Double)
  | [], _ => []
  | col :: rest, amount =>
      if col.type = .varchar then
        .varchar (letters (min col.maxLength.toNat amount)) ::
          filledValues rest (amount - min col.maxLength.toNat amount)
      else .null :: filledValues rest amount

omit [Platform Double] in
theorem filledValues_length (columns : List ColumnDef) (amount : Nat) :
    (filledValues columns amount : List (Value Double)).length = columns.length := by
  induction columns generalizing amount with
  | nil => rfl
  | cons col rest ih =>
      rw [filledValues]
      split <;> simp [ih]

omit [Platform Double] in
/-- Each of the values is of its column's type and not too long. -/
theorem filledValues_typed {columns : List ColumnDef} {amount i : Nat} {col : ColumnDef}
    (here : columns[i]? = some col) :
    ∃ v : Value Double, (filledValues columns amount)[i]? = some v ∧
      (v.isNull ∨ v.type = col.type) ∧
      ∀ s, v = .varchar s → s.chars.length ≤ col.maxLength.toNat := by
  induction columns generalizing amount i with
  | nil => exact absurd here (by simp)
  | cons first rest ih =>
      rw [filledValues]
      cases i with
      | zero =>
          rw [List.getElem?_cons_zero, Option.some.injEq] at here
          rw [here]
          split
          · rename_i varchar
            refine ⟨_, rfl, .inr varchar.symm, fun s value => ?_⟩
            obtain rfl := Value.varchar.inj value
            rw [letters, List.length_replicate]
            exact Nat.min_le_left _ _
          · exact ⟨_, rfl, .inl rfl, fun s value => by cases value⟩
      | succ i =>
          split
          · exact ih here
          · exact ih here

omit [Platform Double] in
/-- The strings take the length that is asked for. -/
theorem filledValues_width {columns : List ColumnDef} {amount : Nat} {done : List (Value Double)}
    (values : tuple.values = done ++ filledValues columns amount)
    (room : totalWidth emptyWidth columns + amount ≤ totalWidth declaredWidth columns) :
    totalWidth (textWidth tuple) (columns.zipIdx done.length) =
      totalWidth emptyWidth columns + amount := by
  induction columns generalizing amount done with
  | nil =>
      rw [totalWidth_nil, totalWidth_nil] at room
      rw [List.zipIdx_nil, totalWidth_nil, totalWidth_nil]
      omega
  | cons col rest ih =>
      rw [filledValues] at values
      rw [totalWidth_cons, totalWidth_cons, emptyWidth, declaredWidth] at room
      rw [List.zipIdx_cons, totalWidth_cons, totalWidth_cons, textWidth, emptyWidth, varcharOf]
      dsimp only
      by_cases varchar : col.type = .varchar
      · rw [if_pos varchar] at values room
        rw [if_pos varchar] at room
        rw [if_pos varchar, if_pos varchar]
        have here : tuple.values[done.length]? =
            some (.varchar (letters (min col.maxLength.toNat amount))) := by
          rw [values]
          simp
        have least := emptyWidth_le rest
        have tail := @ih (amount - min col.maxLength.toNat amount) (done ++ [.varchar (letters _)])
          (by rw [values, List.append_assoc]; rfl) (by omega)
        rw [List.length_append, List.length_singleton] at tail
        rw [here, tail]
        show 4 + (letters _).chars.length + _ = _
        rw [letters, List.length_replicate]
        omega
      · rw [if_neg varchar] at values room
        rw [if_neg varchar] at room
        rw [if_neg varchar, if_neg varchar]
        have tail := @ih amount (done ++ [.null]) (by rw [values, List.append_assoc]; rfl) (by omega)
        rw [List.length_append, List.length_singleton] at tail
        rw [tail]
        omega

omit [Platform Double] in
/-- Between the shortest and the longest row there is one of each size. -/
theorem exists_exactSize {size : Nat} (low : shortestRow schema ≤ size)
    (high : size ≤ longestRow schema) :
    ∃ tuple : Tuple Double, TypedAs schema tuple ∧ StringsFit tuple schema ∧
      exactSize tuple schema = size := by
  rw [shortestRow] at low
  rw [longestRow] at high
  have width := @filledValues_width Double
    ⟨filledValues schema.columns (size - shortestRow schema), invalidRid⟩ schema.columns _ [] rfl
    (by rw [shortestRow]; omega)
  refine ⟨⟨filledValues schema.columns (size - shortestRow schema), invalidRid⟩,
    ⟨filledValues_length _ _, fun i col here => ?_⟩, fun entry member varchar => ?_, ?_⟩
  · obtain ⟨v, value, typed, -⟩ := @filledValues_typed Double _ (size - shortestRow schema) _ _ here
    rw [valueAt, value]
    exact typed
  · have here := List.mk_mem_zipIdx_iff_getElem?.mp member
    obtain ⟨v, value, -, fits⟩ := @filledValues_typed Double _ (size - shortestRow schema) _ _ here
    rw [varcharOf, value]
    cases v with
    | varchar s => exact fits s rfl
    | _ => exact Nat.zero_le _
  · rw [exactSize, Schema.indexed]
    rw [List.length_nil] at width
    rw [width, shortestRow]
    omega

/-! ## The codec -/

/-- A tuple is written into as many bytes as announced and read back from them, and its row is no
larger than the schema promises if its strings are no longer than declared. -/
structure RoundTrips (schema : Schema) (tuple : Tuple Double) : Prop where
  written : ∀ buf : Buffer, tupleSerializedSize tuple schema ≤ buf.size →
    ∃ row read, tupleSerialize tuple schema buf = .ok row ∧
      row.length = tupleSerializedSize tuple schema ∧ RowLaid tuple schema row ∧
      tupleDeserialize schema row = (pure read : Checked (Tuple Double)) ∧
      read.values = tuple.values
  bounded : StringsFit tuple schema → tupleSerializedSize tuple schema ≤ schemaMaxTupleSize schema

theorem roundTrips_iff (laid : SchemaLaid schema)
    (copied : ∀ d : Double, Platform.ofBits (Platform.bits d) = d)
    (typed : TypedAs schema tuple) (small : exactSize tuple schema < 4294967296) :
    RoundTrips schema tuple ↔
      (StringsFit tuple schema → exactSize tuple schema ≤ schemaMaxTupleSize schema) := by
  have size : tupleSerializedSize tuple schema = exactSize tuple schema := by
    rw [tupleSerializedSize_eq, Nat.mod_eq_of_lt small]
  have sameSize := rowSize_eq small
  constructor
  · intro trips fits
    exact size ▸ trips.bounded fits
  · intro bounded
    refine ⟨fun buf room => ?_, size ▸ bounded⟩
    obtain ⟨bytes, ran, written⟩ :=
      @tupleSerialize_fits _ tuple _ _ laid buf (by rw [sameSize, ← size]; exact room)
    have read := @tupleDeserialize_row _ _ tuple _ _ laid written fun _ => sameSize ▸ small
    rw [storedAs_all copied typed small] at read
    refine ⟨_, ⟨tuple.values, invalidRid⟩, ran, ?_, ?_, read, rfl⟩
    · rw [Block.read_length, sameSize, size]
    · rw [sameSize]
      exact written.rowLaid laid small

theorem schemaCreate_laid {columns : List ColumnDef} (created : schemaCreate columns = .ok schema) :
    SchemaLaid schema := by
  rw [schemaCreate] at created
  split at created
  · cases created
  · rename_i nonempty
    exact Except.ok.inj created ▸ schemaBuild_laid nonempty

/-- The tuples of a schema come back, and their rows are no larger than promised, exactly if the
declared lengths do not wrap the promised size, or wrap it onto the largest, or no row is small. -/
theorem tupleCodec_iff {columns : List ColumnDef} (created : schemaCreate columns = .ok schema)
    (copied : ∀ d : Double, Platform.ofBits (Platform.bits d) = d) :
    (∀ tuple : Tuple Double, TypedAs schema tuple → exactSize tuple schema < 4294967296 →
      RoundTrips schema tuple) ↔
      longestRow schema < 4294967296 ∨ longestRow schema % 4294967296 = 4294967295 ∨
        4294967296 ≤ shortestRow schema := by
  have laid := schemaCreate_laid created
  have wrapped := schemaMaxTupleSize_mod schema
  constructor
  · intro trips
    by_contra fails
    obtain ⟨long, notLargest, short⟩ : 4294967296 ≤ longestRow schema ∧
        longestRow schema % 4294967296 ≠ 4294967295 ∧ shortestRow schema < 4294967296 := by
      omega
    have promised : schemaMaxTupleSize schema < 4294967296 :=
      schemaMaxTupleSize_lt (by rw [shortestRow] at short; omega)
    obtain ⟨tuple, typed, fits, size⟩ := @exists_exactSize Double schema
      (max (shortestRow schema) (schemaMaxTupleSize schema + 1)) (Nat.le_max_left _ _) (by omega)
    have small : exactSize tuple schema < 4294967296 := by omega
    have bounded := (roundTrips_iff laid copied typed small).mp (trips tuple typed small) fits
    omega
  · intro condition tuple typed small
    refine (roundTrips_iff laid copied typed small).mpr fun fits => ?_
    have long := exactSize_le fits
    have short := shortestRow_le tuple schema
    omega

/-- A platform whose doubles are 64-bit integers, each its own representation. -/
instance : Platform Int64 where
  ofInt i := i
  toInt d := some d
  add := (· + ·)
  sub := (· - ·)
  mul := (· * ·)
  div := (· / ·)
  neg := (- ·)
  less a b := a < b
  equal a b := a = b
  bits d := d.toUInt64
  ofBits bits := bits.toInt64
  strtod string := (0, string.chars)
  formatDouble _ := CString.empty
  strcmp a b := if a.chars = b.chars then 0 else if a.chars < b.chars then -1 else 1
  qsort compare list := (list.mergeSort fun a b => compare a b ≤ 0, list.product list)
  address _ := 0
  uninitialized _ := 0

/-- A number, a fraction, a truth value and a string of up to the given length. -/
def fourColumns (maxLength : UInt32) : List ColumnDef :=
  [⟨.ofChars ['i'], .integer, true, 0, 0⟩, ⟨.ofChars ['f'], .float, true, 0, 0⟩,
    ⟨.ofChars ['b'], .boolean, true, 0, 0⟩, ⟨.ofChars ['s'], .varchar, true, maxLength, 0⟩]

theorem tupleCodec_iff_fourColumns :
    (∀ tuple : Tuple Int64, TypedAs (schemaBuild (fourColumns 10)) tuple →
      exactSize tuple (schemaBuild (fourColumns 10)) < 4294967296 →
        RoundTrips (schemaBuild (fourColumns 10)) tuple) ↔
      longestRow (schemaBuild (fourColumns 10)) < 4294967296 ∨
        longestRow (schemaBuild (fourColumns 10)) % 4294967296 = 4294967295 ∨
        4294967296 ≤ shortestRow (schemaBuild (fourColumns 10)) :=
  @tupleCodec_iff _ _ _ (fourColumns 10) rfl fun _ => rfl

/-- With a declared length of 4294967295 the schema promises 21 bytes, and four `NULL`s take 22. -/
theorem longString_exceeds : ¬∀ (columns : List ColumnDef) (schema : Schema),
    schemaCreate columns = .ok schema → ∀ tuple : Tuple Int64, TypedAs schema tuple →
      exactSize tuple schema < 4294967296 → RoundTrips schema tuple := by
  intro claimed
  have typed : TypedAs (schemaBuild (fourColumns 4294967295))
      (⟨List.replicate 4 .null, invalidRid⟩ : Tuple Int64) := by
    refine ⟨rfl, fun i col here => .inl ?_⟩
    have bound : i < 4 := (List.getElem?_eq_some_iff.mp here).1
    rw [valueAt, List.getElem?_replicate_of_lt bound]
    rfl
  have trips := claimed (fourColumns 4294967295) _ rfl _ typed (by decide +kernel)
  have fits : StringsFit (⟨List.replicate 4 .null, invalidRid⟩ : Tuple Int64)
      (schemaBuild (fourColumns 4294967295)) := by
    intro entry member varchar
    have null : isColumnNull (⟨List.replicate 4 .null, invalidRid⟩ : Tuple Int64) entry.2 := by
      rw [isColumnNull, List.getElem?_replicate]
      by_cases inside : entry.2 < 4
      · rw [if_pos inside]
        rfl
      · rw [if_neg inside]
    rw [varcharOf_null null]
    exact Nat.zero_le _
  exact absurd (trips.bounded fits) (by decide +kernel)

end MiniSqlite.Storage
