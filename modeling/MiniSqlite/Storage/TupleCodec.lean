import Mathlib.Data.Nat.Bitwise
import MiniSqlite.Std.Lockstep
import MiniSqlite.Storage.Tuple

/-!
# The stored form of tuples

Where `tuple_serialize` puts what: the bitmap, the fixed-length fields one behind
the other and the strings. Reading a serialized tuple gives, in each column, the
value that the type of the column makes of what was stored (`storedAs`).
-/

namespace MiniSqlite.Storage

open MiniSqlite.Common MiniSqlite.Std

/-! ## Schemas -/

/-- The fixed-length columns lie one behind the other. -/
def ColumnsPlaced : Nat → List ColumnDef → Nat → Prop
  | start, [], finish => start = finish
  | start, col :: rest, finish =>
      (col.fixedOffset = if col.type = .varchar then 0 else start) ∧
        ColumnsPlaced (start + schemaColumnFixedSize col.type) rest finish

theorem ColumnsPlaced.le {start finish : Nat} {columns : List ColumnDef}
    (placed : ColumnsPlaced start columns finish) : start ≤ finish := by
  induction columns generalizing start with
  | nil => exact Nat.le_of_eq placed
  | cons col rest ih => exact Nat.le_trans (Nat.le_add_right _ _) (ih placed.2)

theorem placeColumns_placed (start : Nat) (columns : List ColumnDef) :
    ColumnsPlaced start (placeColumns start columns).1 (placeColumns start columns).2 ∧
      (placeColumns start columns).1.map ColumnDef.type = columns.map ColumnDef.type := by
  induction columns generalizing start with
  | nil => exact ⟨rfl, rfl⟩
  | cons col rest ih =>
      rw [placeColumns]
      split
      · rename_i varchar
        refine ⟨⟨by simp [varchar], ?_⟩, by simp [(ih start).2]⟩
        rw [varchar]
        exact (ih start).1
      · rename_i fixed
        have rest := ih (start + schemaColumnFixedSize col.type)
        exact ⟨⟨by simp [fixed], rest.1⟩, by simp [rest.2]⟩

/-- A schema of some columns as `schema_build` lays it out. -/
structure SchemaLaid (schema : Schema) : Prop where
  placed : ColumnsPlaced 0 schema.columns schema.fixedSize
  bitmap : schema.nullBitmapSize = (schema.columns.length + 7) / 8
  nonempty : schema.columns ≠ []

theorem schemaBuild_laid {columns : List ColumnDef} (nonempty : columns ≠ []) :
    SchemaLaid (schemaBuild columns) := by
  have placed := placeColumns_placed 0 columns
  have length := placeColumns_length 0 columns
  refine ⟨placed.1, ?_, fun empty => nonempty ?_⟩
  · show (columns.length + 7) / 8 = ((placeColumns 0 columns).1.length + 7) / 8
    rw [length]
  · rw [← List.length_eq_zero_iff, ← length, List.length_eq_zero_iff]
    exact empty

variable {Double : Type}

/-! ## What is stored of a value -/

/-- The value of a column; a tuple without it counts as `NULL`. -/
def valueAt (tuple : Tuple Double) (colIdx : Nat) : Value Double :=
  (tuple.values[colIdx]?).getD .null

theorem isColumnNull_eq (tuple : Tuple Double) (colIdx : Nat) :
    isColumnNull tuple colIdx = (valueAt tuple colIdx).isNull := by
  rw [isColumnNull, valueAt]
  cases tuple.values[colIdx]? <;> rfl

/-- The string that a `VARCHAR` column stores of a value. Its length is a `uint32_t`. -/
def stringPart : Value Double → List UInt8
  | .varchar s => s.chars.take (s.chars.length % 4294967296)
  | _ => []

theorem stringPart_length (v : Value Double) : (stringPart v).length < 4294967296 := by
  cases v with
  | varchar s =>
      rw [stringPart, List.length_take]
      have := Nat.mod_lt s.chars.length (by decide : 4294967296 > 0)
      omega
  | _ => exact (by decide : 0 < 4294967296)

theorem varcharOf_eq (tuple : Tuple Double) (colIdx : Nat) :
    (varcharOf tuple colIdx).length % 4294967296 = (stringPart (valueAt tuple colIdx)).length ∧
      (varcharOf tuple colIdx).take ((varcharOf tuple colIdx).length % 4294967296) =
        stringPart (valueAt tuple colIdx) := by
  rw [varcharOf, valueAt]
  cases tuple.values[colIdx]? with
  | none => exact ⟨rfl, rfl⟩
  | some v =>
      cases v with
      | varchar s =>
          refine ⟨?_, rfl⟩
          rw [Option.getD_some, stringPart, List.length_take, Nat.min_eq_left (Nat.mod_le _ _)]
      | _ => exact ⟨rfl, rfl⟩

/-- The variable-length part of a row. -/
def varcharArea (tuple : Tuple Double) (entries : List (ColumnDef × Nat)) : List UInt8 :=
  entries.flatMap fun entry =>
    if entry.1.type = .varchar then
      littleEndian 4 (stringPart (valueAt tuple entry.2)).length ++
        stringPart (valueAt tuple entry.2)
    else []

/-- The number of bytes of a row. -/
def rowSize (tuple : Tuple Double) (schema : Schema) : Nat :=
  schema.nullBitmapSize + schema.fixedSize + (varcharArea tuple schema.indexed).length

/-- A bit of the bitmap. -/
def nullBit (bytes : Block) (colIdx : Nat) : Bool :=
  bytes (colIdx / 8) &&& 1 <<< UInt8.ofNat (colIdx % 8) != 0

/-! ## The bitmap -/

theorem bit_toNat {bit : Nat} (bound : bit < 8) :
    (1 <<< UInt8.ofNat bit : UInt8).toNat = 2 ^ bit := by
  have all : ∀ bit : Fin 8, (1 <<< UInt8.ofNat bit : UInt8).toNat = 2 ^ bit.val := by decide
  exact all ⟨bit, bound⟩

theorem bit_test (byte : UInt8) {test : Nat} (bound : test < 8) :
    (byte &&& 1 <<< UInt8.ofNat test != 0) = byte.toNat.testBit test := by
  have value : (byte &&& 1 <<< UInt8.ofNat test).toNat =
      (byte.toNat.testBit test).toNat * 2 ^ test := by
    rw [UInt8.toNat_and, bit_toNat bound, Nat.and_two_pow]
  rw [Bool.eq_iff_iff, bne_iff_ne, ne_eq, ← UInt8.toNat_inj, value]
  cases byte.toNat.testBit test <;> simp

/-- Setting a bit changes no other. -/
theorem bit_or (byte : UInt8) {set test : Nat} (setLt : set < 8) (testLt : test < 8) :
    ((byte ||| 1 <<< UInt8.ofNat set) &&& 1 <<< UInt8.ofNat test != 0) =
      ((byte &&& 1 <<< UInt8.ofNat test != 0) || decide (set = test)) := by
  rw [bit_test _ testLt, bit_test _ testLt, UInt8.toNat_or, bit_toNat setLt, Nat.testBit_or,
    Nat.testBit_two_pow]

/-- Setting a bit of the bitmap. -/
theorem nullBit_set (bytes : Block) (colIdx i : Nat) :
    nullBit (bytes.write (colIdx / 8)
        [bytes (colIdx / 8) ||| 1 <<< UInt8.ofNat (colIdx % 8)]) i =
      (nullBit bytes i || decide (colIdx = i)) := by
  have setLt := Nat.mod_lt colIdx (by decide : 8 > 0)
  have testLt := Nat.mod_lt i (by decide : 8 > 0)
  rw [nullBit, nullBit]
  by_cases same : colIdx / 8 = i / 8
  · have written := @Block.write_apply_inside bytes (colIdx / 8) 0
      [bytes (colIdx / 8) ||| 1 <<< UInt8.ofNat (colIdx % 8)] (by simp)
    rw [Nat.add_zero, List.getElem_cons_zero] at written
    rw [← same, written, bit_or _ setLt testLt, same]
    congr 1
    exact decide_eq_decide.mpr (by omega)
  · have differ : colIdx ≠ i := by
      rintro rfl
      exact same rfl
    rw [Block.write_apply_outside _ (by simp; omega)]
    simp [differ]

theorem Buffer.store_eq {buf : Buffer} {offset : Nat} {data : List UInt8}
    (inside : offset + data.length ≤ buf.size) :
    buf.store offset data = .ok ⟨buf.bytes.write offset data, buf.size⟩ := if_pos inside

theorem Buffer.store_ok {buf after : Buffer} {offset : Nat} {data : List UInt8}
    (stored : buf.store offset data = .ok after) :
    offset + data.length ≤ buf.size ∧ after = ⟨buf.bytes.write offset data, buf.size⟩ := by
  rw [Buffer.store] at stored
  split at stored
  · rename_i inside
    exact ⟨inside, (Except.ok.inj stored).symm⟩
  · cases stored

variable {tuple : Tuple Double} {columns : List ColumnDef}

/-- The loop over the bitmap sets the bits of the `NULL` columns. -/
theorem setNullBit_fold {buf : Buffer} {first : Nat}
    (inside : (first + columns.length + 7) / 8 ≤ buf.size) :
    ∃ after, (columns.zipIdx first).foldlM (setNullBit tuple) buf = .ok after ∧
      after.size = buf.size ∧
      (∀ i, (first + columns.length + 7) / 8 ≤ i → after.bytes i = buf.bytes i) ∧
      ∀ i, nullBit after.bytes i = (nullBit buf.bytes i ||
        (decide (first ≤ i ∧ i < first + columns.length) && (valueAt tuple i).isNull)) := by
  induction columns generalizing buf first with
  | nil =>
      refine ⟨buf, rfl, rfl, fun _ _ => rfl, fun i => ?_⟩
      have none : ¬(first ≤ i ∧ i < first) := by omega
      simp [none]
  | cons col rest ih =>
      rw [List.length_cons] at inside ⊢
      have width : first + (rest.length + 1) = first + 1 + rest.length := by omega
      rw [width] at inside ⊢
      have here : first / 8 + 1 ≤ buf.size := by omega
      rw [List.zipIdx_cons, List.foldlM_cons, setNullBit, isColumnNull_eq]
      dsimp only
      by_cases null : (valueAt tuple first).isNull
      · rw [if_pos null, Buffer.store_eq (by simpa using here), ok_bind]
        obtain ⟨after, ran, size, outside, bits⟩ := @ih
          ⟨buf.bytes.write (first / 8)
            [buf.bytes (first / 8) ||| 1 <<< UInt8.ofNat (first % 8)], buf.size⟩ (first + 1) inside
        refine ⟨after, ran, size, fun i far => ?_, fun i => ?_⟩
        · rw [outside i far]
          exact Block.write_apply_outside _ (by simp; omega)
        · rw [bits, nullBit_set, Bool.or_assoc]
          congr 1
          by_cases same : first = i
          · subst same
            have covered : first ≤ first ∧ first < first + 1 + rest.length := by omega
            simp [null, covered]
          · simp only [same, decide_false, Bool.false_or]
            congr 1
            exact decide_eq_decide.mpr (by omega)
      · rw [if_neg null, ok_bind]
        obtain ⟨after, ran, size, outside, bits⟩ := ih inside
        refine ⟨after, ran, size, outside, fun i => ?_⟩
        rw [bits]
        by_cases same : i = first
        · subst same
          simp [null]
        · congr 2
          exact decide_eq_decide.mpr (by omega)

/-! ## The fixed-length fields -/

variable [Platform Double]

theorem valueBytes_length (v : Value Double) : (valueBytes v).length = 8 := by
  cases v <;> simp [valueBytes]

theorem schemaColumnFixedSize_le (type : TypeId) : schemaColumnFixedSize type ≤ 8 := by
  cases type <;> decide

/-- The bytes that a fixed-length column stores of a value. -/
def fieldBytes (type : TypeId) (v : Value Double) : List UInt8 :=
  (valueBytes v).take (schemaColumnFixedSize type)

theorem fieldBytes_length (type : TypeId) (v : Value Double) :
    (fieldBytes type v).length = schemaColumnFixedSize type := by
  rw [fieldBytes, List.length_take, valueBytes_length]
  exact Nat.min_eq_left (schemaColumnFixedSize_le type)

theorem serializeFixed_eq (tuple : Tuple Double) (area : Nat) (buf : Buffer)
    (entry : ColumnDef × Nat) :
    serializeFixed tuple area buf entry =
      if (valueAt tuple entry.2).isNull then .ok buf
      else buf.store (area + entry.1.fixedOffset)
        (fieldBytes entry.1.type (valueAt tuple entry.2)) := by
  rw [serializeFixed, valueAt]
  cases tuple.values[entry.2]? with
  | none => rfl
  | some v => cases v <;> rfl

/-- The field of one column. -/
theorem serializeFixed_step {buf : Buffer} {col : ColumnDef} {colIdx area start : Nat}
    (offset : col.fixedOffset = if col.type = .varchar then 0 else start)
    (inside : area + start + schemaColumnFixedSize col.type ≤ buf.size) :
    ∃ after, serializeFixed tuple area buf (col, colIdx) = .ok after ∧ after.size = buf.size ∧
      (∀ i, i < area + start ∨ area + start + schemaColumnFixedSize col.type ≤ i →
        after.bytes i = buf.bytes i) ∧
      (col.type ≠ .varchar → (valueAt tuple colIdx).isNull = false →
        after.bytes.read (area + start) (schemaColumnFixedSize col.type) =
          fieldBytes col.type (valueAt tuple colIdx)) := by
  have length := fieldBytes_length col.type (valueAt tuple colIdx)
  rw [serializeFixed_eq]
  dsimp only
  by_cases null : (valueAt tuple colIdx).isNull
  · exact ⟨buf, if_pos null, rfl, fun _ _ => rfl, by simp [null]⟩
  · rw [if_neg null, offset]
    by_cases varchar : col.type = .varchar
    · rw [varchar] at length inside
      have empty : fieldBytes col.type (valueAt tuple colIdx) = [] := by
        rw [varchar]
        exact List.length_eq_zero_iff.mp length
      refine ⟨buf, ?_, rfl, fun _ _ => rfl, fun fixed => absurd varchar fixed⟩
      rw [if_pos varchar, empty, Buffer.store_eq (by simp; omega), Block.write_nil]
    · rw [if_neg varchar, Buffer.store_eq (by omega)]
      refine ⟨_, rfl, rfl, fun i away => ?_, fun _ _ => ?_⟩
      · exact Block.write_apply_outside _ (by omega)
      · rw [← length]
        exact Block.read_write_same _ _ _

/-- The loop over the fixed-length fields puts each into its place and nothing elsewhere. -/
theorem serializeFixed_fold {buf : Buffer} {first area start finish : Nat}
    (placed : ColumnsPlaced start columns finish) (inside : area + finish ≤ buf.size) :
    ∃ after, (columns.zipIdx first).foldlM (serializeFixed tuple area) buf = .ok after ∧
      after.size = buf.size ∧
      (∀ i, i < area + start ∨ area + finish ≤ i → after.bytes i = buf.bytes i) ∧
      ∀ entry ∈ columns.zipIdx first, entry.1.type ≠ .varchar →
        (valueAt tuple entry.2).isNull = false →
          start ≤ entry.1.fixedOffset ∧
          entry.1.fixedOffset + schemaColumnFixedSize entry.1.type ≤ finish ∧
          after.bytes.read (area + entry.1.fixedOffset) (schemaColumnFixedSize entry.1.type) =
            fieldBytes entry.1.type (valueAt tuple entry.2) := by
  induction columns generalizing buf first start with
  | nil => exact ⟨buf, rfl, rfl, fun _ _ => rfl, by simp⟩
  | cons col rest ih =>
      obtain ⟨offset, placed⟩ := placed
      have high := placed.le
      obtain ⟨middle, stepped, size, elsewhere, field⟩ :=
        @serializeFixed_step _ tuple _ buf col first area start offset (by omega)
      obtain ⟨after, ran, size', elsewhere', fields⟩ :=
        @ih middle (first + 1) _ placed (size ▸ inside)
      rw [List.zipIdx_cons, List.foldlM_cons, stepped, ok_bind]
      refine ⟨after, ran, size'.trans size, fun i away => ?_, fun entry member fixed full => ?_⟩
      · rw [elsewhere' i (by omega), elsewhere i (by omega)]
      · rcases List.mem_cons.mp member with rfl | inRest
        · dsimp only at fixed full ⊢
          rw [if_neg fixed] at offset
          rw [offset]
          refine ⟨Nat.le_refl _, high, ?_⟩
          rw [← field fixed full]
          exact Block.read_congr fun i bound => elsewhere' _ (by omega)
        · obtain ⟨low, rest⟩ := fields entry inRest fixed full
          exact ⟨by omega, rest⟩

/-! ## The strings -/

omit [Platform Double] in
theorem serializeVarchar_eq (state : Buffer × Nat) (entry : ColumnDef × Nat)
    (varchar : entry.1.type = .varchar) :
    serializeVarchar tuple state entry =
      (do
        let string := stringPart (valueAt tuple entry.2)
        let buf ← state.1.store state.2 (littleEndian 4 string.length)
        let buf ← buf.store (state.2 + 4) string
        return (buf, state.2 + 4 + string.length)) := by
  obtain ⟨length, string⟩ := varcharOf_eq tuple entry.2
  rw [serializeVarchar, if_neg (not_not.mpr varchar)]
  dsimp only
  rw [string, length]

omit [Platform Double] in
theorem varcharArea_cons (tuple : Tuple Double) (entry : ColumnDef × Nat)
    (rest : List (ColumnDef × Nat)) :
    varcharArea tuple (entry :: rest) = varcharArea tuple [entry] ++ varcharArea tuple rest := by
  simp [varcharArea]

omit [Platform Double] in
/-- One string with its length. -/
theorem serializeVarchar_step {buf : Buffer} {offset : Nat} (entry : ColumnDef × Nat)
    (inside : offset + (varcharArea tuple [entry]).length ≤ buf.size) :
    ∃ after, serializeVarchar tuple (buf, offset) entry =
        .ok (after, offset + (varcharArea tuple [entry]).length) ∧ after.size = buf.size ∧
      (∀ i, i < offset → after.bytes i = buf.bytes i) ∧
      after.bytes.read offset (varcharArea tuple [entry]).length = varcharArea tuple [entry] := by
  by_cases varchar : entry.1.type = .varchar
  · have area : varcharArea tuple [entry] =
        littleEndian 4 (stringPart (valueAt tuple entry.2)).length ++
          stringPart (valueAt tuple entry.2) := by
      simp [varcharArea, varchar]
    rw [area] at inside ⊢
    rw [List.length_append, littleEndian_length] at inside ⊢
    rw [serializeVarchar_eq _ _ varchar]
    dsimp only
    rw [Buffer.store_eq (by rw [littleEndian_length]; omega), ok_bind,
      Buffer.store_eq (by dsimp only; omega), ok_bind]
    rw [← Nat.add_assoc]
    refine ⟨_, rfl, rfl, fun i low => ?_, ?_⟩
    · dsimp only
      rw [Block.write_apply_outside _ (by omega), Block.write_apply_outside _ (by omega)]
    · rw [Block.read_add]
      congr 1
      · rw [Block.read_write_of_disjoint _ (by omega)]
        have written := Block.read_write_same buf.bytes offset
          (littleEndian 4 (stringPart (valueAt tuple entry.2)).length)
        rwa [littleEndian_length] at written
      · exact Block.read_write_same _ _ _
  · have area : varcharArea tuple [entry] = [] := by simp [varcharArea, varchar]
    rw [area]
    exact ⟨buf, if_pos varchar, rfl, fun _ _ => rfl, rfl⟩

omit [Platform Double] in
/-- The loop over the strings puts them one behind the other. -/
theorem serializeVarchar_fold {buf : Buffer} {offset : Nat} (entries : List (ColumnDef × Nat))
    (inside : offset + (varcharArea tuple entries).length ≤ buf.size) :
    ∃ after, entries.foldlM (serializeVarchar tuple) (buf, offset) =
        .ok (after, offset + (varcharArea tuple entries).length) ∧
      (∀ i, i < offset → after.bytes i = buf.bytes i) ∧
      after.bytes.read offset (varcharArea tuple entries).length = varcharArea tuple entries := by
  induction entries generalizing buf offset with
  | nil => exact ⟨buf, rfl, fun _ _ => rfl, rfl⟩
  | cons entry rest ih =>
      rw [varcharArea_cons, List.length_append] at inside ⊢
      obtain ⟨middle, stepped, size, below, here⟩ :=
        @serializeVarchar_step _ tuple buf offset entry (by omega)
      obtain ⟨after, ran, below', there⟩ :=
        @ih middle (offset + (varcharArea tuple [entry]).length) (by rw [size]; omega)
      rw [List.foldlM_cons, stepped, ok_bind, ran]
      refine ⟨after, by rw [Nat.add_assoc], fun i low => ?_, ?_⟩
      · rw [below' i (by omega), below i low]
      · rw [Block.read_add, there]
        congr 1
        conv_rhs => rw [← here]
        exact Block.read_congr fun i bound => below' _ (by omega)

omit [Platform Double] in
theorem varcharArea_of_fixed {entries : List (ColumnDef × Nat)}
    (fixed : ¬∃ entry ∈ entries, entry.1.type = .varchar) : varcharArea tuple entries = [] := by
  rw [varcharArea, List.flatMap_eq_nil_iff]
  intro entry member
  exact if_neg fun varchar => fixed ⟨entry, member, varchar⟩

omit [Platform Double] in
/-- A string that has been stored lies inside the buffer. -/
theorem serializeVarchar_ok {buf after : Buffer} {offset finish : Nat} {entry : ColumnDef × Nat}
    (stepped : serializeVarchar tuple (buf, offset) entry = .ok (after, finish))
    (varchar : entry.1.type = .varchar) :
    after.size = buf.size ∧ finish = offset + (varcharArea tuple [entry]).length ∧
      finish ≤ buf.size := by
  rw [serializeVarchar_eq _ _ varchar] at stepped
  dsimp only at stepped
  cases first : buf.store offset (littleEndian 4 (stringPart (valueAt tuple entry.2)).length) with
  | error fault => rw [first] at stepped; cases stepped
  | ok middle =>
      rw [first, ok_bind] at stepped
      obtain ⟨-, rfl⟩ := Buffer.store_ok first
      cases second : Buffer.store
          ⟨buf.bytes.write offset (littleEndian 4 (stringPart (valueAt tuple entry.2)).length),
            buf.size⟩ (offset + 4) (stringPart (valueAt tuple entry.2)) with
      | error fault => rw [second] at stepped; cases stepped
      | ok last =>
          rw [second, ok_bind] at stepped
          obtain ⟨inside, rfl⟩ := Buffer.store_ok second
          obtain ⟨rfl, rfl⟩ := Prod.mk.inj (Except.ok.inj stepped)
          refine ⟨rfl, ?_, inside⟩
          simp [varcharArea, varchar]
          omega

omit [Platform Double] in
/-- The strings that have been stored lie inside the buffer. -/
theorem serializeVarchar_inside {buf after : Buffer} {offset finish : Nat}
    {entries : List (ColumnDef × Nat)}
    (ran : entries.foldlM (serializeVarchar tuple) (buf, offset) = .ok (after, finish))
    (some : ∃ entry ∈ entries, entry.1.type = .varchar) :
    offset + (varcharArea tuple entries).length ≤ buf.size := by
  induction entries generalizing buf offset with
  | nil => simp at some
  | cons entry rest ih =>
      rw [List.foldlM_cons] at ran
      cases stepped : serializeVarchar tuple (buf, offset) entry with
      | error fault => rw [stepped] at ran; cases ran
      | ok state =>
          obtain ⟨middle, next⟩ := state
          rw [stepped, ok_bind] at ran
          rw [varcharArea_cons, List.length_append]
          by_cases varchar : entry.1.type = .varchar
          · obtain ⟨size, rfl, inside⟩ := serializeVarchar_ok stepped varchar
            by_cases more : ∃ entry ∈ rest, entry.1.type = .varchar
            · have below := ih ran more
              omega
            · rw [varcharArea_of_fixed more, List.length_nil]
              exact inside
          · have same : serializeVarchar tuple (buf, offset) entry = .ok (buf, offset) :=
              if_pos varchar
            rw [same] at stepped
            obtain ⟨rfl, rfl⟩ := Prod.mk.inj (Except.ok.inj stepped)
            have none : varcharArea tuple [entry] = [] := by simp [varcharArea, varchar]
            obtain ⟨other, member, isVarchar⟩ := some
            have inRest : other ∈ rest := by
              rcases List.mem_cons.mp member with rfl | inRest
              · exact absurd isVarchar varchar
              · exact inRest
            rw [none, List.length_nil, Nat.zero_add]
            exact ih ran ⟨other, inRest, isVarchar⟩

/-! ## Serialized tuples -/

/-- The parts of a serialized tuple. -/
structure Serialized (tuple : Tuple Double) (schema : Schema) (bytes : Block) : Prop where
  nulls : ∀ i < schema.columns.length, nullBit bytes i = (valueAt tuple i).isNull
  fields : ∀ entry ∈ schema.indexed, entry.1.type ≠ .varchar →
    (valueAt tuple entry.2).isNull = false →
      entry.1.fixedOffset + schemaColumnFixedSize entry.1.type ≤ schema.fixedSize ∧
      bytes.read (schema.nullBitmapSize + entry.1.fixedOffset)
          (schemaColumnFixedSize entry.1.type) = fieldBytes entry.1.type (valueAt tuple entry.2)
  strings : bytes.read (schema.nullBitmapSize + schema.fixedSize)
    (varcharArea tuple schema.indexed).length = varcharArea tuple schema.indexed

omit [Platform Double] in
/-- No bit is set in a bitmap of zeros. -/
theorem nullBit_zeros (bytes : Block) {size i : Nat} (inside : i / 8 < size) :
    nullBit (bytes.write 0 (List.replicate size 0)) i = false := by
  have zero := @Block.write_apply_inside bytes 0 (i / 8) (List.replicate size 0) (by simpa using inside)
  rw [Nat.zero_add, List.getElem_replicate] at zero
  rw [nullBit, zero]
  simp

/-- A tuple that fits is written into the buffer. -/
theorem tupleSerialize_fits {schema : Schema} (laid : SchemaLaid schema) {buf : Buffer}
    (inside : rowSize tuple schema ≤ buf.size) :
    ∃ bytes : Block, tupleSerialize tuple schema buf = .ok (bytes.read 0 (rowSize tuple schema)) ∧
      Serialized tuple schema bytes := by
  rw [rowSize] at inside
  have bitmap := laid.bitmap
  have zeros : (List.replicate schema.nullBitmapSize (0 : UInt8)).length = schema.nullBitmapSize :=
    List.length_replicate
  obtain ⟨nulled, ranNulls, sizeNulls, outsideNulls, bits⟩ :=
    @setNullBit_fold _ tuple schema.columns
      ⟨buf.bytes.write 0 (List.replicate schema.nullBitmapSize 0), buf.size⟩ 0
      (by dsimp only; omega)
  obtain ⟨fixed, ranFixed, sizeFixed, outsideFixed, fields⟩ :=
    @serializeFixed_fold _ tuple _ _ nulled 0 schema.nullBitmapSize _ _ laid.placed
      (by rw [sizeNulls]; dsimp only; omega)
  obtain ⟨last, ranStrings, belowStrings, strings⟩ :=
    @serializeVarchar_fold _ tuple fixed (schema.nullBitmapSize + schema.fixedSize) schema.indexed
      (by rw [sizeFixed, sizeNulls]; dsimp only; omega)
  refine ⟨last.bytes, ?_, fun i bound => ?_, fun entry member isFixed full => ?_, strings⟩
  · rw [tupleSerialize]
    dsimp only
    rw [Buffer.store_eq (by omega), ok_bind, Schema.indexed, ranNulls, ok_bind, ranFixed, ok_bind,
      ← Schema.indexed, ranStrings]
    rfl
  · have low : i / 8 < schema.nullBitmapSize := by omega
    have same : nullBit last.bytes i = nullBit nulled.bytes i := by
      rw [nullBit, nullBit, belowStrings _ (by omega), outsideFixed _ (by omega)]
    rw [same, bits, nullBit_zeros _ low, Nat.zero_add]
    simp [bound]
  · obtain ⟨-, high, field⟩ := fields entry member isFixed full
    refine ⟨high, ?_⟩
    rw [← field]
    exact Block.read_congr fun i bound => belowStrings _ (by omega)

theorem foldlM_size {α : Type} {step : Buffer → α → Except Fault Buffer} {entries : List α}
    (keeps : ∀ buf entry after, step buf entry = .ok after → after.size = buf.size)
    {buf after : Buffer} (ran : entries.foldlM step buf = .ok after) : after.size = buf.size := by
  induction entries generalizing buf with
  | nil => rw [Except.ok.inj ran]
  | cons entry rest ih =>
      rw [List.foldlM_cons] at ran
      cases stepped : step buf entry with
      | error fault => rw [stepped] at ran; cases ran
      | ok middle =>
          rw [stepped, ok_bind] at ran
          exact (ih ran).trans (keeps buf entry middle stepped)

omit [Platform Double] in
theorem setNullBit_size {buf after : Buffer} {entry : ColumnDef × Nat}
    (stepped : setNullBit tuple buf entry = .ok after) : after.size = buf.size := by
  rw [setNullBit] at stepped
  split at stepped
  · obtain ⟨-, rfl⟩ := Buffer.store_ok stepped
    rfl
  · rw [Except.ok.inj stepped]

theorem serializeFixed_size {buf after : Buffer} {area : Nat} {entry : ColumnDef × Nat}
    (stepped : serializeFixed tuple area buf entry = .ok after) : after.size = buf.size := by
  rw [serializeFixed_eq] at stepped
  split at stepped
  · rw [Except.ok.inj stepped]
  · obtain ⟨-, rfl⟩ := Buffer.store_ok stepped
    rfl

/-- A tuple with strings that has been written has fitted. -/
theorem tupleSerialize_inside {schema : Schema} {buf : Buffer} {row : List UInt8}
    (ran : tupleSerialize tuple schema buf = .ok row)
    (some : ∃ entry ∈ schema.indexed, entry.1.type = .varchar) :
    rowSize tuple schema ≤ buf.size := by
  rw [tupleSerialize] at ran
  dsimp only at ran
  cases zeroed : buf.store 0 (List.replicate schema.nullBitmapSize 0) with
  | error fault => rw [zeroed] at ran; cases ran
  | ok first =>
      rw [zeroed, ok_bind] at ran
      obtain ⟨-, rfl⟩ := Buffer.store_ok zeroed
      cases nulls : schema.indexed.foldlM (setNullBit tuple)
          ⟨buf.bytes.write 0 (List.replicate schema.nullBitmapSize 0), buf.size⟩ with
      | error fault => rw [nulls] at ran; cases ran
      | ok second =>
          rw [nulls, ok_bind] at ran
          cases fields : schema.indexed.foldlM (serializeFixed tuple schema.nullBitmapSize)
              second with
          | error fault => rw [fields] at ran; cases ran
          | ok third =>
              rw [fields, ok_bind] at ran
              cases strings : schema.indexed.foldlM (serializeVarchar tuple)
                  (third, schema.nullBitmapSize + schema.fixedSize) with
              | error fault => rw [strings] at ran; cases ran
              | ok last =>
                  have inside := serializeVarchar_inside strings some
                  have nulled := foldlM_size (fun _ _ _ => setNullBit_size) nulls
                  have size : third.size = buf.size :=
                    (foldlM_size (fun _ _ _ => serializeFixed_size) fields).trans nulled
                  rw [rowSize, ← size]
                  exact inside

omit [Platform Double] in
/-- The size of the buffer that the executors allocate for rows without strings. -/
theorem schemaMaxTupleSize_fixed {schema : Schema}
    (fixed : ¬∃ entry ∈ schema.indexed, entry.1.type = .varchar) :
    schemaMaxTupleSize schema = schema.nullBitmapSize + schema.fixedSize := by
  have none : ∀ col ∈ schema.columns, col.type ≠ .varchar := by
    intro col member varchar
    obtain ⟨i, found⟩ := List.mem_iff_getElem?.mp member
    exact fixed ⟨(col, i), List.mk_mem_zipIdx_iff_getElem?.mpr found, varchar⟩
  rw [schemaMaxTupleSize]
  generalize schema.nullBitmapSize + schema.fixedSize = start
  generalize schema.columns = columns at none
  induction columns with
  | nil => rfl
  | cons col rest ih =>
      rw [List.foldl_cons, if_neg (none col List.mem_cons_self)]
      exact ih fun other member => none other (List.mem_cons_of_mem _ member)

/-- A tuple is written into the buffer of the executors if and only if it fits. -/
theorem tupleSerialize_iff {schema : Schema} (laid : SchemaLaid schema) (bytes : Block) :
    (∃ row, tupleSerialize tuple schema ⟨bytes, schemaMaxTupleSize schema⟩ = .ok row) ↔
      rowSize tuple schema ≤ schemaMaxTupleSize schema := by
  constructor
  · rintro ⟨row, ran⟩
    by_cases some : ∃ entry ∈ schema.indexed, entry.1.type = .varchar
    · exact tupleSerialize_inside ran some
    · rw [rowSize, varcharArea_of_fixed some, schemaMaxTupleSize_fixed some]
      exact Nat.le_refl _
  · intro inside
    obtain ⟨written, ran, -⟩ :=
      @tupleSerialize_fits _ tuple _ _ laid ⟨bytes, schemaMaxTupleSize schema⟩ inside
    exact ⟨_, ran⟩

end MiniSqlite.Storage
