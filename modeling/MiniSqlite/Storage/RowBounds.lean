import MiniSqlite.Storage.TupleRows

/-!
# What `tuple_deserialize` reads of a row

The bitmap and the fixed-length fields are read without a look at the size of the
row, and the end of a string is compared with it in 32 bits. So a row that does
not hold what its schema and its lengths say is reported only where the walk
along the lengths comes to a comparison that notices.
-/

namespace MiniSqlite.Storage

open MiniSqlite.Common MiniSqlite.Std

/-! ## Rows -/

/-- The length stored at `offset`. -/
def lengthAt (row : List UInt8) (offset : Nat) : Nat :=
  ofLittleEndian ((row.drop offset).take 4)

/-- The null bit of a column. -/
def nullBitAt (row : List UInt8) (colIdx : Nat) : Bool :=
  row.getD (colIdx / 8) 0 &&& 1 <<< UInt8.ofNat (colIdx % 8) != 0

/-- The strings of some columns lie in a row from `offset` on, each behind its length. -/
def StringsInside (row : List UInt8) : List (ColumnDef × Nat) → Nat → Prop
  | [], _ => True
  | entry :: rest, offset =>
      if entry.1.type = .varchar then
        offset + 4 ≤ row.length ∧ offset + 4 + lengthAt row offset ≤ row.length ∧
          StringsInside row rest (offset + 4 + lengthAt row offset)
      else StringsInside row rest offset

/-- A row holds the bitmap, the fixed-length fields and the strings of its columns. -/
structure WellFormed (schema : Schema) (row : List UInt8) : Prop where
  fields : schema.nullBitmapSize + schema.fixedSize ≤ row.length
  strings : StringsInside row schema.indexed (schema.nullBitmapSize + schema.fixedSize)

/-- A fixed-length column whose null bit and field, unless it is `NULL`, can be read. -/
def FieldReadable (row : List UInt8) (area : Nat) (entry : ColumnDef × Nat) : Prop :=
  entry.2 / 8 < row.length ∧
    (nullBitAt row entry.2 = false → entry.1.type ≠ .null →
      area + entry.1.fixedOffset + schemaColumnFixedSize entry.1.type ≤ row.length ∧
        (entry.1.type = .boolean → row.getD (area + entry.1.fixedOffset) 0 ≤ 1))

/-- The walk along the lengths from `offset` comes to a comparison that notices that the row is
too short, and reads only inside the row until then. -/
def StringsRefused (row : List UInt8) : List (ColumnDef × Nat) → Nat → Prop
  | [], _ => False
  | entry :: rest, offset =>
      if entry.1.type = .varchar then
        entry.2 / 8 < row.length ∧
          (row.length < offset + 4 ∨
            let finish := offset + 4 + lengthAt row offset
            if nullBitAt row entry.2 then StringsRefused row rest (finish % 4294967296)
            else row.length < finish % 4294967296 ∨
              finish ≤ row.length ∧ StringsRefused row rest finish)
      else StringsRefused row rest offset

variable {Double : Type} {schema : Schema} {row : List UInt8}

/-- A computation whose value is only mapped has thrown what is thrown in the end. -/
theorem throw_of_bind_pure {α β : Type} {call : Checked α} {map : α → β} {code : ErrorCode}
    (thrown : (call >>= fun value => pure (map value)) = throw code) : call = throw code := by
  match call with
  | .error fault => cases thrown
  | .ok (.error other) =>
      have same : (throw other : Checked β) = throw code := thrown
      cases same
      rfl
  | .ok (.ok value) => cases thrown

/-! ## One column -/

theorem readNullBit_eq (row : List UInt8) (colIdx : Nat) :
    readNullBit row colIdx =
      if colIdx / 8 < row.length then .ok (nullBitAt row colIdx) else .error .outOfBounds := by
  rw [readNullBit, readRow]
  by_cases inside : colIdx / 8 < row.length
  · rw [if_pos (by omega), if_pos inside, ok_bind, nullBitAt, List.getD_eq_getElem _ _ inside,
      List.drop_eq_getElem_cons inside]
    rfl
  · rw [if_neg (by omega), if_neg inside]
    rfl

/-- What one string does: the offset behind it, an error code or a read outside the row. -/
theorem deserializeVarchar_outcome (read : Tuple Double) {entry : ColumnDef × Nat}
    (varchar : entry.1.type = .varchar) (offset : Nat) :
    ∃ after : Tuple Double, deserializeVarchar row (read, offset) entry =
      if entry.2 / 8 < row.length then
        if row.length < offset + 4 then throw .ioError
        else if nullBitAt row entry.2 then
          pure (after, (offset + 4 + lengthAt row offset) % 4294967296)
        else if row.length < (offset + 4 + lengthAt row offset) % 4294967296 then throw .ioError
        else if offset + 4 + lengthAt row offset ≤ row.length then
          pure (after, offset + 4 + lengthAt row offset)
        else undefined .outOfBounds
      else undefined .outOfBounds := by
  rw [deserializeVarchar, if_neg (not_not.mpr varchar), readNullBit_eq]
  dsimp only
  by_cases bit : entry.2 / 8 < row.length
  · simp only [if_pos bit, liftM_ok, pure_bind]
    by_cases short : row.length < offset + 4
    · exact ⟨read, by rw [if_pos short, if_pos short]; rfl⟩
    · have prefixRead : readRow row offset 4 = .ok ((row.drop offset).take 4) :=
        if_pos (by omega)
      have size : ofLittleEndian ((row.drop offset).take 4) = lengthAt row offset := rfl
      simp only [gt_iff_lt, if_neg short, prefixRead, liftM_ok, pure_bind, size]
      by_cases null : nullBitAt row entry.2
      · exact ⟨_, by rw [if_pos null, if_pos null]⟩
      · simp only [if_neg null]
        by_cases some : 0 < lengthAt row offset
        · simp only [if_pos some]
          by_cases noticed : row.length < (offset + 4 + lengthAt row offset) % 4294967296
          · exact ⟨read, by rw [if_pos noticed, if_pos noticed]; rfl⟩
          · simp only [if_neg noticed, readRow]
            by_cases inside : offset + 4 + lengthAt row offset ≤ row.length
            · exact ⟨_, by rw [if_pos inside, if_pos inside]; rfl⟩
            · exact ⟨read, by rw [if_neg inside, if_neg inside]; rfl⟩
        · have zero : lengthAt row offset = 0 := by omega
          have small := Nat.mod_le (offset + 4) 4294967296
          refine ⟨tupleSetValue read entry.2 (.varchar CString.empty), ?_⟩
          rw [if_neg some, zero, Nat.add_zero, if_neg (by omega), if_pos (by omega)]
  · exact ⟨read, by rw [if_neg bit, if_neg bit]; rfl⟩

/-- The walk along the strings is refused exactly if a comparison notices. -/
theorem deserializeVarchar_refused (entries : List (ColumnDef × Nat)) (read : Tuple Double)
    (offset : Nat) :
    (∃ code ≠ ErrorCode.ok, entries.foldlM (deserializeVarchar row) (read, offset) =
      (throw code : Checked (Tuple Double × Nat))) ↔ StringsRefused row entries offset := by
  induction entries generalizing read offset with
  | nil => exact ⟨fun ⟨_, _, ran⟩ => (by cases ran), False.elim⟩
  | cons entry rest ih =>
      rw [StringsRefused, List.foldlM_cons]
      by_cases varchar : entry.1.type = .varchar
      · obtain ⟨after, outcome⟩ := deserializeVarchar_outcome read varchar offset
        rw [outcome, if_pos varchar]
        dsimp only
        by_cases bit : entry.2 / 8 < row.length
        · rw [if_pos bit, and_iff_right bit]
          by_cases short : row.length < offset + 4
          · rw [if_pos short]
            exact iff_of_true ⟨.ioError, by decide, rfl⟩ (.inl short)
          · rw [if_neg short, or_iff_right short]
            by_cases null : nullBitAt row entry.2
            · rw [if_pos null, if_pos null, pure_bind]
              exact ih _ _
            · rw [if_neg null, if_neg null]
              by_cases noticed : row.length < (offset + 4 + lengthAt row offset) % 4294967296
              · rw [if_pos noticed]
                exact iff_of_true ⟨.ioError, by decide, rfl⟩ (.inl noticed)
              · rw [if_neg noticed, or_iff_right noticed]
                by_cases inside : offset + 4 + lengthAt row offset ≤ row.length
                · rw [if_pos inside, and_iff_right inside, pure_bind]
                  exact ih _ _
                · rw [if_neg inside]
                  exact iff_of_false (fun ⟨_, _, ran⟩ => by cases ran) fun refused => inside refused.1
        · rw [if_neg bit]
          exact iff_of_false (fun ⟨_, _, ran⟩ => by cases ran) fun refused => bit refused.1
      · have skipped : deserializeVarchar row (read, offset) entry =
            (pure (read, offset) : Checked _) := if_pos varchar
        rw [skipped, if_neg varchar, pure_bind]
        exact ih _ _

/-- The strings of a well-formed row are read. -/
theorem deserializeVarchar_inside (small : row.length < 4294967296)
    {entries : List (ColumnDef × Nat)} (bits : ∀ entry ∈ entries, entry.2 / 8 < row.length)
    (read : Tuple Double) {offset : Nat} (inside : StringsInside row entries offset) :
    ∃ after, entries.foldlM (deserializeVarchar row) (read, offset) =
      (pure after : Checked (Tuple Double × Nat)) := by
  induction entries generalizing read offset with
  | nil => exact ⟨_, rfl⟩
  | cons entry rest ih =>
      have others := fun other member => bits other (List.mem_cons_of_mem _ member)
      rw [StringsInside] at inside
      rw [List.foldlM_cons]
      by_cases varchar : entry.1.type = .varchar
      · obtain ⟨after, outcome⟩ := deserializeVarchar_outcome read varchar offset
        rw [if_pos varchar] at inside
        obtain ⟨lengthFits, fits, inside⟩ := inside
        rw [outcome, if_pos (bits entry List.mem_cons_self), if_neg (by omega),
          Nat.mod_eq_of_lt (by omega), if_neg (by omega : ¬row.length < _), if_pos fits, ite_self,
          pure_bind]
        exact ih others after inside
      · have skipped : deserializeVarchar row (read, offset) entry =
            (pure (read, offset) : Checked _) := if_pos varchar
        rw [if_neg varchar] at inside
        rw [skipped, pure_bind]
        exact ih others read inside

/-! ## The fixed-length fields -/

variable [Platform Double]

theorem take_one {offset : Nat} (inside : offset + 1 ≤ row.length) :
    (row.drop offset).take 1 = [row.getD offset 0] := by
  have bound : offset < row.length := by omega
  rw [List.drop_eq_getElem_cons bound, List.getD_eq_getElem _ _ bound]
  rfl

theorem not_exists_returned {α : Type} {fault : Fault} :
    ¬ ∃ value : α, (.error fault : Except Fault α) = .ok value := by
  rintro ⟨value, ran⟩
  cases ran

/-- What one fixed-length field does. -/
theorem deserializeFixed_outcome (area : Nat) (read : Tuple Double) {entry : ColumnDef × Nat}
    (fixed : entry.1.type ≠ .varchar) :
    ((∃ after, deserializeFixed row area read entry = .ok after) ↔ FieldReadable row area entry) ∧
      (entry.2 / 8 < row.length →
        area + entry.1.fixedOffset + schemaColumnFixedSize entry.1.type ≤ row.length →
        deserializeFixed row area read entry ≠ .error .outOfBounds) := by
  rw [deserializeFixed, if_neg fixed, readNullBit_eq, FieldReadable]
  by_cases bit : entry.2 / 8 < row.length
  · rw [if_pos bit, ok_bind, and_iff_right bit]
    by_cases null : nullBitAt row entry.2
    · rw [if_pos null]
      exact ⟨iff_of_true ⟨_, rfl⟩ (by simp [null]), fun _ _ ran => by cases ran⟩
    · rw [if_neg null]
      by_cases untyped : entry.1.type = .null
      · rw [if_pos untyped]
        exact ⟨iff_of_true ⟨_, rfl⟩ (by simp [untyped]), fun _ _ ran => by cases ran⟩
      · rw [if_neg untyped, imp_iff_right (by simpa using null), imp_iff_right untyped, readRow]
        by_cases inside :
            area + entry.1.fixedOffset + schemaColumnFixedSize entry.1.type ≤ row.length
        · rw [if_pos inside, ok_bind, and_iff_right inside]
          cases type : entry.1.type with
          | integer | float =>
              exact ⟨iff_of_true ⟨_, rfl⟩ (by simp), fun _ _ ran => by cases ran⟩
          | boolean =>
              rw [type] at inside
              dsimp only [schemaColumnFixedSize] at inside ⊢
              rw [take_one inside]
              generalize row.getD (area + entry.1.fixedOffset) 0 = byte
              rw [imp_iff_right rfl]
              split
              · rename_i zero
                obtain rfl := (List.cons.inj zero).1
                exact ⟨iff_of_true ⟨_, rfl⟩ (by decide), fun _ _ ran => by cases ran⟩
              · rename_i one
                obtain rfl := (List.cons.inj one).1
                exact ⟨iff_of_true ⟨_, rfl⟩ (by decide), fun _ _ ran => by cases ran⟩
              · rename_i notZero notOne
                refine ⟨iff_of_false not_exists_returned fun small => ?_,
                  fun _ _ ran => by cases ran⟩
                have value : byte.toNat = 0 ∨ byte.toNat = 1 := by
                  have le := UInt8.le_iff_toNat_le.mp small
                  rw [show (1 : UInt8).toNat = 1 from rfl] at le
                  omega
                rcases value with zero | one
                · exact notZero (congrArg ([·]) (UInt8.toNat_inj.mp zero))
                · exact notOne (congrArg ([·]) (UInt8.toNat_inj.mp one))
          | varchar => exact absurd type fixed
          | null => exact absurd type untyped
        · rw [if_neg inside]
          exact ⟨iff_of_false not_exists_returned fun readable => inside readable.1,
            fun _ fits => absurd fits inside⟩
  · rw [if_neg bit]
    exact ⟨iff_of_false not_exists_returned fun readable => bit readable.1,
      fun inside => absurd inside bit⟩

/-! ## Rows -/

/-- `tuple_deserialize` reads inside the row, and answers a row that does not hold what it
should with an error code. -/
structure Guarded (schema : Schema) (row : List UInt8) (outcome : Checked (Tuple Double)) :
    Prop where
  inside : outcome ≠ undefined .outOfBounds
  reported : ¬WellFormed schema row → ∃ code ≠ ErrorCode.ok, outcome = throw code

/-- A row whose fixed-length fields can be read and whose strings are refused. -/
structure Refused (schema : Schema) (row : List UInt8) : Prop where
  fields : ∀ entry ∈ schema.indexed, entry.1.type ≠ .varchar →
    FieldReadable row schema.nullBitmapSize entry
  strings : StringsRefused row schema.indexed (schema.nullBitmapSize + schema.fixedSize)

theorem bit_inside (laid : SchemaLaid schema)
    (fits : schema.nullBitmapSize + schema.fixedSize ≤ row.length) {entry : ColumnDef × Nat}
    (member : entry ∈ schema.indexed) : entry.2 / 8 < row.length := by
  have bound := (List.getElem?_eq_some_iff.mp (List.mk_mem_zipIdx_iff_getElem?.mp member)).1
  have bitmap := laid.bitmap
  omega

/-- The loop over the fixed-length fields returns exactly if they can be read. -/
theorem deserializeFixed_all (read : Tuple Double) :
    (∃ after, schema.indexed.foldlM (deserializeFixed row schema.nullBitmapSize) read =
        .ok after) ↔
      ∀ entry ∈ schema.indexed, entry.1.type ≠ .varchar →
        FieldReadable row schema.nullBitmapSize entry := by
  refine foldlM_returns_iff (m := Except Fault) (fun entry member before => ?_) read
  by_cases varchar : entry.1.type = .varchar
  · exact iff_of_true ⟨before, by rw [deserializeFixed, if_pos varchar]⟩
      fun fixed => absurd varchar fixed
  · rw [imp_iff_right varchar]
    exact (deserializeFixed_outcome _ before varchar).1

/-- In a row with room for them no fixed-length field is read outside. -/
theorem deserializeFixed_inside (laid : SchemaLaid schema)
    (fits : schema.nullBitmapSize + schema.fixedSize ≤ row.length) (read : Tuple Double) :
    schema.indexed.foldlM (deserializeFixed row schema.nullBitmapSize) read ≠
      .error .outOfBounds := by
  refine foldlM_avoids (fun entry member before => ?_) read
  by_cases varchar : entry.1.type = .varchar
  · rw [deserializeFixed, if_pos varchar]
    exact fun ran => by cases ran
  · have inside := laid.fixed_inside member varchar
    exact (deserializeFixed_outcome _ before varchar).2 (bit_inside laid fits member) (by omega)

/-- What `tuple_deserialize` does after the fixed-length fields. -/
theorem tupleDeserialize_fields (nonempty : schema.columns ≠ []) :
    (∃ fault, schema.indexed.foldlM (deserializeFixed row schema.nullBitmapSize)
        (⟨List.replicate schema.numColumns .null, invalidRid⟩ : Tuple Double) = .error fault ∧
      tupleDeserialize schema row = (undefined fault : Checked (Tuple Double))) ∨
    ∃ fields, schema.indexed.foldlM (deserializeFixed row schema.nullBitmapSize)
        (⟨List.replicate schema.numColumns .null, invalidRid⟩ : Tuple Double) = .ok fields ∧
      tupleDeserialize schema row =
        schema.indexed.foldlM (deserializeVarchar row)
            (fields, schema.nullBitmapSize + schema.fixedSize) >>=
          fun strings => (pure strings.1 : Checked (Tuple Double)) := by
  have positive : schema.numColumns ≠ 0 := fun none => nonempty (List.length_eq_zero_iff.mp none)
  rw [tupleDeserialize, tupleCreate, if_neg positive]
  cases ran : schema.indexed.foldlM (deserializeFixed row schema.nullBitmapSize)
      (⟨List.replicate schema.numColumns .null, invalidRid⟩ : Tuple Double) with
  | error fault =>
      refine .inl ⟨fault, rfl, ?_⟩
      show (liftM (schema.indexed.foldlM (deserializeFixed row schema.nullBitmapSize)
        ⟨List.replicate schema.numColumns .null, invalidRid⟩) : Checked (Tuple Double)) >>= _ = _
      rw [ran]
      rfl
  | ok fields =>
      refine .inr ⟨fields, rfl, ?_⟩
      show (liftM (schema.indexed.foldlM (deserializeFixed row schema.nullBitmapSize)
        ⟨List.replicate schema.numColumns .null, invalidRid⟩) : Checked (Tuple Double)) >>= _ = _
      rw [ran]
      rfl

/-- Exactly the rows that hold what their schema and their lengths say, and those whose strings
are refused after the other fields could be read, are read with guards. -/
theorem tupleDeserialize_guarded_iff {columns : List ColumnDef}
    (created : schemaCreate columns = .ok schema) (small : row.length < 4294967296) :
    Guarded schema row (tupleDeserialize schema row : Checked (Tuple Double)) ↔
      WellFormed schema row ∨ Refused schema row := by
  have laid := schemaCreate_laid created
  have readable := @deserializeFixed_all Double schema row _
    ⟨List.replicate schema.numColumns .null, invalidRid⟩
  constructor
  · intro guarded
    by_cases wellFormed : WellFormed schema row
    · exact .inl wellFormed
    · obtain ⟨code, error, outcome⟩ := guarded.reported wellFormed
      right
      rcases @tupleDeserialize_fields Double schema row _ laid.nonempty with
        ⟨fault, -, same⟩ | ⟨fields, ran, same⟩
      · rw [same] at outcome
        cases outcome
      · refine ⟨readable.mp ⟨fields, ran⟩, (deserializeVarchar_refused _ fields _).mp ?_⟩
        rw [same] at outcome
        exact ⟨code, error, throw_of_bind_pure outcome⟩
  · rintro (wellFormed | refused)
    · refine ⟨fun outcome => ?_, fun broken => absurd wellFormed broken⟩
      rcases @tupleDeserialize_fields Double schema row _ laid.nonempty with
        ⟨fault, ran, same⟩ | ⟨fields, ran, same⟩
      · rw [same] at outcome
        obtain rfl := Except.error.inj outcome
        exact deserializeFixed_inside laid wellFormed.fields _ ran
      · obtain ⟨after, strings⟩ := deserializeVarchar_inside small
          (fun entry => bit_inside laid wellFormed.fields) fields wellFormed.strings
        rw [same, strings] at outcome
        cases outcome
    · obtain ⟨fields, ran⟩ := readable.mpr refused.fields
      obtain ⟨code, error, strings⟩ := (deserializeVarchar_refused _ fields _).mpr refused.strings
      rcases @tupleDeserialize_fields Double schema row _ laid.nonempty with
        ⟨fault, other, -⟩ | ⟨others, other, same⟩
      · rw [ran] at other
        cases other
      · rw [ran, Except.ok.injEq] at other
        rw [← other, strings] at same
        rw [same]
        exact ⟨fun outcome => (by cases outcome), fun _ => ⟨code, error, rfl⟩⟩

/-- One string of up to ten bytes. -/
def oneString : List ColumnDef := [⟨.ofChars ['s'], .varchar, true, 10, 0⟩]

theorem tupleDeserialize_guarded_iff_short :
    Guarded (schemaBuild oneString) [0, 5, 0, 0, 0, 104]
        (tupleDeserialize (schemaBuild oneString) [0, 5, 0, 0, 0, 104] : Checked (Tuple Int64)) ↔
      WellFormed (schemaBuild oneString) [0, 5, 0, 0, 0, 104] ∨
        Refused (schemaBuild oneString) [0, 5, 0, 0, 0, 104] :=
  @tupleDeserialize_guarded_iff _ _ _ _ oneString rfl (by decide)

/-- A length of 4294967295 ends, in 32 bits, inside a row of five bytes, and the string is read. -/
theorem wrappedLength_unguarded : ¬∀ (columns : List ColumnDef) (schema : Schema)
    (row : List UInt8), schemaCreate columns = .ok schema → row.length < 4294967296 →
      Guarded schema row (tupleDeserialize schema row : Checked (Tuple Int64)) := by
  intro claimed
  have guarded := claimed oneString _ [0, 255, 255, 255, 255] rfl (by decide)
  exact guarded.inside (by rfl)

end MiniSqlite.Storage
