import MiniSqlite.Std.Returns
import MiniSqlite.Storage.TupleCodec

/-!
# Reading a stored tuple

`tuple_deserialize` on what `tuple_serialize` has written: each column gives the
value that its type makes of what was stored, which is the value itself if that
has the type.
-/

namespace MiniSqlite.Storage

open MiniSqlite.Common MiniSqlite.Std

variable {Double : Type} [Platform Double]

omit [Platform Double] in
/-- What a `VARCHAR` column reads of a value stored in it. -/
def stringAs (v : Value Double) : Value Double :=
  if v.isNull then .null else .varchar (CString.ofBytes (stringPart v))

/-- What a column reads of a value stored in it. -/
def storedAs (type : TypeId) (v : Value Double) : Except Fault (Value Double) :=
  if v.isNull then .ok .null
  else
    match type with
    | .integer => .ok (.integer (Scalar.i64.decode (fieldBytes .integer v)))
    | .float => .ok (.float (Platform.ofBits (UInt64.ofNat (ofLittleEndian (fieldBytes .float v)))))
    | .boolean =>
        match fieldBytes .boolean v with
        | [0] => .ok (.boolean false)
        | [1] => .ok (.boolean true)
        | _ => .error .indeterminate
    | .varchar => .ok (stringAs v)
    | .null => .ok .null

/-- What the loop over the fixed-length fields reads of a value. -/
def fixedAs (type : TypeId) (v : Value Double) : Except Fault (Value Double) :=
  if type = .varchar then .ok .null else storedAs type v

theorem storedAs_null {type : TypeId} {v : Value Double} (null : v.isNull) :
    storedAs type v = .ok .null := by
  cases type <;> exact if_pos null

/-- A number is read from a column of numbers as it was stored. -/
theorem storedAs_integer (i : Int64) :
    storedAs .integer (.integer i : Value Double) = .ok (.integer i) := by
  have bytes : fieldBytes .integer (.integer i : Value Double) = Scalar.i64.encode i :=
    List.take_of_length_le (by rw [valueBytes, Scalar.encode_length]; decide)
  show Except.ok (Value.integer (Scalar.i64.decode (fieldBytes .integer _))) = _
  rw [bytes, Scalar.decode_encode]

variable {tuple : Tuple Double} {schema : Schema} {bytes : Block}

/-! ## Reading the parts -/

theorem readRow_read {size offset count : Nat} (inside : offset + count ≤ size) :
    readRow (bytes.read 0 size) offset count = .ok (bytes.read offset count) := by
  rw [readRow, Block.read_length, if_pos inside, Block.take_drop_read _ inside, Nat.zero_add]

section Row

variable (laid : SchemaLaid schema) (written : Serialized tuple schema bytes)

include laid written

theorem readNullBit_row {i : Nat} (bound : i < schema.columns.length) :
    readNullBit (bytes.read 0 (rowSize tuple schema)) i = .ok (valueAt tuple i).isNull := by
  have bitmap := laid.bitmap
  have inside : i / 8 + 1 ≤ rowSize tuple schema := by
    rw [rowSize]
    omega
  rw [readNullBit, readRow_read inside, ok_bind, ← written.nulls i bound]
  rfl

/-- A fixed-length field read into a tuple that has no value there yet. -/
theorem deserializeFixed_row {entry : ColumnDef × Nat} (member : entry ∈ schema.indexed)
    {read : Tuple Double} (unread : read.values[entry.2]? = some .null) :
    deserializeFixed (bytes.read 0 (rowSize tuple schema)) schema.nullBitmapSize read entry =
      if entry.1.type = .varchar then .ok read
      else storedAs entry.1.type (valueAt tuple entry.2) >>= fun v =>
        .ok (tupleSetValue read entry.2 v) := by
  have present := List.mk_mem_zipIdx_iff_getElem?.mp member
  have bound := (List.getElem?_eq_some_iff.mp present).1
  rw [deserializeFixed]
  by_cases varchar : entry.1.type = .varchar
  · rw [if_pos varchar, if_pos varchar]
    rfl
  · rw [if_neg varchar, if_neg varchar, readNullBit_row laid written bound, ok_bind]
    by_cases null : (valueAt tuple entry.2).isNull
    · rw [if_pos null, storedAs_null null]
      rfl
    · rw [if_neg null]
      by_cases untyped : entry.1.type = .null
      · have same : tupleSetValue read entry.2 .null = read := by
          obtain ⟨inside, unset⟩ := List.getElem?_eq_some_iff.mp unread
          rw [tupleSetValue, ← unset, List.set_getElem_self]
        rw [if_pos untyped, untyped, storedAs, if_neg null, ok_bind, same]
        rfl
      · obtain ⟨inside, field⟩ := written.fields entry member varchar (by simpa using null)
        have fits : schema.nullBitmapSize + entry.1.fixedOffset +
            schemaColumnFixedSize entry.1.type ≤ rowSize tuple schema := by
          rw [rowSize]
          omega
        rw [if_neg untyped, readRow_read fits, field, ok_bind]
        cases type : entry.1.type with
        | integer | float =>
            rw [storedAs, if_neg null]
            rfl
        | boolean =>
            rw [storedAs, if_neg null]
            generalize fieldBytes TypeId.boolean (valueAt tuple entry.2) = stored
            dsimp only
            -- both sides look at the same byte
            split <;> first | rfl | (split <;> first | rfl | simp_all)
        | varchar => exact absurd type varchar
        | null => exact absurd type untyped

end Row

/-! ## The loops -/

omit [Platform Double] in
/-- The next value of a tuple whose first values are known. -/
theorem tupleSetValue_next (done rest : List (Value Double)) (old v : Value Double) (rid : Rid) :
    tupleSetValue ⟨done ++ old :: rest, rid⟩ done.length v = ⟨(done ++ [v]) ++ rest, rid⟩ := by
  simp [tupleSetValue, List.set_append_right]

/-- The loop over the fixed-length fields sets the values it reads. -/
theorem deserializeFixed_fold {row : List UInt8} {area : Nat} {columns : List ColumnDef}
    (done : List (Value Double)) (rid : Rid)
    (reads : ∀ entry ∈ columns.zipIdx done.length, ∀ read : Tuple Double,
      read.values[entry.2]? = some .null → deserializeFixed row area read entry =
        if entry.1.type = .varchar then .ok read
        else storedAs entry.1.type (valueAt tuple entry.2) >>= fun v =>
          .ok (tupleSetValue read entry.2 v)) :
    (columns.zipIdx done.length).foldlM (deserializeFixed row area)
        ⟨done ++ List.replicate columns.length .null, rid⟩ =
      ((columns.zipIdx done.length).mapM fun entry =>
          fixedAs entry.1.type (valueAt tuple entry.2)) >>= fun values =>
        .ok ⟨done ++ values, rid⟩ := by
  induction columns generalizing done with
  | nil => rfl
  | cons col rest ih =>
      rw [List.zipIdx_cons, List.foldlM_cons, List.mapM_cons, reads _ (by simp) _ (by simp), fixedAs]
      dsimp only
      have next : ∀ v : Value Double,
          (rest.zipIdx (done.length + 1)).foldlM (deserializeFixed row area)
              ⟨(done ++ [v]) ++ List.replicate rest.length .null, rid⟩ =
            ((rest.zipIdx (done.length + 1)).mapM fun entry =>
                fixedAs entry.1.type (valueAt tuple entry.2)) >>= fun values =>
              .ok ⟨(done ++ [v]) ++ values, rid⟩ := by
        intro v
        have length : (done ++ [v]).length = done.length + 1 := by simp
        have tail := ih (done ++ [v]) (fun entry member read =>
          reads entry (by rw [List.zipIdx_cons]; exact List.mem_cons_of_mem _ (length ▸ member)) read)
        rwa [length] at tail
      rw [List.length_cons, List.replicate_succ]
      by_cases varchar : col.type = .varchar
      · have first : done ++ Value.null :: List.replicate rest.length Value.null =
            (done ++ [.null]) ++ List.replicate rest.length .null := by simp
        rw [if_pos varchar, if_pos varchar, ok_bind, ok_bind, first, next, bind_assoc]
        refine bind_congr fun values => ?_
        simp [pure_bind]
      · rw [if_neg varchar, if_neg varchar, bind_assoc, bind_assoc]
        refine bind_congr fun v => ?_
        rw [ok_bind, tupleSetValue_next, next, bind_assoc]
        refine bind_congr fun values => ?_
        simp [pure_bind]

/-- A computation that has a value, among those that may return an error code. -/
theorem liftM_ok {α : Type} (value : α) :
    (liftM (Except.ok value : Except Fault α) : Checked α) = pure value := rfl

omit [Platform Double] in
/-- One string read. -/
theorem deserializeVarchar_step {row rest : List UInt8} {offset : Nat} {entry : ColumnDef × Nat}
    (read : Tuple Double) (varchar : entry.1.type = .varchar)
    (null : readNullBit row entry.2 = .ok (valueAt tuple entry.2).isNull)
    (at_ : row.drop offset =
      littleEndian 4 (stringPart (valueAt tuple entry.2)).length ++
        (stringPart (valueAt tuple entry.2) ++ rest))
    (short : row.length < 4294967296) :
    deserializeVarchar row (read, offset) entry =
      pure (tupleSetValue read entry.2 (stringAs (valueAt tuple entry.2)),
        offset + (4 + (stringPart (valueAt tuple entry.2)).length)) := by
  have small := stringPart_length (valueAt tuple entry.2)
  have length := congrArg List.length at_
  rw [List.length_drop, List.length_append, littleEndian_length, List.length_append] at length
  have prefixRead : readRow row offset 4 =
      .ok (littleEndian 4 (stringPart (valueAt tuple entry.2)).length) := by
    rw [readRow, if_pos (by omega), at_, List.take_left' (littleEndian_length _ _)]
  have stringRead : readRow row (offset + 4) (stringPart (valueAt tuple entry.2)).length =
      .ok (stringPart (valueAt tuple entry.2)) := by
    rw [readRow, if_pos (by omega), ← List.drop_drop, at_, List.drop_left' (littleEndian_length _ _),
      List.take_left]
  have decoded : ofLittleEndian (littleEndian 4 (stringPart (valueAt tuple entry.2)).length) =
      (stringPart (valueAt tuple entry.2)).length := by
    rw [ofLittleEndian_littleEndian]
    exact Nat.mod_eq_of_lt small
  rw [deserializeVarchar, if_neg (not_not.mpr varchar)]
  dsimp only
  rw [null]
  have inside : ¬offset + 4 > row.length := by omega
  simp only [liftM_ok, pure_bind]
  rw [if_neg inside]
  rw [prefixRead]
  simp only [liftM_ok, pure_bind, decoded]
  by_cases isNull : (valueAt tuple entry.2).isNull
  · have empty : stringPart (valueAt tuple entry.2) = [] := by
      cases value : valueAt tuple entry.2 <;> simp [value, Value.isNull] at isNull ⊢
      rfl
    rw [if_pos isNull, stringAs, if_pos isNull, empty, List.length_nil, Nat.add_zero,
      Nat.mod_eq_of_lt (by omega)]
  · rw [if_neg isNull, stringAs, if_neg isNull, ← Nat.add_assoc]
    by_cases some : (stringPart (valueAt tuple entry.2)).length > 0
    · rw [if_pos some, Nat.mod_eq_of_lt (by omega), if_neg (by omega), stringRead]
      rfl
    · have empty : stringPart (valueAt tuple entry.2) = [] :=
        List.length_eq_zero_iff.mp (Nat.eq_zero_of_not_pos some)
      rw [if_neg some, empty]
      rfl

/-- The values with those of the `VARCHAR` columns read. -/
def withStrings (tuple : Tuple Double) (entries : List (ColumnDef × Nat))
    (values : List (Value Double)) : List (Value Double) :=
  entries.zipWith (fun entry v =>
    if entry.1.type = .varchar then stringAs (valueAt tuple entry.2) else v) values

omit [Platform Double] in
/-- The loop over the strings sets the values of their columns. -/
theorem deserializeVarchar_fold {row : List UInt8} {columns : List ColumnDef}
    (done values : List (Value Double)) (rid : Rid) {offset : Nat}
    (length : values.length = columns.length)
    (nulls : ∀ entry ∈ columns.zipIdx done.length,
      readNullBit row entry.2 = .ok (valueAt tuple entry.2).isNull)
    (at_ : row.drop offset = varcharArea tuple (columns.zipIdx done.length))
    (short : (∃ col ∈ columns, col.type = .varchar) → row.length < 4294967296) :
    ∃ finish, (columns.zipIdx done.length).foldlM (deserializeVarchar row)
        (⟨done ++ values, rid⟩, offset) =
      (pure (⟨done ++ withStrings tuple (columns.zipIdx done.length) values, rid⟩, finish) :
        Checked (Tuple Double × Nat)) := by
  induction columns generalizing done values offset with
  | nil =>
      rw [List.length_nil, List.length_eq_zero_iff] at length
      exact ⟨offset, by rw [length]; rfl⟩
  | cons col rest ih =>
      obtain _ | ⟨old, values⟩ := values
      · exact absurd length (by simp)
      · rw [List.zipIdx_cons, varcharArea_cons] at at_
        rw [List.zipIdx_cons] at nulls ⊢
        rw [List.foldlM_cons, withStrings, List.zipWith_cons_cons]
        have next : ∀ (v : Value Double) (offset : Nat),
            row.drop offset = varcharArea tuple (rest.zipIdx (done.length + 1)) →
            ∃ finish, (rest.zipIdx (done.length + 1)).foldlM (deserializeVarchar row)
                (⟨(done ++ [v]) ++ values, rid⟩, offset) =
              (pure (⟨(done ++ [v]) ++ withStrings tuple (rest.zipIdx (done.length + 1)) values, rid⟩,
                finish) : Checked (Tuple Double × Nat)) := by
          intro v offset at_
          have width : (done ++ [v]).length = done.length + 1 := by simp
          have tail := @ih (done ++ [v]) values offset (by simpa using length)
          rw [width] at tail
          exact tail (fun entry member => nulls entry (List.mem_cons_of_mem _ member)) at_
            fun ⟨other, member, isVarchar⟩ => short ⟨other, List.mem_cons_of_mem _ member, isVarchar⟩
        by_cases varchar : col.type = .varchar
        · have here : varcharArea tuple [(col, done.length)] =
              littleEndian 4 (stringPart (valueAt tuple done.length)).length ++
                stringPart (valueAt tuple done.length) := by
            simp [varcharArea, varchar]
          rw [here, List.append_assoc] at at_
          have null := nulls (col, done.length) List.mem_cons_self
          have behind : row.drop (offset + (4 + (stringPart (valueAt tuple done.length)).length)) =
              varcharArea tuple (rest.zipIdx (done.length + 1)) := by
            rw [← List.drop_drop, at_, ← List.drop_drop, List.drop_left' (littleEndian_length _ _),
              List.drop_left]
          obtain ⟨finish, ran⟩ := next (stringAs (valueAt tuple done.length)) _ behind
          refine ⟨finish, ?_⟩
          rw [deserializeVarchar_step _ varchar null at_ (short ⟨col, List.mem_cons_self, varchar⟩),
            pure_bind, tupleSetValue_next, ran, if_pos varchar]
          simp [withStrings]
        · have none : varcharArea tuple [(col, done.length)] = [] := by simp [varcharArea, varchar]
          rw [none, List.nil_append] at at_
          obtain ⟨finish, ran⟩ := next old offset at_
          refine ⟨finish, ?_⟩
          have same : deserializeVarchar row (⟨done ++ old :: values, rid⟩, offset)
              (col, done.length) = pure (⟨(done ++ [old]) ++ values, rid⟩, offset) := by
            rw [deserializeVarchar, if_pos varchar, List.append_assoc]
            rfl
          rw [same, pure_bind, ran, if_neg varchar]
          simp [withStrings]

theorem storedAs_varchar (v : Value Double) : storedAs .varchar v = .ok (stringAs v) := by
  cases v <;> rfl

/-- Reading the fixed-length fields and then the strings reads all columns. -/
theorem fixedAs_withStrings (entries : List (ColumnDef × Nat)) :
    ((entries.mapM fun entry => fixedAs entry.1.type (valueAt tuple entry.2)) >>= fun values =>
        .ok (withStrings tuple entries values)) =
      (entries.mapM fun entry => storedAs entry.1.type (valueAt tuple entry.2) :
        Except Fault (List (Value Double))) := by
  induction entries with
  | nil => rfl
  | cons entry rest ih =>
      rw [List.mapM_cons, List.mapM_cons, ← ih, fixedAs]
      by_cases varchar : entry.1.type = .varchar
      · rw [if_pos varchar, varchar, storedAs_varchar, ok_bind, ok_bind, bind_assoc, bind_assoc]
        refine bind_congr fun values => ?_
        simp [withStrings, pure_bind, varchar]
      · rw [if_neg varchar, bind_assoc]
        refine bind_congr fun v => ?_
        rw [bind_assoc, bind_assoc]
        refine bind_congr fun values => ?_
        simp [withStrings, pure_bind, varchar]

/-- What is read of a serialized tuple. -/
theorem tupleDeserialize_row (laid : SchemaLaid schema) (written : Serialized tuple schema bytes)
    (short : (∃ col ∈ schema.columns, col.type = .varchar) →
      rowSize tuple schema < 4294967296) :
    (tupleDeserialize schema (bytes.read 0 (rowSize tuple schema)) : Checked (Tuple Double)).run =
      (schema.indexed.mapM fun entry => storedAs entry.1.type (valueAt tuple entry.2)) >>=
        fun values => .ok (.ok ⟨values, invalidRid⟩) := by
  have positive : schema.numColumns ≠ 0 := fun none =>
    laid.nonempty (List.length_eq_zero_iff.mp none)
  have fixed := @deserializeFixed_fold _ _ tuple (bytes.read 0 (rowSize tuple schema))
    schema.nullBitmapSize schema.columns [] invalidRid
    (fun entry member read unread => deserializeFixed_row laid written member unread)
  have indexed : schema.columns.zipIdx ([] : List (Value Double)).length = schema.indexed := rfl
  rw [indexed] at fixed
  rw [← fixedAs_withStrings, bind_assoc, tupleDeserialize, tupleCreate, if_neg positive]
  show ((liftM (schema.indexed.foldlM
      (deserializeFixed (bytes.read 0 (rowSize tuple schema)) schema.nullBitmapSize)
      ⟨[] ++ List.replicate schema.columns.length .null, invalidRid⟩) : Checked (Tuple Double)) >>=
    fun read => _).run = _
  rw [fixed]
  cases read : (schema.indexed.mapM fun entry => fixedAs entry.1.type (valueAt tuple entry.2) :
      Except Fault (List (Value Double))) with
  | error fault => rfl
  | ok values =>
      have length : values.length = schema.columns.length := by
        rw [length_of_mapM read, Schema.indexed, List.length_zipIdx]
      have offset : (bytes.read 0 (rowSize tuple schema)).drop
          (schema.nullBitmapSize + schema.fixedSize) = varcharArea tuple schema.indexed := by
        rw [rowSize, Block.read_add, List.drop_left' (Block.read_length _ _ _), Nat.zero_add,
          written.strings]
      obtain ⟨finish, strings⟩ := @deserializeVarchar_fold _ tuple
        (bytes.read 0 (rowSize tuple schema)) schema.columns [] values invalidRid _ length
        (fun entry member => readNullBit_row laid written
          (List.getElem?_eq_some_iff.mp (List.mk_mem_zipIdx_iff_getElem?.mp member)).1)
        offset (by rwa [Block.read_length])
      rw [indexed] at strings
      rw [ok_bind, ok_bind, liftM_ok, pure_bind, strings, pure_bind]
      rfl

/-! ## The types of what is read -/

omit [Platform Double] in
/-- Each value of a tuple is `NULL` or has the type of its column. -/
structure TypedAs (schema : Schema) (tuple : Tuple Double) : Prop where
  length : tuple.values.length = schema.columns.length
  typed : ∀ i col, schema.columns[i]? = some col →
    (valueAt tuple i).isNull ∨ (valueAt tuple i).type = col.type

omit [Platform Double] in
theorem TypedAs.set {read : Tuple Double} (typed : TypedAs schema read) {i : Nat} {col : ColumnDef}
    (present : schema.columns[i]? = some col) {v : Value Double} (fits : v.isNull ∨ v.type = col.type) :
    TypedAs schema (tupleSetValue read i v) := by
  refine ⟨by rw [tupleSetValue, List.length_set, typed.length], fun j other here => ?_⟩
  by_cases same : j = i
  · subst same
    have bound : j < read.values.length := by
      rw [typed.length]
      exact (List.getElem?_eq_some_iff.mp present).1
    rw [present, Option.some.injEq] at here
    rw [valueAt, tupleSetValue, List.getElem?_set_self bound, Option.getD_some, ← here]
    exact fits
  · rw [valueAt, tupleSetValue, List.getElem?_set_ne (Ne.symm same)]
    exact typed.typed j other here

theorem deserializeFixed_typed {row : List UInt8} {area : Nat} {entry : ColumnDef × Nat}
    (member : entry ∈ schema.indexed) {before after : Tuple Double} (typed : TypedAs schema before)
    (ran : deserializeFixed row area before entry = .ok after) : TypedAs schema after := by
  have present := List.mk_mem_zipIdx_iff_getElem?.mp member
  rw [deserializeFixed] at ran
  split at ran
  · exact Except.ok.inj ran ▸ typed
  · obtain ⟨null, -, ran⟩ := Returning.returned (m := Except Fault) ran
    split at ran
    · exact Except.ok.inj ran ▸ typed.set present (.inl rfl)
    · split at ran
      · exact Except.ok.inj ran ▸ typed
      · obtain ⟨bytes, -, ran⟩ := Returning.returned (m := Except Fault) ran
        split at ran
        · rename_i type
          exact Except.ok.inj ran ▸ typed.set present (.inr type.symm)
        · rename_i type
          exact Except.ok.inj ran ▸ typed.set present (.inr type.symm)
        · rename_i type
          split at ran
          · exact Except.ok.inj ran ▸ typed.set present (.inr type.symm)
          · exact Except.ok.inj ran ▸ typed.set present (.inr type.symm)
          · cases ran
        · exact Except.ok.inj ran ▸ typed

/-- A computation without error codes returns among those that have them. -/
theorem liftM_returned {α : Type} {call : Except Fault α} {value : α} :
    (liftM call : Checked α) = pure value ↔ call = .ok value := by
  cases call with
  | error fault =>
      constructor
      · intro ran
        cases ran
      · intro ran
        cases ran
  | ok other =>
      constructor
      · intro ran
        exact congrArg Except.ok (Returning.pure_inj (m := Checked) ran)
      · rintro ⟨rfl⟩
        rfl

/-- What `deserializeVarchar` has done for a column. -/
inductive StringRead (row : List UInt8) (before : Tuple Double × Nat) (entry : ColumnDef × Nat) :
    Tuple Double × Nat → Prop where
  | skipped (other : entry.1.type ≠ .varchar) : StringRead row before entry before
  | null {size : List UInt8} (varchar : entry.1.type = .varchar)
      (null : readNullBit row entry.2 = .ok true) (length : readRow row before.2 4 = .ok size) :
      StringRead row before entry (tupleSetValue before.1 entry.2 .null,
        (before.2 + 4 + ofLittleEndian size) % 4294967296)
  | string {size string : List UInt8} (varchar : entry.1.type = .varchar)
      (full : readNullBit row entry.2 = .ok false) (length : readRow row before.2 4 = .ok size)
      (read : readRow row (before.2 + 4) (ofLittleEndian size) = .ok string) :
      StringRead row before entry
        (tupleSetValue before.1 entry.2 (.varchar (CString.ofBytes string)),
          before.2 + 4 + ofLittleEndian size)

theorem readRow_inside {row bytes : List UInt8} {offset count : Nat}
    (ran : readRow row offset count = .ok bytes) :
    offset + count ≤ row.length ∧ bytes = (row.drop offset).take count := by
  rw [readRow] at ran
  split at ran
  · rename_i inside
    exact ⟨inside, (Except.ok.inj ran).symm⟩
  · cases ran

omit [Platform Double] in
theorem deserializeVarchar_iff {row : List UInt8} {entry : ColumnDef × Nat}
    {before after : Tuple Double × Nat} :
    deserializeVarchar row before entry = pure after ↔ StringRead row before entry after := by
  constructor
  · intro ran
    rw [deserializeVarchar] at ran
    by_cases varchar : entry.1.type = .varchar
    · rw [if_neg (not_not.mpr varchar)] at ran
      obtain ⟨isNull, null, ran⟩ := Returning.returned ran
      rw [liftM_returned] at null
      dsimp only at ran
      by_cases short : before.2 + 4 > row.length
      · rw [if_pos short] at ran
        cases ran
      · rw [if_neg short] at ran
        obtain ⟨size, length, ran⟩ := Returning.returned ran
        rw [liftM_returned] at length
        cases isNull with
        | true => exact Returning.pure_inj (m := Checked) ran ▸ .null varchar null length
        | false =>
            rw [if_neg (by decide)] at ran
            by_cases some : ofLittleEndian size > 0
            · rw [if_pos some] at ran
              split at ran
              · cases ran
              · obtain ⟨string, read, ran⟩ := Returning.returned ran
                rw [liftM_returned] at read
                exact Returning.pure_inj (m := Checked) ran ▸ .string varchar null length read
            · rw [if_neg some] at ran
              have zero : ofLittleEndian size = 0 := by omega
              have read : readRow row (before.2 + 4) (ofLittleEndian size) = .ok [] := by
                rw [readRow, if_pos (by omega), zero, List.take_zero]
              have string := StringRead.string varchar null length read
              rw [zero] at string
              exact Returning.pure_inj (m := Checked) ran ▸ string
    · rw [if_pos varchar] at ran
      exact Returning.pure_inj (m := Checked) ran ▸ .skipped varchar
  · intro read
    rw [deserializeVarchar]
    cases read with
    | skipped other => rw [if_pos other]
    | null varchar null length =>
        have inside := (readRow_inside length).1
        rw [if_neg (not_not.mpr varchar), null, liftM_ok, pure_bind]
        dsimp only
        rw [if_neg (by omega), length, liftM_ok, pure_bind]
        rfl
    | @string size string varchar full length read =>
        have inside := (readRow_inside length).1
        obtain ⟨fits, bytes⟩ := readRow_inside read
        rw [if_neg (not_not.mpr varchar), full, liftM_ok, pure_bind]
        dsimp only
        rw [if_neg (by omega), length, liftM_ok, pure_bind, if_neg (by decide)]
        by_cases some : ofLittleEndian size > 0
        · have wrapped := Nat.mod_le (before.2 + 4 + ofLittleEndian size) 4294967296
          rw [if_pos some, if_neg (by omega), read, liftM_ok, pure_bind]
        · have zero : ofLittleEndian size = 0 := by omega
          rw [if_neg some, bytes, zero, List.take_zero]
          rfl

omit [Platform Double] in
theorem deserializeVarchar_typed {row : List UInt8} {entry : ColumnDef × Nat}
    (member : entry ∈ schema.indexed) {before after : Tuple Double × Nat}
    (typed : TypedAs schema before.1) (ran : deserializeVarchar row before entry = pure after) :
    TypedAs schema after.1 := by
  have present := List.mk_mem_zipIdx_iff_getElem?.mp member
  cases deserializeVarchar_iff.mp ran with
  | skipped other => exact typed
  | null varchar null length => exact typed.set present (.inl rfl)
  | string varchar full length read => exact typed.set present (.inr varchar.symm)

/-- What is read of a row has the types of the columns. -/
theorem tupleDeserialize_typed {row : List UInt8} {read : Tuple Double}
    (ran : tupleDeserialize schema row = pure read) : TypedAs schema read := by
  rw [tupleDeserialize, tupleCreate] at ran
  by_cases none : schema.numColumns = 0
  · rw [if_pos none] at ran
    cases ran
  · rw [if_neg none] at ran
    obtain ⟨start, created, ran⟩ := Returning.returned ran
    obtain ⟨fixed, ranFixed, ran⟩ := Returning.returned ran
    obtain ⟨⟨strings, finish⟩, ranStrings, ran⟩ := Returning.returned ran
    have empty : TypedAs schema start := by
      rw [← Returning.pure_inj (m := Checked) created]
      refine ⟨List.length_replicate, fun i col present => .inl ?_⟩
      have bound := (List.getElem?_eq_some_iff.mp present).1
      rw [valueAt, List.getElem?_replicate_of_lt bound]
      rfl
    have fixedTyped : TypedAs schema fixed := by
      rw [liftM_returned] at ranFixed
      exact foldlM_keeps (m := Except Fault) ranFixed
        (fun entry member before after => deserializeFixed_typed member) empty
    have stringsTyped := @foldlM_keeps _ _ _ _ _ (fun state => TypedAs schema state.1) _ _ _ _ ranStrings
      (fun entry member before after => deserializeVarchar_typed member) fixedTyped
    rw [← Returning.pure_inj (m := Checked) ran]
    exact stringsTyped

/-- A value of the type of its column is stored so that it can be read. -/
theorem storedAs_typed {type : TypeId} {v : Value Double} (typed : v.isNull ∨ v.type = type) :
    ∃ read, storedAs type v = .ok read := by
  rcases typed with null | rfl
  · exact ⟨.null, storedAs_null null⟩
  · cases v with
    | boolean b => cases b <;> exact ⟨_, rfl⟩
    | _ => exact ⟨_, rfl⟩

/-! ## Rows that are cut -/

/-- What can be read of the front of a row can be read of the row. -/
theorem readRow_take {row bytes : List UInt8} {size offset count : Nat}
    (ran : readRow (row.take size) offset count = .ok bytes) :
    readRow row offset count = .ok bytes := by
  rw [readRow, List.length_take] at ran
  split at ran
  · rename_i inside
    rw [readRow, if_pos (by omega), ← Except.ok.inj ran, List.drop_take, List.take_take,
      Nat.min_eq_left (by omega)]
  · cases ran

theorem readNullBit_take {row : List UInt8} {size colIdx : Nat} {null : Bool}
    (ran : readNullBit (row.take size) colIdx = .ok null) : readNullBit row colIdx = .ok null := by
  rw [readNullBit] at ran ⊢
  obtain ⟨byte, here, ran⟩ := Returning.returned (m := Except Fault) ran
  rw [readRow_take here]
  exact ran

theorem deserializeFixed_take {row : List UInt8} {size area : Nat} {entry : ColumnDef × Nat}
    {before after : Tuple Double}
    (ran : deserializeFixed (row.take size) area before entry = .ok after) :
    deserializeFixed row area before entry = .ok after := by
  rw [deserializeFixed] at ran ⊢
  by_cases varchar : entry.1.type = .varchar
  · rw [if_pos varchar] at ran ⊢
    exact ran
  · rw [if_neg varchar] at ran ⊢
    obtain ⟨null, nullRan, ran⟩ := Returning.returned (m := Except Fault) ran
    rw [readNullBit_take nullRan, ok_bind]
    by_cases isNull : null
    · rw [if_pos isNull] at ran ⊢
      exact ran
    · rw [if_neg isNull] at ran ⊢
      by_cases untyped : entry.1.type = .null
      · rw [if_pos untyped] at ran ⊢
        exact ran
      · rw [if_neg untyped] at ran ⊢
        obtain ⟨bytes, read, ran⟩ := Returning.returned (m := Except Fault) ran
        rw [readRow_take read]
        exact ran

omit [Platform Double] in
theorem deserializeVarchar_take {row : List UInt8} {size : Nat} {entry : ColumnDef × Nat}
    {before after : Tuple Double × Nat}
    (ran : deserializeVarchar (row.take size) before entry = pure after) :
    deserializeVarchar row before entry = pure after := by
  rw [deserializeVarchar_iff] at ran ⊢
  cases ran with
  | skipped other => exact .skipped other
  | null varchar null length => exact .null varchar (readNullBit_take null) (readRow_take length)
  | string varchar full length read =>
      exact .string varchar (readNullBit_take full) (readRow_take length) (readRow_take read)

/-- A row that is cut and can still be read gives what the whole row gives. -/
theorem tupleDeserialize_take {row : List UInt8} {size : Nat} {read : Tuple Double}
    (ran : tupleDeserialize schema (row.take size) = pure read) :
    tupleDeserialize schema row = pure read := by
  rw [tupleDeserialize] at ran ⊢
  obtain ⟨start, created, ran⟩ := Returning.returned ran
  obtain ⟨fixed, ranFixed, ran⟩ := Returning.returned ran
  obtain ⟨strings, ranStrings, ran⟩ := Returning.returned ran
  rw [liftM_returned] at ranFixed
  have fixedWhole : schema.indexed.foldlM (deserializeFixed row schema.nullBitmapSize) start =
      .ok fixed :=
    foldlM_returns (m := Except Fault) ranFixed fun entry member before after =>
      deserializeFixed_take
  have stringsWhole := foldlM_returns ranStrings fun entry member before after =>
    deserializeVarchar_take
  rw [created, pure_bind]
  dsimp only
  rw [fixedWhole, liftM_ok, pure_bind, stringsWhole, pure_bind]
  exact ran

end MiniSqlite.Storage
