import MiniSqlite.Common.Config
import MiniSqlite.Storage.Schema

/-!
# Tuples

`storage/tuple.c`: a tuple and its serialized form, a bitmap of the `NULL`
columns, the fixed-length fields and the strings with their lengths. What is
written outside the buffer given, or read outside the row, is `outOfBounds`.
-/

namespace MiniSqlite.Storage

open MiniSqlite.Common MiniSqlite.Std

variable {Double : Type}

/-- `tuple_t`. -/
structure Tuple (Double : Type) where
  values : List (Value Double)
  rid : Rid
  deriving DecidableEq

/-- `INVALID_RID`. -/
def invalidRid : Rid := ⟨invalidPageId, invalidSlotId⟩

/-- `tuple_create`. -/
def tupleCreate (numValues : Nat) : Except ErrorCode (Tuple Double) :=
  if numValues = 0 then .error .invalidArgument
  else .ok ⟨List.replicate numValues .null, invalidRid⟩

/-- `tuple_set_value`; no caller looks at what it returns. -/
def tupleSetValue (tuple : Tuple Double) (colIdx : Nat) (val : Value Double) : Tuple Double :=
  { tuple with values := tuple.values.set colIdx val }

/-- `tuple_get_value`, with `none` for `NULL`. -/
def tupleGetValue (tuple : Tuple Double) (colIdx : Nat) : Option (Value Double) :=
  tuple.values[colIdx]?

/-- `is_column_null`. -/
def isColumnNull (tuple : Tuple Double) (colIdx : Nat) : Bool :=
  match tuple.values[colIdx]? with
  | some val => val.isNull
  | none => true

/-- The columns with their indices. -/
def Schema.indexed (schema : Schema) : List (ColumnDef × Nat) := schema.columns.zipIdx

/-! ## Serialization -/

/-- A buffer of `size` bytes. -/
structure Buffer where
  bytes : Block
  size : Nat

/-- `memcpy` into a buffer. -/
def Buffer.store (buf : Buffer) (offset : Nat) (data : List UInt8) : Except Fault Buffer :=
  if offset + data.length ≤ buf.size then .ok { buf with bytes := buf.bytes.write offset data }
  else .error .outOfBounds

/-- Sets the bit of a `NULL` column in the bitmap. -/
def setNullBit (tuple : Tuple Double) (buf : Buffer) (entry : ColumnDef × Nat) :
    Except Fault Buffer :=
  if isColumnNull tuple entry.2 then
    buf.store (entry.2 / 8) [buf.bytes (entry.2 / 8) ||| 1 <<< UInt8.ofNat (entry.2 % 8)]
  else .ok buf

section Serialize

variable [Platform Double]

/-- The eight bytes of `v->val`, whatever the tag. -/
def valueBytes : Value Double → List UInt8
  | .integer i => Scalar.i64.encode i
  | .float d => littleEndian 8 (Platform.bits d).toNat
  | .boolean b =>
      (if b then 1 else 0) :: (Platform.uninitialized Double).read 1 7
  | .varchar s => littleEndian 8 (Platform.address Double s).toNat
  | .null => littleEndian 8 0

/-- Stores a fixed-length field; `area` is where these fields begin. -/
def serializeFixed (tuple : Tuple Double) (area : Nat) (buf : Buffer)
    (entry : ColumnDef × Nat) : Except Fault Buffer :=
  match tuple.values[entry.2]? with
  | none | some .null => .ok buf
  | some v =>
      buf.store (area + entry.1.fixedOffset)
        ((valueBytes v).take (schemaColumnFixedSize entry.1.type))

/-- The string stored for a variable-length column: empty for a value of another type. -/
def varcharOf (tuple : Tuple Double) (colIdx : Nat) : List UInt8 :=
  match tuple.values[colIdx]? with
  | some (.varchar s) => s.chars
  | _ => []

omit [Platform Double] in
/-- `tuple_serialized_size`. -/
def tupleSerializedSize (tuple : Tuple Double) (schema : Schema) : Nat :=
  schema.indexed.foldl
    (fun size entry =>
      if entry.1.type = .varchar then
        if isColumnNull tuple entry.2 then (size + 4) % 4294967296
        else (size + 4 + (varcharOf tuple entry.2).length % 4294967296) % 4294967296
      else size)
    ((schema.nullBitmapSize + schema.fixedSize) % 4294967296)

omit [Platform Double] in
/-- Stores a variable-length field at `offset` and moves behind it. -/
def serializeVarchar (tuple : Tuple Double) (state : Buffer × Nat) (entry : ColumnDef × Nat) :
    Except Fault (Buffer × Nat) :=
  if entry.1.type ≠ .varchar then .ok state
  else do
    let string := varcharOf tuple entry.2
    let strLen := string.length % 4294967296
    let buf ← state.1.store state.2 (littleEndian 4 strLen)
    let buf ← buf.store (state.2 + 4) (string.take strLen)
    return (buf, state.2 + 4 + strLen)

/-- `tuple_serialize`: the bytes it has written, holes included. -/
def tupleSerialize (tuple : Tuple Double) (schema : Schema) (buf : Buffer) :
    Except Fault (List UInt8) := do
  let bitmapSize := schema.nullBitmapSize
  let buf ← buf.store 0 (List.replicate bitmapSize 0)
  let buf ← schema.indexed.foldlM (setNullBit tuple) buf
  let buf ← schema.indexed.foldlM (serializeFixed tuple bitmapSize) buf
  let (buf, offset) ←
    schema.indexed.foldlM (serializeVarchar tuple) (buf, bitmapSize + schema.fixedSize)
  return buf.bytes.read 0 offset

end Serialize

/-! ## Deserialization -/

/-- `memcpy` of `count` bytes out of a row. -/
def readRow (row : List UInt8) (offset count : Nat) : Except Fault (List UInt8) :=
  if offset + count ≤ row.length then .ok ((row.drop offset).take count) else .error .outOfBounds

/-- `bitmap[i / 8] & (1 << (i % 8))`. -/
def readNullBit (row : List UInt8) (colIdx : Nat) : Except Fault Bool := do
  let byte ← readRow row (colIdx / 8) 1
  return byte.headD 0 &&& 1 <<< UInt8.ofNat (colIdx % 8) != 0

/-- Reads a fixed-length field. -/
def deserializeFixed [Platform Double] (row : List UInt8) (area : Nat) (tuple : Tuple Double)
    (entry : ColumnDef × Nat) : Except Fault (Tuple Double) := do
  if entry.1.type = .varchar then return tuple
  if ← readNullBit row entry.2 then return tupleSetValue tuple entry.2 .null
  if entry.1.type = .null then return tuple
  let bytes ← readRow row (area + entry.1.fixedOffset) (schemaColumnFixedSize entry.1.type)
  match entry.1.type with
  | .integer =>
      return tupleSetValue tuple entry.2 (.integer (Scalar.i64.decode bytes))
  | .float =>
      return tupleSetValue tuple entry.2
        (.float (Platform.ofBits (UInt64.ofNat (ofLittleEndian bytes))))
  | .boolean =>
      match bytes with
      | [0] => return tupleSetValue tuple entry.2 (.boolean false)
      | [1] => return tupleSetValue tuple entry.2 (.boolean true)
      -- no other byte represents a `bool`
      | _ => .error .indeterminate
  | _ => return tuple

/-- Reads a variable-length field at `offset` and moves behind it. The sum that
is checked against the size of the row is a `uint32_t`. -/
def deserializeVarchar (row : List UInt8) (state : Tuple Double × Nat)
    (entry : ColumnDef × Nat) : Checked (Tuple Double × Nat) := do
  if entry.1.type ≠ .varchar then return state
  let isNull ← readNullBit row entry.2
  if state.2 + 4 > row.length then throw .ioError
  let strLen := ofLittleEndian (← readRow row state.2 4)
  let offset := state.2 + 4
  if isNull then return (tupleSetValue state.1 entry.2 .null, (offset + strLen) % 4294967296)
  if strLen > 0 then
    if (offset + strLen) % 4294967296 > row.length then throw .ioError
    let string ← readRow row offset strLen
    return (tupleSetValue state.1 entry.2 (.varchar (CString.ofBytes string)), offset + strLen)
  else return (tupleSetValue state.1 entry.2 (.varchar CString.empty), offset)

/-- `tuple_deserialize`. -/
def tupleDeserialize [Platform Double] (schema : Schema) (row : List UInt8) :
    Checked (Tuple Double) := do
  let tuple ← ExceptT.mk (.ok (tupleCreate schema.numColumns))
  let bitmapSize := schema.nullBitmapSize
  let tuple ← (schema.indexed.foldlM (deserializeFixed row bitmapSize) tuple : Except Fault _)
  let (tuple, _) ←
    schema.indexed.foldlM (deserializeVarchar row) (tuple, bitmapSize + schema.fixedSize)
  return tuple

end MiniSqlite.Storage
