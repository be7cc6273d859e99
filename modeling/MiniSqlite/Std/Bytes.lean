import Mathlib.Tactic.Ring

/-!
# Blocks of bytes

A block of memory is the function from offsets to bytes. `write` is `memcpy`
into the block, `move` is `memmove` inside it, and a `Scalar` is a fixed-width
little-endian integer type stored in a block. The lemmas say what a read sees
after a write: the written value, the moved value, or, away from the written
range, what was there before.
-/

namespace MiniSqlite.Std

/-- Memory from some address on. -/
abbrev Block := Nat → UInt8

namespace Block

/-- The `count` bytes at `offset`. -/
def read (block : Block) (offset count : Nat) : List UInt8 :=
  (List.range count).map fun i => block (offset + i)

/-- `memcpy` of `data` to `offset`. -/
def write (block : Block) (offset : Nat) (data : List UInt8) : Block :=
  fun i => if offset ≤ i ∧ i < offset + data.length then data.getD (i - offset) 0 else block i

/-- `memmove` of `count` bytes from `source` to `target`. -/
def move (block : Block) (target source count : Nat) : Block :=
  block.write target (block.read source count)

/-- `memset` of `count` bytes at `offset`. -/
def fill (block : Block) (offset : Nat) (value : UInt8) (count : Nat) : Block :=
  block.write offset (List.replicate count value)

@[simp] theorem read_length (block : Block) (offset count : Nat) :
    (block.read offset count).length = count := by
  simp [read]

@[simp] theorem read_zero (block : Block) (offset : Nat) : block.read offset 0 = [] := rfl

theorem getElem_read (block : Block) (offset count i : Nat)
    (bound : i < (block.read offset count).length) :
    (block.read offset count)[i] = block (offset + i) := by
  simp [read]

theorem read_congr {first second : Block} {offset count other : Nat}
    (same : ∀ i, i < count → first (offset + i) = second (other + i)) :
    first.read offset count = second.read other count :=
  List.map_congr_left fun i member => same i (List.mem_range.mp member)

/-- A read is one of its first bytes and one of the others. -/
theorem read_add (block : Block) (offset first second : Nat) :
    block.read offset (first + second) =
      block.read offset first ++ block.read (offset + first) second := by
  simp only [read, List.range_add, List.map_append, List.map_map, Function.comp_def, Nat.add_assoc]

/-- A part of what is read is what is read of that part. -/
theorem take_drop_read (block : Block) {offset total skip count : Nat}
    (inside : skip + count ≤ total) :
    ((block.read offset total).drop skip).take count = block.read (offset + skip) count := by
  apply List.ext_getElem
  · simp
    omega
  · intro i left right
    rw [List.getElem_take, List.getElem_drop, getElem_read, getElem_read, Nat.add_assoc]

theorem write_apply_inside (block : Block) {offset i : Nat} {data : List UInt8}
    (inside : i < data.length) : block.write offset data (offset + i) = data[i] := by
  unfold write
  rw [if_pos ⟨Nat.le_add_right _ _, by omega⟩, Nat.add_sub_cancel_left]
  simp [List.getD_eq_getElem?_getD, inside]

theorem write_apply_outside (block : Block) {offset i : Nat} {data : List UInt8}
    (outside : i < offset ∨ offset + data.length ≤ i) : block.write offset data i = block i := by
  unfold write
  rw [if_neg (by omega)]

@[simp] theorem write_nil (block : Block) (offset : Nat) : block.write offset [] = block := by
  funext i
  exact write_apply_outside block (by simp; omega)

/-- Reading back what was written. -/
@[simp] theorem read_write_same (block : Block) (offset : Nat) (data : List UInt8) :
    (block.write offset data).read offset data.length = data := by
  apply List.ext_getElem (by simp)
  intro i left right
  rw [getElem_read]
  exact write_apply_inside block right

/-- A read away from the written range is unchanged. -/
theorem read_write_of_disjoint (block : Block) {offset other count : Nat} {data : List UInt8}
    (disjoint : offset + data.length ≤ other ∨ other + count ≤ offset) :
    (block.write offset data).read other count = block.read other count :=
  read_congr fun i bound => write_apply_outside block (by omega)

theorem move_apply_inside (block : Block) {target source count i : Nat} (inside : i < count) :
    block.move target source count (target + i) = block (source + i) := by
  unfold move
  rw [write_apply_inside block (by simpa using inside)]
  simp [read]

/-- A read inside the target of a move sees the source. -/
theorem read_move_inside (block : Block) {target source count offset length : Nat}
    (low : target ≤ offset) (high : offset + length ≤ target + count) :
    (block.move target source count).read offset length =
      block.read (source + (offset - target)) length := by
  apply read_congr
  intro i bound
  have at_ : offset + i = target + (offset - target + i) := by omega
  rw [at_, move_apply_inside block (by omega), Nat.add_assoc]

/-- A read away from the target of a move is unchanged. -/
theorem read_move_of_disjoint (block : Block) {target source count offset length : Nat}
    (disjoint : target + count ≤ offset ∨ offset + length ≤ target) :
    (block.move target source count).read offset length = block.read offset length :=
  read_write_of_disjoint block (by simpa using disjoint)

theorem fill_apply_inside (block : Block) {offset i count : Nat} {value : UInt8}
    (inside : i < count) : block.fill offset value count (offset + i) = value := by
  unfold fill
  rw [write_apply_inside block (by simpa using inside)]
  simp

end Block

/-! ## Little-endian integers -/

/-- The `count` low bytes of `value`, lowest first. -/
def littleEndian : (count : Nat) → (value : Nat) → List UInt8
  | 0, _ => []
  | count + 1, value => UInt8.ofNat value :: littleEndian count (value / 256)

/-- The number whose bytes, lowest first, are given. -/
def ofLittleEndian : List UInt8 → Nat
  | [] => 0
  | byte :: rest => byte.toNat + 256 * ofLittleEndian rest

@[simp] theorem littleEndian_length (count value : Nat) :
    (littleEndian count value).length = count := by
  induction count generalizing value with
  | zero => rfl
  | succ count ih => simp [littleEndian, ih]

theorem ofLittleEndian_littleEndian (count value : Nat) :
    ofLittleEndian (littleEndian count value) = value % 256 ^ count := by
  induction count generalizing value with
  | zero => simp [littleEndian, ofLittleEndian, Nat.mod_one]
  | succ count ih =>
      have byte : (UInt8.ofNat value).toNat = value % 256 := by simp
      rw [littleEndian, ofLittleEndian, ih, byte, Nat.pow_succ', Nat.mod_mul]

/-- A fixed-width integer type as it lies in memory. -/
structure Scalar (α : Type) where
  width : Nat
  toNat : α → Nat
  ofNat : Nat → α
  toNat_lt : ∀ value, toNat value < 256 ^ width
  ofNat_toNat : ∀ value, ofNat (toNat value) = value

namespace Scalar

variable {α β : Type}

/-- `memcpy` of a scalar out of a block. -/
def load (scalar : Scalar α) (block : Block) (offset : Nat) : α :=
  scalar.ofNat (ofLittleEndian (block.read offset scalar.width))

/-- `memcpy` of a scalar into a block. -/
def store (scalar : Scalar α) (block : Block) (offset : Nat) (value : α) : Block :=
  block.write offset (littleEndian scalar.width (scalar.toNat value))

@[simp] theorem load_store_same (scalar : Scalar α) (block : Block) (offset : Nat) (value : α) :
    scalar.load (scalar.store block offset value) offset = value := by
  unfold load store
  have written := Block.read_write_same block offset
    (littleEndian scalar.width (scalar.toNat value))
  rw [littleEndian_length] at written
  rw [written, ofLittleEndian_littleEndian, Nat.mod_eq_of_lt (scalar.toNat_lt value),
    scalar.ofNat_toNat]

theorem load_congr (scalar : Scalar α) {first second : Block} {offset other : Nat}
    (same : first.read offset scalar.width = second.read other scalar.width) :
    scalar.load first offset = scalar.load second other := by
  unfold load
  rw [same]

theorem read_store_of_disjoint (scalar : Scalar α) (block : Block) {offset other count : Nat}
    {value : α} (disjoint : offset + scalar.width ≤ other ∨ other + count ≤ offset) :
    (scalar.store block offset value).read other count = block.read other count :=
  Block.read_write_of_disjoint block (by simpa using disjoint)

/-- A scalar elsewhere is unchanged by a store. -/
theorem load_store_of_disjoint (scalar : Scalar α) (stored : Scalar β) (block : Block)
    {offset other : Nat} {value : β}
    (disjoint : offset + stored.width ≤ other ∨ other + scalar.width ≤ offset) :
    scalar.load (stored.store block offset value) other = scalar.load block other :=
  scalar.load_congr (stored.read_store_of_disjoint block disjoint)

theorem load_write_of_disjoint (scalar : Scalar α) (block : Block) {offset other : Nat}
    {data : List UInt8}
    (disjoint : offset + data.length ≤ other ∨ other + scalar.width ≤ offset) :
    scalar.load (block.write offset data) other = scalar.load block other :=
  scalar.load_congr (Block.read_write_of_disjoint block disjoint)

theorem load_move_inside (scalar : Scalar α) (block : Block) {target source count offset : Nat}
    (low : target ≤ offset) (high : offset + scalar.width ≤ target + count) :
    scalar.load (block.move target source count) offset =
      scalar.load block (source + (offset - target)) :=
  scalar.load_congr (Block.read_move_inside block low high)

theorem load_move_of_disjoint (scalar : Scalar α) (block : Block)
    {target source count offset : Nat}
    (disjoint : target + count ≤ offset ∨ offset + scalar.width ≤ target) :
    scalar.load (block.move target source count) offset = scalar.load block offset :=
  scalar.load_congr (Block.read_move_of_disjoint block disjoint)

/-- The bytes of a scalar. -/
def encode (scalar : Scalar α) (value : α) : List UInt8 :=
  littleEndian scalar.width (scalar.toNat value)

/-- The scalar with the given bytes. -/
def decode (scalar : Scalar α) (bytes : List UInt8) : α := scalar.ofNat (ofLittleEndian bytes)

@[simp] theorem encode_length (scalar : Scalar α) (value : α) :
    (scalar.encode value).length = scalar.width := littleEndian_length _ _

@[simp] theorem decode_encode (scalar : Scalar α) (value : α) :
    scalar.decode (scalar.encode value) = value := by
  unfold decode encode
  rw [ofLittleEndian_littleEndian, Nat.mod_eq_of_lt (scalar.toNat_lt value), scalar.ofNat_toNat]

/-- The bytes of an array. -/
def encodeArray (scalar : Scalar α) (values : List α) : List UInt8 := values.flatMap scalar.encode

/-- The `i`-th element of an array given as bytes. -/
def item (scalar : Scalar α) (bytes : List UInt8) (i : Nat) : α :=
  scalar.decode ((bytes.drop (i * scalar.width)).take scalar.width)

@[simp] theorem encodeArray_length (scalar : Scalar α) (values : List α) :
    (scalar.encodeArray values).length = values.length * scalar.width := by
  induction values with
  | nil => simp [encodeArray]
  | cons value rest ih =>
      simp only [encodeArray, List.flatMap_cons, List.length_append, encode_length] at ih ⊢
      rw [ih, List.length_cons, Nat.succ_mul, Nat.add_comm]

/-- An element of an array is read back from its bytes. -/
theorem item_encodeArray (scalar : Scalar α) {values : List α} {i : Nat} {value : α}
    (present : values[i]? = some value) : scalar.item (scalar.encodeArray values) i = value := by
  induction values generalizing i with
  | nil => simp at present
  | cons first rest ih =>
      cases i with
      | zero =>
          obtain rfl : first = value := by simpa using present
          simp [item, encodeArray]
      | succ i =>
          have there : rest[i]? = some value := by simpa using present
          have skipped : (i + 1) * scalar.width = (scalar.encode first).length + i * scalar.width := by
            rw [encode_length, Nat.succ_mul, Nat.add_comm]
          rw [← ih there]
          simp only [item, encodeArray, List.flatMap_cons]
          rw [skipped, ← List.drop_drop, List.drop_left]

/-- `uint16_t`. -/
def u16 : Scalar UInt16 where
  width := 2
  toNat := UInt16.toNat
  ofNat := UInt16.ofNat
  toNat_lt := UInt16.toNat_lt
  ofNat_toNat _ := UInt16.ofNat_toNat

/-- `uint32_t`. -/
def u32 : Scalar UInt32 where
  width := 4
  toNat := UInt32.toNat
  ofNat := UInt32.ofNat
  toNat_lt := UInt32.toNat_lt
  ofNat_toNat _ := UInt32.ofNat_toNat

/-- `int32_t`, two's complement. -/
def i32 : Scalar Int32 where
  width := 4
  toNat value := value.toUInt32.toNat
  ofNat value := (UInt32.ofNat value).toInt32
  toNat_lt value := value.toUInt32.toNat_lt
  ofNat_toNat value := by simp

/-- `int64_t`, two's complement. -/
def i64 : Scalar Int64 where
  width := 8
  toNat value := value.toUInt64.toNat
  ofNat value := (UInt64.ofNat value).toInt64
  toNat_lt value := value.toUInt64.toNat_lt
  ofNat_toNat value := by simp

@[simp] theorem u16_width : u16.width = 2 := rfl
@[simp] theorem u32_width : u32.width = 4 := rfl
@[simp] theorem i32_width : i32.width = 4 := rfl
@[simp] theorem i64_width : i64.width = 8 := rfl

end Scalar

end MiniSqlite.Std
