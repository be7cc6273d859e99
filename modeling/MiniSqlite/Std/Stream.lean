import Mathlib.Data.List.Basic

/-!
# Byte streams

An open file is what stands before its position and what stands after it. A
transfer moves the position behind the bytes it has read or written; a write
overwrites what stood there and grows the file when it reaches its end.
-/

namespace MiniSqlite.Std

/-- A file with the position of its next transfer. -/
structure Stream where
  before : List UInt8
  rest : List UInt8
  deriving DecidableEq, Repr

namespace Stream

/-- A file just created or truncated. -/
def empty : Stream := ⟨[], []⟩

/-- The contents of the file. -/
def bytes (stream : Stream) : List UInt8 := stream.before ++ stream.rest

/-- `rewind`. -/
def rewind (stream : Stream) : Stream := ⟨[], stream.bytes⟩

/-- `fread` of up to `count` bytes. -/
def read (stream : Stream) (count : Nat) : List UInt8 × Stream :=
  (stream.rest.take count, ⟨stream.before ++ stream.rest.take count, stream.rest.drop count⟩)

/-- `fwrite`. -/
def write (stream : Stream) (data : List UInt8) : Stream :=
  ⟨stream.before ++ data, stream.rest.drop data.length⟩

@[simp] theorem bytes_empty : empty.bytes = [] := rfl

@[simp] theorem bytes_rewind (stream : Stream) : stream.rewind.bytes = stream.bytes := rfl

@[simp] theorem bytes_read (stream : Stream) (count : Nat) :
    (stream.read count).2.bytes = stream.bytes := by
  simp [read, bytes]

/-- Reading exactly the data in front leaves the stream behind it. -/
theorem read_append {before data rest : List UInt8} {count : Nat} (width : data.length = count) :
    read ⟨before, data ++ rest⟩ count = (data, ⟨before ++ data, rest⟩) := by
  subst width
  simp [read]

theorem write_write (stream : Stream) (first second : List UInt8) :
    (stream.write first).write second = stream.write (first ++ second) := by
  simp [write, List.drop_drop]

/-- A write at the end of the file appends. -/
theorem write_end {stream : Stream} (atEnd : stream.rest = []) (data : List UInt8) :
    stream.write data = ⟨stream.bytes ++ data, []⟩ := by
  simp [write, bytes, atEnd]

/-- A write keeps the contents as a prefix only if it rewrites what it overwrites. -/
theorem take_eq_of_prefix_write {stream : Stream} {data : List UInt8} (count : Nat)
    (kept : stream.bytes <+: (stream.write data).bytes) (present : count ≤ stream.rest.length)
    (covered : count ≤ data.length) : stream.rest.take count = data.take count := by
  have inRest : stream.rest <+: data ++ stream.rest.drop data.length := by
    simpa [bytes, write, List.append_assoc] using kept
  obtain ⟨tail, same⟩ := inRest
  have cut := congrArg (List.take count) same
  rwa [List.take_append_of_le_length present, List.take_append_of_le_length covered] at cut

end Stream

end MiniSqlite.Std
