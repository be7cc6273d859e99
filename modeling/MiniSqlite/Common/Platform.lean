import MiniSqlite.Common.Error
import MiniSqlite.Std.Bytes

/-!
# C strings and what the C standard leaves open

`CString` is a string as `char*` code sees it: the bytes before the terminator.
`Platform` collects what differs between implementations of C, or is the business
of its library: doubles, the magnitude `strcmp` returns, the algorithm of
`qsort`, the address of a string and the bytes a fresh allocation holds.
-/

namespace MiniSqlite.Common

open MiniSqlite.Std

/-- A string without its terminator. -/
structure CString where
  chars : List UInt8
  unterminated : 0 ∉ chars
  deriving DecidableEq

namespace CString

/-- The string that starts with the given bytes: they end at the first zero. -/
def ofBytes (bytes : List UInt8) : CString where
  chars := bytes.takeWhile (· != 0)
  unterminated member := by
    simpa using List.all_eq_true.mp List.all_takeWhile 0 member

/-- The bytes of a string are those of no shorter one. -/
theorem ofBytes_chars (string : CString) : ofBytes string.chars = string := by
  have whole : string.chars.takeWhile (· != 0) = string.chars := by
    rw [← List.append_nil string.chars, List.takeWhile_append_of_pos, List.takeWhile_nil]
    intro byte member
    rw [bne_iff_ne]
    rintro rfl
    exact string.unterminated member
  simp [ofBytes, whole]

/-- A string literal. -/
def ofChars (chars : List Char) : CString := ofBytes (chars.map Char.toUInt8)

/-- `""`. -/
def empty : CString := ⟨[], List.not_mem_nil⟩

/-- `strlen`. -/
def length (string : CString) : Nat := string.chars.length

/-- `strstr(string, part) != NULL`. -/
def contains (string part : CString) : Bool := string.chars.tails.any (part.chars.isPrefixOf ·)

end CString

/-- A computation that may return an error code, or leave what C defines. -/
abbrev Checked := ExceptT ErrorCode (Except Fault)

/-- Leaves what C defines. -/
def undefined {α : Type} (fault : Fault) : Checked α := ExceptT.mk (.error fault)

/-- The result of an `int64_t` operation, undefined where it does not fit. -/
def int64Of (result : Int) : Except Fault Int64 :=
  if -9223372036854775808 ≤ result ∧ result ≤ 9223372036854775807 then .ok (Int64.ofInt result)
  else .error .overflow

/-- An implementation of C with its doubles. -/
class Platform (Double : Type) where
  /-- `(double)i`. -/
  ofInt : Int64 → Double
  /-- `(int64_t)d`, undefined unless the truncated value fits. -/
  toInt : Double → Option Int64
  add : Double → Double → Double
  sub : Double → Double → Double
  mul : Double → Double → Double
  div : Double → Double → Double
  neg : Double → Double
  /-- `a < b`. -/
  less : Double → Double → Bool
  /-- `a == b`. -/
  equal : Double → Double → Bool
  /-- The object representation of a double. -/
  bits : Double → UInt64
  ofBits : UInt64 → Double
  /-- `strtod`: the number and what stands behind it. -/
  strtod : CString → Double × List UInt8
  /-- `snprintf` with `%g`. -/
  formatDouble : Double → CString
  /-- `strcmp`, of which only the sign is specified. -/
  strcmp : CString → CString → Int
  /-- `qsort`: the sorted array and the pairs it has compared, in order. -/
  qsort : {α : Type} → (α → α → Int) → List α → List α × List (α × α)
  /-- The address of a string. -/
  address : CString → UInt64
  /-- The bytes of memory not yet written. -/
  uninitialized : Block

/-- A platform whose doubles are the integers, for runs without fractions. -/
instance : Platform Int where
  ofInt i := i.toInt
  toInt d :=
    if -9223372036854775808 ≤ d ∧ d ≤ 9223372036854775807 then some (Int64.ofInt d) else none
  add := (· + ·)
  sub := (· - ·)
  mul := (· * ·)
  div := Int.tdiv
  neg := (- ·)
  less a b := a < b
  equal a b := a = b
  bits d := (Int64.ofInt d).toUInt64
  ofBits bits := bits.toInt64.toInt
  strtod string := (0, string.chars)
  formatDouble _ := CString.empty
  strcmp a b := if a.chars = b.chars then 0 else if a.chars < b.chars then -1 else 1
  qsort compare list := (list.mergeSort fun a b => compare a b ≤ 0, list.product list)
  address _ := 0
  uninitialized _ := 0

end MiniSqlite.Common
