import MiniSqlite.Common.Platform

/-!
# Values

`storage/value.c`: the tagged union of SQL values with its comparison, arithmetic
and casts. A `VARCHAR` always points to a string: no caller makes one of `NULL`.
-/

namespace MiniSqlite.Storage

open MiniSqlite.Common

/-- `type_id_t`. -/
inductive TypeId where
  | integer
  | float
  | varchar
  | boolean
  | null
  deriving DecidableEq, Repr

/-- `value_t`. -/
inductive Value (Double : Type) where
  | integer (intVal : Int64)
  | float (floatVal : Double)
  | varchar (varchar : CString)
  | boolean (boolVal : Bool)
  | null
  deriving DecidableEq

variable {Double : Type}

/-- The tag of a value. -/
def Value.type : Value Double → TypeId
  | .integer _ => .integer
  | .float _ => .float
  | .varchar _ => .varchar
  | .boolean _ => .boolean
  | .null => .null

/-- `v.type == TYPE_NULL`. -/
def Value.isNull : Value Double → Bool
  | .null => true
  | _ => false

variable [Platform Double]

/-! ## Comparison -/

/-- `-1`, `0` or `1` as the first is less, neither or greater. -/
def threeWay (less greater : Bool) : Int := if less then -1 else if greater then 1 else 0

/-- The comparison of two doubles in `value_compare`. -/
def compareDoubles (a b : Double) : Int := threeWay (Platform.less a b) (Platform.less b a)

/-- `value_compare`. The error code of incompatible types is as positive as "greater". -/
def valueCompare : Value Double → Value Double → Int
  | .null, .null => 0
  | .null, _ => -1
  | _, .null => 1
  | .integer a, .integer b => threeWay (a < b) (b < a)
  | .float a, .float b => compareDoubles a b
  | .varchar a, .varchar b => Platform.strcmp Double a b
  | .boolean a, .boolean b => if a = b then 0 else if a then 1 else -1
  | .integer a, .float b => compareDoubles (Platform.ofInt a) b
  | .float a, .integer b => compareDoubles a (Platform.ofInt b)
  | _, _ => ErrorCode.typeMismatch.code

/-! ## Arithmetic -/

/-- `coerce_arithmetic`: both operands as doubles, and whether the result is a float. -/
def coerceArithmetic : Value Double → Value Double → Except ErrorCode (Double × Double × TypeId)
  | .integer a, .integer b => .ok (Platform.ofInt a, Platform.ofInt b, .integer)
  | .integer a, .float b => .ok (Platform.ofInt a, b, .float)
  | .float a, .integer b => .ok (a, Platform.ofInt b, .float)
  | .float a, .float b => .ok (a, b, .float)
  | _, _ => .error .typeMismatch

/-- `(int64_t)d`. -/
def toInt64 (d : Double) : Except Fault Int64 :=
  match Platform.toInt d with
  | some i => .ok i
  | none => .error .overflow

/-- The common shape of `value_add`, `value_sub` and `value_mul`. -/
def valueArithmetic (integers : Int → Int → Int) (doubles : Double → Double → Double)
    (a b : Value Double) : Checked (Value Double) := do
  let (da, db, resultType) ← ExceptT.mk (.ok (coerceArithmetic a b))
  if resultType = .integer then
    let ia ← toInt64 da
    let ib ← toInt64 db
    return .integer (← int64Of (integers ia.toInt ib.toInt))
  else return .float (doubles da db)

/-- `value_add`. -/
def valueAdd (a b : Value Double) : Checked (Value Double) :=
  valueArithmetic (· + ·) Platform.add a b

/-- `value_sub`. -/
def valueSub (a b : Value Double) : Checked (Value Double) :=
  valueArithmetic (· - ·) Platform.sub a b

/-- `value_mul`. -/
def valueMul (a b : Value Double) : Checked (Value Double) :=
  valueArithmetic (· * ·) Platform.mul a b

/-- `value_div`. -/
def valueDiv (a b : Value Double) : Checked (Value Double) := do
  let (da, db, resultType) ← ExceptT.mk (.ok (coerceArithmetic a b))
  if resultType = .integer then
    let ib ← toInt64 db
    if ib = 0 then throw .invalidArgument
    let ia ← toInt64 da
    return .integer (← int64Of (ia.toInt.tdiv ib.toInt))
  else
    if Platform.equal db (Platform.ofInt 0) then throw .invalidArgument
    return .float (Platform.div da db)

/-! ## Casts -/

/-- `isspace`. -/
def isSpace (char : UInt8) : Bool := char == 32 || (9 ≤ char && char ≤ 13)

/-- `isdigit`. -/
def isDigit (char : UInt8) : Bool := 48 ≤ char && char ≤ 57

/-- The number a list of decimal digits denotes. -/
def digitsValue (digits : List UInt8) : Nat :=
  digits.foldl (fun value digit => value * 10 + (digit.toNat - 48)) 0

/-- `strtoll(string, &end, 10)` with the bytes from `end` on. A number that does not fit
gives the nearest one that does. -/
def strtoll (string : List UInt8) : Int64 × List UInt8 :=
  let unspaced := string.dropWhile isSpace
  let (negative, unsigned) :=
    match unspaced with
    | 45 :: rest => (true, rest)
    | 43 :: rest => (false, rest)
    | rest => (false, rest)
  let digits := unsigned.takeWhile isDigit
  if digits = [] then (0, string)
  else
    let magnitude : Int := digitsValue digits
    let value := if negative then -magnitude else magnitude
    (Int64.ofInt (max (-9223372036854775808) (min 9223372036854775807 value)),
      unsigned.drop digits.length)

/-- `snprintf` with `%lld`. -/
def formatInt (i : Int64) : CString :=
  CString.ofChars ((if i < 0 then ['-'] else []) ++ Nat.toDigits 10 i.toInt.natAbs)

/-- `value_cast_to`. -/
def valueCastTo (v : Value Double) (target : TypeId) : Checked (Value Double) :=
  if v.type = target then pure v
  else
    match v, target with
    | .null, _ => pure .null
    | .float d, .integer => do return .integer (← toInt64 d)
    | .boolean b, .integer => pure (.integer (if b then 1 else 0))
    | .varchar s, .integer =>
        match strtoll s.chars with
        | (iv, []) | (iv, 46 :: _) => pure (.integer iv)
        | _ => throw .typeMismatch
    | .integer i, .float => pure (.float (Platform.ofInt i))
    | .boolean b, .float => pure (.float (Platform.ofInt (if b then 1 else 0)))
    | .varchar s, .float =>
        match Platform.strtod s with
        | (dv, []) => pure (.float dv)
        | _ => throw .typeMismatch
    | .integer i, .boolean => pure (.boolean (i != 0))
    | .float d, .boolean => pure (.boolean (!Platform.equal d (Platform.ofInt 0)))
    | .integer i, .varchar => pure (.varchar (formatInt i))
    | .float d, .varchar => pure (.varchar (Platform.formatDouble d))
    | .boolean b, .varchar =>
        pure (.varchar (CString.ofChars
          (if b then ['t', 'r', 'u', 'e'] else ['f', 'a', 'l', 's', 'e'])))
    | _, .null => pure .null
    | _, _ => throw .typeMismatch

end MiniSqlite.Storage
