import MiniSqlite.Std.Rounding
import MiniSqlite.Storage.Decimals

/-!
# Arithmetic on integers

`value_add`, `value_sub`, `value_mul` and `value_div` of two `INTEGER`s. Both operands are
converted to doubles and back before the operation, which then has to fit `int64_t` without
a check.
-/

namespace MiniSqlite.Storage

open MiniSqlite.Common MiniSqlite.Std

/-- A double has 53 significant bits. -/
def significantBits : Nat := 53

/-- The nearest double of an integer. -/
def nearestDouble (i : Int64) : Int := roundInt significantBits i.toInt

/-- The nearest double of an integer fits `int64_t`. -/
def Converts (i : Int64) : Prop := FitsInt64 (nearestDouble i)

instance (value : Int) : Decidable (FitsInt64 value) :=
  inferInstanceAs (Decidable (-9223372036854775808 ≤ value ∧ value ≤ 9223372036854775807))

instance (i : Int64) : Decidable (Converts i) := inferInstanceAs (Decidable (FitsInt64 _))

/-- The conversion to a double rounds to nearest even, and the conversion back is exact where
the double fits `int64_t`, and else undefined. -/
structure RoundsIntegers (Double : Type) [Platform Double] : Prop where
  toInt_ofInt (i : Int64) : Platform.toInt (Platform.ofInt i : Double) =
    if Converts i then some (Int64.ofInt (nearestDouble i)) else none

/-- The arithmetic operators. -/
inductive ArithmeticOp where
  | add
  | sub
  | mul
  | div
  deriving DecidableEq, Repr

namespace ArithmeticOp

/-- The exact result, truncated for a quotient. -/
def exact : ArithmeticOp → Int → Int → Int
  | add => (· + ·)
  | sub => (· - ·)
  | mul => (· * ·)
  | div => Int.tdiv

variable {Double : Type} [Platform Double]

/-- The function for an operator. -/
def apply : ArithmeticOp → Value Double → Value Double → Checked (Value Double)
  | add => valueAdd
  | sub => valueSub
  | mul => valueMul
  | div => valueDiv

/-- Two integers have a result of type `INTEGER`. -/
def HasResult (op : ArithmeticOp) (a b : Int64) : Prop :=
  (op = div → b ≠ 0) ∧ FitsInt64 (op.exact a.toInt b.toInt)

/-- What an operator has to do with two integers. -/
structure ComputesExactly (Double : Type) [Platform Double] (op : ArithmeticOp) (a b : Int64) :
    Prop where
  result : op.HasResult a b → op.apply (.integer a : Value Double) (.integer b) =
    pure (.integer (Int64.ofInt (op.exact a.toInt b.toInt)))
  reported : ¬ op.HasResult a b → ∃ error : ErrorCode,
    op.apply (.integer a : Value Double) (.integer b) = throw error

/-! ## What the operators do -/

variable (rounds : RoundsIntegers Double)
include rounds

theorem toInt64_ofInt (i : Int64) : toInt64 (Platform.ofInt i : Double) =
    if Converts i then .ok (Int64.ofInt (nearestDouble i)) else .error .overflow := by
  rw [toInt64, rounds.toInt_ofInt]
  by_cases converts : Converts i
  · rw [if_pos converts, if_pos converts]
  · rw [if_neg converts, if_neg converts]

omit [Platform Double] rounds in
theorem int64Of_fits {value : Int} (fits : FitsInt64 value) :
    int64Of value = .ok (Int64.ofInt value) := if_pos fits

omit [Platform Double] rounds in
theorem int64Of_overflow {value : Int} (overflow : ¬ FitsInt64 value) :
    int64Of value = .error .overflow := if_neg overflow

/-- The common shape of the first three operators. -/
theorem valueArithmetic_integers (integers : Int → Int → Int)
    (doubles : Double → Double → Double) (a b : Int64) :
    valueArithmetic integers doubles (.integer a) (.integer b) =
      if Converts a ∧ Converts b ∧ FitsInt64 (integers (nearestDouble a) (nearestDouble b)) then
        pure (.integer (Int64.ofInt (integers (nearestDouble a) (nearestDouble b))))
      else undefined .overflow := by
  have shape : valueArithmetic integers doubles (.integer a) (.integer b) =
      (do
        let ia ← toInt64 (Platform.ofInt a : Double)
        let ib ← toInt64 (Platform.ofInt b : Double)
        return .integer (← int64Of (integers ia.toInt ib.toInt)) : Checked (Value Double)) := rfl
  rw [shape, toInt64_ofInt rounds]
  by_cases aConverts : Converts a
  · rw [if_pos aConverts, toInt64_ofInt rounds]
    by_cases bConverts : Converts b
    · rw [if_pos bConverts]
      change (do
        return .integer (← int64Of (integers (Int64.ofInt (nearestDouble a)).toInt
          (Int64.ofInt (nearestDouble b)).toInt)) : Checked (Value Double)) = _
      rw [aConverts.toInt_ofInt, bConverts.toInt_ofInt]
      by_cases fits : FitsInt64 (integers (nearestDouble a) (nearestDouble b))
      · rw [if_pos ⟨aConverts, bConverts, fits⟩, int64Of_fits fits]
        rfl
      · rw [if_neg fun all => fits all.2.2, int64Of_overflow fits]
        rfl
    · rw [if_neg bConverts, if_neg fun all => bConverts all.2.1]
      rfl
  · rw [if_neg aConverts, if_neg fun all => aConverts all.1]
    rfl

omit [Platform Double] rounds in
theorem nearestDouble_eq_zero (i : Int64) : nearestDouble i = 0 ↔ i = 0 := by
  rw [nearestDouble, roundInt_eq_zero (by decide), ← Int64.toInt_zero, Int64.toInt_inj]

/-- Division of integers. -/
theorem valueDiv_integers (a : Int64) {b : Int64} (nonzero : b ≠ 0) :
    valueDiv (.integer a : Value Double) (.integer b) =
      if Converts a ∧ Converts b ∧ FitsInt64 ((nearestDouble a).tdiv (nearestDouble b)) then
        pure (.integer (Int64.ofInt ((nearestDouble a).tdiv (nearestDouble b))))
      else undefined .overflow := by
  have shape : valueDiv (.integer a : Value Double) (.integer b) =
      (do
        let ib ← toInt64 (Platform.ofInt b : Double)
        if ib = 0 then throw .invalidArgument
        let ia ← toInt64 (Platform.ofInt a : Double)
        return .integer (← int64Of (ia.toInt.tdiv ib.toInt)) : Checked (Value Double)) := rfl
  rw [shape, toInt64_ofInt rounds]
  by_cases bConverts : Converts b
  · have divisor : Int64.ofInt (nearestDouble b) ≠ 0 := by
      rw [ne_eq, ← Int64.toInt_inj, bConverts.toInt_ofInt, Int64.toInt_zero,
        nearestDouble_eq_zero]
      exact nonzero
    rw [if_pos bConverts]
    change (do
      if Int64.ofInt (nearestDouble b) = 0 then throw .invalidArgument
      let ia ← toInt64 (Platform.ofInt a : Double)
      return .integer (← int64Of (ia.toInt.tdiv (Int64.ofInt (nearestDouble b)).toInt)) :
        Checked (Value Double)) = _
    rw [if_neg divisor, toInt64_ofInt rounds]
    by_cases aConverts : Converts a
    · rw [if_pos aConverts]
      change (do
        return .integer (← int64Of ((Int64.ofInt (nearestDouble a)).toInt.tdiv
          (Int64.ofInt (nearestDouble b)).toInt)) : Checked (Value Double)) = _
      rw [aConverts.toInt_ofInt, bConverts.toInt_ofInt]
      by_cases fits : FitsInt64 ((nearestDouble a).tdiv (nearestDouble b))
      · rw [if_pos ⟨aConverts, bConverts, fits⟩, int64Of_fits fits]
        rfl
      · rw [if_neg fun all => fits all.2.2, int64Of_overflow fits]
        rfl
    · rw [if_neg aConverts, if_neg fun all => aConverts all.1]
      rfl
  · rw [if_neg bConverts, if_neg fun all => bConverts all.2.1]
    rfl

/-- Division by zero is reported. -/
theorem valueDiv_zero (a : Int64) :
    valueDiv (.integer a : Value Double) (.integer 0) = throw .invalidArgument := by
  have converts : Converts 0 := by decide
  have shape : valueDiv (.integer a : Value Double) (.integer 0) =
      (do
        let ib ← toInt64 (Platform.ofInt 0 : Double)
        if ib = 0 then throw .invalidArgument
        let ia ← toInt64 (Platform.ofInt a : Double)
        return .integer (← int64Of (ia.toInt.tdiv ib.toInt)) : Checked (Value Double)) := rfl
  rw [shape, toInt64_ofInt rounds, if_pos converts, (nearestDouble_eq_zero 0).mpr rfl]
  rfl

/-- The operators compute the exact result of the nearest doubles, and nothing is defined where
one of the three values does not fit. -/
theorem apply_integers {op : ArithmeticOp} {a b : Int64} (defined : op = div → b ≠ 0) :
    op.apply (.integer a : Value Double) (.integer b) =
      if Converts a ∧ Converts b ∧ FitsInt64 (op.exact (nearestDouble a) (nearestDouble b)) then
        pure (.integer (Int64.ofInt (op.exact (nearestDouble a) (nearestDouble b))))
      else undefined .overflow := by
  cases op with
  | add => exact valueArithmetic_integers rounds (· + ·) Platform.add a b
  | sub => exact valueArithmetic_integers rounds (· - ·) Platform.sub a b
  | mul => exact valueArithmetic_integers rounds (· * ·) Platform.mul a b
  | div => exact valueDiv_integers rounds a (defined rfl)

/-- An operator is exact if and only if it has nothing to divide by, or it has a result, both
operands convert and their nearest doubles have the same result. -/
theorem computesExactly_iff_same (op : ArithmeticOp) (a b : Int64) :
    ComputesExactly Double op a b ↔ op = div ∧ b = 0 ∨
      FitsInt64 (op.exact a.toInt b.toInt) ∧ Converts a ∧ Converts b ∧
        op.exact (nearestDouble a) (nearestDouble b) = op.exact a.toInt b.toInt := by
  by_cases byZero : op = div ∧ b = 0
  · obtain ⟨rfl, rfl⟩ := byZero
    refine iff_of_true ⟨fun has => absurd rfl (has.1 rfl), fun _ => ?_⟩ (.inl ⟨rfl, rfl⟩)
    exact ⟨_, valueDiv_zero rounds a⟩
  · have defined : op = div → b ≠ 0 := fun isDiv zero => byZero ⟨isDiv, zero⟩
    have applied := apply_integers (a := a) rounds defined
    rw [or_iff_right byZero]
    constructor
    · intro computes
      have fits : FitsInt64 (op.exact a.toInt b.toInt) := by
        by_contra overflow
        obtain ⟨error, thrown⟩ := computes.reported fun has => overflow has.2
        rw [applied] at thrown
        split at thrown <;> cases thrown
      have result := computes.result ⟨defined, fits⟩
      rw [applied] at result
      split at result
      · next all =>
          refine ⟨fits, all.1, all.2.1, ?_⟩
          have same := Value.integer.inj (Except.ok.inj (Except.ok.inj result))
          rw [← all.2.2.toInt_ofInt, same, fits.toInt_ofInt]
      · cases result
    · rintro ⟨fits, aConverts, bConverts, same⟩
      constructor
      · intro _
        rw [applied, if_pos ⟨aConverts, bConverts, same ▸ fits⟩, same]
      · intro none
        exact absurd ⟨defined, fits⟩ none

/-! ## Where rounding does no harm -/

/-- What a conversion to a double adds to an integer. -/
def conversionError (i : Int64) : Int := nearestDouble i - i.toInt

/-- The errors of the two conversions do not change the result: they cancel each other in a sum
and in a difference, and there are none in a product but next to zero. In a quotient they move
the dividend past no multiple of the divisor. -/
def Harmless : ArithmeticOp → Int64 → Int64 → Prop
  | add, a, b => conversionError a + conversionError b = 0
  | sub, a, b => conversionError a = conversionError b
  | mul, a, b => conversionError a = 0 ∧ conversionError b = 0 ∨ a = 0 ∨ b = 0
  | div, a, b =>
      a.toInt.natAbs / b.toInt.natAbs * (nearestDouble b).natAbs ≤ (nearestDouble a).natAbs ∧
        (nearestDouble a).natAbs <
          (a.toInt.natAbs / b.toInt.natAbs + 1) * (nearestDouble b).natAbs

omit [Platform Double] rounds in
theorem conversionError_small {i : Int64} (small : i.toInt.natAbs < 2 ^ 53) :
    conversionError i = 0 := by
  rw [conversionError, nearestDouble, significantBits, roundInt_exact (by decide) small,
    Int.sub_self]

omit [Platform Double] rounds in
theorem conversionError_eq_zero (i : Int64) :
    conversionError i = 0 ↔ nearestDouble i = i.toInt := Int.sub_eq_zero

omit [Platform Double] rounds in
/-- Of two factors whose product fits `int64_t` one has at most 53 bits. -/
theorem small_factor {a b : Int64} (fits : FitsInt64 (a.toInt * b.toInt)) :
    a.toInt.natAbs < 2 ^ 53 ∨ b.toInt.natAbs < 2 ^ 53 := by
  by_contra large
  obtain ⟨aLarge, bLarge⟩ := not_or.mp large
  have product := Nat.mul_le_mul (Nat.le_of_not_lt aLarge) (Nat.le_of_not_lt bLarge)
  rw [← Int.natAbs_mul] at product
  obtain ⟨low, high⟩ := fits
  omega

omit [Platform Double] rounds in
theorem product_same_iff {a b : Int64} (fits : FitsInt64 (a.toInt * b.toInt)) :
    nearestDouble a * nearestDouble b = a.toInt * b.toInt ↔
      conversionError a = 0 ∧ conversionError b = 0 ∨ a = 0 ∨ b = 0 := by
  have zero (i : Int64) : i.toInt = 0 ↔ i = 0 := by rw [← Int64.toInt_zero, Int64.toInt_inj]
  constructor
  · intro same
    by_cases aZero : a = 0
    · exact .inr (.inl aZero)
    by_cases bZero : b = 0
    · exact .inr (.inr bZero)
    left
    obtain aSmall | bSmall := small_factor fits
    · have aExact := conversionError_small aSmall
      rw [(conversionError_eq_zero a).mp aExact] at same
      exact ⟨aExact, (conversionError_eq_zero b).mpr
        (Int.eq_of_mul_eq_mul_left (mt (zero a).mp aZero) same)⟩
    · have bExact := conversionError_small bSmall
      rw [(conversionError_eq_zero b).mp bExact] at same
      exact ⟨(conversionError_eq_zero a).mpr
        (Int.eq_of_mul_eq_mul_right (mt (zero b).mp bZero) same), bExact⟩
  · rintro (⟨aExact, bExact⟩ | rfl | rfl)
    · rw [(conversionError_eq_zero a).mp aExact, (conversionError_eq_zero b).mp bExact]
    · rw [(nearestDouble_eq_zero 0).mpr rfl, Int64.toInt_zero, Int.zero_mul, Int.zero_mul]
    · rw [(nearestDouble_eq_zero 0).mpr rfl, Int64.toInt_zero, Int.mul_zero, Int.mul_zero]

/-- An operator computes exactly if and only if it divides by zero, which it reports, or the
result and the nearest doubles of both operands fit `int64_t` and the rounding is harmless. -/
theorem computesExactly_iff (op : ArithmeticOp) (a b : Int64) :
    ComputesExactly Double op a b ↔ op = div ∧ b = 0 ∨
      FitsInt64 (op.exact a.toInt b.toInt) ∧ Converts a ∧ Converts b ∧ op.Harmless a b := by
  rw [computesExactly_iff_same rounds]
  by_cases byZero : op = div ∧ b = 0
  · exact iff_of_true (.inl byZero) (.inl byZero)
  rw [or_iff_right byZero, or_iff_right byZero]
  refine and_congr_right fun fits => and_congr_right fun _ => and_congr_right fun _ => ?_
  cases op with
  | add =>
      simp only [exact, Harmless, conversionError]
      omega
  | sub =>
      simp only [exact, Harmless, conversionError]
      omega
  | mul => exact product_same_iff fits
  | div =>
      have nonzero : b.toInt ≠ 0 := by
        rw [ne_eq, ← Int64.toInt_zero, Int64.toInt_inj]
        exact fun zero => byZero ⟨rfl, zero⟩
      simp only [Harmless, nearestDouble, roundInt_natAbs]
      exact roundInt_tdiv_iff (by decide) nonzero

end ArithmeticOp

/-! ## A platform that rounds -/

/-- Doubles without fractions. -/
structure WholeDouble where
  value : Int
  deriving DecidableEq

/-- The nearest double of the exact result of an operation. -/
def WholeDouble.nearest (value : Int) : WholeDouble := ⟨roundInt significantBits value⟩

instance : Platform WholeDouble where
  ofInt i := .nearest i.toInt
  toInt d := if FitsInt64 d.value then some (Int64.ofInt d.value) else none
  add a b := .nearest (a.value + b.value)
  sub a b := .nearest (a.value - b.value)
  mul a b := .nearest (a.value * b.value)
  div a b := .nearest (a.value.tdiv b.value)
  neg a := ⟨-a.value⟩
  less a b := a.value < b.value
  equal a b := a.value = b.value
  bits d := (Int64.ofInt d.value).toUInt64
  ofBits bits := ⟨bits.toInt64.toInt⟩
  strtod string := (⟨0⟩, string.chars)
  formatDouble _ := CString.empty
  strcmp a b := Platform.strcmp Int a b
  qsort compare list := Platform.qsort Int compare list
  address string := Platform.address Int string
  uninitialized := Platform.uninitialized Int

theorem wholeDouble_rounds : RoundsIntegers WholeDouble where
  toInt_ofInt _ := rfl

/-- `9007199254740993 + 0` is `9007199254740992`. -/
theorem largeSum_inexact :
    ¬ ArithmeticOp.ComputesExactly WholeDouble .add 9007199254740993 0 := by
  intro computes
  have sum : valueAdd (.integer 9007199254740993 : Value WholeDouble) (.integer 0) =
      pure (.integer 9007199254740992) := by rfl
  have result := computes.result ⟨fun isDiv => (by cases isDiv), by decide⟩
  rw [ArithmeticOp.apply, sum] at result
  exact absurd (Value.integer.inj (Except.ok.inj (Except.ok.inj result))) (by decide)

/-- `7 / 2` is `3`. -/
theorem smallQuotient_exact : ArithmeticOp.ComputesExactly WholeDouble .div 7 2 :=
  (ArithmeticOp.computesExactly_iff wholeDouble_rounds .div 7 2).mpr
    (.inr ⟨by decide, by decide, by decide, by decide, by decide⟩)

end MiniSqlite.Storage
