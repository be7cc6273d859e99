import Mathlib.Algebra.Ring.Nat
import Mathlib.Data.Int.Order.Basic

/-!
# Rounding to a number of bits

The conversion of an integer to a floating-point format that has a number of significant
bits, in the rounding mode to nearest with ties to even.
-/

namespace MiniSqlite.Std

/-- The bits of a number that a format of some significant bits has no place for. -/
def excessBits (bits number : Nat) : Nat := number.log2 + 1 - bits

/-- A number without its lowest bits goes up to the next one: what is lost is more than a half,
or it is a half and the number would be odd. -/
def roundsUp (shift number : Nat) : Bool :=
  2 ^ shift < 2 * (number % 2 ^ shift) ||
    2 ^ shift == 2 * (number % 2 ^ shift) && (number / 2 ^ shift) % 2 == 1

/-- The nearest number of the given number of significant bits. -/
def roundNat (bits number : Nat) : Nat :=
  let shift := excessBits bits number
  (number / 2 ^ shift + if roundsUp shift number then 1 else 0) * 2 ^ shift

/-- The nearest integer of the given number of significant bits. -/
def roundInt (bits : Nat) (i : Int) : Int := i.sign * roundNat bits i.natAbs

example : roundInt 2 (-5) = -4 ∧ roundInt 2 7 = 8 := by decide

/-- A number that has a place is not changed. -/
theorem roundNat_exact {bits number : Nat} (positive : 0 < bits) (fits : number < 2 ^ bits) :
    roundNat bits number = number := by
  have shift : excessBits bits number = 0 := by
    rw [excessBits]
    by_cases zero : number = 0
    · subst zero
      simp
      omega
    · have log := (Nat.log2_lt zero).mpr fits
      omega
  have down : roundsUp 0 number = false := by simp [roundsUp, Nat.mod_one]
  rw [roundNat, shift]
  simp [down]

/-- Only zero becomes zero. -/
theorem roundNat_pos {bits number : Nat} (some : 0 < bits) (positive : 0 < number) :
    0 < roundNat bits number := by
  rw [roundNat]
  refine Nat.mul_pos (Nat.add_pos_left (Nat.div_pos ?_ (Nat.two_pow_pos _)) _)
    (Nat.two_pow_pos _)
  -- The highest bit is never dropped.
  have highest := Nat.log2_self_le (Nat.ne_of_gt positive)
  refine Nat.le_trans (Nat.pow_le_pow_right (by decide) ?_) highest
  rw [excessBits]
  omega

theorem roundNat_zero (bits : Nat) : roundNat bits 0 = 0 := by
  simp [roundNat, roundsUp]

theorem roundInt_natCast (bits number : Nat) : roundInt bits number = roundNat bits number := by
  rw [roundInt, Int.natAbs_natCast]
  cases number with
  | zero => simp [roundNat_zero]
  | succ number => rw [Int.sign_natCast_of_ne_zero (Nat.succ_ne_zero number), Int.one_mul]

theorem roundInt_neg (bits : Nat) (i : Int) : roundInt bits (-i) = -roundInt bits i := by
  rw [roundInt, roundInt, Int.sign_neg, Int.natAbs_neg, Int.neg_mul]

theorem roundInt_natAbs (bits : Nat) (i : Int) :
    (roundInt bits i).natAbs = roundNat bits i.natAbs := by
  rcases Int.natAbs_eq i with same | same
  · rw [same, roundInt_natCast, Int.natAbs_natCast, Int.natAbs_natCast]
  · rw [same, roundInt_neg, roundInt_natCast, Int.natAbs_neg, Int.natAbs_neg, Int.natAbs_natCast,
      Int.natAbs_natCast]

/-- An integer that has a place is not changed. -/
theorem roundInt_exact {bits : Nat} {i : Int} (positive : 0 < bits) (fits : i.natAbs < 2 ^ bits) :
    roundInt bits i = i := by
  rw [roundInt, roundNat_exact positive fits]
  exact Int.sign_mul_natAbs i

theorem roundInt_eq_zero {bits : Nat} {i : Int} (positive : 0 < bits) :
    roundInt bits i = 0 ↔ i = 0 := by
  constructor
  · intro zero
    by_contra nonzero
    have rounded := roundNat_pos positive (Int.natAbs_pos.mpr nonzero)
    rw [roundInt, Int.mul_eq_zero, Int.sign_eq_zero_iff_zero] at zero
    omega
  · rintro rfl
    exact roundInt_exact positive (Nat.two_pow_pos bits)

/-- Truncating division of rounded integers gives the same quotient if and only if the rounded
dividend lies between the same multiples of the rounded divisor. -/
theorem roundInt_tdiv_iff {bits : Nat} {i j : Int} (positive : 0 < bits) (nonzero : j ≠ 0) :
    (roundInt bits i).tdiv (roundInt bits j) = i.tdiv j ↔
      i.natAbs / j.natAbs * roundNat bits j.natAbs ≤ roundNat bits i.natAbs ∧
        roundNat bits i.natAbs < (i.natAbs / j.natAbs + 1) * roundNat bits j.natAbs := by
  have divisor := roundNat_pos positive (Int.natAbs_pos.mpr nonzero)
  have quotients : (roundInt bits i).tdiv (roundInt bits j) = i.tdiv j ↔
      roundNat bits i.natAbs / roundNat bits j.natAbs = i.natAbs / j.natAbs := by
    rw [← Int.natCast_inj, Int.ofNat_tdiv, Int.ofNat_tdiv, ← roundInt_natCast,
      ← roundInt_natCast]
    rcases Int.natAbs_eq i with same | same <;> rcases Int.natAbs_eq j with same' | same' <;>
      rw [same, same'] <;>
      simp [roundInt_neg, Int.neg_tdiv, Int.tdiv_neg]
  rw [quotients, Nat.div_eq_iff divisor]
  rw [Nat.succ_mul]
  omega

end MiniSqlite.Std
