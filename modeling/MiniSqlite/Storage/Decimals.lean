import Mathlib.Data.List.TakeWhile
import MiniSqlite.Storage.Value

/-!
# Decimal texts

What `strtoll` makes of a text, by the parts of the text: white space, a sign, digits and
what follows. `formatInt` writes a text of these parts.
-/

namespace MiniSqlite.Storage

open MiniSqlite.Common

/-! ## Decimal numbers -/

theorem isDigit_toUInt8 {char : Char} (digit : char.isDigit = true) :
    char.toUInt8.toNat = char.toNat ∧ 48 ≤ char.toNat ∧ char.toNat ≤ 57 := by
  have bounds : 48 ≤ char.toNat ∧ char.toNat ≤ 57 := by
    simpa [Char.isDigit, UInt32.le_iff_toNat_le] using digit
  refine ⟨?_, bounds⟩
  show char.val.toUInt8.toNat = char.toNat
  rw [UInt32.toNat_toUInt8]
  exact Nat.mod_eq_of_lt (Nat.lt_of_le_of_lt bounds.2 (by decide))

theorem isDigit_of_mem_decimal {number : Nat} {char : UInt8}
    (member : char ∈ (Nat.toDigits 10 number).map Char.toUInt8) : isDigit char = true := by
  obtain ⟨digit, among, rfl⟩ := List.mem_map.mp member
  obtain ⟨same, low, high⟩ :=
    isDigit_toUInt8 (Nat.isDigit_of_mem_toDigits (by decide) (Nat.le_refl 10) among)
  rw [isDigit, Bool.and_eq_true, decide_eq_true_eq, decide_eq_true_eq, UInt8.le_iff_toNat_le,
    UInt8.le_iff_toNat_le, same]
  exact ⟨low, high⟩

theorem decimal_chars (number : Nat) :
    (CString.ofChars (Nat.toDigits 10 number)).chars =
      (Nat.toDigits 10 number).map Char.toUInt8 := by
  show ((Nat.toDigits 10 number).map Char.toUInt8).takeWhile (· != 0) = _
  refine List.takeWhile_eq_self_iff.mpr fun char member => ?_
  have digit := isDigit_of_mem_decimal member
  rw [bne_iff_ne]
  rintro rfl
  exact absurd digit (by decide)

theorem digitsValue_decimal (number : Nat) :
    digitsValue ((Nat.toDigits 10 number).map Char.toUInt8) = number := by
  have same : ∀ (chars : List Char) (start : Nat), (∀ char ∈ chars, char.isDigit = true) →
      (chars.map Char.toUInt8).foldl (fun value digit => value * 10 + (digit.toNat - 48)) start =
        Nat.ofDigitChars 10 chars start := by
    intro chars
    induction chars with
    | nil => exact fun _ _ => rfl
    | cons char chars ih =>
        intro start digits
        rw [List.map_cons, List.foldl_cons, Nat.ofDigitChars_cons,
          (isDigit_toUInt8 (digits char List.mem_cons_self)).1, Nat.mul_comm]
        exact ih _ fun other member => digits other (List.mem_cons_of_mem _ member)
  rw [digitsValue, same _ _ fun char member =>
    Nat.isDigit_of_mem_toDigits (by decide) (Nat.le_refl 10) member]
  exact Nat.ofDigitChars_ten_toDigits

/-! ## The parts of a text -/

/-- A sign, or none, and whether it negates. -/
inductive IsSign : List UInt8 → Bool → Prop where
  | absent : IsSign [] false
  | plus : IsSign [43] false
  | minus : IsSign [45] true

/-- One digit or more. -/
structure AreDigits (digits : List UInt8) : Prop where
  nonempty : digits ≠ []
  all : ∀ char ∈ digits, isDigit char = true

theorem areDigits_of_all {digits : List UInt8} (nonempty : digits ≠ [])
    (all : digits.all isDigit = true) : AreDigits digits :=
  ⟨nonempty, List.all_eq_true.mp all⟩

/-- What stands behind the digits of a number does not go on with one. -/
def EndsNumber (rest : List UInt8) : Prop := ∀ char, rest.head? = some char → isDigit char = false

/-- The number that digits behind a sign denote. -/
def signedValue (negative : Bool) (digits : List UInt8) : Int :=
  if negative then -(digitsValue digits : Int) else digitsValue digits

/-- The nearest `int64_t`. -/
def nearestInt64 (value : Int) : Int64 :=
  Int64.ofInt (max (-9223372036854775808) (min 9223372036854775807 value))

/-- A number that fits `int64_t`. -/
def FitsInt64 (value : Int) : Prop :=
  -9223372036854775808 ≤ value ∧ value ≤ 9223372036854775807

theorem fitsInt64_toInt (i : Int64) : FitsInt64 i.toInt := ⟨i.le_toInt, i.toInt_le⟩

theorem nearestInt64_toInt (i : Int64) : nearestInt64 i.toInt = i := by
  obtain ⟨low, high⟩ := fitsInt64_toInt i
  rw [nearestInt64, min_eq_right high, max_eq_right low, Int64.ofInt_toInt]

theorem FitsInt64.toInt_ofInt {value : Int} (fits : FitsInt64 value) :
    (Int64.ofInt value).toInt = value :=
  Int64.toInt_ofInt_of_le fits.1 (Int.lt_of_le_of_lt fits.2 (by decide))

theorem FitsInt64.toInt_nearestInt64 {value : Int} (fits : FitsInt64 value) :
    (nearestInt64 value).toInt = value := by
  rw [nearestInt64, min_eq_right fits.2, max_eq_right fits.1, fits.toInt_ofInt]

theorem isDigit_bounds {char : UInt8} (digit : isDigit char = true) :
    48 ≤ char.toNat ∧ char.toNat ≤ 57 := by
  rw [isDigit, Bool.and_eq_true, decide_eq_true_eq, decide_eq_true_eq, UInt8.le_iff_toNat_le,
    UInt8.le_iff_toNat_le] at digit
  exact digit

theorem isSpace_isDigit {char : UInt8} (digit : isDigit char = true) : isSpace char = false := by
  obtain ⟨low, high⟩ := isDigit_bounds digit
  simp only [isSpace, Bool.or_eq_false_iff, beq_eq_false_iff_ne, Bool.and_eq_false_iff,
    decide_eq_false_iff_not, UInt8.le_iff_toNat_le, ne_eq, ← UInt8.toNat_inj]
  exact ⟨fun space => absurd low (by rw [space]; decide),
    .inr fun high => absurd (low.trans high) (by decide)⟩

/-- A sign with digits starts with neither white space nor nothing. -/
theorem IsSign.start {sign digits : List UInt8} {negative : Bool} (isSign : IsSign sign negative)
    (areDigits : AreDigits digits) (rest : List UInt8) :
    ∃ first others, sign ++ digits ++ rest = first :: others ∧ isSpace first = false := by
  cases isSign with
  | absent =>
      obtain ⟨first, others, rfl⟩ := List.exists_cons_of_ne_nil areDigits.nonempty
      exact ⟨first, others ++ rest, rfl, isSpace_isDigit (areDigits.all first (by simp))⟩
  | plus => exact ⟨43, digits ++ rest, rfl, by decide⟩
  | minus => exact ⟨45, digits ++ rest, rfl, by decide⟩

theorem dropWhile_spaces {spaces text : List UInt8} (areSpaces : ∀ char ∈ spaces, isSpace char)
    {first : UInt8} {others : List UInt8} (start : text = first :: others)
    (notSpace : isSpace first = false) : (spaces ++ text).dropWhile isSpace = text := by
  rw [List.dropWhile_append_of_pos areSpaces, start, List.dropWhile_cons, notSpace]
  rfl

theorem takeWhile_digits {digits rest : List UInt8} (areDigits : AreDigits digits)
    (ends : EndsNumber rest) : (digits ++ rest).takeWhile isDigit = digits := by
  have none : rest.takeWhile isDigit = [] := by
    cases rest with
    | nil => rfl
    | cons char rest => rw [List.takeWhile_cons, ends char rfl, if_neg Bool.false_ne_true]
  rw [List.takeWhile_append_of_pos areDigits.all, none, List.append_nil]

/-- What `strtoll` does with the text behind white space and the sign. -/
theorem strtoll_unsigned {digits rest : List UInt8} (areDigits : AreDigits digits)
    (ends : EndsNumber rest) (string : List UInt8) (negative : Bool) :
    (if (digits ++ rest).takeWhile isDigit = [] then ((0 : Int64), string)
      else (Int64.ofInt (max (-9223372036854775808) (min 9223372036854775807
          (if negative then -(digitsValue ((digits ++ rest).takeWhile isDigit) : Int)
            else digitsValue ((digits ++ rest).takeWhile isDigit)))),
        (digits ++ rest).drop ((digits ++ rest).takeWhile isDigit).length)) =
      (nearestInt64 (signedValue negative digits), rest) := by
  rw [takeWhile_digits areDigits ends, if_neg areDigits.nonempty, List.drop_left]
  rfl

/-- `strtoll` reads a number and stops behind its digits. -/
theorem strtoll_number {spaces sign digits rest : List UInt8} {negative : Bool}
    (areSpaces : ∀ char ∈ spaces, isSpace char) (isSign : IsSign sign negative)
    (areDigits : AreDigits digits) (ends : EndsNumber rest) :
    strtoll (spaces ++ sign ++ digits ++ rest) =
      (nearestInt64 (signedValue negative digits), rest) := by
  obtain ⟨first, others, start, notSpace⟩ := isSign.start areDigits rest
  have unspaced : (spaces ++ sign ++ digits ++ rest).dropWhile isSpace =
      sign ++ digits ++ rest := by
    rw [List.append_assoc, List.append_assoc, ← List.append_assoc sign]
    exact dropWhile_spaces areSpaces start notSpace
  rw [strtoll]
  simp only [unspaced]
  cases isSign with
  | plus => exact strtoll_unsigned areDigits ends _ false
  | minus => exact strtoll_unsigned areDigits ends _ true
  | absent =>
      obtain ⟨digit, more, rfl⟩ := List.exists_cons_of_ne_nil areDigits.nonempty
      have bounds := isDigit_bounds (areDigits.all digit (by simp))
      simp only [List.nil_append, List.cons_append]
      split
      case h_1 same =>
        cases same
        exact absurd bounds (by decide)
      case h_2 same =>
        cases same
        exact absurd bounds (by decide)
      case h_3 => exact strtoll_unsigned areDigits ends _ false

/-- A text starts with digits, or with none. -/
theorem digits_cases (text : List UInt8) : text.takeWhile isDigit = [] ∨
    ∃ digits rest, text = digits ++ rest ∧ AreDigits digits ∧ EndsNumber rest := by
  by_cases empty : text.takeWhile isDigit = []
  · exact .inl empty
  · refine .inr ⟨text.takeWhile isDigit, text.dropWhile isDigit, ?_, ⟨empty, ?_⟩, ?_⟩
    · exact List.takeWhile_append_dropWhile.symm
    · exact fun char member => List.mem_takeWhile_imp member
    · intro char first
      have notDigit := List.head?_dropWhile_not isDigit text
      rw [first] at notDigit
      exact notDigit

/-- `strtoll` returns zero and the start of a text without digits, or reads a number. -/
theorem strtoll_cases (string : List UInt8) : strtoll string = (0, string) ∨
    ∃ spaces sign negative digits rest, string = spaces ++ sign ++ digits ++ rest ∧
      (∀ char ∈ spaces, isSpace char = true) ∧ IsSign sign negative ∧ AreDigits digits ∧
      EndsNumber rest := by
  have areSpaces : ∀ char ∈ string.takeWhile isSpace, isSpace char = true :=
    fun char member => List.mem_takeWhile_imp member
  have split := (List.takeWhile_append_dropWhile (p := isSpace) (l := string)).symm
  have read {sign : List UInt8} {negative : Bool} (unsigned : List UInt8) (isSign : IsSign sign negative)
      (unspaced : string.dropWhile isSpace = sign ++ unsigned)
      (none : unsigned.takeWhile isDigit = [] → strtoll string = (0, string)) :
      strtoll string = (0, string) ∨
        ∃ spaces sign negative digits rest, string = spaces ++ sign ++ digits ++ rest ∧
          (∀ char ∈ spaces, isSpace char = true) ∧ IsSign sign negative ∧ AreDigits digits ∧
          EndsNumber rest := by
    obtain empty | ⟨digits, rest, rfl, areDigits, ends⟩ := digits_cases unsigned
    · exact .inl (none empty)
    · rw [unspaced, ← List.append_assoc, ← List.append_assoc] at split
      exact .inr ⟨_, sign, negative, digits, rest, split, areSpaces, isSign, areDigits, ends⟩
  by_cases minus : ∃ rest, string.dropWhile isSpace = 45 :: rest
  · obtain ⟨rest, unspaced⟩ := minus
    refine read rest .minus unspaced fun none => ?_
    rw [strtoll, unspaced]
    simp only [none]
    rfl
  · by_cases plus : ∃ rest, string.dropWhile isSpace = 43 :: rest
    · obtain ⟨rest, unspaced⟩ := plus
      refine read rest .plus unspaced fun none => ?_
      rw [strtoll, unspaced]
      simp only [none]
      rfl
    · refine read _ .absent rfl fun none => ?_
      rw [strtoll]
      dsimp only
      split
      case h_1 rest unspaced => exact absurd ⟨rest, unspaced⟩ minus
      case h_2 rest unspaced => exact absurd ⟨rest, unspaced⟩ plus
      case h_3 => rw [if_pos none]

/-- `%lld` prints a sign for a negative number, and digits. -/
theorem formatInt_parts (i : Int64) : ∃ sign negative digits,
    (formatInt i).chars = sign ++ digits ∧ IsSign sign negative ∧ AreDigits digits ∧
      signedValue negative digits = i.toInt := by
  have areDigits : AreDigits ((Nat.toDigits 10 i.toInt.natAbs).map Char.toUInt8) := by
    refine ⟨?_, fun char member => isDigit_of_mem_decimal member⟩
    rw [ne_eq, List.map_eq_nil_iff]
    exact Nat.toDigits_ne_nil
  have value := digitsValue_decimal i.toInt.natAbs
  by_cases negative : i < 0
  · refine ⟨[45], true, _, ?_, .minus, areDigits, ?_⟩
    · rw [formatInt, if_pos negative]
      change (45 :: (Nat.toDigits 10 i.toInt.natAbs).map Char.toUInt8).takeWhile (· != 0) = _
      rw [List.takeWhile_cons_of_pos (by decide)]
      exact congrArg (List.cons 45) (decimal_chars _)
    · have below : i.toInt < 0 := Int64.lt_iff_toInt_lt.mp negative
      rw [signedValue, if_pos rfl, value]
      omega
  · refine ⟨[], false, _, ?_, .absent, areDigits, ?_⟩
    · rw [formatInt, if_neg negative, List.nil_append, List.nil_append]
      exact decimal_chars _
    · have notBelow : ¬ i.toInt < (0 : Int64).toInt := mt Int64.lt_iff_toInt_lt.mpr negative
      rw [Int64.toInt_zero] at notBelow
      rw [signedValue, if_neg Bool.false_ne_true, value]
      omega

theorem formatInt_length (i : Int64) : (formatInt i).chars.length ≤ 21 := by
  have magnitude : i.toInt.natAbs < 10 ^ 20 := by
    have low := i.le_toInt
    have high := i.toInt_lt
    omega
  have digits := (Nat.length_toDigits_le_iff (by decide) (by decide)).mpr magnitude
  refine (List.takeWhile_sublist _).length_le.trans ?_
  rw [List.length_map, List.length_append]
  split
  · exact Nat.add_le_add (Nat.le_refl 1) digits
  · exact Nat.add_le_add (Nat.zero_le 1) digits

/-- `strtoll` reads what `%lld` has printed. -/
theorem strtoll_formatInt (i : Int64) : strtoll (formatInt i).chars = (i, []) := by
  obtain ⟨sign, negative, digits, text, isSign, areDigits, value⟩ := formatInt_parts i
  have read := @strtoll_number [] sign digits [] negative (by simp) isSign areDigits
    (by intro char first; cases first)
  rw [List.nil_append, List.append_nil, ← text, value, nearestInt64_toInt] at read
  exact read

end MiniSqlite.Storage
