import MiniSqlite.Storage.Decimals

/-!
# Casts between integers and strings

`value_cast_to` prints an integer and reads a string with `strtoll`, of which it checks
nothing but what stands where `strtoll` has stopped: the end of the string or a dot.
-/

namespace MiniSqlite.Storage

open MiniSqlite.Common

/-! ## Decimal numbers with a fraction -/

/-- The end of a number, or a dot and digits behind it. -/
def IsFraction (rest : List UInt8) : Prop :=
  rest = [] ∨ ∃ digits, rest = 46 :: digits ∧ AreDigits digits

/-- A text is a decimal number with this integer part. -/
def Denotes (text : List UInt8) (value : Int) : Prop :=
  ∃ sign negative digits rest, text = sign ++ digits ++ rest ∧ IsSign sign negative ∧
    AreDigits digits ∧ IsFraction rest ∧ signedValue negative digits = value

/-- `*end == '\0' || *end == '.'`. -/
def StopsCleanly (rest : List UInt8) : Prop := rest = [] ∨ rest.head? = some 46

theorem StopsCleanly.ends {rest : List UInt8} (stops : StopsCleanly rest) : EndsNumber rest := by
  intro char first
  obtain rfl | dot := stops
  · cases first
  · rw [dot] at first
    cases first
    decide

theorem IsFraction.stops {rest : List UInt8} (fraction : IsFraction rest) :
    StopsCleanly rest := by
  obtain rfl | ⟨digits, rfl, _⟩ := fraction
  · exact .inl rfl
  · exact .inr rfl

/-- Digits at the start of a text and what stands behind them. -/
theorem digits_unique {digits rest digits' rest' : List UInt8} (areDigits : AreDigits digits)
    (ends : EndsNumber rest) (areDigits' : AreDigits digits') (ends' : EndsNumber rest')
    (same : digits ++ rest = digits' ++ rest') : digits = digits' ∧ rest = rest' := by
  have taken := takeWhile_digits areDigits ends
  rw [same, takeWhile_digits areDigits' ends'] at taken
  subst taken
  exact ⟨rfl, List.append_cancel_left same⟩

theorem AreDigits.ne_sign {digits rest others : List UInt8} (areDigits : AreDigits digits)
    {char : UInt8} (notDigit : isDigit char = false) : digits ++ rest ≠ char :: others := by
  intro same
  obtain ⟨first, more, rfl⟩ := List.exists_cons_of_ne_nil areDigits.nonempty
  cases same
  exact absurd (areDigits.all char (by simp)) (by rw [notDigit]; exact Bool.false_ne_true)

/-- A text is a sign, digits and what follows in one way. -/
theorem number_unique {sign digits rest sign' digits' rest' : List UInt8}
    {negative negative' : Bool} (isSign : IsSign sign negative) (areDigits : AreDigits digits)
    (ends : EndsNumber rest) (isSign' : IsSign sign' negative') (areDigits' : AreDigits digits')
    (ends' : EndsNumber rest') (same : sign ++ digits ++ rest = sign' ++ digits' ++ rest') :
    negative = negative' ∧ digits = digits' ∧ rest = rest' := by
  have unique := digits_unique areDigits ends areDigits' ends'
  cases isSign with
  | absent =>
      cases isSign' with
      | absent => exact ⟨rfl, unique same⟩
      | plus => exact absurd same (areDigits.ne_sign (by decide))
      | minus => exact absurd same (areDigits.ne_sign (by decide))
  | plus =>
      cases isSign' with
      | absent => exact absurd same.symm (areDigits'.ne_sign (by decide))
      | plus => exact ⟨rfl, unique (List.cons.inj same).2⟩
      | minus => exact absurd (List.cons.inj same).1 (by decide)
  | minus =>
      cases isSign' with
      | absent => exact absurd same.symm (areDigits'.ne_sign (by decide))
      | plus => exact absurd (List.cons.inj same).1 (by decide)
      | minus => exact ⟨rfl, unique (List.cons.inj same).2⟩

/-- No white space stands in front of a decimal number. -/
theorem spaces_nil {sign digits rest spaces text : List UInt8} {negative : Bool}
    (isSign : IsSign sign negative) (areDigits : AreDigits digits)
    (areSpaces : ∀ char ∈ spaces, isSpace char = true)
    (same : sign ++ digits ++ rest = spaces ++ text) : spaces = [] := by
  obtain ⟨first, others, start, notSpace⟩ := isSign.start areDigits rest
  cases spaces with
  | nil => rfl
  | cons space spaces =>
      rw [start] at same
      cases same
      rw [areSpaces first (by simp)] at notSpace
      cases notSpace

/-! ## The cast of a string -/

variable {Double : Type} [Platform Double]

theorem castToInteger_accepts {string : CString} {i : Int64} {rest : List UInt8}
    (read : strtoll string.chars = (i, rest)) (stops : StopsCleanly rest) :
    valueCastTo (.varchar string : Value Double) .integer = pure (.integer i) := by
  obtain rfl | dot := stops
  · simp [valueCastTo, Value.type, read]
  · cases rest with
    | nil => cases dot
    | cons char rest =>
        cases dot
        simp [valueCastTo, Value.type, read]

theorem castToInteger_rejects {string : CString} {i : Int64} {rest : List UInt8}
    (read : strtoll string.chars = (i, rest)) (stops : ¬ StopsCleanly rest) :
    valueCastTo (.varchar string : Value Double) .integer = throw .typeMismatch := by
  cases rest with
  | nil => exact absurd (.inl rfl) stops
  | cons char rest =>
      have notDot : char ≠ 46 := fun dot => stops (.inr (congrArg some dot))
      simp [valueCastTo, Value.type, read, notDot]

/-- `strtoll` reads the integer part of a decimal number. -/
theorem Denotes.read {text : List UInt8} {i : Int64} (denotes : Denotes text i.toInt) :
    ∃ rest, strtoll text = (i, rest) ∧ StopsCleanly rest := by
  obtain ⟨sign, negative, digits, rest, rfl, isSign, areDigits, fraction, value⟩ := denotes
  have read := @strtoll_number [] sign digits rest negative (by simp) isSign areDigits fraction.stops.ends
  rw [List.nil_append, value, nearestInt64_toInt] at read
  exact ⟨rest, read, fraction.stops⟩

/-- What the cast of a string to `INTEGER` has to be. -/
structure CastsLawfully (Double : Type) [Platform Double] (string : CString) : Prop where
  accepted (i : Int64) : Denotes string.chars i.toInt →
    valueCastTo (.varchar string : Value Double) .integer = pure (.integer i)
  rejected : (¬ ∃ i : Int64, Denotes string.chars i.toInt) →
    valueCastTo (.varchar string : Value Double) .integer = throw .typeMismatch

/-- A string on which `strtoll` does not go beyond what is a number: it has digits before a
dot, and where a number stops cleanly, this is the whole string but for its fraction. -/
structure ReadsWhole (string : CString) : Prop where
  notEmpty : string.chars ≠ []
  notDot : string.chars.head? ≠ some 46
  number (spaces sign : List UInt8) (negative : Bool) (digits rest : List UInt8) :
    string.chars = spaces ++ sign ++ digits ++ rest → (∀ char ∈ spaces, isSpace char = true) →
    IsSign sign negative → AreDigits digits → StopsCleanly rest →
    spaces = [] ∧ FitsInt64 (signedValue negative digits) ∧ IsFraction rest

/-- A number starts neither with nothing nor with a dot. -/
theorem number_start {spaces sign digits rest : List UInt8} {negative : Bool}
    (areSpaces : ∀ char ∈ spaces, isSpace char = true) (isSign : IsSign sign negative)
    (areDigits : AreDigits digits) : ¬ StopsCleanly (spaces ++ sign ++ digits ++ rest) := by
  rintro (empty | dot)
  · simp only [List.append_eq_nil_iff] at empty
    exact areDigits.nonempty empty.1.2
  · cases spaces with
    | cons space spaces =>
        cases Option.some.inj dot
        exact absurd (areSpaces 46 (by simp)) (by decide)
    | nil =>
        obtain ⟨others, same⟩ := List.head?_eq_some_iff.mp dot
        cases isSign with
        | absent => exact areDigits.ne_sign (by decide) same
        | plus => exact absurd (List.cons.inj same).1 (by decide)
        | minus => exact absurd (List.cons.inj same).1 (by decide)

theorem not_denotes {text : List UInt8} (start : StopsCleanly text) {value : Int} :
    ¬ Denotes text value := by
  rintro ⟨sign, negative, digits, rest, rfl, isSign, areDigits, _, _⟩
  exact @number_start [] sign digits rest negative (by simp) isSign areDigits start

theorem strtoll_notNumber {text : List UInt8} (start : StopsCleanly text) :
    strtoll text = (0, text) := by
  obtain none | ⟨spaces, sign, negative, digits, rest, rfl, areSpaces, isSign, areDigits, _⟩ :=
    strtoll_cases text
  · exact none
  · exact absurd start (number_start areSpaces isSign areDigits)

/-- The cast of a string is lawful if and only if `strtoll` reads no more than a number. -/
theorem castsLawfully_iff (string : CString) :
    CastsLawfully Double string ↔ ReadsWhole string := by
  constructor
  · intro lawful
    have notClean : ¬ StopsCleanly string.chars := by
      intro start
      have accepts : valueCastTo (.varchar string : Value Double) .integer = pure (.integer 0) :=
        castToInteger_accepts (strtoll_notNumber start) start
      have rejects := lawful.rejected fun ⟨_, denotes⟩ => not_denotes start denotes
      rw [accepts] at rejects
      cases rejects
    constructor
    · exact fun empty => notClean (.inl empty)
    · exact fun dot => notClean (.inr dot)
    · intro spaces sign negative digits rest text areSpaces isSign areDigits stops
      have read := strtoll_number areSpaces isSign areDigits stops.ends
      rw [← text] at read
      have accepts := @castToInteger_accepts Double _ _ _ _ read stops
      have number : ∃ i : Int64, Denotes string.chars i.toInt := by
        by_contra none
        have rejects := lawful.rejected none
        rw [accepts] at rejects
        cases rejects
      obtain ⟨i, sign', negative', digits', rest', text', isSign', areDigits', fraction',
        value⟩ := number
      rw [text] at text'
      have unspaced : spaces = [] :=
        @spaces_nil _ _ _ _ (sign ++ digits ++ rest) _ isSign' areDigits' areSpaces
          (by rw [← text']; simp only [List.append_assoc])
      rw [unspaced, List.nil_append] at text'
      obtain ⟨rfl, rfl, rfl⟩ :=
        number_unique isSign areDigits stops.ends isSign' areDigits' fraction'.stops.ends text'
      exact ⟨unspaced, value ▸ fitsInt64_toInt i, fraction'⟩
  · intro whole
    constructor
    · intro i denotes
      obtain ⟨rest, read, stops⟩ := denotes.read
      exact castToInteger_accepts read stops
    · intro notNumber
      obtain none | ⟨spaces, sign, negative, digits, rest, text, areSpaces, isSign, areDigits,
        ends⟩ := strtoll_cases string.chars
      · refine castToInteger_rejects none ?_
        rintro (empty | dot)
        · exact whole.notEmpty empty
        · exact whole.notDot dot
      · have read := strtoll_number areSpaces isSign areDigits ends
        rw [← text] at read
        refine castToInteger_rejects read fun stops => notNumber ?_
        obtain ⟨rfl, fits, fraction⟩ :=
          whole.number spaces sign negative digits rest text areSpaces isSign areDigits stops
        refine ⟨nearestInt64 (signedValue negative digits), sign, negative, digits, rest, text,
          isSign, areDigits, fraction, ?_⟩
        exact fits.toInt_nearestInt64.symm

/-- An integer comes back from its cast to `VARCHAR`, and casts of strings to `INTEGER` are
lawful for the strings of which `strtoll` reads no more than a number. -/
theorem valueCasts_iff :
    (∀ i : Int64, (do
      let text ← valueCastTo (.integer i : Value Double) .varchar
      valueCastTo text .integer) = pure (.integer i)) ∧
      ∀ string : CString, CastsLawfully Double string ↔ ReadsWhole string := by
  constructor
  · intro i
    have printed : valueCastTo (.integer i : Value Double) .varchar =
        pure (.varchar (formatInt i)) := rfl
    rw [printed, pure_bind]
    exact castToInteger_accepts (strtoll_formatInt i) (.inl rfl)
  · exact castsLawfully_iff

/-- The empty string is cast to zero. -/
theorem emptyString_unlawful : ¬ CastsLawfully Int CString.empty := by
  intro lawful
  have accepts : valueCastTo (.varchar .empty : Value Int) .integer = pure (.integer 0) := rfl
  have rejects := lawful.rejected fun ⟨_, denotes⟩ => not_denotes (.inl rfl) denotes
  rw [accepts] at rejects
  cases rejects

end MiniSqlite.Storage
