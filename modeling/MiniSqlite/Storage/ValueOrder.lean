import MiniSqlite.Storage.Value

/-!
# The order of values

`value_compare` as a comparator. What it orders lawfully depends on the values that are
compared with each other: all of them have to be of comparable types, and no two integers
may convert to a double that occurs among them.
-/

namespace MiniSqlite.Storage

open MiniSqlite.Common

variable {Double : Type} [Platform Double]

/-! ## What C promises -/

/-- The sign of what `strcmp` returns orders strings by their bytes. -/
structure OrdersStrings (Double : Type) [Platform Double] : Prop where
  negative (a b : CString) : Platform.strcmp Double a b < 0 ↔ a.chars < b.chars
  positive (a b : CString) : 0 < Platform.strcmp Double a b ↔ b.chars < a.chars

/-- `isnan`. -/
def IsNan (d : Double) : Prop := Platform.equal d d = false

/-- Numbers among the doubles are ordered, and a conversion from integers keeps their order. -/
structure OrdersDoubles (Double : Type) [Platform Double] : Prop where
  asymm (a b : Double) : Platform.less a b = true → Platform.less b a = false
  trans (a b c : Double) : ¬ IsNan a → ¬ IsNan b → ¬ IsNan c →
    Platform.less b a = false → Platform.less c b = false → Platform.less c a = false
  ofInt_number (i : Int64) : ¬ IsNan (Platform.ofInt i : Double)
  ofInt_mono (i j : Int64) : i ≤ j →
    Platform.less (Platform.ofInt j : Double) (Platform.ofInt i) = false

/-! ## Comparators -/

/-- A comparison is a total preorder on a set, with signs for results. -/
structure LegalComparator {α : Type} (compare : α → α → Int) (member : α → Prop) : Prop where
  sign (a b : α) : member a → member b → (compare a b).sign = -(compare b a).sign
  refl (a : α) : member a → compare a a = 0
  trans (a b c : α) : member a → member b → member c →
    compare a b ≤ 0 → compare b c ≤ 0 → compare a c ≤ 0

theorem threeWay_le {less greater : Bool} (asymm : less = true → greater = false) :
    threeWay less greater ≤ 0 ↔ greater = false := by
  cases less <;> cases greater <;> simp_all [threeWay]

theorem threeWay_swap {less greater : Bool} (asymm : less = true → greater = false) :
    threeWay greater less = -threeWay less greater := by
  cases less <;> cases greater <;> simp_all [threeWay]

theorem threeWay_none : threeWay false false = 0 := rfl

section Numbers

variable (doubles : OrdersDoubles Double)
include doubles

theorem OrdersDoubles.irrefl (d : Double) : Platform.less d d = false := by
  cases less : Platform.less d d with
  | false => rfl
  | true => rw [← less, doubles.asymm d d less]

theorem compareDoubles_le (a b : Double) :
    compareDoubles a b ≤ 0 ↔ Platform.less b a = false :=
  threeWay_le (doubles.asymm a b)

theorem compareDoubles_swap (a b : Double) : compareDoubles b a = -compareDoubles a b :=
  threeWay_swap (doubles.asymm a b)

theorem compareDoubles_refl (d : Double) : compareDoubles d d = 0 := by
  rw [compareDoubles, doubles.irrefl, threeWay_none]

omit doubles in
/-- Two doubles compare equal that are neither less than the other. -/
theorem compareDoubles_zero {a b : Double} (notLess : Platform.less a b = false)
    (notGreater : Platform.less b a = false) : compareDoubles a b = 0 := by
  rw [compareDoubles, notLess, notGreater, threeWay_none]

end Numbers

theorem int64_asymm (a b : Int64) : decide (a < b) = true → decide (b < a) = false := by
  simp only [decide_eq_true_eq, decide_eq_false_iff_not, Int64.lt_iff_toInt_lt]
  omega

theorem compareIntegers_le (a b : Int64) : threeWay (a < b) (b < a) ≤ 0 ↔ a ≤ b := by
  rw [threeWay_le (int64_asymm a b), decide_eq_false_iff_not, Int64.lt_iff_toInt_lt,
    Int64.le_iff_toInt_le]
  omega

section Strings

variable (strings : OrdersStrings Double)
include strings

theorem strcmp_le (a b : CString) : Platform.strcmp Double a b ≤ 0 ↔ a.chars ≤ b.chars := by
  rw [← Int.not_lt, strings.positive, List.not_lt]

theorem strcmp_refl (a : CString) : Platform.strcmp Double a a = 0 := by
  have notNegative := mt (strings.negative a a).mp (List.lt_irrefl _)
  have notPositive := mt (strings.positive a a).mp (List.lt_irrefl _)
  omega

theorem strcmp_sign (a b : CString) :
    (Platform.strcmp Double a b).sign = -(Platform.strcmp Double b a).sign := by
  have negative := (strings.negative a b).trans (strings.positive b a).symm
  have positive := (strings.positive a b).trans (strings.negative b a).symm
  rcases Int.lt_trichotomy (Platform.strcmp Double a b) 0 with less | equal | greater
  · rw [Int.sign_eq_neg_one_of_neg less, Int.sign_eq_one_of_pos (negative.mp less)]
  · have other : Platform.strcmp Double b a = 0 := by omega
    rw [equal, other]
    rfl
  · rw [Int.sign_eq_one_of_pos greater, Int.sign_eq_neg_one_of_neg (positive.mp greater)]
    rfl

end Strings

/-! ## Which values compare as they should -/

omit [Platform Double] in
/-- Values of the two types of numbers. -/
def IsNumber (v : Value Double) : Prop := v.type = .integer ∨ v.type = .float

omit [Platform Double] in
/-- Two values of one type, or two numbers. -/
def Comparable (a b : Value Double) : Prop := a.type = b.type ∨ IsNumber a ∧ IsNumber b

omit [Platform Double] in
theorem Comparable.symm {a b : Value Double} (comparable : Comparable a b) : Comparable b a := by
  obtain same | ⟨first, second⟩ := comparable
  · exact .inl same.symm
  · exact .inr ⟨second, first⟩

/-- The shapes of two comparable values. -/
inductive ComparedPair {Double : Type} : Value Double → Value Double → Prop where
  | nulls : ComparedPair .null .null
  | integers (i j : Int64) : ComparedPair (.integer i) (.integer j)
  | floats (d e : Double) : ComparedPair (.float d) (.float e)
  | strings (s t : CString) : ComparedPair (.varchar s) (.varchar t)
  | booleans (b c : Bool) : ComparedPair (.boolean b) (.boolean c)
  | integerFloat (i : Int64) (d : Double) : ComparedPair (.integer i) (.float d)
  | floatInteger (d : Double) (i : Int64) : ComparedPair (.float d) (.integer i)

omit [Platform Double] in
theorem Comparable.pair {a b : Value Double} (comparable : Comparable a b) :
    ComparedPair a b := by
  cases a <;> cases b <;>
    first
    | constructor
    | simp [Comparable, IsNumber, Value.type] at comparable

/-- `value_compare` returns an error code for values of types that it does not compare. -/
theorem valueCompare_incomparable {a b : Value Double} (aPresent : a.isNull = false)
    (bPresent : b.isNull = false) (incomparable : ¬ Comparable a b) :
    valueCompare a b = ErrorCode.typeMismatch.code := by
  cases a <;> cases b <;> simp_all [Value.isNull, Comparable, IsNumber, Value.type, valueCompare]

/-- `NULL` is least. -/
theorem valueCompare_null_le (v : Value Double) : valueCompare .null v ≤ 0 := by
  cases v <;> simp [valueCompare]

theorem eq_null_of_le {v : Value Double} (le : valueCompare v .null ≤ 0) : v = .null := by
  cases v <;> simp [valueCompare] at le ⊢

theorem compareBooleans_le (a b : Bool) :
    valueCompare (.boolean a : Value Double) (.boolean b) ≤ 0 ↔ a ≤ b := by
  cases a <;> cases b <;> simp [valueCompare]

theorem compareBooleans_swap (a b : Bool) : valueCompare (.boolean b : Value Double) (.boolean a) =
    -valueCompare (.boolean a : Value Double) (.boolean b) := by
  cases a <;> cases b <;> simp [valueCompare]

section Platforms

variable (doubles : OrdersDoubles Double) (strings : OrdersStrings Double)
include doubles strings

/-- Each type's comparison of a value with itself gives zero. -/
theorem valueCompare_refl (v : Value Double) : valueCompare v v = 0 := by
  cases v with
  | integer i =>
      have notLess : ¬ i < i := by simp
      simp [valueCompare, threeWay]
  | float d => exact compareDoubles_refl doubles d
  | varchar s => exact strcmp_refl strings s
  | boolean b => simp [valueCompare]
  | null => rfl

/-- The results for comparable values in the two orders have opposite signs. -/
theorem Comparable.sign {a b : Value Double} (comparable : Comparable a b) :
    (valueCompare a b).sign = -(valueCompare b a).sign := by
  have negated {x y : Int} (swap : y = -x) : x.sign = -y.sign := by
    rw [swap, Int.sign_neg, Int.neg_neg]
  cases comparable.pair with
  | nulls => rfl
  | integers i j => exact negated (threeWay_swap (int64_asymm i j))
  | floats d e => exact negated (compareDoubles_swap doubles d e)
  | strings s t => exact strcmp_sign strings s t
  | booleans b c => exact negated (compareBooleans_swap b c)
  | integerFloat i d => exact negated (compareDoubles_swap doubles (Platform.ofInt i) d)
  | floatInteger d i => exact negated (compareDoubles_swap doubles d (Platform.ofInt i))

theorem valueCompare_sign {a b : Value Double}
    (comparable : a.isNull = false → b.isNull = false → Comparable a b) :
    (valueCompare a b).sign = -(valueCompare b a).sign := by
  cases aNull : a.isNull with
  | true =>
      cases a <;> simp [Value.isNull] at aNull
      cases b <;> rfl
  | false =>
      cases bNull : b.isNull with
      | true =>
          cases b <;> simp [Value.isNull] at bNull
          cases a <;> simp [Value.isNull] at aNull <;> rfl
      | false => exact (comparable aNull bNull).sign doubles strings

omit doubles strings in
/-- A value that is not greater is `NULL` or of a comparable type. -/
theorem null_or_comparable {a b : Value Double} (le : valueCompare a b ≤ 0) :
    a = .null ∨ Comparable a b := by
  by_cases comparable : Comparable a b
  · exact .inr comparable
  · left
    cases bNull : b.isNull with
    | true =>
        cases b <;> simp [Value.isNull] at bNull
        exact eq_null_of_le le
    | false =>
        cases aNull : a.isNull with
        | true => cases a <;> simp_all [Value.isNull]
        | false =>
            rw [valueCompare_incomparable aNull bNull comparable] at le
            exact absurd le (by decide)

omit strings in
/-- Integers on both sides of a double are in order unless they convert to that double. -/
theorem integers_around {i j : Int64} {d : Double} (number : ¬ IsNan d)
    (apart : compareDoubles (Platform.ofInt i) d = 0 → compareDoubles (Platform.ofInt j) d = 0 →
      i = j)
    (lower : Platform.less d (Platform.ofInt i) = false)
    (upper : Platform.less (Platform.ofInt j) d = false) : i ≤ j := by
  by_contra above
  have descending : j ≤ i := by
    rw [Int64.le_iff_toInt_le] at above ⊢
    omega
  have converted := doubles.ofInt_mono j i descending
  have iNumber := doubles.ofInt_number i
  have jNumber := doubles.ofInt_number j
  have iAbove := doubles.trans d (Platform.ofInt j) (Platform.ofInt i) number jNumber iNumber
    upper converted
  have jBelow := doubles.trans (Platform.ofInt j) (Platform.ofInt i) d jNumber iNumber number
    converted lower
  have equal := apart (compareDoubles_zero iAbove lower) (compareDoubles_zero upper jBelow)
  rw [equal] at above
  exact above (Int64.le_refl j)

/-- Among values of which no two integers convert to one of the doubles, the order is
transitive. -/
theorem valueCompare_trans {a b c : Value Double}
    (numbers : ∀ v ∈ [a, b, c], ∀ d, v = .float d → ¬ IsNan d)
    (apart : ∀ i j d, a = .integer i → c = .integer j → b = .float d →
      compareDoubles (Platform.ofInt i) d = 0 → compareDoubles (Platform.ofInt j) d = 0 → i = j)
    (first : valueCompare a b ≤ 0) (second : valueCompare b c ≤ 0) : valueCompare a c ≤ 0 := by
  have aNumber := numbers a (by simp)
  have bNumber := numbers b (by simp)
  have cNumber := numbers c (by simp)
  have le (x y : Double) := compareDoubles_le doubles x y
  obtain rfl | aSide := null_or_comparable first
  · exact valueCompare_null_le c
  obtain rfl | cSide := null_or_comparable second
  · rw [eq_null_of_le first]
    exact valueCompare_null_le c
  cases aSide.pair with
  | nulls => exact second
  | integers i j =>
      have lower := (compareIntegers_le i j).mp first
      cases cSide.pair with
      | integers _ k =>
          have upper := (compareIntegers_le j k).mp second
          exact (compareIntegers_le i k).mpr (Int64.le_trans lower upper)
      | integerFloat _ d =>
          exact (le _ d).mpr (doubles.trans _ _ d (doubles.ofInt_number i)
            (doubles.ofInt_number j) (cNumber d rfl) (doubles.ofInt_mono i j lower)
            ((le _ d).mp second))
  | floats d e =>
      cases cSide.pair with
      | floats _ f =>
          exact (le d f).mpr (doubles.trans d e f (aNumber d rfl) (bNumber e rfl)
            (cNumber f rfl) ((le d e).mp first) ((le e f).mp second))
      | floatInteger _ k =>
          exact (le d _).mpr (doubles.trans d e _ (aNumber d rfl) (bNumber e rfl)
            (doubles.ofInt_number k) ((le d e).mp first) ((le e _).mp second))
  | strings s t =>
      cases cSide.pair with
      | strings _ u =>
          exact (strcmp_le strings s u).mpr
            (List.le_trans ((strcmp_le strings s t).mp first) ((strcmp_le strings t u).mp second))
  | booleans x y =>
      cases cSide.pair with
      | booleans _ z =>
          exact (compareBooleans_le x z).mpr
            (Bool.le_trans ((compareBooleans_le x y).mp first) ((compareBooleans_le y z).mp second))
  | integerFloat i d =>
      have lower := (le _ d).mp first
      cases cSide.pair with
      | floats _ e =>
          exact (le _ e).mpr (doubles.trans _ d e (doubles.ofInt_number i) (bNumber d rfl)
            (cNumber e rfl) lower ((le d e).mp second))
      | floatInteger _ k =>
          exact (compareIntegers_le i k).mpr (integers_around doubles (bNumber d rfl)
            (apart i k d rfl rfl rfl) lower ((le d _).mp second))
  | floatInteger d i =>
      have lower := (le d _).mp first
      cases cSide.pair with
      | integers _ k =>
          have upper := (compareIntegers_le i k).mp second
          exact (le d _).mpr (doubles.trans d _ _ (aNumber d rfl) (doubles.ofInt_number i)
            (doubles.ofInt_number k) lower (doubles.ofInt_mono i k upper))
      | integerFloat _ e =>
          exact (le d e).mpr (doubles.trans d _ e (aNumber d rfl) (doubles.ofInt_number i)
            (cNumber e rfl) lower ((le _ e).mp second))

end Platforms

/-! ## Values that can be sorted -/

/-- Values of which any two but `NULL` are comparable, and of which no two integers compare
equal to one double. -/
structure Sortable (member : Value Double → Prop) : Prop where
  comparable (a b : Value Double) : member a → member b → a.isNull = false → b.isNull = false →
    Comparable a b
  apart (i j : Int64) (d : Double) : member (.integer i) → member (.integer j) →
    member (.float d) → compareDoubles (Platform.ofInt i) d = 0 →
    compareDoubles (Platform.ofInt j) d = 0 → i = j

/-- `value_compare` is a total preorder on the values that are compared with each other if
and only if these can be sorted. -/
theorem valueCompare_legal_iff (doubles : OrdersDoubles Double) (strings : OrdersStrings Double)
    (member : Value Double → Prop) (numbers : ∀ d, member (.float d) → ¬ IsNan d) :
    LegalComparator valueCompare member ↔ Sortable member := by
  constructor
  · intro legal
    constructor
    · intro a b aMember bMember aPresent bPresent
      by_contra incomparable
      have sign := legal.sign a b aMember bMember
      rw [valueCompare_incomparable aPresent bPresent incomparable,
        valueCompare_incomparable bPresent aPresent (mt Comparable.symm incomparable)] at sign
      exact absurd sign (by decide)
    · intro i j d iMember jMember dMember iEqual jEqual
      -- Each of the integers is at most the double and this at most the other integer.
      have around {x y : Int64} (xMember : member (.integer x)) (yMember : member (.integer y))
          (xEqual : compareDoubles (Platform.ofInt x) d = 0)
          (yEqual : compareDoubles (Platform.ofInt y) d = 0) : x ≤ y := by
        have swapped := compareDoubles_swap doubles (Platform.ofInt y) d
        rw [yEqual] at swapped
        exact (compareIntegers_le x y).mp (legal.trans _ _ _ xMember dMember yMember
          (le_of_eq xEqual) (le_of_eq swapped))
      exact Int64.le_antisymm (around iMember jMember iEqual jEqual)
        (around jMember iMember jEqual iEqual)
  · intro sortable
    constructor
    · intro a b aMember bMember
      exact valueCompare_sign doubles strings (sortable.comparable a b aMember bMember)
    · intro a _
      exact valueCompare_refl doubles strings a
    · intro a b c aMember bMember cMember
      refine valueCompare_trans doubles strings ?_ ?_
      · intro v vMember d isFloat
        have vIn : member v := by
          simp only [List.mem_cons, List.not_mem_nil, or_false] at vMember
          obtain rfl | rfl | rfl := vMember <;> assumption
        exact numbers d (isFloat ▸ vIn)
      · intro i j d aInteger cInteger bFloat
        exact sortable.apart i j d (aInteger ▸ aMember) (cInteger ▸ cMember) (bFloat ▸ bMember)

/-- An integer and a string compare greater than each other. -/
theorem mixedColumn_illegal : ¬ LegalComparator valueCompare fun _ : Value Int => True := by
  intro legal
  have sign := legal.sign (.integer 1) (.varchar .empty) trivial trivial
  exact absurd sign (by decide)

/-- The integers as doubles are ordered as doubles are. -/
theorem integers_ordersDoubles : OrdersDoubles Int where
  asymm a b less := by
    simp only [Platform.less, decide_eq_true_eq, decide_eq_false_iff_not] at less ⊢
    omega
  trans a b c _ _ _ first second := by
    simp only [Platform.less, decide_eq_false_iff_not] at first second ⊢
    omega
  ofInt_number i := by simp [IsNan, Platform.equal]
  ofInt_mono i j le := by
    rw [Int64.le_iff_toInt_le] at le
    simp only [Platform.less, Platform.ofInt, decide_eq_false_iff_not]
    omega

theorem integers_ordersStrings : OrdersStrings Int where
  negative a b := by
    have strict : a.chars = b.chars → ¬ a.chars < b.chars := fun same => same ▸ List.lt_irrefl _
    simp only [Platform.strcmp]
    split
    · simp_all
    · split <;> simp_all
  positive a b := by
    simp only [Platform.strcmp]
    split
    case isTrue same => simp [same]
    case isFalse differ =>
      split
      case isTrue less => simp [List.lt_asymm less]
      case isFalse notLess =>
        refine ⟨fun _ => ?_, fun _ => by decide⟩
        by_contra notGreater
        rw [List.not_lt] at notLess notGreater
        exact differ (List.le_antisymm notGreater notLess)

/-- A column of `NULL`, a `2` and a `3.0` can be sorted. -/
theorem numberColumn_legal : LegalComparator valueCompare
    fun v : Value Int => v ∈ [.null, .integer 2, .float 3] :=
  (valueCompare_legal_iff integers_ordersDoubles integers_ordersStrings _
    (by intro d _; simp [IsNan, Platform.equal])).mpr
    { comparable := by
        intro a b aMember bMember aPresent bPresent
        simp only [List.mem_cons, List.not_mem_nil, or_false] at aMember bMember
        rcases aMember with rfl | rfl | rfl <;> rcases bMember with rfl | rfl | rfl <;>
          simp_all [Comparable, IsNumber, Value.type, Value.isNull]
      apart := by
        intro i j d iMember jMember _ _ _
        simp_all }

end MiniSqlite.Storage
