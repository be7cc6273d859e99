import MiniSqlite.Executor.TruthValues
import MiniSqlite.Storage.ValueOrder

/-!
# Comparisons of expressions

The six comparison operators of the evaluator, which read the order of two values off what
`value_compare` returns. A result below `-1` passes for an error code, and the error codes
there are pass for an order.
-/

namespace MiniSqlite.Executor

open MiniSqlite.Common MiniSqlite.Storage MiniSqlite.Parser

variable {Double : Type} [Platform Double]

/-- The comparison operators. -/
def comparisonOperators : List TokenType :=
  [.less, .lessEqual, .greater, .greaterEqual, .equal, .notEqual]

/-- What a comparison operator makes of the result of `value_compare`. -/
def compared (op : TokenType) (cmp : Int) : Value Double :=
  if cmp < -1 then .null else .boolean (comparison op cmp)

/-- The value of a comparison of two values that are not `NULL`. -/
theorem applyBinary_comparison {op : TokenType} (listed : op ∈ comparisonOperators)
    {left right : Value Double} (leftPresent : left.isNull = false)
    (rightPresent : right.isNull = false) :
    applyBinary op left right = pure (compared op (valueCompare left right)) := by
  simp only [comparisonOperators, List.mem_cons, List.not_mem_nil, or_false] at listed
  rcases listed with rfl | rfl | rfl | rfl | rfl | rfl <;>
    rw [applyBinary, leftPresent, rightPresent, Bool.or_self, if_neg Bool.false_ne_true] <;> rfl

omit [Platform Double] in
theorem compared_ordered {op : TokenType} {cmp : Int} (ordered : -1 ≤ cmp) :
    compared op cmp = (.boolean (comparison op cmp) : Value Double) := by
  rw [compared, if_neg (by omega)]

omit [Platform Double] in
theorem compared_lost {op : TokenType} {cmp : Int} (lost : cmp < -1) :
    compared op cmp = (.null : Value Double) := by
  rw [compared, if_pos lost]

/-! ## Trichotomy -/

/-- The answers of the operators are those of an order, which the operands in the other
order have the other way round. -/
structure FollowsOrder (answer swapped : TokenType → Checked (Value Double))
    (order : Ordering) : Prop where
  less : answer .less = pure (.boolean (order = .lt))
  equal : answer .equal = pure (.boolean (order = .eq))
  greater : answer .greater = pure (.boolean (order = .gt))
  lessEqual : answer .lessEqual = pure (.boolean (order ≠ .gt))
  greaterEqual : answer .greaterEqual = pure (.boolean (order ≠ .lt))
  notEqual : answer .notEqual = pure (.boolean (order ≠ .eq))
  converse : swapped .greater = answer .less

/-- All operators give one answer, and this is not `TRUE`. -/
def OneAnswer (answer : TokenType → Checked (Value Double)) : Prop :=
  (∃ v, v ≠ .boolean true ∧ ∀ op ∈ comparisonOperators, answer op = pure v) ∨
    ∀ op ∈ comparisonOperators, ∃ error : ErrorCode, answer op = throw error

/-- What comparisons of two expressions with values have to be. -/
structure ComparesLawfully (tuple : Option (Tuple Double)) (schema : SchemaPointer)
    (left right : Expr Double) (leftVal rightVal : Value Double) : Prop where
  ordered : Comparable leftVal rightVal → ∃ order, FollowsOrder
    (fun op => exprEvaluate tuple schema (.binary left op right))
    (fun op => exprEvaluate tuple schema (.binary right op left)) order
  unordered : ¬ Comparable leftVal rightVal →
    OneAnswer fun op => exprEvaluate tuple schema (.binary left op right)

/-- For strings `strcmp` returns no value below `-1`. -/
def StrcmpInRange (a b : Value Double) : Prop :=
  ∀ s t, a = .varchar s → b = .varchar t →
    -1 ≤ Platform.strcmp Double s t ∧ -1 ≤ Platform.strcmp Double t s

theorem threeWay_ge (less greater : Bool) : -1 ≤ threeWay less greater := by
  cases less <;> cases greater <;> decide

/-- Only `strcmp` returns what passes for an error code. -/
theorem valueCompare_ge {a b : Value Double} (comparable : Comparable a b)
    (inRange : StrcmpInRange a b) : -1 ≤ valueCompare a b := by
  cases comparable.pair with
  | nulls => simp [valueCompare]
  | integers i j => exact threeWay_ge _ _
  | floats d e => exact threeWay_ge _ _
  | strings s t => exact (inRange s t rfl rfl).1
  | booleans b c => cases b <;> cases c <;> simp [valueCompare]
  | integerFloat i d => exact threeWay_ge _ _
  | floatInteger d i => exact threeWay_ge _ _

omit [Platform Double] in
theorem pure_ne_throw (v : Value Double) (error : ErrorCode) :
    (pure v : Checked (Value Double)) ≠ throw error := by
  intro equal
  cases equal

omit [Platform Double] in
theorem pure_value_inj {v w : Value Double} (equal : (pure v : Checked (Value Double)) = pure w) :
    v = w := by
  cases equal
  rfl

section Answers

variable {tuple : Option (Tuple Double)} {schema : SchemaPointer} {left right : Expr Double}
  {leftVal rightVal : Value Double}

/-- The value of a comparison of two expressions. -/
theorem exprEvaluate_comparison (op : TokenType) (leftValue : Evaluates tuple schema left leftVal)
    (rightValue : Evaluates tuple schema right rightVal) (leftPresent : leftVal.isNull = false)
    (rightPresent : rightVal.isNull = false) (listed : op ∈ comparisonOperators) :
    exprEvaluate tuple schema (.binary left op right) =
      pure (compared op (valueCompare leftVal rightVal)) := by
  rw [exprEvaluate_binary op leftValue rightValue,
    applyBinary_comparison listed leftPresent rightPresent]

/-- The order that a result of `value_compare` stands for. -/
def orderOf (cmp : Int) : Ordering := if cmp < 0 then .lt else if cmp = 0 then .eq else .gt

theorem orderOf_negative {cmp : Int} (negative : cmp < 0) : orderOf cmp = .lt := by
  rw [orderOf, if_pos negative]

theorem orderOf_zero : orderOf 0 = .eq := rfl

theorem orderOf_positive {cmp : Int} (positive : 0 < cmp) : orderOf cmp = .gt := by
  rw [orderOf, if_neg (by omega), if_neg (by omega)]

omit [Platform Double] in
/-- The operators agree with the order that the result stands for. -/
theorem followsOrder {answer swapped : TokenType → Checked (Value Double)} {cmp back : Int}
    (answers : ∀ op ∈ comparisonOperators, answer op = pure (compared op cmp))
    (swaps : ∀ op ∈ comparisonOperators, swapped op = pure (compared op back))
    (ordered : -1 ≤ cmp) (backOrdered : -1 ≤ back) (sign : cmp.sign = -back.sign) :
    FollowsOrder answer swapped (orderOf cmp) := by
  have decided {op : TokenType} (listed : op ∈ comparisonOperators) {result : Bool}
      (agrees : comparison op cmp = result) : answer op = pure (.boolean result) := by
    rw [answers op listed, compared_ordered ordered, agrees]
  have converse : swapped .greater = answer .less := by
    have opposite : 0 < back ↔ cmp < 0 := by
      rw [← Int.sign_eq_one_iff_pos, ← Int.sign_eq_neg_one_iff_neg, sign]
      omega
    rw [swaps .greater (by decide), answers .less (by decide), compared_ordered ordered,
      compared_ordered backOrdered]
    simp [comparison, opposite]
  rcases Int.lt_trichotomy cmp 0 with negative | rfl | positive
  · rw [orderOf_negative negative]
    constructor
    case converse => exact converse
    all_goals
      refine decided (by decide) ?_
      simp only [comparison]
      simp
      omega
  · rw [orderOf_zero]
    constructor
    case converse => exact converse
    all_goals exact decided (by decide) rfl
  · rw [orderOf_positive positive]
    constructor
    case converse => exact converse
    all_goals
      refine decided (by decide) ?_
      simp only [comparison]
      simp
      omega

/-- Comparisons of two expressions are lawful if and only if the types of their values are
comparable and `strcmp` returns no value below `-1` for them. -/
theorem comparesLawfully_iff (doubles : OrdersDoubles Double) (strings : OrdersStrings Double)
    (tuple : Option (Tuple Double)) (schema : SchemaPointer) (left right : Expr Double)
    (leftVal rightVal : Value Double) (leftValue : Evaluates tuple schema left leftVal)
    (rightValue : Evaluates tuple schema right rightVal) (leftPresent : leftVal.isNull = false)
    (rightPresent : rightVal.isNull = false) :
    ComparesLawfully tuple schema left right leftVal rightVal ↔
      Comparable leftVal rightVal ∧ StrcmpInRange leftVal rightVal := by
  have answers := fun op listed =>
    exprEvaluate_comparison op leftValue rightValue leftPresent rightPresent listed
  have swaps := fun op listed =>
    exprEvaluate_comparison op rightValue leftValue rightPresent leftPresent listed
  constructor
  · intro lawful
    have comparable : Comparable leftVal rightVal := by
      by_contra incomparable
      -- The error code passes for "greater".
      have code := valueCompare_incomparable leftPresent rightPresent incomparable
      have less := answers .less (by decide)
      have greater := answers .greater (by decide)
      rw [code] at less greater
      obtain ⟨v, untrue, same⟩ | failed := lawful.unordered incomparable
      · exact untrue (pure_value_inj ((same .greater (by decide)).symm.trans greater))
      · obtain ⟨error, thrown⟩ := failed .less (by decide)
        exact pure_ne_throw _ _ (less.symm.trans thrown)
    refine ⟨comparable, ?_⟩
    obtain ⟨order, follows⟩ := lawful.ordered comparable
    rintro s t rfl rfl
    have less := answers .less (by decide)
    have back := swaps .greater (by decide)
    constructor
    · by_contra lost
      rw [compared_lost (by simpa [valueCompare] using lost), follows.less] at less
      cases less
    · by_contra lost
      rw [compared_lost (by simpa [valueCompare] using lost), follows.converse,
        follows.less] at back
      cases back
  · rintro ⟨comparable, inRange⟩
    have backRange : StrcmpInRange rightVal leftVal := by
      intro s t rightString leftString
      exact (inRange t s leftString rightString).symm
    constructor
    · intro _
      exact ⟨_, followsOrder answers swaps (valueCompare_ge comparable inRange)
        (valueCompare_ge comparable.symm backRange) (comparable.sign doubles strings)⟩
    · intro incomparable
      exact absurd comparable incomparable

end Answers

/-- `1 > ''` is `TRUE`, and `1 < ''` is `FALSE`. -/
theorem integerAndString_unlawful : ¬ ComparesLawfully (none : Option (Tuple Int)) .null
    (.literal (.int 1)) (.literal (.string .empty)) (.integer 1) (.varchar .empty) := by
  intro lawful
  have greater : exprEvaluate (none : Option (Tuple Int)) .null
    (.binary (.literal (.int 1)) .greater (.literal (.string .empty))) =
      pure (.boolean true) := rfl
  obtain ⟨v, untrue, same⟩ | failed := lawful.unordered (by simp [Comparable, IsNumber, Value.type])
  · exact untrue (pure_value_inj ((same .greater (by decide)).symm.trans greater))
  · obtain ⟨error, thrown⟩ := failed .greater (by decide)
    exact pure_ne_throw _ _ (greater.symm.trans thrown)

/-- Comparisons of `1` with `2` are lawful. -/
theorem oneAndTwo_lawful : ComparesLawfully (none : Option (Tuple Int)) .null
    (.literal (.int 1)) (.literal (.int 2)) (.integer 1) (.integer 2) :=
  (comparesLawfully_iff integers_ordersDoubles integers_ordersStrings none .null
    (.literal (.int 1)) (.literal (.int 2)) (.integer 1) (.integer 2) rfl rfl rfl rfl).mpr
    ⟨.inl rfl, by intro s t isString _; cases isString⟩

end MiniSqlite.Executor
