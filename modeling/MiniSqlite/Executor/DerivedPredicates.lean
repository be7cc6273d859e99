import MiniSqlite.Executor.Comparisons

/-!
# IN and BETWEEN

`IN` and `BETWEEN` have evaluation code of their own. Here they are compared with the
combinations of comparisons that define them, by way of the truth values of both.
-/

namespace MiniSqlite.Executor

open MiniSqlite.Common MiniSqlite.Std MiniSqlite.Storage MiniSqlite.Parser

variable {Double : Type} [Platform Double]

/-! ## Comparisons as truth values -/

omit [Platform Double] in
/-- The value of one of three types that stands for a truth value. -/
def ofTruth : Truth → Value Double
  | .no => .boolean false
  | .unknown => .null
  | .yes => .boolean true

omit [Platform Double] in
theorem ofTruth_inj {first second : Truth}
    (same : (ofTruth first : Value Double) = ofTruth second) : first = second := by
  cases first <;> cases second <;> first | rfl | cases same

omit [Platform Double] in
theorem ofTruth_ofBool (b : Bool) : (ofTruth (.ofBool b) : Value Double) = .boolean b := by
  cases b <;> rfl

theorem logicalOr_ofTruth (first second : Truth) :
    (logicalOr (ofTruth first) (ofTruth second) : Value Double) = ofTruth (first.or second) := by
  cases first <;> cases second <;> rfl

theorem logicalAnd_ofTruth (first second : Truth) :
    (logicalAnd (ofTruth first) (ofTruth second) : Value Double) = ofTruth (first.and second) := by
  cases first <;> cases second <;> rfl

/-- What a comparison says of two values. -/
def comparisonTruth (op : TokenType) (left right : Value Double) : Truth :=
  if left.isNull || right.isNull || valueCompare left right < -1 then .unknown
  else .ofBool (comparison op (valueCompare left right))

section Evaluation

variable {tuple : Option (Tuple Double)} {schema : SchemaPointer}

theorem evaluates_comparison {left right : Expr Double} {leftVal rightVal : Value Double}
    (leftValue : Evaluates tuple schema left leftVal)
    (rightValue : Evaluates tuple schema right rightVal) {op : TokenType}
    (listed : op ∈ comparisonOperators) :
    Evaluates tuple schema (.binary left op right)
      (ofTruth (comparisonTruth op leftVal rightVal)) := by
  rw [Evaluates, exprEvaluate_binary op leftValue rightValue]
  cases leftNull : leftVal.isNull with
  | true =>
      simp only [comparisonOperators, List.mem_cons, List.not_mem_nil, or_false] at listed
      rcases listed with rfl | rfl | rfl | rfl | rfl | rfl <;>
        simp [applyBinary, comparisonTruth, leftNull, binaryWithNull, ofTruth]
  | false =>
      cases rightNull : rightVal.isNull with
      | true =>
          simp only [comparisonOperators, List.mem_cons, List.not_mem_nil, or_false] at listed
          rcases listed with rfl | rfl | rfl | rfl | rfl | rfl <;>
            simp [applyBinary, comparisonTruth, rightNull, binaryWithNull, ofTruth]
      | false =>
          rw [applyBinary_comparison listed leftNull rightNull, comparisonTruth, leftNull,
            rightNull, compared]
          by_cases lost : valueCompare leftVal rightVal < -1
          · simp [lost, ofTruth]
          · simp [lost, ofTruth_ofBool]

theorem evaluates_or {left right : Expr Double} {first second : Truth}
    (leftValue : Evaluates tuple schema left (ofTruth first))
    (rightValue : Evaluates tuple schema right (ofTruth second)) :
    Evaluates tuple schema (.binary left .or right) (ofTruth (first.or second)) := by
  rw [Evaluates, exprEvaluate_binary .or leftValue rightValue, applyBinary_or, logicalOr_ofTruth]

theorem evaluates_and {left right : Expr Double} {first second : Truth}
    (leftValue : Evaluates tuple schema left (ofTruth first))
    (rightValue : Evaluates tuple schema right (ofTruth second)) :
    Evaluates tuple schema (.binary left .and right) (ofTruth (first.and second)) := by
  rw [Evaluates, exprEvaluate_binary .and leftValue rightValue, applyBinary_and,
    logicalAnd_ofTruth]

/-! ## IN -/

omit [Platform Double] in
/-- `e = x1 OR ... OR e = xn`. -/
def orEquals (e first : Expr Double) (rest : List (Expr Double)) : Expr Double :=
  rest.foldl (fun chain item => .binary chain .or (.binary e .equal item))
    (.binary e .equal first)

variable {e : Expr Double} {v : Value Double}

theorem evaluates_chain (value : Evaluates tuple schema e v) {rest : List (Expr Double)}
    {restVals : List (Value Double)} (items : List.Forall₂ (Evaluates tuple schema) rest restVals)
    {chain : Expr Double} {truth : Truth}
    (chainValue : Evaluates tuple schema chain (ofTruth truth)) :
    Evaluates tuple schema
      (rest.foldl (fun chain item => .binary chain .or (.binary e .equal item)) chain)
      (ofTruth ((restVals.map (comparisonTruth .equal v)).foldl Truth.or truth)) := by
  induction items generalizing chain truth with
  | nil => exact chainValue
  | cons itemValue _ induction =>
      exact induction (evaluates_or chainValue
        (evaluates_comparison value itemValue (by decide)))

/-- A chain of equalities is the disjunction of what they say. -/
theorem evaluates_orEquals (value : Evaluates tuple schema e v) {first : Expr Double}
    {firstVal : Value Double} (firstValue : Evaluates tuple schema first firstVal)
    {rest : List (Expr Double)} {restVals : List (Value Double)}
    (items : List.Forall₂ (Evaluates tuple schema) rest restVals) :
    Evaluates tuple schema (orEquals e first rest)
      (ofTruth (.any ((firstVal :: restVals).map (comparisonTruth .equal v)))) := by
  rw [Truth.any, List.map_cons, List.foldl_cons, Truth.no_or]
  exact evaluates_chain value items (evaluates_comparison value firstValue (by decide))

/-- An item of a list equals a value. -/
def matchesItem (v item : Value Double) : Bool := !item.isNull && valueCompare v item = 0

theorem foundIn_values {list : List (Expr Double)} {values : List (Value Double)}
    (items : List.Forall₂ (Evaluates tuple schema) list values) :
    foundIn tuple schema v list = pure (values.any (matchesItem v)) := by
  induction items with
  | nil => rw [foundIn, List.any_nil]
  | @cons item itemVal list values itemValue _ induction =>
      rw [Evaluates] at itemValue
      rw [foundIn, itemValue, pure_bind, List.any_cons]
      cases found : matchesItem v itemVal with
      | true =>
          rw [matchesItem] at found
          rw [if_pos found, Bool.true_or]
      | false =>
          rw [matchesItem] at found
          rw [if_neg (by rw [found]; exact Bool.false_ne_true), Bool.false_or]
          exact induction

/-- What `IN` says. -/
def inTruth (v : Value Double) (values : List (Value Double)) : Truth :=
  if v.isNull then .unknown else .ofBool (values.any (matchesItem v))

theorem evaluates_in (value : Evaluates tuple schema e v) {list : List (Expr Double)}
    {values : List (Value Double)} (items : List.Forall₂ (Evaluates tuple schema) list values) :
    Evaluates tuple schema (.inExpr e list false) (ofTruth (inTruth v values)) := by
  rw [Evaluates] at value
  rw [Evaluates, exprEvaluate, value, pure_bind, foundIn_values items, inTruth]
  cases v.isNull with
  | true => rfl
  | false =>
      rw [if_neg Bool.false_ne_true, if_neg Bool.false_ne_true, ofTruth_ofBool]
      cases values.any (matchesItem v) <;> rfl

/-- `NOT IN` is the negation of `IN`. -/
theorem exprEvaluate_notIn (value : Evaluates tuple schema e v) {list : List (Expr Double)}
    {values : List (Value Double)} (items : List.Forall₂ (Evaluates tuple schema) list values) :
    exprEvaluate tuple schema (.inExpr e list true) =
      exprEvaluate tuple schema (.unary .not (.inExpr e list false)) := by
  rw [exprEvaluate_unary .not (evaluates_in value items), applyUnary_not, inTruth]
  rw [Evaluates] at value
  rw [exprEvaluate, value, pure_bind, foundIn_values items]
  cases v.isNull with
  | true => rfl
  | false =>
      rw [if_neg Bool.false_ne_true, if_neg Bool.false_ne_true, ofTruth_ofBool]
      cases values.any (matchesItem v) <;> rfl

/-- What an equality says of a value and an item: it holds of the items that match. -/
theorem equality_yes {item : Value Double} (present : v.isNull = false) :
    comparisonTruth .equal v item = .yes ↔ matchesItem v item = true := by
  rw [comparisonTruth, matchesItem, present]
  cases item.isNull with
  | true => simp
  | false =>
      by_cases lost : valueCompare v item < -1
      · simp [lost]
        omega
      · by_cases zero : valueCompare v item = 0 <;> simp [zero, lost, comparison, Truth.ofBool]

/-- The value equals an item of the list, or every item can be compared with it. -/
def InAgrees (v : Value Double) (values : List (Value Double)) : Prop :=
  v.isNull = true ∨ values.any (matchesItem v) = true ∨
    ∀ item ∈ values, item.isNull = false ∧ -1 ≤ valueCompare v item

theorem comparisonTruth_null (op : TokenType) (absent : v.isNull = true)
    (item : Value Double) : comparisonTruth op v item = .unknown := by
  rw [comparisonTruth, absent]
  rfl

/-- An equality that does not hold fails if and only if the two values can be compared. -/
theorem equality_no {item : Value Double} (present : v.isNull = false)
    (differs : matchesItem v item = false) : comparisonTruth .equal v item = .no ↔
      item.isNull = false ∧ -1 ≤ valueCompare v item := by
  rw [matchesItem] at differs
  rw [comparisonTruth, present]
  cases itemNull : item.isNull with
  | true => simp
  | false =>
      have nonzero : valueCompare v item ≠ 0 := by simpa [itemNull] using differs
      by_cases lost : valueCompare v item < -1
      · simp [lost]
      · simp [lost, comparison, nonzero, Truth.ofBool]
        omega

/-- `IN` says what the equalities with the items say. -/
theorem inTruth_eq_iff {values : List (Value Double)} (nonempty : values ≠ []) :
    inTruth v values = .any (values.map (comparisonTruth .equal v)) ↔ InAgrees v values := by
  cases absent : v.isNull with
  | true =>
      have allUnknown : ∀ truth ∈ values.map (comparisonTruth .equal v), truth = .unknown := by
        intro truth member
        obtain ⟨item, _, rfl⟩ := List.mem_map.mp member
        exact comparisonTruth_null .equal absent item
      obtain ⟨item, member⟩ := List.exists_mem_of_ne_nil values nonempty
      have itemMember := List.mem_map_of_mem member (f := comparisonTruth .equal v)
      have notYes := mt (Truth.any_yes (values.map (comparisonTruth .equal v))).mp
        fun yes => absurd (allUnknown _ yes) (by decide)
      have notNo := mt (Truth.any_no (values.map (comparisonTruth .equal v))).mp
        fun no => absurd ((no _ itemMember).symm.trans (allUnknown _ itemMember)) (by decide)
      have isUnknown : Truth.any (values.map (comparisonTruth .equal v)) = .unknown := by
        revert notYes notNo
        cases Truth.any (values.map (comparisonTruth .equal v)) <;> simp
      rw [isUnknown, inTruth, absent, if_pos rfl]
      exact iff_of_true rfl (.inl absent)
  | false =>
      have yes : Truth.any (values.map (comparisonTruth .equal v)) = .yes ↔
          values.any (matchesItem v) = true := by
        rw [Truth.any_yes, List.mem_map, List.any_eq_true]
        simp only [equality_yes absent]
      rw [inTruth, absent, if_neg Bool.false_ne_true]
      cases found : values.any (matchesItem v) with
      | true =>
          rw [yes.mpr found]
          exact iff_of_true rfl (.inr (.inl found))
      | false =>
          have differ : ∀ item ∈ values, matchesItem v item = false := by
            simpa using found
          change Truth.no = _ ↔ _
          rw [eq_comm, Truth.any_no, InAgrees, absent, found]
          simp only [Bool.false_eq_true, false_or, List.forall_mem_map]
          constructor
          · intro fails item member
            exact (equality_no absent (differ item member)).mp (fails item member)
          · intro compared item member
            exact (equality_no absent (differ item member)).mpr (compared item member)

/-! ## BETWEEN -/

omit [Platform Double] in
/-- `e >= l AND e <= h`. -/
def withinBounds (e low high : Expr Double) : Expr Double :=
  .binary (.binary e .greaterEqual low) .and (.binary e .lessEqual high)

/-- What `BETWEEN` says. -/
def betweenTruth (v low high : Value Double) : Truth :=
  if v.isNull || low.isNull || high.isNull then .unknown
  else .ofBool (decide (valueCompare v low ≥ 0) && decide (valueCompare v high ≤ 0))

theorem applyBetween_truth (v low high : Value Double) :
    applyBetween v low high false = ofTruth (betweenTruth v low high) := by
  rw [applyBetween, betweenTruth]
  cases v.isNull || low.isNull || high.isNull with
  | true => rfl
  | false =>
      rw [if_neg Bool.false_ne_true, if_neg Bool.false_ne_true, ofTruth_ofBool]
      simp

theorem applyBetween_not (v low high : Value Double) :
    applyBetween v low high true = logicalNot (applyBetween v low high false) := by
  rw [applyBetween, applyBetween]
  cases v.isNull || low.isNull || high.isNull with
  | true => rfl
  | false =>
      rw [if_neg Bool.false_ne_true, if_neg Bool.false_ne_true]
      simp [logicalNot, Value.isNull, isTruthy]

/-- Where a bound is `NULL` or `strcmp` returns a value below `-1`, the other comparison decides
what `AND` gives and not what `BETWEEN` gives. -/
def BetweenAgrees (v low high : Value Double) : Prop :=
  v.isNull = true ∨ low.isNull = true ∧ (high.isNull = true ∨ valueCompare v high ≤ 0) ∨
    low.isNull = false ∧ high.isNull = true ∧ valueCompare v low ≠ -1 ∨
    low.isNull = false ∧ high.isNull = false ∧
      (valueCompare v low < -1 → 0 < valueCompare v high) ∧
      (valueCompare v high < -1 → valueCompare v low = -1)

/-- `BETWEEN` says what the comparisons with its bounds say. -/
theorem betweenTruth_eq_iff (v low high : Value Double) :
    betweenTruth v low high = (comparisonTruth .greaterEqual v low).and
      (comparisonTruth .lessEqual v high) ↔ BetweenAgrees v low high := by
  rw [betweenTruth, comparisonTruth, comparisonTruth, BetweenAgrees]
  generalize valueCompare v low = below
  generalize valueCompare v high = above
  cases v.isNull with
  | true => simp [Truth.and]
  | false =>
      cases low.isNull with
      | true =>
          cases high.isNull with
          | true => simp [Truth.and]
          | false =>
              by_cases lost : above < -1
              · simp [lost, Truth.and]
                omega
              · by_cases within : above ≤ 0 <;>
                  simp [lost, within, comparison, Truth.and, Truth.ofBool]
      | false =>
          cases high.isNull with
          | true =>
              by_cases lost : below < -1
              · simp [lost, Truth.and]
                omega
              · by_cases within : 0 ≤ below
                · simp [lost, within, comparison, Truth.and, Truth.ofBool]
                  omega
                · simp [lost, within, comparison, Truth.and, Truth.ofBool]
                  omega
          | false =>
              by_cases lowLost : below < -1 <;> by_cases highLost : above < -1 <;>
                by_cases lowWithin : 0 ≤ below <;> by_cases highWithin : above ≤ 0 <;>
                simp [lowLost, highLost, lowWithin, highWithin, comparison, Truth.and,
                  Truth.ofBool] <;> omega

variable {low high : Expr Double} {lowVal highVal : Value Double}

theorem evaluates_between (value : Evaluates tuple schema e v)
    (lowValue : Evaluates tuple schema low lowVal) (highValue : Evaluates tuple schema high highVal)
    (isNot : Bool) :
    Evaluates tuple schema (.between e low high isNot) (applyBetween v lowVal highVal isNot) := by
  rw [Evaluates] at value lowValue highValue
  rw [Evaluates, exprEvaluate, value, pure_bind, lowValue, pure_bind, highValue, pure_bind]

theorem evaluates_withinBounds (value : Evaluates tuple schema e v)
    (lowValue : Evaluates tuple schema low lowVal)
    (highValue : Evaluates tuple schema high highVal) :
    Evaluates tuple schema (withinBounds e low high)
      (ofTruth ((comparisonTruth .greaterEqual v lowVal).and
        (comparisonTruth .lessEqual v highVal))) :=
  evaluates_and (evaluates_comparison value lowValue (by decide))
    (evaluates_comparison value highValue (by decide))

end Evaluation

/-! ## Both -/

/-- `IN` and its negation evaluate as the equalities with the items do. -/
structure InDerived (tuple : Option (Tuple Double)) (schema : SchemaPointer)
    (e first : Expr Double) (rest : List (Expr Double)) : Prop where
  isIn : exprEvaluate tuple schema (.inExpr e (first :: rest) false) =
    exprEvaluate tuple schema (orEquals e first rest)
  isNotIn : exprEvaluate tuple schema (.inExpr e (first :: rest) true) =
    exprEvaluate tuple schema (.unary .not (.inExpr e (first :: rest) false))

/-- `BETWEEN` and its negation evaluate as the comparisons with the bounds do. -/
structure BetweenDerived (tuple : Option (Tuple Double)) (schema : SchemaPointer)
    (e low high : Expr Double) : Prop where
  isBetween : exprEvaluate tuple schema (.between e low high false) =
    exprEvaluate tuple schema (withinBounds e low high)
  isNotBetween : exprEvaluate tuple schema (.between e low high true) =
    exprEvaluate tuple schema (.unary .not (.between e low high false))

/-- `IN` agrees with its definition if and only if an item matches or all can be compared, and
`BETWEEN` if and only if no comparison that it loses leaves the result to the other one. -/
theorem derivedPredicates_iff (tuple : Option (Tuple Double)) (schema : SchemaPointer)
    (e first low high : Expr Double) (rest : List (Expr Double))
    (v firstVal lowVal highVal : Value Double) (restVals : List (Value Double))
    (value : Evaluates tuple schema e v) (firstValue : Evaluates tuple schema first firstVal)
    (items : List.Forall₂ (Evaluates tuple schema) rest restVals)
    (lowValue : Evaluates tuple schema low lowVal)
    (highValue : Evaluates tuple schema high highVal) :
    (InDerived tuple schema e first rest ↔ InAgrees v (firstVal :: restVals)) ∧
      (BetweenDerived tuple schema e low high ↔ BetweenAgrees v lowVal highVal) := by
  have isIn := evaluates_in value (.cons firstValue items)
  have isOr := evaluates_orEquals value firstValue items
  have isBetween := evaluates_between value lowValue highValue false
  have isWithin := evaluates_withinBounds value lowValue highValue
  rw [Evaluates] at isIn isOr isWithin
  constructor
  · rw [← inTruth_eq_iff (List.cons_ne_nil _ _)]
    constructor
    · intro derived
      have same := derived.isIn
      rw [isIn, isOr] at same
      exact ofTruth_inj (pure_value_inj same)
    · intro same
      constructor
      · rw [isIn, isOr, same]
      · exact exprEvaluate_notIn value (.cons firstValue items)
  · rw [← betweenTruth_eq_iff]
    constructor
    · intro derived
      have same := derived.isBetween
      rw [isBetween, isWithin, applyBetween_truth] at same
      exact ofTruth_inj (pure_value_inj same)
    · intro same
      constructor
      · rw [isBetween, isWithin, applyBetween_truth, same]
      · rw [exprEvaluate_unary .not isBetween, applyUnary_not, ← applyBetween_not]
        exact evaluates_between value lowValue highValue true

/-- `1 IN (2, NULL)` is `FALSE`. -/
theorem listWithNull_underived : ¬ InDerived (none : Option (Tuple Int)) .null
    (.literal (.int 1)) (.literal (.int 2)) [.literal .null] := by
  intro derived
  have found : exprEvaluate (none : Option (Tuple Int)) .null
    (.inExpr (.literal (.int 1)) [.literal (.int 2), .literal .null] false) =
      pure (.boolean false) := rfl
  have chained : exprEvaluate (none : Option (Tuple Int)) .null
    (orEquals (.literal (.int 1)) (.literal (.int 2)) [.literal .null]) = pure .null := rfl
  have same := derived.isIn
  rw [found, chained] at same
  cases same

/-- `2 IN (1, 2)` and `2 BETWEEN 1 AND 2` agree with their definitions. -/
theorem integers_derived : InDerived (none : Option (Tuple Int)) .null
    (.literal (.int 2)) (.literal (.int 1)) [.literal (.int 2)] ∧
    BetweenDerived (none : Option (Tuple Int)) .null
      (.literal (.int 2)) (.literal (.int 1)) (.literal (.int 2)) := by
  have both := derivedPredicates_iff (none : Option (Tuple Int)) .null (.literal (.int 2))
    (.literal (.int 1)) (.literal (.int 1)) (.literal (.int 2)) [.literal (.int 2)] (.integer 2)
    (.integer 1) (.integer 1) (.integer 2) [.integer 2] rfl rfl (.cons rfl .nil) rfl rfl
  exact ⟨both.1.mpr (.inr (.inl rfl)), both.2.mpr (.inr (.inr (.inr ⟨rfl, rfl, by decide⟩)))⟩

end MiniSqlite.Executor
