import MiniSqlite.Executor.ExprEvaluator
import MiniSqlite.Std.Kleene

/-!
# Truth values of expressions

`AND`, `OR` and `NOT` of the evaluator against Kleene's logic. A value that is neither
`NULL` nor a `BOOLEAN` has a truth value too. The evaluator takes it into account next to
a value of any type but `NULL`: next to `NULL` only a `BOOLEAN` decides.
-/

namespace MiniSqlite.Executor

open MiniSqlite.Common MiniSqlite.Std MiniSqlite.Storage MiniSqlite.Parser

variable {Double : Type} [Platform Double]

/-- An expression evaluates without error. -/
def Evaluates (tuple : Option (Tuple Double)) (schema : SchemaPointer) (expr : Expr Double)
    (v : Value Double) : Prop :=
  exprEvaluate tuple schema expr = pure v

section Operators

variable {tuple : Option (Tuple Double)} {schema : SchemaPointer}

/-- An operator is applied to the values of its operands. -/
theorem exprEvaluate_binary {left right : Expr Double} {leftVal rightVal : Value Double}
    (op : TokenType) (leftValue : Evaluates tuple schema left leftVal)
    (rightValue : Evaluates tuple schema right rightVal) :
    exprEvaluate tuple schema (.binary left op right) = applyBinary op leftVal rightVal := by
  rw [Evaluates] at leftValue rightValue
  rw [exprEvaluate, leftValue, rightValue, pure_bind, pure_bind]

theorem exprEvaluate_unary {operand : Expr Double} {v : Value Double} (op : TokenType)
    (value : Evaluates tuple schema operand v) :
    exprEvaluate tuple schema (.unary op operand) = applyUnary op v := by
  rw [Evaluates] at value
  rw [exprEvaluate, value, pure_bind]

end Operators

/-! ## The truth values of values -/

/-- The truth value of a value. -/
def truthValue (v : Value Double) : Truth :=
  if v.isNull then .unknown else .ofBool (isTruthy v)

/-- What `AND` gives. -/
def logicalAnd (left right : Value Double) : Value Double :=
  if left.isNull || right.isNull then binaryWithNull .and left right
  else .boolean (isTruthy left && isTruthy right)

/-- What `OR` gives. -/
def logicalOr (left right : Value Double) : Value Double :=
  if left.isNull || right.isNull then binaryWithNull .or left right
  else .boolean (isTruthy left || isTruthy right)

/-- What `NOT` gives. -/
def logicalNot (operand : Value Double) : Value Double :=
  if operand.isNull then .null else .boolean !isTruthy operand

theorem applyBinary_and (left right : Value Double) :
    applyBinary .and left right = pure (logicalAnd left right) := by
  rw [applyBinary, logicalAnd]
  split <;> rfl

theorem applyBinary_or (left right : Value Double) :
    applyBinary .or left right = pure (logicalOr left right) := by
  rw [applyBinary, logicalOr]
  split <;> rfl

theorem applyUnary_not (operand : Value Double) :
    applyUnary .not operand = pure (logicalNot operand) := by
  cases operand <;> rfl

/-- The values as a model of three-valued logic. -/
def valueModel : TruthModel (Value Double) where
  truth := truthValue
  and := logicalAnd
  or := logicalOr
  not := logicalNot

/-- A value of one of the types that `AND` and `OR` look for next to `NULL`. -/
def IsTernary (v : Value Double) : Prop := v.isNull ∨ v.type = .boolean

theorem truthValue_present {v : Value Double} (present : v.isNull = false) :
    truthValue v = .ofBool (isTruthy v) := by
  rw [truthValue, present, if_neg Bool.false_ne_true]

theorem logicalAnd_present {left right : Value Double} (leftPresent : left.isNull = false)
    (rightPresent : right.isNull = false) :
    logicalAnd left right = .boolean (isTruthy left && isTruthy right) := by
  rw [logicalAnd, leftPresent, rightPresent, Bool.or_self, if_neg Bool.false_ne_true]

theorem logicalOr_present {left right : Value Double} (leftPresent : left.isNull = false)
    (rightPresent : right.isNull = false) :
    logicalOr left right = .boolean (isTruthy left || isTruthy right) := by
  rw [logicalOr, leftPresent, rightPresent, Bool.or_self, if_neg Bool.false_ne_true]

theorem logicalNot_present {operand : Value Double} (present : operand.isNull = false) :
    logicalNot operand = .boolean !isTruthy operand := by
  rw [logicalNot, present, if_neg Bool.false_ne_true]

/-- Without `NULL` the connectives are those of classical logic. -/
theorem valueModel_present : (valueModel : TruthModel (Value Double)).Respects (·.isNull = false) where
  and left right leftPresent rightPresent := by
    change (logicalAnd left right).isNull = false ∧
      truthValue (logicalAnd left right) = (truthValue left).and (truthValue right)
    rw [logicalAnd_present leftPresent rightPresent, truthValue_present leftPresent,
      truthValue_present rightPresent, Truth.ofBool_and]
    exact ⟨rfl, rfl⟩
  or left right leftPresent rightPresent := by
    change (logicalOr left right).isNull = false ∧
      truthValue (logicalOr left right) = (truthValue left).or (truthValue right)
    rw [logicalOr_present leftPresent rightPresent, truthValue_present leftPresent,
      truthValue_present rightPresent, Truth.ofBool_or]
    exact ⟨rfl, rfl⟩
  not operand present := by
    change (logicalNot operand).isNull = false ∧
      truthValue (logicalNot operand) = (truthValue operand).not
    rw [logicalNot_present present, truthValue_present present, Truth.ofBool_not]
    exact ⟨rfl, rfl⟩

omit [Platform Double] in
theorem IsTernary.cases {v : Value Double} (ternary : IsTernary v) :
    v = .null ∨ ∃ b, v = .boolean b := by
  cases v with
  | null => exact .inl rfl
  | boolean b => exact .inr ⟨b, rfl⟩
  | integer i => simp [IsTernary, Value.isNull, Value.type] at ternary
  | float d => simp [IsTernary, Value.isNull, Value.type] at ternary
  | varchar s => simp [IsTernary, Value.isNull, Value.type] at ternary

omit [Platform Double] in
theorem isTernary_null : IsTernary (.null : Value Double) := .inl rfl

omit [Platform Double] in
theorem isTernary_boolean (b : Bool) : IsTernary (.boolean b : Value Double) := .inr rfl

/-- Between `NULL` and the two `BOOLEAN`s the connectives are Kleene's. -/
theorem valueModel_ternary : (valueModel : TruthModel (Value Double)).Respects IsTernary where
  and left right leftTernary rightTernary := by
    obtain rfl | ⟨first, rfl⟩ := leftTernary.cases <;>
      obtain rfl | ⟨second, rfl⟩ := rightTernary.cases
    · exact ⟨isTernary_null, rfl⟩
    · cases second
      · exact ⟨isTernary_boolean _, rfl⟩
      · exact ⟨isTernary_null, rfl⟩
    · cases first
      · exact ⟨isTernary_boolean _, rfl⟩
      · exact ⟨isTernary_null, rfl⟩
    · refine ⟨isTernary_boolean _, ?_⟩
      exact (Truth.ofBool_and first second).symm
  or left right leftTernary rightTernary := by
    obtain rfl | ⟨first, rfl⟩ := leftTernary.cases <;>
      obtain rfl | ⟨second, rfl⟩ := rightTernary.cases
    · exact ⟨isTernary_null, rfl⟩
    · cases second
      · exact ⟨isTernary_null, rfl⟩
      · exact ⟨isTernary_boolean _, rfl⟩
    · cases first
      · exact ⟨isTernary_null, rfl⟩
      · exact ⟨isTernary_boolean _, rfl⟩
    · refine ⟨isTernary_boolean _, ?_⟩
      exact (Truth.ofBool_or first second).symm
  not operand ternary := by
    obtain rfl | ⟨b, rfl⟩ := ternary.cases
    · exact ⟨isTernary_null, rfl⟩
    · exact ⟨isTernary_boolean _, (Truth.ofBool_not b).symm⟩

/-! ## Nestings of expressions -/

section Nestings

variable {Atom : Type}

omit [Platform Double] in
/-- The expression for a formula whose atoms are expressions. -/
def nesting (leaf : Atom → Expr Double) : Formula Atom → Expr Double
  | .atom name => leaf name
  | .and left right => .binary (nesting leaf left) .and (nesting leaf right)
  | .or left right => .binary (nesting leaf left) .or (nesting leaf right)
  | .not operand => .unary .not (nesting leaf operand)

variable (tuple : Option (Tuple Double)) (schema : SchemaPointer)

/-- An expression evaluates without error to a value of this truth value. -/
def HasTruth (expr : Expr Double) (truth : Truth) : Prop :=
  ∃ v, Evaluates tuple schema expr v ∧ truthValue v = truth

/-- Two expressions evaluate without error to values of one truth value. -/
def SameTruth (first second : Expr Double) : Prop :=
  ∃ truth, HasTruth tuple schema first truth ∧ HasTruth tuple schema second truth

/-- What three-valued logic asks of the nestings of expressions that have values. -/
structure ThreeValued (leaf : Atom → Expr Double) (atoms : Atom → Value Double) : Prop where
  kleene : ∀ formula : Formula Atom, HasTruth tuple schema (nesting leaf formula)
    (formula.truth fun name => truthValue (atoms name))
  and_comm : ∀ first second : Formula Atom, SameTruth tuple schema
    (nesting leaf (.and first second)) (nesting leaf (.and second first))
  or_comm : ∀ first second : Formula Atom, SameTruth tuple schema
    (nesting leaf (.or first second)) (nesting leaf (.or second first))
  and_assoc : ∀ first second third : Formula Atom, SameTruth tuple schema
    (nesting leaf (.and (.and first second) third))
    (nesting leaf (.and first (.and second third)))
  or_assoc : ∀ first second third : Formula Atom, SameTruth tuple schema
    (nesting leaf (.or (.or first second) third)) (nesting leaf (.or first (.or second third)))
  not_and : ∀ first second : Formula Atom, SameTruth tuple schema
    (nesting leaf (.not (.and first second))) (nesting leaf (.or (.not first) (.not second)))
  not_or : ∀ first second : Formula Atom, SameTruth tuple schema
    (nesting leaf (.not (.or first second))) (nesting leaf (.and (.not first) (.not second)))

omit [Platform Double] in
/-- `NULL` occurs, if at all, only next to `BOOLEAN`s. -/
def NullsAmongBooleans (atoms : Atom → Value Double) : Prop :=
  (∀ name, (atoms name).isNull = false) ∨ ∀ name, IsTernary (atoms name)

variable {tuple schema} {leaf : Atom → Expr Double} {atoms : Atom → Value Double}

/-- The value of a nesting is that of its formula in the model. -/
theorem evaluates_nesting (leaves : ∀ name, Evaluates tuple schema (leaf name) (atoms name))
    (formula : Formula Atom) :
    Evaluates tuple schema (nesting leaf formula) (formula.value valueModel atoms) := by
  induction formula with
  | atom name => exact leaves name
  | and left right leftValue rightValue =>
      rw [Evaluates, nesting, exprEvaluate_binary .and leftValue rightValue, applyBinary_and]
      rfl
  | or left right leftValue rightValue =>
      rw [Evaluates, nesting, exprEvaluate_binary .or leftValue rightValue, applyBinary_or]
      rfl
  | not operand value =>
      rw [Evaluates, nesting, exprEvaluate_unary .not value, applyUnary_not]
      rfl

/-- Expressions evaluate to one value at most. -/
theorem Evaluates.unique {expr : Expr Double} {first second : Value Double}
    (firstValue : Evaluates tuple schema expr first)
    (secondValue : Evaluates tuple schema expr second) : first = second := by
  rw [Evaluates] at firstValue secondValue
  rw [firstValue] at secondValue
  exact Except.ok.inj (Except.ok.inj secondValue)

/-- The truth values of nestings, where they are Kleene's, agree with every law of the logic. -/
theorem sameTruth_of_equivalent
    (kleene : ∀ formula : Formula Atom, HasTruth tuple schema (nesting leaf formula)
      (formula.truth fun name => truthValue (atoms name)))
    {first second : Formula Atom} (equivalent : first.Equivalent second) :
    SameTruth tuple schema (nesting leaf first) (nesting leaf second) := by
  refine ⟨_, kleene first, ?_⟩
  rw [equivalent]
  exact kleene second

/-- Next to `NULL` the operator for which a value of another type decides does not see it. -/
theorem unseen {absent deciding : Atom} (isNull : (atoms absent).isNull)
    (unlike : ¬ IsTernary (atoms deciding)) :
    ∃ formula : Formula Atom, truthValue (formula.value valueModel atoms) ≠
      formula.truth fun name => truthValue (atoms name) := by
  obtain ⟨present, other⟩ := not_or.mp unlike
  have absentUnknown : truthValue (atoms absent) = .unknown := by rw [truthValue, if_pos isNull]
  have decided := truthValue_present (by simpa using present)
  have isAbsent : atoms absent = .null := by
    revert isNull
    cases atoms absent <;> simp [Value.isNull]
  cases truthy : isTruthy (atoms deciding) with
  | true =>
      refine ⟨.or (.atom deciding) (.atom absent), ?_⟩
      have lost : logicalOr (atoms deciding) (atoms absent) = .null := by
        rw [isAbsent]
        revert other
        cases atoms deciding <;> simp [logicalOr, Value.isNull, binaryWithNull, Value.type]
      change truthValue (logicalOr (atoms deciding) (atoms absent)) ≠
        (truthValue (atoms deciding)).or (truthValue (atoms absent))
      rw [lost, decided, truthy, absentUnknown]
      simp [truthValue, Value.isNull, Truth.or, Truth.ofBool]
  | false =>
      refine ⟨.and (.atom deciding) (.atom absent), ?_⟩
      have lost : logicalAnd (atoms deciding) (atoms absent) = .null := by
        rw [isAbsent]
        revert other
        cases atoms deciding <;> simp [logicalAnd, Value.isNull, binaryWithNull, Value.type]
      change truthValue (logicalAnd (atoms deciding) (atoms absent)) ≠
        (truthValue (atoms deciding)).and (truthValue (atoms absent))
      rw [lost, decided, truthy, absentUnknown]
      simp [truthValue, Value.isNull, Truth.and, Truth.ofBool]

/-- The nestings of expressions follow three-valued logic if and only if no `NULL` meets a
value that is neither `NULL` nor a `BOOLEAN`. -/
theorem threeValued_iff (tuple : Option (Tuple Double)) (schema : SchemaPointer)
    (leaf : Atom → Expr Double) (atoms : Atom → Value Double)
    (leaves : ∀ name, Evaluates tuple schema (leaf name) (atoms name)) :
    ThreeValued tuple schema leaf atoms ↔ NullsAmongBooleans atoms := by
  constructor
  · intro threeValued
    by_contra mixed
    obtain ⟨someNull, someOther⟩ := not_or.mp mixed
    obtain ⟨absent, isNull⟩ := not_forall.mp someNull
    obtain ⟨deciding, unlike⟩ := not_forall.mp someOther
    obtain ⟨formula, differs⟩ := unseen (by simpa using isNull) unlike
    obtain ⟨v, value, truth⟩ := threeValued.kleene formula
    rw [value.unique (evaluates_nesting leaves formula)] at truth
    exact differs truth
  · intro apart
    have respected : ∃ member, (valueModel : TruthModel (Value Double)).Respects member ∧
        ∀ name, member (atoms name) := by
      obtain present | ternary := apart
      · exact ⟨_, valueModel_present, present⟩
      · exact ⟨_, valueModel_ternary, ternary⟩
    obtain ⟨member, respects, members⟩ := respected
    have kleene : ∀ formula : Formula Atom, HasTruth tuple schema (nesting leaf formula)
        (formula.truth fun name => truthValue (atoms name)) := fun formula =>
      ⟨_, evaluates_nesting leaves formula, (respects.value members formula).2⟩
    exact {
      kleene
      and_comm := fun first second => sameTruth_of_equivalent kleene (Formula.and_comm first second)
      or_comm := fun first second => sameTruth_of_equivalent kleene (Formula.or_comm first second)
      and_assoc := fun first second third =>
        sameTruth_of_equivalent kleene (Formula.and_assoc first second third)
      or_assoc := fun first second third =>
        sameTruth_of_equivalent kleene (Formula.or_assoc first second third)
      not_and := fun first second => sameTruth_of_equivalent kleene (Formula.not_and first second)
      not_or := fun first second => sameTruth_of_equivalent kleene (Formula.not_or first second) }

end Nestings

/-- `NULL` and an integer. -/
def nullOr (i : Int64) : Bool → Expr Int
  | true => .literal .null
  | false => .literal (.int i)

/-- Their values. -/
def nullOrValue (i : Int64) : Bool → Value Int
  | true => .null
  | false => .integer i

theorem nullOr_evaluates (i : Int64) (name : Bool) :
    Evaluates none .null (nullOr i name) (nullOrValue i name) := by
  cases name <;> rfl

/-- `0 AND NULL` is `NULL`. -/
theorem zeroAndNull_unknown : ¬ ThreeValued none .null (nullOr 0) (nullOrValue 0) := by
  intro threeValued
  obtain ⟨v, value, truth⟩ := threeValued.kleene (.and (.atom false) (.atom true))
  have evaluated : Evaluates none .null
      (nesting (nullOr 0) (.and (.atom false) (.atom true))) (Value.null : Value Int) := rfl
  rw [value.unique evaluated] at truth
  exact absurd truth (by decide)

/-- The nestings of `TRUE` and `NULL` follow three-valued logic. -/
theorem trueAndNull_threeValued :
    ThreeValued (none : Option (Tuple Int)) .null
      (fun name : Bool => .literal (if name then .null else .bool 1))
      (fun name => if name then .null else .boolean true) :=
  (threeValued_iff none .null _ _ (by intro name; cases name <;> rfl)).mpr
    (.inr (by intro name; cases name <;> simp [IsTernary, Value.isNull, Value.type]))

end MiniSqlite.Executor
