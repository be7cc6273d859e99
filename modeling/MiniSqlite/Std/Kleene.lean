import Mathlib.Logic.Basic

/-!
# Kleene's three-valued logic

Truth values, formulas built from atoms with the three connectives, and the laws that
hold between formulas whatever their atoms are. A model of the logic interprets formulas
by values of its own, each of which has a truth value: it is enough that the connectives
respect these truth values one at a time.
-/

namespace MiniSqlite.Std

/-- A truth value. -/
inductive Truth where
  | no
  | unknown
  | yes
  deriving DecidableEq, Repr

namespace Truth

/-- The truth value of a proposition that is decided. -/
def ofBool : Bool → Truth
  | false => no
  | true => yes

/-- Conjunction: the lesser of two truth values. -/
def and : Truth → Truth → Truth
  | no, _ | _, no => no
  | yes, yes => yes
  | _, _ => unknown

/-- Disjunction: the greater of two truth values. -/
def or : Truth → Truth → Truth
  | yes, _ | _, yes => yes
  | no, no => no
  | _, _ => unknown

/-- Negation. -/
def not : Truth → Truth
  | no => yes
  | unknown => unknown
  | yes => no

theorem and_comm (first second : Truth) : first.and second = second.and first := by
  cases first <;> cases second <;> rfl

theorem or_comm (first second : Truth) : first.or second = second.or first := by
  cases first <;> cases second <;> rfl

theorem and_assoc (first second third : Truth) :
    (first.and second).and third = first.and (second.and third) := by
  cases first <;> cases second <;> cases third <;> rfl

theorem or_assoc (first second third : Truth) :
    (first.or second).or third = first.or (second.or third) := by
  cases first <;> cases second <;> cases third <;> rfl

theorem not_and (first second : Truth) : (first.and second).not = first.not.or second.not := by
  cases first <;> cases second <;> rfl

theorem not_or (first second : Truth) : (first.or second).not = first.not.and second.not := by
  cases first <;> cases second <;> rfl

theorem ofBool_or (first second : Bool) :
    (ofBool first).or (ofBool second) = ofBool (first || second) := by
  cases first <;> cases second <;> rfl

theorem ofBool_and (first second : Bool) :
    (ofBool first).and (ofBool second) = ofBool (first && second) := by
  cases first <;> cases second <;> rfl

theorem ofBool_not (value : Bool) : (ofBool value).not = ofBool !value := by
  cases value <;> rfl

/-- The disjunction of some truth values. -/
def any (values : List Truth) : Truth := values.foldl or no

theorem no_or (value : Truth) : no.or value = value := by cases value <;> rfl

/-- Disjunctions that start with any truth value. -/
theorem foldl_or (start : Truth) (values : List Truth) :
    values.foldl or start = start.or (any values) := by
  induction values generalizing start with
  | nil => cases start <;> rfl
  | cons head tail induction => rw [any, List.foldl_cons, List.foldl_cons, induction,
      induction, no_or, or_assoc]

/-- A disjunction holds if and only if one of its members does. -/
theorem any_yes (values : List Truth) : any values = yes ↔ yes ∈ values := by
  induction values with
  | nil => simp [any]
  | cons head tail induction =>
      rw [any, List.foldl_cons, no_or, foldl_or, List.mem_cons, ← induction]
      cases head <;> cases any tail <;> simp [or]

/-- A disjunction fails if and only if all of its members do. -/
theorem any_no (values : List Truth) : any values = no ↔ ∀ value ∈ values, value = no := by
  induction values with
  | nil => simp [any]
  | cons head tail induction =>
      rw [any, List.foldl_cons, no_or, foldl_or, List.forall_mem_cons, ← induction]
      cases head <;> cases any tail <;> simp [or]

end Truth

/-! ## Formulas -/

/-- A formula over atoms. -/
inductive Formula (Atom : Type) where
  | atom (name : Atom)
  | and (left right : Formula Atom)
  | or (left right : Formula Atom)
  | not (operand : Formula Atom)

namespace Formula

variable {Atom : Type}

/-- The truth value of a formula under the truth values of its atoms. -/
def truth (assignment : Atom → Truth) : Formula Atom → Truth
  | .atom name => assignment name
  | .and left right => (left.truth assignment).and (right.truth assignment)
  | .or left right => (left.truth assignment).or (right.truth assignment)
  | .not operand => (operand.truth assignment).not

/-- Formulas that have the same truth value whatever their atoms are. -/
def Equivalent (first second : Formula Atom) : Prop :=
  ∀ assignment : Atom → Truth, first.truth assignment = second.truth assignment

theorem and_comm (first second : Formula Atom) :
    Equivalent (.and first second) (.and second first) :=
  fun _ => Truth.and_comm _ _

theorem or_comm (first second : Formula Atom) :
    Equivalent (.or first second) (.or second first) :=
  fun _ => Truth.or_comm _ _

theorem and_assoc (first second third : Formula Atom) :
    Equivalent (.and (.and first second) third) (.and first (.and second third)) :=
  fun _ => Truth.and_assoc _ _ _

theorem or_assoc (first second third : Formula Atom) :
    Equivalent (.or (.or first second) third) (.or first (.or second third)) :=
  fun _ => Truth.or_assoc _ _ _

theorem not_and (first second : Formula Atom) :
    Equivalent (.not (.and first second)) (.or (.not first) (.not second)) :=
  fun _ => Truth.not_and _ _

theorem not_or (first second : Formula Atom) :
    Equivalent (.not (.or first second)) (.and (.not first) (.not second)) :=
  fun _ => Truth.not_or _ _

end Formula

/-! ## Models -/

/-- Values that stand for truth values, with connectives of their own. -/
structure TruthModel (Value : Type) where
  truth : Value → Truth
  and : Value → Value → Value
  or : Value → Value → Value
  not : Value → Value

/-- The value of a formula under the values of its atoms. -/
def Formula.value {Atom Value : Type} (model : TruthModel Value) (atoms : Atom → Value) :
    Formula Atom → Value
  | .atom name => atoms name
  | .and left right => model.and (left.value model atoms) (right.value model atoms)
  | .or left right => model.or (left.value model atoms) (right.value model atoms)
  | .not operand => model.not (operand.value model atoms)

/-- A set of values is closed under the connectives, which respect truth values on it. -/
structure TruthModel.Respects {Value : Type} (model : TruthModel Value)
    (member : Value → Prop) : Prop where
  and : ∀ left right, member left → member right → member (model.and left right) ∧
    model.truth (model.and left right) = (model.truth left).and (model.truth right)
  or : ∀ left right, member left → member right → member (model.or left right) ∧
    model.truth (model.or left right) = (model.truth left).or (model.truth right)
  not : ∀ operand, member operand → member (model.not operand) ∧
    model.truth (model.not operand) = (model.truth operand).not

/-- The value of a formula over such a set has the truth value of the formula. -/
theorem TruthModel.Respects.value {Atom Value : Type} {model : TruthModel Value}
    {member : Value → Prop} (respects : model.Respects member) {atoms : Atom → Value}
    (members : ∀ name, member (atoms name)) (formula : Formula Atom) :
    member (formula.value model atoms) ∧ model.truth (formula.value model atoms) =
      formula.truth fun name => model.truth (atoms name) := by
  induction formula with
  | atom name => exact ⟨members name, rfl⟩
  | and left right leftFine rightFine =>
      have fine := respects.and _ _ leftFine.1 rightFine.1
      rw [leftFine.2, rightFine.2] at fine
      exact fine
  | or left right leftFine rightFine =>
      have fine := respects.or _ _ leftFine.1 rightFine.1
      rw [leftFine.2, rightFine.2] at fine
      exact fine
  | not operand operandFine =>
      have fine := respects.not _ operandFine.1
      rw [operandFine.2] at fine
      exact fine

end MiniSqlite.Std
