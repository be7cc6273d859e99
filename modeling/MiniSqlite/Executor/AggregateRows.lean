import MiniSqlite.Executor.DatabaseRuns
import MiniSqlite.Executor.QueryRows

/-!
# The rows of a grouping

What `hash_agg_next` emits: one row for each group of its input. The state of an
aggregate is a fold over the values of its operand in the group (`StateOf`); it counts
the `NULL`s too, so that `COUNT` of an expression and `AVG` are off in groups that have
some (`emits_iff`), and an input without rows has no group.
-/

namespace MiniSqlite.Executor

open MiniSqlite.Common MiniSqlite.Std MiniSqlite.Storage MiniSqlite.Buffer MiniSqlite.Parser

variable {Double : Type}

/-! ## What aggregates stand for -/

/-- The calls of aggregates. -/
inductive Aggregate (Double : Type) where
  | countStar
  | count (expr : Expr Double)
  | sum (expr : Expr Double)
  | avg (expr : Expr Double)
  | min (expr : Expr Double)
  | max (expr : Expr Double)

namespace Aggregate

/-- The call as it is written. -/
def call : Aggregate Double → Expr Double
  | .countStar => .functionCall (.ofChars ['C', 'O', 'U', 'N', 'T']) [] true
  | .count expr => .functionCall (.ofChars ['C', 'O', 'U', 'N', 'T']) [expr] false
  | .sum expr => .functionCall (.ofChars ['S', 'U', 'M']) [expr] false
  | .avg expr => .functionCall (.ofChars ['A', 'V', 'G']) [expr] false
  | .min expr => .functionCall (.ofChars ['M', 'I', 'N']) [expr] false
  | .max expr => .functionCall (.ofChars ['M', 'A', 'X']) [expr] false

/-- What is evaluated on each row. -/
def operand? : Aggregate Double → Option (Expr Double)
  | .countStar => none
  | .count expr | .sum expr | .avg expr | .min expr | .max expr => some expr

def kind : Aggregate Double → AggKind
  | .countStar | .count _ => .count
  | .sum _ => .sum
  | .avg _ => .avg
  | .min _ => .min
  | .max _ => .max

theorem getAggKind_call (aggregate : Aggregate Double) : getAggKind aggregate.call = aggregate.kind := by
  cases aggregate <;> rfl

end Aggregate

variable [Platform Double]

/-- Addition of SQL: of two integers the integer sum, of other numbers that of doubles. -/
def plus : Value Double → Value Double → Value Double
  | .integer a, .integer b => .integer (Int64.ofInt (a.toInt + b.toInt))
  | .integer a, .float b => .float (Platform.add (Platform.ofInt a) b)
  | .float a, .integer b => .float (Platform.add a (Platform.ofInt b))
  | .float a, .float b => .float (Platform.add a b)
  | _, _ => .null

/-- The sum of some values, `NULL` if there are none. -/
def sumOf : List (Value Double) → Value Double
  | [] => .null
  | first :: others => others.foldl plus first

/-- A sum divided by a number of rows. -/
def quotient (total : Value Double) (count : Nat) : Value Double :=
  match total with
  | .integer sum => .float (Platform.div (Platform.ofInt sum) (Platform.ofInt (Int64.ofNat count)))
  | .float sum => .float (Platform.div sum (Platform.ofInt (Int64.ofNat count)))
  | _ => .null

/-- The least of some values in an order, `NULL` if there are none. -/
def extremeOf (below : Value Double → Value Double → Bool) : List (Value Double) → Value Double
  | [] => .null
  | first :: others => least below first others

/-- The least value. -/
def leastOf (values : List (Value Double)) : Value Double :=
  extremeOf (fun a b => valueCompare a b < 0) values

/-- The greatest value. -/
def greatestOf (values : List (Value Double)) : Value Double :=
  extremeOf (fun a b => valueCompare a b > 0) values

omit [Platform Double] in
/-- The values that are not `NULL`. -/
def known (values : List (Value Double)) : List (Value Double) :=
  values.filter fun value => !value.isNull

/-- The sum of integers is their sum in 64 bits. -/
theorem sumOf_integers {ints : List Int64} (some : ints ≠ []) :
    sumOf (ints.map .integer : List (Value Double)) =
      .integer (Int64.ofInt (ints.map Int64.toInt).sum) := by
  cases ints with
  | nil => exact absurd rfl some
  | cons first others =>
      clear some
      rw [List.map_cons, List.map_cons, List.sum_cons, sumOf]
      induction others generalizing first with
      | nil => simp
      | cons second others ih =>
          rw [List.map_cons, List.map_cons, List.sum_cons, List.foldl_cons, plus, ih]
          simp only [Int64.ofInt_add, Int64.ofInt_toInt, Int64.add_assoc]

/-- The least integer is one of them, and none is below it. -/
theorem leastOf_integers {ints : List Int64} (some : ints ≠ []) :
    ∃ low ∈ ints, leastOf (ints.map .integer : List (Value Double)) = .integer low ∧
      ∀ i ∈ ints, low ≤ i := by
  have order : ∀ a b : Int64,
      valueCompare (.integer a : Value Double) (.integer b) < 0 ↔ a < b := fun a b => by
    rw [valueCompare, threeWay]
    by_cases below : a < b <;> by_cases above : b < a <;> simp [below, above]
  cases ints with
  | nil => exact absurd rfl some
  | cons first others =>
      obtain ⟨member, lowest⟩ := @least_spec (Value Double)
        (fun a b => valueCompare a b < 0) (.integer first) (others.map .integer)
        (by
          simp only [← List.map_cons, List.forall_mem_map, decide_eq_false_iff_not, order]
          exact fun a _ => Int64.lt_irrefl)
        (by
          simp only [← List.map_cons, List.forall_mem_map, decide_eq_true_eq, order]
          exact fun a _ b _ c _ => Int64.lt_trans)
      rw [← List.map_cons] at member lowest
      obtain ⟨low, inside, same⟩ := List.mem_map.mp member
      refine ⟨low, inside, same.symm, fun i among => ?_⟩
      have := lowest _ (List.mem_map_of_mem among)
      rw [← same, decide_eq_false_iff_not, order] at this
      exact Int64.not_lt.mp this

/-- The values of an expression on some rows that are not `NULL`. -/
def knownValues (schema : SchemaPointer) (rows : List (Tuple Double)) (expr : Expr Double) :
    List (Value Double) :=
  known (rows.map (valueOf schema · expr))

/-- The value of an aggregate for the rows of a group. -/
def aggregateOf (schema : SchemaPointer) (rows : List (Tuple Double)) :
    Aggregate Double → Value Double
  | .countStar => .integer (Int64.ofNat rows.length)
  | .count expr => .integer (Int64.ofNat (knownValues schema rows expr).length)
  | .sum expr => sumOf (knownValues schema rows expr)
  | .avg expr =>
      let known := knownValues schema rows expr
      quotient (sumOf known) known.length
  | .min expr => leastOf (knownValues schema rows expr)
  | .max expr => greatestOf (knownValues schema rows expr)

/-- The key of a row. -/
def groupKeyOf (schema : SchemaPointer) (groupBy : List (Expr Double)) (row : Tuple Double) :
    List (Value Double) :=
  groupBy.map (valueOf schema row)

/-- The groups of some rows. Without grouping expressions all rows are one group, also if
there are none. -/
def groupsOf (schema : SchemaPointer) (groupBy : List (Expr Double)) (rows : List (Tuple Double)) :
    List (List (Value Double) × List (Tuple Double)) :=
  if groupBy = [] then [([], rows)]
  else (grouping groupKeyEqual (groupKeyOf schema groupBy) rows).groups

/-- The row of each group: its key and its aggregates. -/
def aggregateRows (schema : SchemaPointer) (groupBy : List (Expr Double))
    (aggregates : List (Aggregate Double)) (rows : List (Tuple Double)) :
    List (List (Value Double)) :=
  (groupsOf schema groupBy rows).map fun group =>
    group.1 ++ aggregates.map (aggregateOf schema group.2)

/-! ## The state of an aggregate -/

/-- Doubles hold the integers below 2^53 exactly. -/
def ExactIntegers (Double : Type) [Platform Double] : Prop :=
  ∀ i : Int64, i.toInt.natAbs < 2 ^ 53 → Platform.toInt (Platform.ofInt i : Double) = some i

/-- An integer is below 2^53 in magnitude. -/
def Small : Value Double → Prop
  | .integer i => i.toInt.natAbs < 2 ^ 53
  | _ => True

/-- The integers among the values, and the integer sums on the way, are below 2^53. -/
def SmallSums (values : List (Value Double)) : Prop :=
  (∀ value ∈ values, Small value) ∧ ∀ count, Small (sumOf (values.take count))

theorem sumOf_concat {values : List (Value Double)} (some : values ≠ []) (value : Value Double) :
    sumOf (values ++ [value]) = plus (sumOf values) value := by
  cases values with
  | nil => exact absurd rfl some
  | cons first others => exact List.foldl_concat _ _ _ _

omit [Platform Double] in
theorem computes_orNull {call : Checked (Value Double)} {value : Value Double} :
    Computes (orNull call) value ↔
      ∃ outcome, call.run = .ok outcome ∧
        value = match outcome with
          | .ok known => known
          | .error _ => .null := by
  rw [Computes, orNull, noted_run_bind, attempted_run]
  rcases call.run with fault | (rc | known)
  · simp [bind, Except.bind]
  · simp only [ok_bind, noted_run_pure, Except.ok.injEq, Prod.mk.injEq, exists_eq_left',
      exists_and_left, exists_eq', and_true]
    exact eq_comm
  · simp only [ok_bind, noted_run_pure, Except.ok.injEq, Prod.mk.injEq, exists_eq_left',
      exists_and_left, exists_eq', and_true]
    exact eq_comm

/-- Below 2^53 `value_add` adds. -/
theorem valueAdd_computes (exact : ExactIntegers Double) {a b value : Value Double}
    (smallA : Small a) (smallB : Small b) :
    Computes (orNull (valueAdd a b)) value ↔ value = plus a b := by
  rw [computes_orNull]
  have added : (valueAdd a b).run = .ok (match coerceArithmetic a b with
      | .ok _ => .ok (plus a b)
      | .error rc => .error rc) := by
    cases a <;> cases b <;> try rfl
    rename_i a b
    have boundA : a.toInt.natAbs < 2 ^ 53 := smallA
    have boundB : b.toInt.natAbs < 2 ^ 53 := smallB
    have fits : -9223372036854775808 ≤ a.toInt + b.toInt ∧
        a.toInt + b.toInt ≤ 9223372036854775807 := by omega
    have first : toInt64 (Platform.ofInt a : Double) = .ok a := by rw [toInt64, exact a boundA]
    have second : toInt64 (Platform.ofInt b : Double) = .ok b := by rw [toInt64, exact b boundB]
    have sum : int64Of (a.toInt + b.toInt) = .ok (Int64.ofInt (a.toInt + b.toInt)) := by
      rw [int64Of, if_pos fits]
    have shape : valueAdd (.integer a : Value Double) (.integer b) =
        (do
          let ia ← toInt64 (Platform.ofInt a : Double)
          let ib ← toInt64 (Platform.ofInt b : Double)
          return .integer (← int64Of (ia.toInt + ib.toInt)) : Checked (Value Double)) := rfl
    rw [shape, first, second]
    show (liftM (int64Of (a.toInt + b.toInt)) >>= _ : Checked (Value Double)).run = _
    rw [sum]
    rfl
  rw [added]
  simp only [Except.ok.injEq, exists_eq_left']
  cases a <;> cases b <;> exact Iff.rfl

/-- The state of an aggregate after some values. -/
structure StateOf (kind : AggKind) (values : List (Value Double)) (agg : AggState Double) : Prop where
  bounded : values.length < 2 ^ 63
  count : agg.count = Int64.ofNat values.length
  hasValue : agg.hasValue = !(known values).isEmpty
  least : kind ≠ .count → known values ≠ [] → agg.min = leastOf (known values)
  greatest : kind ≠ .count → known values ≠ [] → agg.max = greatestOf (known values)
  total : kind = .sum ∨ kind = .avg → known values ≠ [] → agg.sum = sumOf (known values)

omit [Platform Double] in
theorem computes_lift {α : Type} {call : Except Fault α} {value : α} :
    Computes (liftM call : Noted α) value ↔ call = .ok value := by
  cases call with
  | error fault =>
      constructor
      · rintro ⟨notes, same⟩
        cases same
      · intro same
        cases same
  | ok known =>
      constructor
      · rintro ⟨notes, same⟩
        rw [(Prod.mk.inj (Except.ok.inj same)).1]
      · rintro ⟨⟩
        exact ⟨[], rfl⟩

theorem counted {n : Nat} (bounded : n < 2 ^ 63) {next : Int64} :
    int64Of ((Int64.ofNat n).toInt + 1) = .ok next ↔ n + 1 < 2 ^ 63 ∧ next = Int64.ofNat (n + 1) := by
  rw [Int64.toInt_ofNat_of_lt bounded, int64Of]
  split
  · rename_i fits
    have same : Int64.ofInt ((n : Int) + 1) = Int64.ofNat (n + 1) := Int64.ofInt_eq_ofNat
    rw [Except.ok.injEq, same]
    constructor
    · rintro rfl
      exact ⟨by omega, rfl⟩
    · rintro ⟨-, rfl⟩
      rfl
  · rename_i overflows
    constructor
    · intro same
      cases same
    · rintro ⟨bounded, -⟩
      exact absurd ⟨by omega, by omega⟩ overflows

omit [Platform Double] in
theorem known_concat (values : List (Value Double)) (value : Value Double) :
    known (values ++ [value]) = if value.isNull then known values else known values ++ [value] := by
  rw [known, List.filter_append, List.filter_singleton]
  cases value.isNull <;> simp [known]

theorem stateOf_nil (kind : AggKind) : StateOf kind [] (aggStateInit : AggState Double) where
  bounded := Nat.two_pow_pos 63
  count := rfl
  hasValue := rfl
  least _ some := absurd rfl some
  greatest _ some := absurd rfl some
  total _ some := absurd rfl some

/-- The next state of an aggregate, where its count fits. -/
def nextState (agg : AggState Double) (value : Value Double) (kind : AggKind) (count : Int64) :
    AggState Double :=
  if value.isNull then { agg with count := count }
  else if !agg.hasValue then ⟨count, value, value, value, true⟩
  else
    { count := count
      sum := if kind = .sum ∨ kind = .avg then plus agg.sum value else agg.sum
      min := if kind ≠ .count ∧ valueCompare value agg.min < 0 then value else agg.min
      max := if kind ≠ .count ∧ valueCompare value agg.max > 0 then value else agg.max
      hasValue := true }

theorem updateAgg_computes (exact : ExactIntegers Double) {agg next : AggState Double}
    {value : Value Double} {kind : AggKind}
    (small : (kind = .sum ∨ kind = .avg) → value.isNull = false → agg.hasValue = true →
      Small agg.sum ∧ Small value) :
    Computes (updateAgg agg value kind) next ↔
      ∃ count, int64Of (agg.count.toInt + 1) = .ok count ∧ next = nextState agg value kind count := by
  rw [updateAgg]
  simp only [computes_bind, computes_lift]
  refine exists_congr fun count => and_congr_right fun _ => ?_
  rw [nextState]
  cases isNull : value.isNull with
  | true => simp [computes_pure]
  | false =>
      cases has : agg.hasValue with
      | false => simp [computes_pure]
      | true =>
          by_cases sums : kind = .sum ∨ kind = .avg
          · obtain ⟨smallSum, smallValue⟩ := small sums isNull has
            have other : kind ≠ .count := by rintro rfl; simp at sums
            simp only [Bool.false_eq_true, Bool.not_true, if_false, if_pos sums, computes_bind,
              computes_pure, valueAdd_computes exact smallSum smallValue, exists_eq_left, other,
              ne_eq, not_false_eq_true, true_and]
          · by_cases counts : kind = .count
            · subst counts
              simp [computes_pure]
            · simp [sums, counts, computes_pure]

omit [Platform Double] in
theorem extremeOf_concat (below : Value Double → Value Double → Bool) {values : List (Value Double)}
    (some : values ≠ []) (value : Value Double) :
    extremeOf below (values ++ [value]) =
      if below value (extremeOf below values) then value else extremeOf below values := by
  cases values with
  | nil => exact absurd rfl some
  | cons first others => exact least_concat below first others value

theorem StateOf.next {kind : AggKind} {values : List (Value Double)} {agg : AggState Double}
    (held : StateOf kind values agg) (fits : values.length + 1 < 2 ^ 63) (value : Value Double) :
    StateOf kind (values ++ [value])
      (nextState agg value kind (Int64.ofNat (values.length + 1))) := by
  rw [nextState]
  have length : (values ++ [value]).length = values.length + 1 := List.length_append
  cases isNull : value.isNull with
  | true =>
      have same : known (values ++ [value]) = known values := by rw [known_concat, isNull]; rfl
      exact ⟨by omega, by rw [length]; rfl, same ▸ held.hasValue, same ▸ held.least,
        same ▸ held.greatest, same ▸ held.total⟩
  | false =>
      have more : known (values ++ [value]) = known values ++ [value] := by
        rw [known_concat, isNull]; rfl
      cases has : agg.hasValue with
      | false =>
          have first : known values = [] := by
            have := held.hasValue
            rw [has] at this
            simpa using this
          rw [first, List.nil_append] at more
          refine ⟨by omega, by rw [length]; rfl, ?_, ?_, ?_, ?_⟩ <;> rw [more] <;> intros <;> rfl
      | true =>
          have some : known values ≠ [] := by
            have := held.hasValue
            rw [has] at this
            intro none
            simp [none] at this
          refine ⟨by omega, by rw [length]; rfl, ?_, fun other _ => ?_, fun other _ => ?_,
            fun sums _ => ?_⟩ <;> rw [more]
          · simp
          · simp only [Bool.false_eq_true, if_false, Bool.not_true, ne_eq, other, not_false_eq_true,
              true_and, held.least other some, leastOf, extremeOf_concat _ some, decide_eq_true_eq]
          · simp only [Bool.false_eq_true, if_false, Bool.not_true, ne_eq, other, not_false_eq_true,
              true_and, held.greatest other some, greatestOf, extremeOf_concat _ some,
              decide_eq_true_eq]
          · simp only [Bool.false_eq_true, if_false, Bool.not_true, if_pos sums,
              held.total sums some, sumOf_concat some]

theorem SmallSums.before {values others : List (Value Double)} (small : SmallSums (values ++ others)) :
    SmallSums values := by
  refine ⟨fun value member => small.1 value (List.mem_append_left _ member), fun count => ?_⟩
  have same : values.take count = (values ++ others).take (min count values.length) := by
    rw [List.take_append_of_le_length (Nat.min_le_right _ _), Nat.min_comm, List.take_eq_take_min,
      Nat.min_comm]
  rw [same]
  exact small.2 _

/-- An aggregate has the state of the values it has been updated with, as long as its count
fits. -/
theorem stateOf_run (exact : ExactIntegers Double) {kind : AggKind} {values : List (Value Double)}
    (small : (kind = .sum ∨ kind = .avg) → SmallSums (known values)) :
    (values.length < 2 ^ 63 → ∃ agg, Computes
      (values.foldlM (fun agg value => updateAgg agg value kind) aggStateInit) agg) ∧
    ∀ agg, Computes (values.foldlM (fun agg value => updateAgg agg value kind) aggStateInit) agg →
      StateOf kind values agg := by
  induction values using List.reverseRecOn with
  | nil =>
      refine ⟨fun _ => ⟨_, computes_pure.mpr rfl⟩, fun agg computes => ?_⟩
      rw [computes_pure.mp computes]
      exact stateOf_nil kind
  | append_singleton values value ih =>
      have earlier : (kind = .sum ∨ kind = .avg) → SmallSums (known values) := fun sums => by
        have := small sums
        rw [known_concat] at this
        split at this
        · exact this
        · exact this.before
      obtain ⟨ends, states⟩ := ih earlier
      have smallStep : ∀ agg, StateOf kind values agg → (kind = .sum ∨ kind = .avg) →
          value.isNull = false → agg.hasValue = true → Small agg.sum ∧ Small value := by
        intro agg held sums isNull has
        have some : known values ≠ [] := by
          intro none
          rw [held.hasValue, none] at has
          cases has
        have all := small sums
        rw [known_concat, isNull, if_neg (by simp)] at all
        refine ⟨?_, all.1 value (List.mem_append_right _ List.mem_cons_self)⟩
        rw [held.total sums some]
        have := all.2 (known values).length
        rwa [List.take_left] at this
      have steps : ∀ agg, StateOf kind values agg → ∀ next,
          Computes (updateAgg agg value kind) next ↔ values.length + 1 < 2 ^ 63 ∧
            next = nextState agg value kind (Int64.ofNat (values.length + 1)) := by
        intro agg held next
        rw [updateAgg_computes exact (smallStep agg held), held.count]
        simp only [counted held.bounded]
        constructor
        · rintro ⟨_, ⟨fits, rfl⟩, rfl⟩
          exact ⟨fits, rfl⟩
        · rintro ⟨fits, rfl⟩
          exact ⟨_, ⟨fits, rfl⟩, rfl⟩
      simp only [computes_foldlM_concat, List.length_append, List.length_singleton]
      constructor
      · intro fits
        obtain ⟨agg, computes⟩ := ends (by omega)
        exact ⟨_, agg, computes, (steps agg (states agg computes) _).mpr ⟨fits, rfl⟩⟩
      · rintro next ⟨agg, computes, stepped⟩
        have held := states agg computes
        obtain ⟨fits, rfl⟩ := (steps agg held _).mp stepped
        exact held.next fits value

/-! ## The states of a group -/

section Group

variable {schema : SchemaPointer} {rows : List (Tuple Double)}

/-- The update of one aggregate with a row. -/
def updateOne (schema : SchemaPointer) (aggregate : Expr Double) (agg : AggState Double)
    (row : Tuple Double) : Noted (AggState Double) := do
  let val ← aggInput row schema aggregate
  updateAgg agg val (getAggKind aggregate)

/-- The aggregates of a group do not depend on each other. -/
theorem updateAggs_run_cons {aggregate : Expr Double} {aggregates : List (Expr Double)}
    {agg : AggState Double} {aggs after : List (AggState Double)} :
    Computes (rows.foldlM (fun aggs row => updateAggs row schema (aggregate :: aggregates) aggs)
        (agg :: aggs)) after ↔
      ∃ first others, Computes (rows.foldlM (updateOne schema aggregate) agg) first ∧
        Computes (rows.foldlM (fun aggs row => updateAggs row schema aggregates aggs) aggs) others ∧
        after = first :: others := by
  induction rows generalizing agg aggs with
  | nil =>
      simp only [List.foldlM_nil, computes_pure]
      constructor
      · rintro rfl
        exact ⟨agg, aggs, rfl, rfl, rfl⟩
      · rintro ⟨_, _, rfl, rfl, rfl⟩
        rfl
  | cons row rows ih =>
      simp only [List.foldlM_cons, computes_bind, updateAggs, computes_pure, updateOne]
      constructor
      · rintro ⟨_, ⟨val, input, first, updated, others, updatedOthers, rfl⟩, run⟩
        obtain ⟨last, lastOthers, runFirst, runOthers, rfl⟩ := ih.mp run
        exact ⟨last, lastOthers, ⟨first, ⟨val, input, updated⟩, runFirst⟩,
          ⟨others, updatedOthers, runOthers⟩, rfl⟩
      · rintro ⟨last, lastOthers, ⟨first, ⟨val, input, updated⟩, runFirst⟩,
          ⟨others, updatedOthers, runOthers⟩, rfl⟩
        exact ⟨_, ⟨val, input, first, updated, others, updatedOthers, rfl⟩,
          ih.mpr ⟨last, lastOthers, runFirst, runOthers, rfl⟩⟩

theorem updateAggs_run {aggregates : List (Expr Double)} {after : List (AggState Double)} :
    Computes (rows.foldlM (fun aggs row => updateAggs row schema aggregates aggs)
        (List.replicate aggregates.length aggStateInit)) after ↔
      List.Forall₂ (fun aggregate agg =>
        Computes (rows.foldlM (updateOne schema aggregate) aggStateInit) agg) aggregates after := by
  induction aggregates generalizing after with
  | nil =>
      rw [List.forall₂_nil_left_iff]
      induction rows with
      | nil => exact computes_pure
      | cons row rows ih =>
          simpa only [List.length_nil, List.replicate_zero, List.foldlM_cons, computes_bind,
            updateAggs, computes_pure, exists_eq_left] using ih
  | cons aggregate aggregates ih =>
      rw [List.length_cons, List.replicate_succ, updateAggs_run_cons, List.forall₂_cons_left_iff]
      constructor
      · rintro ⟨first, others, runFirst, runOthers, rfl⟩
        exact ⟨first, others, runFirst, ih.mp runOthers, rfl⟩
      · rintro ⟨first, others, runFirst, runOthers, rfl⟩
        exact ⟨first, others, runFirst, ih.mpr runOthers, rfl⟩

/-- The value an aggregate gets of a row. -/
def inputOf (schema : SchemaPointer) (aggregate : Aggregate Double) (row : Tuple Double) :
    Value Double :=
  match aggregate.operand? with
  | none => .integer 1
  | some expr => valueOf schema row expr

theorem aggInput_computes {aggregate : Aggregate Double} {row : Tuple Double} {val : Value Double} :
    Computes (aggInput row schema aggregate.call) val ↔
      (∀ expr ∈ aggregate.operand?, Defined schema row expr) ∧ val = inputOf schema aggregate row := by
  cases aggregate with
  | countStar => exact computes_pure.trans (by simp [Aggregate.operand?, inputOf])
  | count expr | sum expr | avg expr | min expr | max expr =>
      rw [Aggregate.call, aggInput, if_neg (by simp)]
      exact evaluate_computes.trans (by simp [Aggregate.operand?, inputOf])

theorem updateOne_run {aggregate : Aggregate Double} {start after : AggState Double} :
    Computes (rows.foldlM (updateOne schema aggregate.call) start) after ↔
      (∀ row ∈ rows, ∀ expr ∈ aggregate.operand?, Defined schema row expr) ∧
        Computes ((rows.map (inputOf schema aggregate)).foldlM
          (fun agg value => updateAgg agg value aggregate.kind) start) after := by
  induction rows generalizing start with
  | nil => simp [computes_pure]
  | cons row rows ih =>
      simp only [List.foldlM_cons, List.map_cons, computes_bind, updateOne, aggInput_computes,
        Aggregate.getAggKind_call, List.forall_mem_cons]
      constructor
      · rintro ⟨agg, ⟨_, ⟨defined, rfl⟩, updated⟩, run⟩
        obtain ⟨others, run⟩ := ih.mp run
        exact ⟨⟨defined, others⟩, agg, updated, run⟩
      · rintro ⟨⟨defined, others⟩, agg, updated, run⟩
        exact ⟨agg, ⟨_, ⟨defined, rfl⟩, updated⟩, ih.mpr ⟨others, run⟩⟩

/-- What is emitted of an aggregate: its count includes the rows on which the operand is
`NULL`. -/
def emittedOf (schema : SchemaPointer) (rows : List (Tuple Double)) :
    Aggregate Double → Value Double
  | .countStar | .count _ => .integer (Int64.ofNat rows.length)
  | .sum expr => sumOf (knownValues schema rows expr)
  | .avg expr => quotient (sumOf (knownValues schema rows expr)) rows.length
  | .min expr => leastOf (knownValues schema rows expr)
  | .max expr => greatestOf (knownValues schema rows expr)

theorem StateOf.emitted {aggregate : Aggregate Double} {agg : AggState Double}
    (held : StateOf aggregate.kind (rows.map (inputOf schema aggregate)) agg) :
    aggResult aggregate.kind agg = emittedOf schema rows aggregate := by
  have count := held.count
  have bounded := held.bounded
  rw [List.length_map] at count bounded
  by_cases some : known (rows.map (inputOf schema aggregate)) = []
  · have has : agg.hasValue = false := by rw [held.hasValue, some]; rfl
    cases aggregate with
    | countStar | count expr => exact congrArg Value.integer count
    | sum expr | avg expr | min expr | max expr =>
        have none : knownValues schema rows expr = [] := some
        simp [Aggregate.kind, aggResult, has, emittedOf, none, sumOf, quotient, leastOf, greatestOf,
          extremeOf]
  · have has : agg.hasValue = true := by
      rw [held.hasValue]
      cases values : known (rows.map (inputOf schema aggregate)) with
      | nil => exact absurd values some
      | cons _ _ => rfl
    cases aggregate with
    | countStar | count expr => exact congrArg Value.integer count
    | sum expr =>
        rw [Aggregate.kind, aggResult, if_pos has]
        exact held.total (.inl rfl) some
    | avg expr =>
        have positive : agg.count > 0 := by
          have rowsSome : rows ≠ [] := by
            rintro rfl
            exact some rfl
          have := List.length_pos_of_ne_nil rowsSome
          rw [count, gt_iff_lt, Int64.lt_iff_toInt_lt, Int64.toInt_ofNat_of_lt bounded]
          exact Int.natCast_pos.mpr this
        rw [Aggregate.kind, aggResult, if_pos ⟨has, positive⟩, held.total (.inr rfl) some, count]
        rfl
    | min expr =>
        rw [Aggregate.kind, aggResult, if_pos has]
        exact held.least (by simp [Aggregate.kind]) some
    | max expr =>
        rw [Aggregate.kind, aggResult, if_pos has]
        exact held.greatest (by simp [Aggregate.kind]) some

end Group

/-! ## The groups -/

section Groups

variable {schema : SchemaPointer} {groupBy aggregates : List (Expr Double)}
variable {keyOf : Tuple Double → List (Value Double)} {row : Tuple Double}
variable {entries : List (List (Value Double) × List (Tuple Double))}
variable {groups after : List (AggGroup Double)}

/-- The key that `materialize` gives a row: a single `NULL` without grouping. -/
def hashKeyOf (schema : SchemaPointer) (groupBy : List (Expr Double)) (row : Tuple Double) :
    List (Value Double) :=
  if groupBy = [] then [.null] else groupKeyOf schema groupBy row

/-- A group with its key has been updated with its rows. -/
def GroupHolds (schema : SchemaPointer) (aggregates : List (Expr Double))
    (entry : List (Value Double) × List (Tuple Double)) (group : AggGroup Double) : Prop :=
  group.groupKey = entry.1 ∧
    Computes (entry.2.foldlM (fun aggs row => updateAggs row schema aggregates aggs)
      (List.replicate aggregates.length aggStateInit)) group.aggStates

omit keyOf row in
/-- The groups that hold are determined by their rows. -/
theorem groupHolds_unique {other : List (AggGroup Double)}
    (first : List.Forall₂ (GroupHolds schema aggregates) entries groups)
    (second : List.Forall₂ (GroupHolds schema aggregates) entries other) : groups = other := by
  induction first generalizing other with
  | nil => exact (List.forall₂_nil_left_iff.mp second).symm
  | @cons entry group entries groups here others ih =>
      obtain ⟨group', rest, here', others', rfl⟩ := List.forall₂_cons_left_iff.mp second
      obtain ⟨key, aggs⟩ := group
      obtain ⟨key', aggs'⟩ := group'
      obtain ⟨rfl, run⟩ := here
      obtain ⟨rfl, run'⟩ := here'
      obtain rfl := run.unique run'
      rw [ih others']

/-- A row updates the group it belongs to. -/
theorem updateGroup_holds (held : List.Forall₂ (GroupHolds schema aggregates) entries groups) :
    Computes (updateGroup (keyOf row) aggregates.length (updateAggs row schema aggregates) groups)
        after ↔
      List.Forall₂ (GroupHolds schema aggregates) (addToGroup groupKeyEqual keyOf row entries)
        after := by
  induction held generalizing after with
  | nil =>
      simp only [updateGroup, addToGroup, computes_bind, computes_pure, List.forall₂_cons_left_iff,
        List.forall₂_nil_left_iff, GroupHolds, List.foldlM_cons, List.foldlM_nil]
      constructor
      · rintro ⟨aggs, updated, rfl⟩
        exact ⟨⟨_, aggs⟩, [], ⟨rfl, aggs, updated, rfl⟩, rfl, rfl⟩
      · rintro ⟨⟨_, last⟩, _, ⟨rfl, aggs, updated, same⟩, rfl, rfl⟩
        dsimp only at same
        subst same
        exact ⟨_, updated, rfl⟩
  | @cons entry group entries groups here others ih =>
      obtain ⟨key, rows⟩ := entry
      obtain ⟨stored, aggs⟩ := group
      obtain ⟨same, run⟩ := here
      dsimp only at same run
      subst same
      rw [updateGroup, addToGroup]
      dsimp only
      split
      · simp only [computes_bind, computes_pure, List.forall₂_cons_left_iff, GroupHolds,
          computes_foldlM_concat]
        constructor
        · rintro ⟨next, updated, rfl⟩
          exact ⟨⟨_, next⟩, groups, ⟨rfl, aggs, run, updated⟩, others, rfl⟩
        · rintro ⟨⟨_, next⟩, rest, ⟨rfl, before, runBefore, updated⟩, held, rfl⟩
          dsimp only at runBefore updated
          obtain rfl := run.unique runBefore
          refine ⟨next, updated, ?_⟩
          rw [groupHolds_unique others held]
      · simp only [computes_bind, computes_pure, List.forall₂_cons_left_iff, ih]
        constructor
        · rintro ⟨rest, held, rfl⟩
          exact ⟨_, rest, ⟨rfl, run⟩, held, rfl⟩
        · rintro ⟨⟨_, next⟩, rest, ⟨rfl, runNext⟩, held, rfl⟩
          dsimp only at runNext
          obtain rfl := run.unique runNext
          exact ⟨rest, held, rfl⟩

/-- Groups that hold have held before their last row. -/
theorem groupsHeld_before
    (held : List.Forall₂ (GroupHolds schema aggregates) (addToGroup groupKeyEqual keyOf row entries)
      after) : ∃ groups, List.Forall₂ (GroupHolds schema aggregates) entries groups := by
  induction entries generalizing after with
  | nil => exact ⟨[], .nil⟩
  | cons entry entries ih =>
      obtain ⟨key, rows⟩ := entry
      rw [addToGroup] at held
      split at held
      · obtain ⟨group, rest, ⟨-, run⟩, others, rfl⟩ := List.forall₂_cons_left_iff.mp held
        obtain ⟨aggs, before, -⟩ := computes_foldlM_concat.mp run
        exact ⟨⟨key, aggs⟩ :: rest, .cons ⟨rfl, before⟩ others⟩
      · obtain ⟨group, rest, here, others, rfl⟩ := List.forall₂_cons_left_iff.mp held
        obtain ⟨groups, held⟩ := ih others
        exact ⟨group :: groups, .cons here held⟩

/-- `materialize` groups the rows and updates each group with its own. -/
theorem addToGroups_run {rows : List (Tuple Double)} :
    Computes (rows.foldlM (addToGroups groupBy aggregates schema) []) after ↔
      (∀ row ∈ rows, ∀ expr ∈ groupBy, Defined schema row expr) ∧
        List.Forall₂ (GroupHolds schema aggregates)
          (grouping groupKeyEqual (hashKeyOf schema groupBy) rows).groups after := by
  induction rows using List.reverseRecOn generalizing after with
  | nil =>
      simp [computes_pure, grouping]
  | append_singleton rows row ih =>
      simp only [computes_foldlM_concat, ih, addToGroups, computes_bind, evaluateAll_computes,
        List.forall_mem_append, List.forall_mem_singleton, grouping_concat]
      have key : (if groupBy = [] then [.null] else groupBy.map (valueOf schema row)) =
          hashKeyOf schema groupBy row := rfl
      constructor
      · rintro ⟨groups, ⟨earlier, held⟩, _, ⟨defined, rfl⟩, updated⟩
        rw [key] at updated
        exact ⟨⟨earlier, defined⟩, (updateGroup_holds held).mp updated⟩
      · rintro ⟨⟨earlier, defined⟩, held⟩
        obtain ⟨groups, before⟩ := groupsHeld_before held
        refine ⟨groups, ⟨earlier, before⟩, _, ⟨defined, rfl⟩, ?_⟩
        rw [key]
        exact (updateGroup_holds before).mpr held

end Groups

/-! ## The rows emitted -/

section Emitted

variable {schema : SchemaPointer} {groupBy : List (Expr Double)}
variable {aggregates : List (Aggregate Double)} {rows : List (Tuple Double)}

/-- The groups of `materialize` with the part of the key that is emitted. Without rows there
is none. -/
theorem hashGroups_eq :
    (grouping groupKeyEqual (hashKeyOf schema groupBy) rows).groups.map
        (fun group => (group.1.take groupBy.length, group.2)) =
      if groupBy = [] ∧ rows = [] then [] else groupsOf schema groupBy rows := by
  by_cases plain : groupBy = []
  · subst plain
    have key : hashKeyOf schema ([] : List (Expr Double)) = fun _ => [.null] := rfl
    cases rows with
    | nil => rfl
    | cons first others =>
        rw [key, grouping_one _ _ fun _ _ => rfl]
        rfl
  · have key : hashKeyOf schema groupBy = groupKeyOf schema groupBy := by
      funext row
      rw [hashKeyOf, if_neg plain]
    rw [key, if_neg (fun both => plain both.1), groupsOf, if_neg plain]
    conv_rhs => rw [← List.map_id (grouping _ _ rows).groups]
    refine List.map_congr_left fun group member => ?_
    obtain ⟨first, -, -, same, -⟩ := (grouping _ _ rows).alike group member
    have length : group.1.length = groupBy.length := by rw [← same, groupKeyOf, List.length_map]
    rw [← length, List.take_length]
    rfl

/-- The integer sums that `SUM` and `AVG` make in each group are below 2^53. -/
def SumsSmall (schema : SchemaPointer) (groupBy : List (Expr Double))
    (aggregates : List (Aggregate Double)) (rows : List (Tuple Double)) : Prop :=
  ∀ group ∈ groupsOf schema groupBy rows, ∀ aggregate ∈ aggregates, ∀ expr,
    aggregate = .sum expr ∨ aggregate = .avg expr → SmallSums (knownValues schema group.2 expr)

theorem SumsSmall.entries (small : SumsSmall schema groupBy aggregates rows) :
    ∀ entry ∈ (grouping groupKeyEqual (hashKeyOf schema groupBy) rows).groups,
      ∀ aggregate ∈ aggregates, ∀ expr, aggregate = .sum expr ∨ aggregate = .avg expr →
        SmallSums (knownValues schema entry.2 expr) := by
  intro entry member
  have inside := List.mem_map_of_mem (f := fun group => (group.1.take groupBy.length, group.2)) member
  rw [hashGroups_eq] at inside
  split at inside
  · exact absurd inside List.not_mem_nil
  · exact small (entry.1.take groupBy.length, entry.2) inside

/-- What is evaluated on the rows is defined, and there are fewer rows than a counter counts. -/
structure Evaluable (schema : SchemaPointer) (groupBy : List (Expr Double))
    (aggregates : List (Aggregate Double)) (rows : List (Tuple Double)) : Prop where
  keys : ∀ row ∈ rows, ∀ expr ∈ groupBy, Defined schema row expr
  operands : ∀ row ∈ rows, ∀ aggregate ∈ aggregates, ∀ expr ∈ aggregate.operand?,
    Defined schema row expr
  countable : rows.length < 2 ^ 63

/-- One aggregate of one group. -/
theorem updateOne_emits (exact : ExactIntegers Double) {aggregate : Aggregate Double}
    (small : ∀ expr, aggregate = .sum expr ∨ aggregate = .avg expr →
      SmallSums (knownValues schema rows expr)) :
    ((∀ row ∈ rows, ∀ expr ∈ aggregate.operand?, Defined schema row expr) →
      rows.length < 2 ^ 63 →
        ∃ agg, Computes (rows.foldlM (updateOne schema aggregate.call) aggStateInit) agg) ∧
    ∀ agg, Computes (rows.foldlM (updateOne schema aggregate.call) aggStateInit) agg →
      aggResult (getAggKind aggregate.call) agg = emittedOf schema rows aggregate ∧
        rows.length < 2 ^ 63 := by
  have smallSums : (aggregate.kind = .sum ∨ aggregate.kind = .avg) →
      SmallSums (known (rows.map (inputOf schema aggregate))) := by
    intro sums
    cases aggregate with
    | sum expr => exact small expr (.inl rfl)
    | avg expr => exact small expr (.inr rfl)
    | countStar | count expr | min expr | max expr => simp [Aggregate.kind] at sums
  obtain ⟨ends, states⟩ := stateOf_run exact smallSums
  rw [List.length_map] at ends
  constructor
  · intro defined countable
    obtain ⟨agg, computes⟩ := ends countable
    exact ⟨agg, updateOne_run.mpr ⟨defined, computes⟩⟩
  · intro agg computes
    have held := states agg (updateOne_run.mp computes).2
    rw [Aggregate.getAggKind_call, held.emitted]
    have bounded := held.bounded
    rw [List.length_map] at bounded
    exact ⟨rfl, bounded⟩

/-- All aggregates of one group. -/
theorem updateAggs_emits (exact : ExactIntegers Double)
    (small : ∀ aggregate ∈ aggregates, ∀ expr, aggregate = .sum expr ∨ aggregate = .avg expr →
      SmallSums (knownValues schema rows expr)) :
    ((∀ row ∈ rows, ∀ aggregate ∈ aggregates, ∀ expr ∈ aggregate.operand?,
        Defined schema row expr) → rows.length < 2 ^ 63 →
      ∃ aggs, List.Forall₂ (fun aggregate agg =>
        Computes (rows.foldlM (updateOne schema aggregate) aggStateInit) agg)
          (aggregates.map Aggregate.call) aggs) ∧
    ∀ aggs, List.Forall₂ (fun aggregate agg =>
        Computes (rows.foldlM (updateOne schema aggregate) aggStateInit) agg)
          (aggregates.map Aggregate.call) aggs →
      (((aggregates.map Aggregate.call).zip aggs).map fun entry =>
          aggResult (getAggKind entry.1) entry.2) = aggregates.map (emittedOf schema rows) ∧
        (aggregates ≠ [] → rows.length < 2 ^ 63) := by
  induction aggregates with
  | nil =>
      refine ⟨fun _ _ => ⟨[], .nil⟩, fun aggs _ => ⟨rfl, fun some => absurd rfl some⟩⟩
  | cons aggregate aggregates ih =>
      obtain ⟨smallFirst, smallOthers⟩ := List.forall_mem_cons.mp small
      obtain ⟨ends, emits⟩ := updateOne_emits exact smallFirst
      obtain ⟨endOthers, emitOthers⟩ := ih smallOthers
      constructor
      · intro defined countable
        obtain ⟨agg, computes⟩ := ends (fun row member => defined row member aggregate
          List.mem_cons_self) countable
        obtain ⟨aggs, others⟩ := endOthers (fun row member other inside =>
          defined row member other (List.mem_cons_of_mem _ inside)) countable
        exact ⟨agg :: aggs, .cons computes others⟩
      · intro aggs held
        obtain ⟨agg, rest, computes, others, rfl⟩ := List.forall₂_cons_left_iff.mp held
        obtain ⟨result, bounded⟩ := emits agg computes
        refine ⟨?_, fun _ => bounded⟩
        rw [List.map_cons, List.zip_cons_cons, List.map_cons, List.map_cons, result,
          (emitOthers rest others).1]

/-- The row that is emitted of each group. -/
theorem groupRows_emitted (exact : ExactIntegers Double)
    {entries : List (List (Value Double) × List (Tuple Double))} {groups : List (AggGroup Double)}
    (small : ∀ entry ∈ entries, ∀ aggregate ∈ aggregates, ∀ expr,
      aggregate = .sum expr ∨ aggregate = .avg expr → SmallSums (knownValues schema entry.2 expr))
    (held : List.Forall₂ (GroupHolds schema (aggregates.map Aggregate.call)) entries groups) :
    (groups.map fun group => (groupRow groupBy (aggregates.map Aggregate.call) group).values) =
        entries.map (fun entry =>
          entry.1.take groupBy.length ++ aggregates.map (emittedOf schema entry.2)) ∧
      ∀ entry ∈ entries, aggregates ≠ [] → entry.2.length < 2 ^ 63 := by
  induction held with
  | nil => exact ⟨rfl, fun _ absent => absurd absent List.not_mem_nil⟩
  | @cons entry group entries groups here others ih =>
      obtain ⟨smallFirst, smallOthers⟩ := List.forall_mem_cons.mp small
      obtain ⟨rows, bounded⟩ := ih smallOthers
      obtain ⟨key, run⟩ := here
      obtain ⟨results, boundedFirst⟩ := (updateAggs_emits exact smallFirst).2 _ (updateAggs_run.mp run)
      refine ⟨?_, List.forall_mem_cons.mpr ⟨boundedFirst, bounded⟩⟩
      rw [List.map_cons, List.map_cons, rows, groupRow, key]
      exact congrArg (fun values => (entry.1.take groupBy.length ++ values) :: _) results

/-- The counts behind an aggregate are right for the rows of a group: the operand of a
`COUNT` is never `NULL`, and the mean is the same over all rows as over those on which the
operand is not `NULL`. -/
def CountsRight (schema : SchemaPointer) (rows : List (Tuple Double)) : Aggregate Double → Prop
  | .count expr => ∀ row ∈ rows, (valueOf schema row expr).isNull = false
  | .avg expr =>
      quotient (sumOf (knownValues schema rows expr)) rows.length =
        quotient (sumOf (knownValues schema rows expr)) (knownValues schema rows expr).length
  | .countStar | .sum _ | .min _ | .max _ => True

theorem emittedOf_iff {aggregate : Aggregate Double} (bounded : rows.length < 2 ^ 63) :
    emittedOf schema rows aggregate = aggregateOf schema rows aggregate ↔
      CountsRight schema rows aggregate := by
  cases aggregate with
  | count expr =>
      have all : (rows.map (valueOf schema · expr)).length = rows.length := List.length_map _
      have fewer : (knownValues schema rows expr).length ≤ rows.length :=
        Nat.le_trans (List.length_filter_le _ _) (Nat.le_of_eq all)
      rw [emittedOf, aggregateOf, CountsRight, Value.integer.injEq, ← Int64.toInt_inj,
        Int64.toInt_ofNat_of_lt bounded, Int64.toInt_ofNat_of_lt (by omega), Int.natCast_inj,
        eq_comm, knownValues, known, ← all, List.length_filter_eq_length_iff, List.forall_mem_map]
      simp
  | countStar | sum expr | min expr | max expr => exact iff_of_true rfl trivial
  | avg expr => exact Iff.rfl

/-- Without grouping there is a row, and the counts are right in each group. -/
def AggregatesRight (schema : SchemaPointer) (groupBy : List (Expr Double))
    (aggregates : List (Aggregate Double)) (rows : List (Tuple Double)) : Prop :=
  (groupBy = [] → rows ≠ []) ∧
    ∀ group ∈ groupsOf schema groupBy rows, ∀ aggregate ∈ aggregates,
      CountsRight schema group.2 aggregate

/-- The aggregates of the groups that `materialize` makes are right if and only if their
counts are. -/
theorem emitted_iff (exact : ExactIntegers Double) {groups : List (AggGroup Double)}
    (small : SumsSmall schema groupBy aggregates rows)
    (held : List.Forall₂ (GroupHolds schema (aggregates.map Aggregate.call))
      (grouping groupKeyEqual (hashKeyOf schema groupBy) rows).groups groups) :
    (groups.map fun group => (groupRow groupBy (aggregates.map Aggregate.call) group).values) =
        aggregateRows schema groupBy aggregates rows ↔
      AggregatesRight schema groupBy aggregates rows := by
  have entries := @hashGroups_eq _ _ schema groupBy rows
  by_cases nothing : groupBy = [] ∧ rows = []
  · obtain ⟨rfl, rfl⟩ := nothing
    obtain rfl := List.forall₂_nil_left_iff.mp held
    refine iff_of_false ?_ fun right => right.1 rfl rfl
    simp [aggregateRows, groupsOf]
  · rw [if_neg nothing] at entries
    obtain ⟨emitted, bounded⟩ := @groupRows_emitted _ _ schema groupBy _ exact _ _ small.entries held
    have lengths : ∀ group ∈ groupsOf schema groupBy rows, aggregates ≠ [] →
        group.2.length < 2 ^ 63 := by
      rw [← entries, List.forall_mem_map]
      exact bounded
    have same : ((grouping groupKeyEqual (hashKeyOf schema groupBy) rows).groups.map fun entry =>
          entry.1.take groupBy.length ++ aggregates.map (emittedOf schema entry.2)) =
        (groupsOf schema groupBy rows).map fun group =>
          group.1 ++ aggregates.map (emittedOf schema group.2) := by
      rw [← entries, List.map_map]
      rfl
    rw [emitted, same, aggregateRows, List.map_inj_left, AggregatesRight]
    have some : groupBy = [] → rows ≠ [] := fun plain none => nothing ⟨plain, none⟩
    rw [and_iff_right some]
    refine forall₂_congr fun group member => ?_
    rw [List.append_cancel_left_eq, List.map_inj_left]
    refine forall₂_congr fun aggregate among => emittedOf_iff ?_
    exact lengths group member (List.ne_nil_of_mem among)

end Emitted

/-! ## The operator -/

/-- The rows that grouping emits are those of the groups if and only if the counts are right,
and it emits rows wherever C defines what it does. -/
theorem aggregates_iff (exact : ExactIntegers Double) {store : PageStore}
    {child : ExecutorT Double PageId} (ready : child.Ready store) {rows : List (Tuple Double)}
    (given : Gives store child rows) {groupBy : List (Expr Double)}
    {aggregates : List (Aggregate Double)}
    (small : SumsSmall child.outputSchema groupBy aggregates rows) :
    let exec := ExecutorT.hashAgg groupBy (aggregates.map Aggregate.call) none child
    (∀ tuples, Gives store exec tuples →
      (tuples.map Tuple.values = aggregateRows child.outputSchema groupBy aggregates rows ↔
        AggregatesRight child.outputSchema groupBy aggregates rows)) ∧
    (Evaluable child.outputSchema groupBy aggregates rows → ∃ tuples, Gives store exec tuples) := by
  intro exec
  have execReady : exec.Ready store := ready
  have yields := (gives_iff_yields ready).mp given
  simp only [gives_iff_yields execReady, exec, yields_hashAgg, addToGroups_run]
  constructor
  · rintro tuples ⟨other, groups, yieldsOther, ⟨-, held⟩, rfl⟩
    obtain rfl := yields.unique yieldsOther
    rw [List.map_map]
    exact emitted_iff exact small held
  · rintro ⟨keys, operands, countable⟩
    have groupEnds : ∀ entry ∈ (grouping groupKeyEqual
        (hashKeyOf child.outputSchema groupBy) rows).groups,
        ∃ group, GroupHolds child.outputSchema (aggregates.map Aggregate.call) entry group := by
      intro entry member
      have covers := (grouping groupKeyEqual (hashKeyOf child.outputSchema groupBy) rows).covers
      have part : entry.2.Sublist ((grouping groupKeyEqual
          (hashKeyOf child.outputSchema groupBy) rows).groups.flatMap Prod.snd) :=
        List.sublist_flatten_of_mem (List.mem_map_of_mem member)
      have fewer := part.length_le
      rw [covers.length_eq] at fewer
      obtain ⟨aggs, computes⟩ := (updateAggs_emits exact (small.entries entry member)).1
        (fun row inRows => operands row (covers.mem_iff.mp (part.subset inRows)))
        (Nat.lt_of_le_of_lt fewer countable)
      exact ⟨⟨entry.1, aggs⟩, rfl, updateAggs_run.mpr computes⟩
    obtain ⟨groups, held⟩ := exists_forall₂ groupEnds
    exact ⟨_, rows, groups, yields, ⟨keys, held⟩, rfl⟩

/-! ## A column with a `NULL` -/

/-- `CREATE TABLE t (n INTEGER)` with the rows `NULL` and `4`. -/
def createNullable : List (Stmt Int) :=
  [.createTable (.ofChars ['t']) [.plain (.ofChars ['n']) .integer 0] false,
    .insert (.ofChars ['t']) [] [[.literal .null], [.literal (.int 4)]]]

/-- `n`. -/
def columnN : Expr Int := .columnRef .empty (.ofChars ['n'])

/-- The scan of the table, and what it gives. -/
theorem scan_createNullable :
    ∃ tableMeta schema,
      lookUpTable (scriptDatabase createNullable).catalog (.ofChars ['t']) =
        some (tableMeta, schema) ∧
      Yields (scriptDatabase createNullable).bpm
        (scanExecutor tableMeta schema (none : Option (Expr Int)))
        [⟨[.null], ⟨1, 0⟩⟩, ⟨[.integer 4], ⟨1, 1⟩⟩] := by
  have seen : (lookUpTable (scriptDatabase createNullable).catalog (.ofChars ['t'])).any
      (fun entry =>
        decide (Yields (scriptDatabase createNullable).bpm
          (scanExecutor entry.1 entry.2 (none : Option (Expr Int)))
          [⟨[.null], ⟨1, 0⟩⟩, ⟨[.integer 4], ⟨1, 1⟩⟩])) = true := by
    decide +kernel
  obtain ⟨⟨tableMeta, schema⟩, found, seen⟩ := (Option.any_eq_true _ _).mp seen
  exact ⟨tableMeta, schema, found, of_decide_eq_true seen⟩

/-- `COUNT(n)` counts the `NULL`. -/
theorem countNullable_differs :
    ∃ (store : PageStore) (child : ExecutorT Int PageId) (rows tuples : List (Tuple Int)),
      child.Ready store ∧ Gives store child rows ∧
      SumsSmall child.outputSchema [] [.count columnN] rows ∧
      Gives store (.hashAgg [] [Aggregate.call (.count columnN)] none child) tuples ∧
      tuples.map Tuple.values = [[.integer 2]] ∧
      aggregateRows child.outputSchema [] [.count columnN] rows = [[.integer 1]] := by
  obtain ⟨tableMeta, schema, found, yields⟩ := scan_createNullable
  have seen : (lookUpTable (scriptDatabase createNullable).catalog (.ofChars ['t'])).all
      (fun entry => decide (Yields (scriptDatabase createNullable).bpm
        (.hashAgg [] [Aggregate.call (.count columnN)] none (scanExecutor entry.1 entry.2 none))
          [⟨[.integer 2], invalidRid⟩] ∧
        aggregateRows (.to entry.2) [] [.count columnN]
          [⟨[.null], ⟨1, 0⟩⟩, ⟨[.integer 4], ⟨1, 1⟩⟩] = [[.integer 1]])) = true := by
    decide +kernel
  rw [found, Option.all_some, decide_eq_true_eq] at seen
  have ready : (scanExecutor tableMeta schema (none : Option (Expr Int))).Ready _ :=
    scanExecutor_ready (reached_scriptDatabase createNullable).sound.tables found none
  have execReady : (ExecutorT.hashAgg [] [Aggregate.call (.count columnN)] none
      (scanExecutor tableMeta schema none)).Ready _ := ready
  refine ⟨_, scanExecutor tableMeta schema none, _, _, ready, (gives_iff_yields ready).mpr yields,
    ?_, (gives_iff_yields execReady).mpr seen.1, rfl, seen.2⟩
  intro group _ aggregate member expr sums
  obtain rfl := List.mem_singleton.mp member
  simp at sums

/-- Integers that stand for doubles are exact. -/
theorem exactIntegers_int : ExactIntegers Int := by
  intro i _
  have fits : -9223372036854775808 ≤ i.toInt ∧ i.toInt ≤ 9223372036854775807 :=
    ⟨Int64.le_toInt i, Int.le_of_lt_add_one (Int64.toInt_lt i)⟩
  exact (if_pos fits).trans (congrArg some (Int64.ofInt_toInt i))

theorem aggregates_iff_createNullable :
    ∃ (store : PageStore) (child : ExecutorT Int PageId),
      ∀ tuples, Gives store (.hashAgg [] [Aggregate.call .countStar, Aggregate.call (.sum columnN)]
        none child) tuples → tuples.map Tuple.values = [[.integer 2, .integer 4]] := by
  obtain ⟨tableMeta, schema, found, yields⟩ := scan_createNullable
  have seen : (lookUpTable (scriptDatabase createNullable).catalog (.ofChars ['t'])).all
      (fun entry =>
        decide (aggregateRows (.to entry.2) [] [.countStar, .sum columnN]
          [⟨[.null], ⟨1, 0⟩⟩, ⟨[.integer 4], ⟨1, 1⟩⟩] = [[.integer 2, .integer 4]]) &&
        decide (knownValues (.to entry.2) [⟨[.null], ⟨1, 0⟩⟩, ⟨[.integer 4], ⟨1, 1⟩⟩] columnN =
          [.integer 4])) = true := by
    decide +kernel
  rw [found, Option.all_some, Bool.and_eq_true_iff, decide_eq_true_eq, decide_eq_true_eq] at seen
  obtain ⟨reference, known⟩ := seen
  have ready : (scanExecutor tableMeta schema (none : Option (Expr Int))).Ready _ :=
    scanExecutor_ready (reached_scriptDatabase createNullable).sound.tables found none
  have small : SmallSums ([.integer 4] : List (Value Int)) := by
    refine ⟨fun value member => ?_, fun count => ?_⟩
    · rw [List.mem_singleton.mp member]
      exact (by decide : (4 : Int64).toInt.natAbs < 2 ^ 53)
    · cases count with
      | zero => trivial
      | succ count =>
          rw [List.take_succ_cons, List.take_nil]
          exact (by decide : (4 : Int64).toInt.natAbs < 2 ^ 53)
  have sums : SumsSmall (.to schema) [] [.countStar, .sum columnN]
      [⟨[.null], ⟨1, 0⟩⟩, ⟨[.integer 4], ⟨1, 1⟩⟩] := by
    intro group inGroups aggregate member expr call
    obtain rfl := List.mem_singleton.mp inGroups
    rcases List.mem_cons.mp member with rfl | member
    · simp at call
    · obtain rfl := List.mem_singleton.mp member
      simp only [Aggregate.sum.injEq, reduceCtorEq, or_false] at call
      rw [← call, known]
      exact small
  refine ⟨(scriptDatabase createNullable).bpm, scanExecutor tableMeta schema none,
    fun tuples given => ?_⟩
  refine (((aggregates_iff exactIntegers_int ready ((gives_iff_yields ready).mpr yields) sums).1
    tuples given).mpr ⟨fun _ => by simp, fun group inGroups aggregate member => ?_⟩).trans reference
  rcases List.mem_cons.mp member with rfl | member
  · trivial
  · obtain rfl := List.mem_singleton.mp member
    trivial

end MiniSqlite.Executor
