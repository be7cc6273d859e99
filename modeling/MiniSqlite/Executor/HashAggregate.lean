import MiniSqlite.Executor.Session

/-!
# Grouping and aggregates

The part of `executor/hash_agg_executor.c` that does not pull rows: the groups,
how a row changes them and the row a group becomes.
-/

namespace MiniSqlite.Executor

open MiniSqlite.Common MiniSqlite.Storage MiniSqlite.Parser

variable {Double : Type} [Platform Double]

/-- `agg_kind_t`. -/
inductive AggKind where
  | count
  | sum
  | avg
  | min
  | max
  deriving DecidableEq

/-- `agg_state_t`. -/
structure AggState (Double : Type) where
  count : Int64
  sum : Value Double
  min : Value Double
  max : Value Double
  hasValue : Bool

/-- `agg_group_t`. -/
structure AggGroup (Double : Type) where
  groupKey : List (Value Double)
  aggStates : List (AggState Double)

omit [Platform Double] in
/-- `get_agg_kind`. -/
def getAggKind : Expr Double → AggKind
  | .functionCall name _ _ =>
      if name = .ofChars ['C', 'O', 'U', 'N', 'T'] then .count
      else if name = .ofChars ['S', 'U', 'M'] then .sum
      else if name = .ofChars ['A', 'V', 'G'] then .avg
      else if name = .ofChars ['M', 'I', 'N'] then .min
      else if name = .ofChars ['M', 'A', 'X'] then .max
      else .count
  | _ => .count

/-- The comparison of two key values in `group_key_equal`. -/
def keyValueEqual : Value Double → Value Double → Bool
  | .integer a, .integer b => a == b
  | .float a, .float b => Platform.equal a b
  | .boolean a, .boolean b => a == b
  | .varchar a, .varchar b => a.chars == b.chars
  | .null, .null => true
  | _, _ => false

/-- `group_key_equal`. -/
def groupKeyEqual (a b : List (Value Double)) : Bool :=
  a.length = b.length && (a.zip b).all fun (va, vb) => keyValueEqual va vb

omit [Platform Double] in
/-- A zeroed `agg_state_t`; its values are not looked at before they are set. -/
def aggStateInit : AggState Double := ⟨0, .null, .null, .null, false⟩

/-- `update_agg`. -/
def updateAgg (agg : AggState Double) (val : Value Double) (kind : AggKind) :
    Noted (AggState Double) := do
  let agg := { agg with count := ← int64Of (agg.count.toInt + 1) }
  if val.isNull then return agg
  if !agg.hasValue then return { agg with min := val, max := val, sum := val, hasValue := true }
  let agg := if kind = .count then agg else
    { agg with
      min := if valueCompare val agg.min < 0 then val else agg.min
      max := if valueCompare val agg.max > 0 then val else agg.max }
  if kind = .sum ∨ kind = .avg then return { agg with sum := ← orNull (valueAdd agg.sum val) }
  return agg

/-- The value an aggregate is updated with for a tuple. -/
def aggInput (tuple : Tuple Double) (schema : SchemaPointer) (aggregate : Expr Double) :
    Noted (Value Double) :=
  match aggregate with
  | .functionCall _ args isStar =>
      if getAggKind aggregate = .count ∧ isStar then return .integer 1
      else
        match args with
        | [] => return .null
        | arg :: _ => evaluate tuple schema arg
  | _ => return .null

/-- Updates the aggregates of a group with a tuple. -/
def updateAggs (tuple : Tuple Double) (schema : SchemaPointer) :
    List (Expr Double) → List (AggState Double) → Noted (List (AggState Double))
  | aggregate :: aggregates, agg :: aggs => do
      let val ← aggInput tuple schema aggregate
      let agg ← updateAgg agg val (getAggKind aggregate)
      let aggs ← updateAggs tuple schema aggregates aggs
      return agg :: aggs
  | _, _ => return []

/-- Updates the group with a key, which is added if there is none. -/
def updateGroup (key : List (Value Double)) (aggCount : Nat)
    (update : List (AggState Double) → Noted (List (AggState Double))) :
    List (AggGroup Double) → Noted (List (AggGroup Double))
  | [] => do
      let aggs ← update (List.replicate aggCount aggStateInit)
      return [⟨key, aggs⟩]
  | group :: groups =>
      if groupKeyEqual group.groupKey key then do
        let aggs ← update group.aggStates
        return { group with aggStates := aggs } :: groups
      else do
        let groups ← updateGroup key aggCount update groups
        return group :: groups

/-- The body of the loop of `materialize`. Without grouping the key is a single `NULL`. -/
def addToGroups (groupBy aggregates : List (Expr Double)) (schema : SchemaPointer)
    (groups : List (AggGroup Double)) (tuple : Tuple Double) :
    Noted (List (AggGroup Double)) := do
  let values ← evaluateAll tuple schema groupBy
  let key := if groupBy = [] then [.null] else values
  updateGroup key aggregates.length (updateAggs tuple schema aggregates) groups

/-- The value of an aggregate in `hash_agg_next`. -/
def aggResult (kind : AggKind) (agg : AggState Double) : Value Double :=
  match kind with
  | .count => .integer agg.count
  | .sum => if agg.hasValue then agg.sum else .null
  | .avg =>
      if agg.hasValue ∧ agg.count > 0 then
        match agg.sum with
        | .integer sum => .float (Platform.div (Platform.ofInt sum) (Platform.ofInt agg.count))
        | .float sum => .float (Platform.div sum (Platform.ofInt agg.count))
        | _ => .null
      else .null
  | .min => if agg.hasValue then agg.min else .null
  | .max => if agg.hasValue then agg.max else .null

/-- The row `hash_agg_next` makes of a group. -/
def groupRow (groupBy aggregates : List (Expr Double)) (group : AggGroup Double) :
    Tuple Double where
  values := group.groupKey.take groupBy.length ++
    (aggregates.zip group.aggStates).map fun (aggregate, agg) =>
      aggResult (getAggKind aggregate) agg
  rid := invalidRid

end MiniSqlite.Executor
