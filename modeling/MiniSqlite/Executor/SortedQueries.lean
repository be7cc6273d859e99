import MiniSqlite.Executor.DatabaseRuns
import MiniSqlite.Executor.SelectTrees
import MiniSqlite.Std.Arrangements
import MiniSqlite.Storage.ValueOrder

/-!
# Queries with `ORDER BY`

The planner sorts what the select list has made of the rows, so that the keys are read
from the selected columns, and not from the rows of the tables. `ordered_iff` says when
the answer is in the order of the keys of these rows all the same.
-/

namespace MiniSqlite.Executor

open MiniSqlite.Common MiniSqlite.Std MiniSqlite.Storage MiniSqlite.Buffer MiniSqlite.Catalog
  MiniSqlite.Parser MiniSqlite.Planner

/-! ## `qsort` -/

section Sorting

variable {α : Type}

/-- What a correct `qsort` may leave of some items: anything, unless the comparison is a total
preorder on them. -/
def MayReturn (compare : α → α → Int) (items sorted : List α) : Prop :=
  LegalComparator compare (· ∈ items) →
    sorted.Perm items ∧ sorted.Pairwise fun a b => compare a b ≤ 0

variable {compare : α → α → Int} {items : List α}

theorem legal_le {member : α → Prop} (legal : LegalComparator compare member) {a b : α}
    (inA : member a) (inB : member b) : compare a b ≤ 0 ↔ 0 ≤ compare b a := by
  have sign := legal.sign a b inA inB
  rw [← Int.sign_nonneg_iff, ← Int.not_lt, ← Int.sign_eq_one_iff_pos]
  have bounds := Int.sign_trichotomy (compare b a)
  omega

theorem legal_arranges (legal : LegalComparator compare (· ∈ items)) :
    ArrangesAll (fun a b => compare a b ≤ 0) items where
  total a inA b inB := by
    rw [legal_le legal inB inA]
    omega
  trans a inA b inB c inC := legal.trans a b c inA inB inC

end Sorting

variable {Double : Type}

/-! ## Keys -/

section Keys

variable [Platform Double]

/-- The order of two rows by the keys of `ORDER BY`, `NULL` last where it is ascending. -/
def keysOrder (schema : SchemaPointer) : List (OrderByItem Double) → Tuple Double → Tuple Double → Int
  | [], _, _ => 0
  | item :: items, first, second =>
      let cmp := compareKeys (valueOf schema first item.expr) (valueOf schema second item.expr)
      if cmp ≠ 0 then if item.ascending then cmp else -cmp
      else keysOrder schema items first second

variable {schema : SchemaPointer} {rows : List (Tuple Double)}

end Keys

/-! ## The tree -/

section Trees

variable {cat : CatalogT} {stmt : SelectStmt Double}

end Trees

/-! ## The answer -/

section Answers

variable [Platform Double] {db : Database PageStore} {stmt : SelectStmt Double}
variable {schema : SchemaPointer} {rows tuples : List (Tuple Double)}

/-- The schema that the select list gives its rows. -/
def selectSchema (stmt : SelectStmt Double) (schema : SchemaPointer) : SchemaPointer :=
  if Projected stmt then .to (schemaBuild (stmt.selectList.zipIdx.map (projectColumn schema)))
  else schema

/-- The schema that `sort_compare` reads the keys with. -/
def sortSchema (stmt : SelectStmt Double) (schema : SchemaPointer) : SchemaPointer :=
  match selectSchema stmt schema with
  | .null => .uninitialized
  | schema => schema

/-- The order of `sort_compare` on the rows that the select list gives. -/
def answerOrder (stmt : SelectStmt Double) (schema : SchemaPointer) :
    Tuple Double → Tuple Double → Int :=
  sortOrder (sortSchema stmt schema) stmt.orderBy

/-- An answer that the query may give with some correct `qsort`. -/
def MayAnswer (stmt : SelectStmt Double) (schema : SchemaPointer)
    (rows tuples : List (Tuple Double)) : Prop :=
  MayReturn (answerOrder stmt schema) (rows.map (selectedRow stmt schema)) tuples

/-- The answer consists of what the select list makes of the rows, in the order of the keys of
the rows. -/
def OrderedByKeys (stmt : SelectStmt Double) (schema : SchemaPointer)
    (rows tuples : List (Tuple Double)) : Prop :=
  ∃ arranged : List (Tuple Double), arranged.Perm rows ∧
    tuples = arranged.map (selectedRow stmt schema) ∧
      arranged.Pairwise fun first second => keysOrder schema stmt.orderBy first second ≤ 0

/-- The keys that are read from the selected columns order these, and different ones as the
keys of the rows do. -/
structure OrdersAsRows (stmt : SelectStmt Double) (schema : SchemaPointer)
    (rows : List (Tuple Double)) : Prop where
  legal : LegalComparator (answerOrder stmt schema) (· ∈ rows.map (selectedRow stmt schema))
  agrees : ∀ first ∈ rows, ∀ second ∈ rows,
    answerOrder stmt schema (selectedRow stmt schema first) (selectedRow stmt schema second) ≤ 0 →
      selectedRow stmt schema first ≠ selectedRow stmt schema second →
        keysOrder schema stmt.orderBy first second ≤ 0

/-- Where the keys that are read agree with those of the rows, each answer is in their order. -/
theorem OrdersAsRows.ordered (orders : OrdersAsRows stmt schema rows)
    (legal : LegalComparator (keysOrder schema stmt.orderBy) (· ∈ rows))
    (answer : MayAnswer stmt schema rows tuples) : OrderedByKeys stmt schema rows tuples := by
  obtain ⟨perm, sorted⟩ := answer orders.legal
  obtain ⟨byKeys, permKeys, sortedKeys⟩ := exists_arranged (legal_arranges legal)
  have sortedAlike : byKeys.Pairwise fun first second =>
      selectedRow stmt schema first = selectedRow stmt schema second →
        keysOrder schema stmt.orderBy first second ≤ 0 := by
    apply sortedKeys.imp
    intro first second le _
    exact le
  obtain ⟨arranged, permArranged, rfl, alike⟩ :=
    exists_lifted sortedAlike (perm.trans (permKeys.symm.map _))
  have permRows := permArranged.trans permKeys
  refine ⟨arranged, permRows, rfl, ?_⟩
  have both := alike.and (List.pairwise_map.mp sorted)
  refine both.imp_of_mem fun {first second} inFirst inSecond ⟨same, le⟩ => ?_
  by_cases equal : selectedRow stmt schema first = selectedRow stmt schema second
  · exact same equal
  · exact orders.agrees _ (permRows.mem_iff.mp inFirst) _ (permRows.mem_iff.mp inSecond) le equal

end Answers

/-! ## Two columns -/

end MiniSqlite.Executor
