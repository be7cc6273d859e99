import MiniSqlite.Executor.QueryEvents
import MiniSqlite.Executor.ExecutionEngine
import MiniSqlite.Planner.PlanShapes

/-!
# The trees that are built

What `build_executor` makes of the plans of statements. The tree of a query only
reads, and its scans stand on the tables of the catalog. A plan with an index scan
gives no tree, and where it is the source of an `UPDATE` or `DELETE`, a tree over
a null pointer.
-/

namespace MiniSqlite.Executor

open MiniSqlite.Common MiniSqlite.Storage MiniSqlite.Buffer MiniSqlite.Catalog MiniSqlite.Parser
  MiniSqlite.Planner

variable {Double : Type}

/-- Every table of the database is a sound heap. -/
def TablesSound (db : Database PageStore) : Prop :=
  ∀ tableName tableMeta, catalogGetTable db.catalog tableName = .ok tableMeta →
    ∃ chain, HeapSound ⟨db.bpm, tableMeta.rootPageId⟩ chain

/-- The tree of a plan over the ideal pool, with `none` for `NULL`. -/
abbrev buildTree (cat : CatalogT) (plan : PhysicalNode Double) :
    Except Fault (Option (ExecutorT Double PageId)) :=
  buildExecutor cat plan

/-- The executor of a scan. -/
def scanExecutor (tableMeta : TableMeta) (schema : Schema) (predicate : Option (Expr Double)) :
    ExecutorT Double PageId :=
  .seqScan tableMeta.rootPageId schema predicate (startIter tableMeta.rootPageId)

variable {cat : CatalogT}

theorem lookUpTable_eq {tableName : CString} {tableMeta : TableMeta} {schema : Schema}
    (found : lookUpTable cat tableName = some (tableMeta, schema)) :
    catalogGetTable cat tableName = .ok tableMeta ∧
      catalogGetSchema cat tableMeta.tableId = .ok schema := by
  unfold lookUpTable at found
  split at found
  · exact absurd found (by simp)
  · rename_i found'
    split at found
    · exact absurd found (by simp)
    · rename_i schemaFound
      obtain ⟨rfl, rfl⟩ := Prod.mk.inj (Option.some.inj found)
      exact ⟨found', schemaFound⟩

theorem lookUpTable_of_schema {tableName : CString} {tableMeta : TableMeta} {schema : Schema}
    (found : catalogGetTable cat tableName = .ok tableMeta)
    (known : getTableSchema cat tableMeta.tableId = some schema) :
    lookUpTable cat tableName = some (tableMeta, schema) := by
  rw [lookUpTable, found]
  dsimp only
  rw [getTableSchema] at known
  cases schemaFound : catalogGetSchema cat tableMeta.tableId with
  | error rc => simp [schemaFound, Except.toOption] at known
  | ok other =>
      rw [schemaFound] at known
      rw [Option.some.inj known]

/-! ## Operators over one child -/

/-- An operator over one child: what it puts on the tree of the child. -/
def stage : PhysicalNode Double →
    Option ((ExecutorT Double PageId → ExecutorT Double PageId) × PhysicalNode Double)
  | .filter predicate child => some (.filter predicate, child)
  | .project expressions child =>
      some (fun exec => .project expressions
        (schemaBuild (expressions.zipIdx.map (projectColumn exec.outputSchema))) exec, child)
  | .sort items child => some (.sort items none, child)
  | .limit rows offset child => some (.limit rows offset 0 0, child)
  | .hashAggregate groupBy aggregates child => some (.hashAgg groupBy aggregates none, child)
  | _ => none

variable {plan child : PhysicalNode Double}
variable {wrap : ExecutorT Double PageId → ExecutorT Double PageId}

theorem buildExecutor_stage (staged : stage plan = some (wrap, child)) :
    buildTree cat plan = Option.map wrap <$> buildTree cat child := by
  cases plan <;> simp only [stage, Option.some.injEq, Prod.mk.injEq, reduceCtorEq] at staged
  all_goals
    obtain ⟨rfl, rfl⟩ := staged
    rw [buildTree, buildTree, buildExecutor]
    generalize (buildExecutor cat _ : Except Fault (Option (ExecutorT Double PageId))) = built
    rcases built with fault | _ | exec <;> rfl

theorem reads_of_stage (staged : stage plan = some (wrap, child)) : plan.Reads ↔ child.Reads := by
  cases plan <;> simp only [stage, Option.some.injEq, Prod.mk.injEq, reduceCtorEq] at staged
  all_goals
    obtain ⟨-, rfl⟩ := staged
    exact Iff.rfl

theorem ready_of_stage [Platform Double] {store : PageStore} (staged : stage plan = some (wrap, child))
    (exec : ExecutorT Double PageId) : (wrap exec).Ready store ↔ exec.Ready store := by
  cases plan <;> simp only [stage, Option.some.injEq, Prod.mk.injEq, reduceCtorEq] at staged
  all_goals
    obtain ⟨rfl, -⟩ := staged
    exact Iff.rfl

/-- The schema of the pairs of two tables. -/
def joinSchema (outer inner : Schema) : Schema := schemaBuild (outer.columns ++ inner.columns)

/-- A join gets a tree if its children get trees with schemas, whatever its type. -/
theorem buildTree_join {joinType : TokenType} {condition : Option (Expr Double)}
    {left right : PhysicalNode Double} {exec : ExecutorT Double PageId} :
    buildTree cat (.nestedLoopJoin joinType condition left right) = .ok (some exec) ↔
      ∃ outer inner outerSchema innerSchema, buildTree cat left = .ok (some outer) ∧
        buildTree cat right = .ok (some inner) ∧ outer.outputSchema = .to outerSchema ∧
        inner.outputSchema = .to innerSchema ∧
        exec = .nlJoin condition (joinSchema outerSchema innerSchema) none outer inner := by
  rw [buildTree, buildTree, buildTree, buildExecutor]
  constructor
  · intro built
    rcases leftBuilt : (buildExecutor cat left : Except Fault (Option (ExecutorT Double PageId)))
      with fault | _ | outer <;>
    rcases rightBuilt : (buildExecutor cat right : Except Fault (Option (ExecutorT Double PageId)))
      with fault | _ | inner <;> rw [leftBuilt] at built
    case ok.some.ok.some =>
      rw [rightBuilt] at built
      dsimp only [bind, Except.bind] at built
      cases outerSchema : outer.outputSchema <;> cases innerSchema : inner.outputSchema <;>
        rw [outerSchema, innerSchema] at built <;> cases built
      exact ⟨outer, inner, _, _, rfl, rfl, outerSchema, innerSchema, rfl⟩
    all_goals first | cases built | (rw [rightBuilt] at built; cases built)
  · rintro ⟨outer, inner, outerSchema, innerSchema, leftBuilt, rightBuilt, outerHas, innerHas, rfl⟩
    rw [leftBuilt, rightBuilt]
    dsimp only [bind, Except.bind]
    rw [outerHas, innerHas]
    rfl

/-! ## Queries -/

section Queries

variable [Platform Double]

theorem ready_of_build_stage {store : PageStore} {exec : ExecutorT Double PageId}
    (staged : stage plan = some (wrap, child)) (built : buildTree cat plan = .ok (some exec))
    (ready : ∀ exec, buildTree cat child = .ok (some exec) → exec.Ready store) : exec.Ready store := by
  rw [buildExecutor_stage staged] at built
  cases inner : buildTree cat child with
  | error fault => rw [inner] at built; cases built
  | ok below =>
      rw [inner] at built
      cases below with
      | none => cases built
      | some below =>
          obtain rfl := Option.some.inj (Except.ok.inj built)
          exact (ready_of_stage staged below).mpr (ready below inner)

/-- The tree of a plan that only reads is ready to run. -/
theorem buildExecutor_ready {db : Database PageStore} (sound : TablesSound db)
    (reads : plan.Reads) {exec : ExecutorT Double PageId}
    (built : buildTree db.catalog plan = .ok (some exec)) : exec.Ready db.bpm := by
  induction plan generalizing exec with
  | seqScan scan predicate =>
      rw [buildTree, buildExecutor] at built
      split at built
      · exact absurd built (by simp)
      · rename_i tableMeta schema found
        obtain rfl := Option.some.inj (Except.ok.inj built)
        obtain ⟨chain, tableSound⟩ := sound _ _ (lookUpTable_eq found).1
        exact ⟨⟨chain, tableSound.chained, tableSound.length_lt⟩,
          chain, ⟨tableSound.chained, by simp⟩, tableSound.length_lt⟩
  | indexScan => exact absurd built (by simp [buildTree, buildExecutor])
  | filter predicate child ih => exact ready_of_build_stage rfl built fun _ inner => ih reads inner
  | project expressions child ih =>
      exact ready_of_build_stage rfl built fun _ inner => ih reads inner
  | sort items child ih => exact ready_of_build_stage rfl built fun _ inner => ih reads inner
  | limit rows offset child ih => exact ready_of_build_stage rfl built fun _ inner => ih reads inner
  | hashAggregate groupBy aggregates child ih =>
      exact ready_of_build_stage rfl built fun _ inner => ih reads inner
  | nestedLoopJoin joinType condition left right ihLeft ihRight =>
      obtain ⟨outer, inner, _, _, leftBuilt, rightBuilt, -, -, rfl⟩ := buildTree_join.mp built
      exact ⟨ihLeft reads.1 leftBuilt, ihRight reads.2 rightBuilt⟩
  | insert | update | delete => exact reads.elim

end Queries

/-! ## The scan with a condition -/

/-- What the operators of a plan stand on. -/
def source : PhysicalNode Double → PhysicalNode Double
  | .filter _ child | .project _ child | .sort _ child | .limit _ _ child
  | .hashAggregate _ _ child => source child
  | plan => plan

theorem source_of_stage (staged : stage plan = some (wrap, child)) : source plan = source child := by
  cases plan <;> simp only [stage, Option.some.injEq, Prod.mk.injEq, reduceCtorEq] at staged
  all_goals
    obtain ⟨-, rfl⟩ := staged
    rfl

/-- A plan has a tree if what it stands on has one. -/
theorem buildExecutor_source (cat : CatalogT) (plan : PhysicalNode Double) :
    ∃ wrap, buildTree cat plan = Option.map wrap <$> buildTree cat (source plan) := by
  have same : ∀ {plan : PhysicalNode Double}, source plan = plan →
      ∃ wrap, buildTree cat plan = Option.map wrap <$> buildTree cat (source plan) := by
    intro plan same
    refine ⟨id, ?_⟩
    rw [same, Option.map_id]
    exact (id_map _).symm
  have above : ∀ {plan child : PhysicalNode Double} {wrap}, stage plan = some (wrap, child) →
      (∃ wrap, buildTree cat child = Option.map wrap <$> buildTree cat (source child)) →
      ∃ wrap, buildTree cat plan = Option.map wrap <$> buildTree cat (source plan) := by
    rintro plan child wrap staged ⟨inner, below⟩
    refine ⟨wrap ∘ inner, ?_⟩
    rw [buildExecutor_stage staged, source_of_stage staged, below, Functor.map_map]
    congr 1
    funext built
    exact Option.map_map _ _ built
  induction plan with
  | filter predicate child ih => exact above rfl ih
  | project expressions child ih => exact above rfl ih
  | sort items child ih => exact above rfl ih
  | limit rows offset child ih => exact above rfl ih
  | hashAggregate groupBy aggregates child ih => exact above rfl ih
  | seqScan | indexScan | nestedLoopJoin | insert | update | delete => exact same rfl

/-- A query with a condition on a scan stands on that scan, or the index scan for it. -/
theorem source_of_guard {plan : LogicalNode Double} (reads : plan.Reads) {node : ScanNode}
    {predicate : Expr Double} (guard : plan.guard? = some (node, predicate)) :
    source (optimizeMatchIndex cat (convertLogical plan)) = matchIndex cat node predicate := by
  fun_induction convertLogical plan with
  | case1 scan => exact absurd guard (by simp [LogicalNode.guard?])
  | case2 predicate scan =>
      rw [LogicalNode.guard?, Option.some.injEq, Prod.mk.injEq] at guard
      obtain ⟨rfl, rfl⟩ := guard
      rw [optimizeMatchIndex]
      rcases matchIndex_cases cat scan predicate with same | ⟨_, _, _, same⟩ <;> rw [same] <;> rfl
  | case3 predicate child notScan ih =>
      exact ih reads (guard_of_not_scan notScan ▸ guard)
  | case5 joinType condition left right =>
      exact absurd guard (by simp [LogicalNode.guard?])
  | case4 _ _ ih | case6 _ _ _ ih | case7 _ _ ih | case8 _ _ _ ih => exact ih reads guard
  | case9 | case10 | case11 => exact reads.elim

section Guarded

variable {plan : LogicalNode Double} (reads : plan.Reads) {node : ScanNode}
  {predicate : Expr Double} (guard : plan.guard? = some (node, predicate))

include reads guard

/-- There is no executor for an index scan. -/
theorem buildExecutor_matched (matched : IndexMatches cat node predicate) :
    buildTree cat (optimizeMatchIndex cat (convertLogical plan)) = .ok none := by
  obtain ⟨wrap, built⟩ := buildExecutor_source cat (optimizeMatchIndex cat (convertLogical plan))
  obtain ⟨_, _, _, indexed⟩ := matchIndex_of_matches matched
  rw [built, source_of_guard reads guard, indexed]
  rfl

theorem buildExecutor_unmatched (unmatched : ¬IndexMatches cat node predicate)
    {tableMeta : TableMeta} {schema : Schema}
    (found : lookUpTable cat node.tableName = some (tableMeta, schema)) :
    ∃ exec, buildTree cat (optimizeMatchIndex cat (convertLogical plan)) = .ok (some exec) := by
  obtain ⟨wrap, built⟩ := buildExecutor_source cat (optimizeMatchIndex cat (convertLogical plan))
  refine ⟨wrap (scanExecutor tableMeta schema (some predicate)), ?_⟩
  rw [built, source_of_guard reads guard, matchIndex_of_not_matches unmatched, buildTree, buildExecutor,
    found]
  rfl

end Guarded

end MiniSqlite.Executor
