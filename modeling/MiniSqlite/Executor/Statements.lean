import MiniSqlite.Executor.BuiltTrees
import MiniSqlite.Executor.StatementRuns
import MiniSqlite.Executor.TableChanges

/-!
# The outcome of a statement

`outcomeOf` says without iterators, buffers and bounds on loops what a statement
does to a database over an ideal pool. `execution_engine_execute` does that, if its
loops may take enough turns (`execute_outcomeOf`).
-/

namespace MiniSqlite.Executor

open MiniSqlite.Common MiniSqlite.Std MiniSqlite.Storage MiniSqlite.Buffer MiniSqlite.Catalog
  MiniSqlite.Parser MiniSqlite.Planner

variable {Double : Type} [Platform Double]

/-- The rows of a table. -/
def tableRows (store : PageStore) (tableMeta : TableMeta) : List (Rid × List UInt8) :=
  chainRows store (heapPages ⟨store, tableMeta.rootPageId⟩)

omit [Platform Double] in
/-- A statement whose executor tree was pulled to its end. -/
def pulled (db : Database PageStore) (schema : SchemaPointer)
    (outcome : List (Tuple Double) × Session PageStore) : Executed PageStore Double :=
  ({ db with bpm := outcome.2.bpm }, {
    code := .ok
    tuples := outcome.1
    schema := schema
    affected := some outcome.1.length
    errors := outcome.2.errors })

omit [Platform Double] in
/-- The scan of a table has become an index scan. -/
def isIndexScan : PhysicalNode Double → Bool
  | .indexScan .. => true
  | _ => false

/-- The outcome of an `UPDATE` or `DELETE`. Over an index scan it follows a null pointer. -/
def changeOutcome (db : Database PageStore) (tableName : CString)
    (whereClause : Option (Expr Double))
    (change : PageId → Schema → Tuple Double → ExecM PageStore RowFate) :
    Except Fault (Executed PageStore Double) :=
  match lookUpTable db.catalog tableName with
  | none => .ok (ended db .internalError none)
  | some (tableMeta, schema) =>
      if isIndexScan (plannerPlanPhysical db.catalog
          (scanUnder (scanOf db.catalog tableName tableMeta) whereClause)) then .error .nullPointer
      else do
        let outcome ← changeRows schema whereClause (change tableMeta.rootPageId schema)
          (tableRows db.bpm tableMeta) ⟨db.bpm, []⟩ []
        return pulled db .null outcome

/-- The outcome of a statement. -/
def outcomeOf (db : Database PageStore) : Stmt Double → Except Fault (Executed PageStore Double)
  | .select select =>
      match plannerPlan db.catalog (.select select) with
      | none => .ok (ended db .internalError none)
      | some plan => do
          match ← buildTree db.catalog plan with
          | none => return ended db .internalError none
          | some exec =>
              let (tuples, errors) ← queryOutcome (exec.events db.bpm true) []
              return pulled db exec.outputSchema (tuples, ⟨db.bpm, errors⟩)
  | .update tableName assignments whereClause =>
      changeOutcome db tableName whereClause fun firstPageId schema =>
        updateTuple firstPageId schema assignments
  | .delete tableName whereClause =>
      changeOutcome db tableName whereClause fun firstPageId _ => deleteTuple firstPageId
  -- the other statements have no loops over rows
  | stmt => executionEngineExecute 0 db stmt

variable {db : Database PageStore} {excused : Fault → Prop} {turns : Nat}

theorem tableRows_eq {store : PageStore} {tableMeta : TableMeta} {chain : List PageId}
    (sound : HeapSound ⟨store, tableMeta.rootPageId⟩ chain) :
    tableRows store tableMeta = chainRows store chain := by
  rw [tableRows, sound.heapPages_eq]

/-! ## Running a plan -/

/-- What `execute_dml` does with a tree. -/
def runTree (turns : Nat) (db : Database PageStore) (exec : ExecutorT Double PageId) :
    Except Fault (Executed PageStore Double) := do
  let outcome ← (runExecutor turns exec).run ⟨db.bpm, []⟩
  return pulled db exec.outputSchema outcome

theorem runTree_lockstep {exec : ExecutorT Double PageId}
    {outcome : Except Fault (List (Tuple Double) × Session PageStore)}
    (ran : Lockstep excused Eq ((runExecutor turns exec).run ⟨db.bpm, []⟩) outcome) :
    Lockstep excused Eq (runTree turns db exec)
      (outcome >>= fun outcome => .ok (pulled db exec.outputSchema outcome)) := by
  refine ran.bind ?_
  rintro outcome _ rfl
  exact .ok rfl

/-- What `execute_dml` does with a plan. -/
def runPlan (turns : Nat) (db : Database PageStore) (plan : PhysicalNode Double) :
    Except Fault (Executed PageStore Double) := do
  match ← buildTree db.catalog plan with
  | none => return ended db .internalError none
  | some exec => runTree turns db exec

/-- `execute_dml` on a statement other than `INSERT`. -/
theorem executeDml_eq {stmt : Stmt Double} (turns : Nat) (db : Database PageStore)
    (other : ∀ tableName columns rows, stmt ≠ .insert tableName columns rows) :
    executeDml turns db stmt =
      match plannerPlan db.catalog stmt with
      | none => .ok (ended db .internalError none)
      | some plan => runPlan turns db plan := by
  rw [executeDml]
  cases plannerPlan db.catalog stmt with
  | none => rfl
  | some plan =>
      dsimp only
      split
      · exact (other _ _ _ rfl).elim
      · refine bind_congr fun built => ?_
        cases built <;> rfl

/-! ## Queries -/

theorem executeDml_select (sound : TablesSound db) (select : SelectStmt Double) :
    ∃ bound, ∀ turns (excused : Fault → Prop), (bound ≤ turns ∨ excused .unending) →
      Lockstep excused Eq (executeDml turns db (.select select)) (outcomeOf db (.select select)) := by
  have other : ∀ tableName columns rows, Stmt.select select ≠ .insert tableName columns rows := by
    simp
  have reduced := fun turns => executeDml_eq turns db other
  simp only [outcomeOf, reduced]
  cases planned : plannerPlan db.catalog (Stmt.select select) with
  | none => exact ⟨0, fun _ _ _ => .ok rfl⟩
  | some plan =>
      have reads := plannerPlan_select_reads planned
      simp only [runPlan]
      cases built : buildTree db.catalog plan with
      | error fault => exact ⟨0, fun _ _ _ => .error fault⟩
      | ok tree =>
          cases tree with
          | none => exact ⟨0, fun _ _ _ => .ok rfl⟩
          | some exec =>
              refine ⟨exec.need db.bpm true + (exec.events db.bpm true).length + 1,
                fun turns excused enough => ?_⟩
              have ready := buildExecutor_ready sound reads built
              refine (runExecutor_query ready enough []).bind ?_
              rintro _ ⟨tuples, errors⟩ rfl
              exact .ok rfl

/-! ## Statements that change rows -/

omit [Platform Double] in
/-- The tree of a scan under a condition. -/
theorem buildTree_scanUnder (cat : CatalogT) (tableName : CString) (tableMeta : TableMeta)
    (whereClause : Option (Expr Double)) :
    let plan := plannerPlanPhysical cat (scanUnder (scanOf cat tableName tableMeta) whereClause)
    buildTree cat plan =
      .ok (if isIndexScan plan then none
        else (lookUpTable cat tableName).map fun (tableMeta, schema) =>
          scanExecutor tableMeta schema whereClause) := by
  dsimp only
  rw [optimizeMatchIndex_scanUnder]
  have either : ∀ plan : PhysicalNode Double,
      plan = .seqScan (scanOf cat tableName tableMeta) whereClause ∨
        (∃ indexId columnId keyVal,
          plan = .indexScan (scanOf cat tableName tableMeta) indexId columnId keyVal keyVal) →
      buildTree cat plan =
        .ok (if isIndexScan plan then none
          else (lookUpTable cat tableName).map fun (tableMeta, schema) =>
            scanExecutor tableMeta schema whereClause) := by
    rintro plan (rfl | ⟨_, _, _, rfl⟩)
    · rw [buildTree, buildExecutor, scanOf]
      cases lookUpTable cat tableName <;> rfl
    · rfl
  cases whereClause with
  | none => exact either _ (.inl rfl)
  | some predicate => exact either _ (matchIndex_cases cat _ predicate)

/-- A statement whose plan and tree put one operator on the scan of its table. -/
structure Changes (stmt : Stmt Double) (tableName : CString) (whereClause : Option (Expr Double))
    (change : PageId → Schema → Tuple Double → ExecM PageStore RowFate)
    (wrapPlan : PhysicalNode Double → PhysicalNode Double)
    (wrap : PageId → Schema → Bool → ExecutorT Double PageId → ExecutorT Double PageId) : Prop where
  other : ∀ tableName columns rows, stmt ≠ .insert tableName columns rows
  planned : ∀ cat, plannerPlan cat stmt =
    (planTarget cat tableName whereClause).map fun target => wrapPlan (plannerPlanPhysical cat target)
  built : ∀ cat plan, buildTree cat (wrapPlan plan) =
    (buildTree cat plan >>= fun child =>
      .ok ((lookUpTable cat tableName).map fun (tableMeta, schema) =>
        wrap tableMeta.rootPageId schema false (child.getD .null)))
  schema : ∀ firstPageId schema child, (wrap firstPageId schema false child).outputSchema = .null
  init : ∀ firstPageId schema child,
    (wrap firstPageId schema false child).init = wrap firstPageId schema false child.init
  pulls : ∀ firstPageId schema inner child,
    ExecutorT.next (inner + 1) (wrap firstPageId schema false child) =
      (do
        let (finished, child, row) ←
          changeNext (ExecutorT.next inner) (change firstPageId schema) inner child
        return (wrap firstPageId schema finished child, row) : ExecM PageStore _)
  closes : ∀ firstPageId schema finished child, (wrap firstPageId schema finished child).close =
    (do return wrap firstPageId schema finished (← child.close) : ExecM PageStore _)
  steady : ∀ firstPageId chain schema, Steady firstPageId chain (change firstPageId schema)

theorem executeDml_change {stmt : Stmt Double} {tableName : CString}
    {whereClause : Option (Expr Double)}
    {change : PageId → Schema → Tuple Double → ExecM PageStore RowFate}
    {wrapPlan : PhysicalNode Double → PhysicalNode Double}
    {wrap : PageId → Schema → Bool → ExecutorT Double PageId → ExecutorT Double PageId}
    (changes : Changes stmt tableName whereClause change wrapPlan wrap) (sound : TablesSound db) :
    ∃ bound, ∀ turns (excused : Fault → Prop), (bound ≤ turns ∨ excused .unending) →
      Lockstep excused Eq (executeDml turns db stmt)
        (changeOutcome db tableName whereClause change) := by
  simp only [executeDml_eq _ db changes.other, changes.planned, planTarget_eq, changeOutcome]
  cases known : catalogGetTable db.catalog tableName with
  | error rc =>
      have missing : lookUpTable db.catalog tableName = none := by rw [lookUpTable, known]
      rw [missing]
      exact ⟨0, fun _ _ _ => .ok rfl⟩
  | ok tableMeta =>
      simp only [Except.toOption, Option.map_some, runPlan, changes.built, buildTree_scanUnder,
        ok_bind]
      cases found : lookUpTable db.catalog tableName with
      | none => exact ⟨0, fun _ _ _ => .ok rfl⟩
      | some entry =>
          obtain ⟨other, schema⟩ := entry
          obtain ⟨same, -⟩ := lookUpTable_eq found
          rw [known, Except.ok.injEq] at same
          subst same
          obtain ⟨chain, heapSound⟩ := sound tableName tableMeta known
          dsimp only [Option.map_some]
          split
          · refine ⟨2, fun turns excused enough => ?_⟩
            exact runTree_lockstep (runExecutor_null enough (changes.init _ schema .null)
              (changes.pulls _ schema) _)
          · refine ⟨(chainRows db.bpm chain).length + 3, fun turns excused enough => ?_⟩
            rw [tableRows_eq heapSound]
            have start : (wrap tableMeta.rootPageId schema false
                (scanExecutor tableMeta schema whereClause)).init =
              wrap tableMeta.rootPageId schema false (.seqScan tableMeta.rootPageId schema
                whereClause (startIter tableMeta.rootPageId)) := changes.init _ _ _
            have ran := runTree_lockstep (runExecutor_change heapSound enough []
              (changes.steady _ chain schema) start (changes.pulls _ schema)
              (changes.closes _ schema))
            rw [changes.schema] at ran
            exact ran

theorem changes_update (tableName : CString) (assignments : List (Assignment Double))
    (whereClause : Option (Expr Double)) :
    Changes (.update tableName assignments whereClause) tableName whereClause
      (fun firstPageId schema => updateTuple firstPageId schema assignments)
      (.update tableName assignments)
      (fun firstPageId schema => .update firstPageId schema assignments) where
  other := by simp
  planned cat := by
    rw [plannerPlan, plannerPlanLogical, Option.map_map]
    rfl
  built cat plan := by
    rw [buildTree, buildTree, buildExecutor]
    refine bind_congr fun child => ?_
    cases lookUpTable cat tableName <;> rfl
  schema _ _ _ := rfl
  init _ _ _ := rfl
  pulls firstPageId schema inner child := by
    rw [ExecutorT.next, updateNext_eq]
    rfl
  closes _ _ _ _ := rfl
  steady _ _ schema := steady_updateTuple schema assignments

theorem changes_delete (tableName : CString) (whereClause : Option (Expr Double)) :
    Changes (.delete tableName whereClause) tableName whereClause
      (fun firstPageId _ => deleteTuple firstPageId) (.delete tableName) .delete where
  other := by simp
  planned cat := by
    rw [plannerPlan, plannerPlanLogical, Option.map_map]
    rfl
  built cat plan := by
    rw [buildTree, buildTree, buildExecutor]
    refine bind_congr fun child => ?_
    cases lookUpTable cat tableName <;> rfl
  schema _ _ _ := rfl
  init _ _ _ := rfl
  pulls firstPageId schema inner child := by
    rw [ExecutorT.next, deleteNext_eq]
    rfl
  closes _ _ _ _ := rfl
  steady _ _ _ := steady_deleteTuple

/-- With enough turns `execution_engine_execute` ends with the outcome of the statement, and
with fewer it ends so or not at all. -/
theorem execute_outcomeOf (sound : TablesSound db) (stmt : Stmt Double) :
    ∃ bound, ∀ turns (excused : Fault → Prop), (bound ≤ turns ∨ excused .unending) →
      Lockstep excused Eq (executionEngineExecute turns db stmt) (outcomeOf db stmt) := by
  have same : ∀ {outcome : Except Fault (Executed PageStore Double)} {excused : Fault → Prop},
      Lockstep excused Eq outcome outcome := by
    rintro (fault | ended) excused
    · exact .error fault
    · exact .ok rfl
  cases stmt with
  | select select => exact executeDml_select sound select
  | update tableName assignments whereClause =>
      exact executeDml_change (changes_update tableName assignments whereClause) sound
  | delete tableName whereClause => exact executeDml_change (changes_delete tableName whereClause) sound
  | _ => exact ⟨0, fun turns excused _ => same⟩

/-- With enough turns `execution_engine_execute` gives the outcome of the statement. -/
theorem execute_ends (sound : TablesSound db) (stmt : Stmt Double) :
    ∃ bound, ∀ turns, bound ≤ turns → executionEngineExecute turns db stmt = outcomeOf db stmt := by
  obtain ⟨bound, lockstep⟩ := execute_outcomeOf sound stmt
  exact ⟨bound, fun turns enough => (lockstep turns (fun _ => False) (.inl enough)).eq⟩

section Outcomes

variable {after : Database PageStore} {result : StatementResult Double}

/-- A run that has ended has the outcome of the statement. -/
theorem outcome_of_execute (sound : TablesSound db) {stmt : Stmt Double} {turns : Nat}
    {outcome : Executed PageStore Double}
    (ended : executionEngineExecute turns db stmt = .ok outcome) :
    outcomeOf db stmt = .ok outcome := by
  obtain ⟨bound, lockstep⟩ := execute_outcomeOf sound stmt
  have same := lockstep turns (· = .unending) (.inr rfl)
  rw [ended] at same
  generalize outcomeOf db stmt = other at same
  cases same with
  | ok values => rw [values]

/-- The executor tree of a query, if it gets one. -/
def queryTree (cat : CatalogT) (select : SelectStmt Double) : Option (ExecutorT Double PageId) :=
  match plannerPlan cat (.select select) with
  | none => none
  | some plan =>
      match buildTree cat plan with
      | .ok tree => tree
      | .error _ => none

/-- What a query that ends has done. -/
theorem selectOutcome_cases {select : SelectStmt Double}
    (outcome : outcomeOf db (.select select) = .ok (after, result)) :
    (queryTree db.catalog select = none ∧ (after, result) = ended db .internalError none) ∨
      ∃ exec, queryTree db.catalog select = some exec ∧
        (after, result) = pulled db exec.outputSchema
          (Event.items (exec.events db.bpm true), ⟨db.bpm, Event.notes (exec.events db.bpm true)⟩) := by
  rw [outcomeOf] at outcome
  rw [queryTree]
  cases planned : plannerPlan db.catalog (Stmt.select select) with
  | none =>
      rw [planned] at outcome
      exact .inl ⟨rfl, (Except.ok.inj outcome).symm⟩
  | some plan =>
      rw [planned] at outcome
      dsimp only at outcome ⊢
      cases built : buildTree db.catalog plan with
      | error fault => rw [built] at outcome; cases outcome
      | ok tree =>
          rw [built, ok_bind] at outcome
          cases tree with
          | none => exact .inl ⟨rfl, (Except.ok.inj outcome).symm⟩
          | some exec =>
              dsimp only at outcome
              rw [queryOutcome] at outcome
              cases ended : Event.fault? (exec.events db.bpm true) with
              | some fault => rw [ended] at outcome; cases outcome
              | none =>
                  rw [ended] at outcome
                  exact .inr ⟨exec, rfl, (Except.ok.inj outcome).symm⟩

/-- What an `UPDATE` or `DELETE` that ends has done. -/
theorem changeOutcome_cases {tableName : CString} {whereClause : Option (Expr Double)}
    {change : PageId → Schema → Tuple Double → ExecM PageStore RowFate}
    (outcome : changeOutcome db tableName whereClause change = .ok (after, result)) :
    (lookUpTable db.catalog tableName = none ∧ (after, result) = ended db .internalError none) ∨
      ∃ tableMeta schema tuples session,
        lookUpTable db.catalog tableName = some (tableMeta, schema) ∧
        changeRows schema whereClause (change tableMeta.rootPageId schema)
          (tableRows db.bpm tableMeta) ⟨db.bpm, []⟩ [] = .ok (tuples, session) ∧
        (after, result) = pulled db .null (tuples, session) := by
  rw [changeOutcome] at outcome
  cases found : lookUpTable db.catalog tableName with
  | none =>
      rw [found] at outcome
      exact .inl ⟨rfl, (Except.ok.inj outcome).symm⟩
  | some entry =>
      obtain ⟨tableMeta, schema⟩ := entry
      rw [found] at outcome
      dsimp only at outcome
      split at outcome
      · cases outcome
      · cases ran : changeRows schema whereClause (change tableMeta.rootPageId schema)
            (tableRows db.bpm tableMeta) ⟨db.bpm, []⟩ [] with
        | error fault => rw [ran] at outcome; cases outcome
        | ok ended =>
            rw [ran] at outcome
            exact .inr ⟨tableMeta, schema, ended.1, ended.2, rfl, ran, (Except.ok.inj outcome).symm⟩

omit [Platform Double] in
theorem TablesSound.rowsStored (sound : TablesSound db) {tableName : CString}
    {tableMeta : TableMeta} (known : catalogGetTable db.catalog tableName = .ok tableMeta) :
    ∃ chain, RowsStored tableMeta.rootPageId chain db.bpm (tableRows db.bpm tableMeta) := by
  obtain ⟨chain, heapSound⟩ := sound tableName tableMeta known
  rw [tableRows_eq heapSound]
  exact ⟨chain, heapSound.rowsStored⟩

end Outcomes

end MiniSqlite.Executor
