import MiniSqlite.Executor.ChangeResults
import MiniSqlite.Executor.DdlStatements
import MiniSqlite.Executor.SelectTrees
import MiniSqlite.Executor.TableFrames

/-!
# Statements beside an index

What `CREATE INDEX` changes for the other statements. It takes a page that no table has and
leaves the tables alone, so that a statement with the same plan does the same
(`outcome_kept`). The plan differs where the new index is the first that matches the condition
of the statement, and then the statement has no executor.
-/

namespace MiniSqlite.Executor

open MiniSqlite.Common MiniSqlite.Std MiniSqlite.Storage MiniSqlite.Buffer MiniSqlite.Catalog
  MiniSqlite.Parser MiniSqlite.Planner

variable {Double : Type}

/-! ## A larger page store -/

/-- All pages of a store are in another one, which may have more. -/
def PagesKept (small large : PageStore) : Prop :=
  ∀ pid page, small.pages pid = some page → large.pages pid = some page

section Reading

variable {small large : PageStore} (kept : PagesKept small large)

include kept

theorem PagesKept.data {pid : PageId} {page : Page} (used : small.pages pid = some page) :
    PagePool.data large pid = PagePool.data small pid := by
  rw [data_of_used used, data_of_used (kept pid page used)]

theorem PagesKept.chained {first : PageId} {chain : List PageId}
    (chained : Chained small.pages first chain) : Chained large.pages first chain :=
  chained.congr fun pid _ page used => ⟨page, kept pid page used, rfl⟩

theorem PagesKept.chainRows {first : PageId} {chain : List PageId}
    (chained : Chained small.pages first chain) :
    chainRows large chain = chainRows small chain := by
  rw [Executor.chainRows, Executor.chainRows]
  refine List.flatMap_congr fun pid member => ?_
  obtain ⟨page, used⟩ := chained.used member
  rw [kept.data used]

theorem PagesKept.iterAt {iter : BpmHeapIter PageId} {chain : List PageId}
    (at_ : IterAt small iter chain) : IterAt large iter chain :=
  ⟨kept.chained at_.chained, at_.pinned⟩

theorem PagesKept.rowsOf {iter : BpmHeapIter PageId} {chain : List PageId}
    (at_ : IterAt small iter chain) (short : chain.length < maxPages) :
    rowsOf large iter = rowsOf small iter := by
  rw [rowsOf_eq at_ short, rowsOf_eq (kept.iterAt at_) short]
  cases chain with
  | nil => rfl
  | cons pid rest =>
      obtain ⟨-, page, used, chained⟩ := at_.chained
      rw [pendingRows, pendingRows, kept.data used, kept.chainRows chained]

/-- A query delivers the same from the larger store. -/
theorem PagesKept.events [Platform Double] {exec : ExecutorT Double PageId}
    (ready : exec.Ready small) (restarted : Bool) :
    exec.events large restarted = exec.events small restarted := by
  induction exec generalizing restarted with
  | null => rfl
  | seqScan firstPageId tableSchema predicate iter =>
      rw [ExecutorT.events, ExecutorT.events]
      obtain ⟨⟨first, chained, short⟩, ⟨left, at_, short'⟩⟩ := ready
      cases restarted with
      | false => exact congrArg _ (kept.rowsOf at_ short')
      | true =>
          have start : IterAt small (startIter firstPageId) first :=
            ⟨chained, by simp [startIter]⟩
          exact congrArg _ (kept.rowsOf start short)
  | filter predicate child ih => rw [ExecutorT.events, ExecutorT.events, ih ready]
  | project expressions schema child ih => rw [ExecutorT.events, ExecutorT.events, ih ready]
  | nlJoin condition schema current outer inner ihOuter ihInner =>
      cases current <;> cases restarted <;>
        simp only [ExecutorT.events, ihOuter ready.1, ihInner ready.2]
  | hashAgg groupBy aggregates groups child ih =>
      cases groups <;> cases restarted <;> simp only [ExecutorT.events, ih ready]
  | sort items tuples child ih =>
      cases tuples <;> cases restarted <;> simp only [ExecutorT.events, ih ready]
  | limit rows offset emitted skipped child ih =>
      rw [ExecutorT.events, ExecutorT.events, ih ready]
  | update | delete => exact ready.elim

end Reading

theorem PagesKept.set {small large : PageStore} (kept : PagesKept small large) {pid : PageId}
    {page : Page} (used : small.pages pid = some page) (new : Page) :
    PagesKept (small.set pid new) (large.set pid new) := by
  intro other held
  rw [PageStore.set_pages used, PageStore.set_pages (kept pid page used)]
  split
  · exact id
  · exact kept other held

/-! ## Changes of rows -/

section Changes

variable {firstPageId : PageId} {chain : List PageId} {small large : PageStore}

/-- A change of a tuple does the same in a larger store. -/
def Framed (firstPageId : PageId) (chain : List PageId)
    (change : Tuple Double → ExecM PageStore RowFate) : Prop :=
  ∀ (small large : PageStore) (log : List Int) (old : Tuple Double) (bytes : List UInt8)
    (fate : RowFate) (after : Session PageStore),
    HeapSound ⟨small, firstPageId⟩ chain → PagesKept small large →
    heapContents ⟨small, firstPageId⟩ old.rid = some bytes →
    (change old).run ⟨small, log⟩ = .ok (fate, after) →
    ∃ larger, (change old).run ⟨large, log⟩ = .ok (fate, ⟨larger, after.errors⟩) ∧
      PagesKept after.bpm larger

theorem PagesKept.heapSound (kept : PagesKept small large)
    (sound : HeapSound ⟨small, firstPageId⟩ chain) : HeapSound ⟨large, firstPageId⟩ chain :=
  sound.elsewhere fun pid _ => kept pid

theorem PagesKept.rowIn (kept : PagesKept small large) {rid : Rid} {page : Page}
    {bytes : List UInt8} (row : RowIn small chain rid page bytes) :
    RowIn large chain rid page bytes :=
  ⟨kept _ _ row.used, row.member, row.valid, row.found⟩

theorem framed_deleteTuple :
    Framed firstPageId chain (deleteTuple firstPageId : Tuple Double → ExecM PageStore RowFate) := by
  intro small large log old bytes fate after sound kept stored ran
  obtain ⟨page, row⟩ := sound.rowIn stored
  rw [deleteTuple_run sound row] at ran
  obtain ⟨rfl, rfl⟩ := Prod.mk.inj (Except.ok.inj ran)
  refine ⟨deletedRow large old.rid, deleteTuple_run (kept.heapSound sound) (kept.rowIn row) log, ?_⟩
  rw [deletedRow, deletedRow, kept.data row.used]
  exact kept.set row.used _

variable [Platform Double]

theorem framed_updateTuple (tableSchema : Schema) (assignments : List (Assignment Double)) :
    Framed firstPageId chain
      (updateTuple firstPageId tableSchema assignments : Tuple Double → ExecM PageStore RowFate) := by
  intro small large log old bytes fate after sound kept stored ran
  obtain ⟨page, row⟩ := sound.rowIn stored
  rw [updateTuple_run sound row] at ran
  rw [updateTuple_run (kept.heapSound sound) (kept.rowIn row)]
  rcases outcome : (updatedBytes tableSchema assignments old).run with fault | (rc | new)
  · rw [outcome] at ran
    cases ran
  · rw [outcome] at ran
    obtain ⟨rfl, rfl⟩ := Prod.mk.inj (Except.ok.inj ran)
    exact ⟨large, rfl, kept⟩
  · rw [outcome] at ran
    obtain ⟨rfl, rfl⟩ := Prod.mk.inj (Except.ok.inj ran)
    refine ⟨_, rfl, ?_⟩
    dsimp only
    rw [updatedRow, updatedRow, kept.data row.used]
    exact kept.set row.used _

/-- Changing rows does the same in a larger store. -/
theorem changeRows_framed {change : Tuple Double → ExecM PageStore RowFate}
    {tableSchema : Schema} {predicate : Option (Expr Double)}
    (steady : Steady firstPageId chain change) (framed : Framed firstPageId chain change)
    {rows : List (Rid × List UInt8)} {log : List Int} {done tuples : List (Tuple Double)}
    {after : Session PageStore} (stored : RowsStored firstPageId chain small rows)
    (kept : PagesKept small large)
    (ran : changeRows tableSchema predicate change rows ⟨small, log⟩ done = .ok (tuples, after)) :
    ∃ larger, changeRows tableSchema predicate change rows ⟨large, log⟩ done =
        .ok (tuples, ⟨larger, after.errors⟩) ∧ PagesKept after.bpm larger := by
  induction rows generalizing small large log done with
  | nil =>
      obtain ⟨rfl, rfl⟩ := Prod.mk.inj (Except.ok.inj ran)
      exact ⟨large, rfl, kept⟩
  | cons row rows ih =>
      rw [changeRows] at ran ⊢
      cases scanned : (scanRow tableSchema predicate row).run with
      | error fault => rw [scanned] at ran; cases ran
      | ok outcome =>
          obtain ⟨_ | old, notes⟩ := outcome
          · rw [scanned, ok_bind] at ran
            exact ih stored.tail kept ran
          · rw [scanned, ok_bind] at ran
            rw [ok_bind]
            have rid_eq := scanRow_rid tableSchema predicate scanned
            have content := stored.stored row List.mem_cons_self
            rw [← rid_eq] at content
            dsimp only at ran ⊢
            cases outcome : (change old).run ⟨small, log ++ notes⟩ with
            | error fault => rw [outcome] at ran; cases ran
            | ok ended =>
                obtain ⟨fate, ⟨between, between'⟩⟩ := ended
                have changed := steady _ _ old row.2 fate stored.sound content outcome
                obtain ⟨larger, same, kept'⟩ :=
                  framed _ large _ old row.2 fate _ stored.sound kept content outcome
                rw [outcome, ok_bind] at ran
                rw [same, ok_bind]
                cases fate with
                | changed => exact ih (stored.changed rid_eq changed) kept' ran
                | kept => exact ih (stored.changed rid_eq changed) kept' ran
                | stopped rc =>
                    obtain ⟨rfl, rfl⟩ := Prod.mk.inj (Except.ok.inj ran)
                    exact ⟨larger, rfl, kept'⟩

end Changes

/-! ## The same plans -/

section Plans

variable {cat other : CatalogT} (same : SameTables cat other)

include same

theorem SameTables.catalogGetTable (name : CString) :
    catalogGetTable other name = catalogGetTable cat name := by
  rw [Catalog.catalogGetTable, Catalog.catalogGetTable, same.names, same.tables]

theorem SameTables.catalogGetSchema (tableId : TableId) :
    catalogGetSchema other tableId = catalogGetSchema cat tableId := by
  rw [Catalog.catalogGetSchema, Catalog.catalogGetSchema, same.schemas]

theorem SameTables.lookUpTable (name : CString) :
    lookUpTable other name = lookUpTable cat name := by
  rw [Executor.lookUpTable, Executor.lookUpTable, same.catalogGetTable]
  simp only [same.catalogGetSchema]

theorem SameTables.scanTable (name : CString) :
    (scanTable other name : Option (LogicalNode Double)) = scanTable cat name := by
  rw [Planner.scanTable, Planner.scanTable, same.catalogGetTable]
  simp only [getTableSchema, same.catalogGetSchema]

theorem SameTables.planSelect (stmt : SelectStmt Double) :
    planSelect other stmt = planSelect cat stmt := by
  have from_ : planFrom other stmt = planFrom cat stmt := by
    simp only [planFrom, planJoins, same.scanTable]
  unfold Planner.planSelect
  rw [from_]

theorem SameTables.buildTree (plan : PhysicalNode Double) :
    buildTree other plan = buildTree cat plan := by
  unfold Executor.buildTree
  induction plan with
  | seqScan scan predicate => rw [buildExecutor, buildExecutor, same.lookUpTable]
  | nestedLoopJoin joinType condition left right ihLeft ihRight =>
      rw [buildExecutor, buildExecutor, ihLeft, ihRight]
  | update tableName assignments child ih | delete tableName child ih =>
      rw [buildExecutor, buildExecutor, ih, same.lookUpTable]
  | insert | indexScan => rfl
  | filter _ child ih | project _ child ih | sort _ child ih | limit _ _ child ih
  | hashAggregate _ _ child ih => rw [buildExecutor, buildExecutor, ih]

end Plans

section Queries

variable {cat other : CatalogT} {stmt : SelectStmt Double}

/-- The executor that a query gets, with `none` for the answer `INTERNAL_ERROR`. -/
def builtFor (cat : CatalogT) (stmt : SelectStmt Double) :
    Except Fault (Option (ExecutorT Double PageId)) :=
  match plannerPlan cat (.select stmt) with
  | none => .ok none
  | some plan => buildTree cat plan

/-- A query of one table under a condition has a plan that puts it on the scan. -/
theorem planSelect_conditioned {tableName : CString} {predicate : Expr Double}
    {tableMeta : TableMeta} (condition : conditionOn (.select stmt) = some (tableName, predicate))
    (known : catalogGetTable cat tableName = .ok tableMeta)
    (valid : tableMeta.tableId ≠ invalidTableId) :
    ∃ plan, planSelect cat stmt = some plan ∧
      plan.guard? = some (scanOf cat tableName tableMeta, predicate) := by
  rw [conditionOn] at condition
  split at condition
  · rename_i one noJoins
    obtain ⟨_, selected, same⟩ := Option.map_eq_some_iff.mp condition
    obtain ⟨rfl, rfl⟩ := Prod.mk.inj same
    have planned : ∃ plan, planSelect cat stmt = some plan := by
      unfold planSelect planFrom scanTable
      rw [one, noJoins]
      simp [known, planJoins]
    obtain ⟨plan, planned⟩ := planned
    obtain ⟨current, base, guard⟩ := planSelect_guard planned
    have here : current.scanNode? = some (scanOf cat _ tableMeta) :=
      (planFrom_scanNode base valid).mpr ⟨_, tableMeta, one, noJoins, known, rfl⟩
    exact ⟨plan, planned, by rw [guard, here, selected]; rfl⟩
  · cases condition

/-- There is no executor for the index scan of a matched condition. -/
theorem builtFor_matched (matched : Matched cat (.select stmt)) : builtFor cat stmt = .ok none := by
  obtain ⟨tableName, predicate, tableMeta, condition, known, matches'⟩ := matched
  obtain ⟨plan, planned, guard⟩ := planSelect_conditioned condition known matches'.1
  rw [builtFor, plannerPlan, plannerPlanLogical, planned]
  exact buildExecutor_matched (planSelect_reads planned) guard matches'

theorem builtFor_unmatched (unmatched : ¬Matched cat (.select stmt)) :
    builtFor cat stmt =
      match planSelect cat stmt with
      | none => .ok none
      | some plan => buildTree cat (convertLogical plan) := by
  rw [builtFor, plannerPlan, plannerPlanLogical]
  cases planned : planSelect cat stmt with
  | none => rfl
  | some plan =>
      have noGuard : ∀ scan predicate, plan.guard? = some (scan, predicate) →
          ¬IndexMatches cat scan predicate := fun scan predicate guard matches' =>
        unmatched ((matched_iff (show plannerPlanLogical cat (.select stmt) = some plan
          from planned)).mp ⟨scan, predicate, guard, matches'⟩)
      rw [Option.map_some, plannerPlanPhysical,
        optimizeMatchIndex_eq (planSelect_reads planned) noGuard]

/-- A query gets the same executor if neither or both of the catalogs have a matching index. -/
theorem SameTables.builtFor (same : SameTables cat other)
    (agree : Matched other (.select stmt) ↔ Matched cat (.select stmt)) :
    builtFor other stmt = builtFor cat stmt := by
  by_cases matched : Matched cat (.select stmt)
  · rw [builtFor_matched matched, builtFor_matched (agree.mpr matched)]
  · rw [builtFor_unmatched matched, builtFor_unmatched (mt agree.mp matched),
      same.planSelect]
    simp only [same.buildTree]

theorem outcomeOf_builtFor [Platform Double] (db : Database PageStore) (stmt : SelectStmt Double) :
    outcomeOf db (.select stmt) = (do
      match ← Executor.builtFor db.catalog stmt with
      | none => return ended db .internalError none
      | some exec =>
          let (tuples, errors) ← queryOutcome (exec.events db.bpm true) []
          return pulled db exec.outputSchema (tuples, ⟨db.bpm, errors⟩)) := by
  rw [outcomeOf, Executor.builtFor]
  cases plannerPlan db.catalog (Stmt.select stmt) <;> rfl

theorem builtFor_ready [Platform Double] {db : Database PageStore} (sound : TablesSound db)
    {exec : ExecutorT Double PageId} (built : Executor.builtFor db.catalog stmt = .ok (some exec)) :
    exec.Ready db.bpm := by
  rw [Executor.builtFor] at built
  cases planned : plannerPlan db.catalog (Stmt.select stmt) with
  | none => rw [planned] at built; cases built
  | some plan =>
      rw [planned] at built
      exact buildExecutor_ready sound (plannerPlan_select_reads planned) built

end Queries

/-! ## The same outcome -/

section Outcomes

variable [Platform Double] {db other after : Database PageStore} {result : StatementResult Double}
variable (sound : TablesSound db) (same : SameTables db.catalog other.catalog)
  (kept : PagesKept db.bpm other.bpm)

include sound same kept

/-- A query answers the same from a database with more indexes and pages. -/
theorem select_kept {stmt : SelectStmt Double}
    (agree : Matched other.catalog (.select stmt) ↔ Matched db.catalog (.select stmt))
    (outcome : outcomeOf db (.select stmt) = .ok (after, result)) :
    outcomeOf other (.select stmt) = .ok (other, result) ∧ after = db := by
  rw [outcomeOf_builtFor] at outcome ⊢
  rw [same.builtFor agree]
  cases built : builtFor db.catalog stmt with
  | error fault => rw [built] at outcome; cases outcome
  | ok tree =>
      rw [built, ok_bind] at outcome
      rw [ok_bind]
      cases tree with
      | none =>
          obtain ⟨rfl, rfl⟩ := Prod.mk.inj (Except.ok.inj outcome)
          exact ⟨rfl, rfl⟩
      | some exec =>
          dsimp only at outcome ⊢
          rw [kept.events (builtFor_ready sound built)]
          cases ended : queryOutcome (exec.events db.bpm true) [] with
          | error fault => rw [ended] at outcome; cases outcome
          | ok answer =>
              rw [ended] at outcome
              obtain ⟨rfl, rfl⟩ := Prod.mk.inj (Except.ok.inj outcome)
              exact ⟨rfl, rfl⟩

/-- A change of rows does the same to a database with more indexes and pages. -/
theorem change_kept {stmt : Stmt Double} {tableName : CString} {whereClause : Option (Expr Double)}
    {change : PageId → Schema → Tuple Double → ExecM PageStore RowFate}
    (condition : conditionOn stmt = whereClause.map (tableName, ·))
    (steady : ∀ firstPageId chain schema, Steady firstPageId chain (change firstPageId schema))
    (framed : ∀ firstPageId chain schema, Framed firstPageId chain (change firstPageId schema))
    (agree : Matched other.catalog stmt ↔ Matched db.catalog stmt)
    (outcome : changeOutcome db tableName whereClause change = .ok (after, result)) :
    ∃ larger, changeOutcome other tableName whereClause change =
        .ok (⟨other.catalog, larger⟩, result) ∧
      PagesKept after.bpm larger ∧ after.catalog = db.catalog := by
  rw [changeOutcome] at outcome ⊢
  rw [same.lookUpTable]
  cases found : lookUpTable db.catalog tableName with
  | none =>
      rw [found] at outcome
      obtain ⟨rfl, rfl⟩ := Prod.mk.inj (Except.ok.inj outcome)
      exact ⟨other.bpm, rfl, kept, rfl⟩
  | some entry =>
      obtain ⟨tableMeta, schema⟩ := entry
      have known := (lookUpTable_eq found).1
      obtain ⟨chain, stored⟩ := sound.rowsStored known
      have rows_eq : tableRows other.bpm tableMeta = tableRows db.bpm tableMeta := by
        rw [tableRows_eq stored.sound, tableRows_eq (kept.heapSound stored.sound),
          kept.chainRows stored.sound.chained]
      rw [found] at outcome
      dsimp only at outcome ⊢
      have here := isIndexScan_iff condition known
      have there := isIndexScan_iff condition ((same.catalogGetTable tableName).trans known)
      split at outcome
      · cases outcome
      · rename_i unmatched
        rw [if_neg (mt (fun scan => here.mpr (agree.mp (there.mp scan))) unmatched), rows_eq]
        cases ran : changeRows schema whereClause (change tableMeta.rootPageId schema)
            (tableRows db.bpm tableMeta) ⟨db.bpm, []⟩ [] with
        | error fault => rw [ran] at outcome; cases outcome
        | ok ended =>
            obtain ⟨tuples, session⟩ := ended
            obtain ⟨larger, ranOther, kept'⟩ :=
              changeRows_framed (steady _ _ _) (framed _ _ _) stored kept ran
            rw [ran] at outcome
            obtain ⟨rfl, rfl⟩ := Prod.mk.inj (Except.ok.inj outcome)
            exact ⟨larger, by rw [ranOther]; rfl, kept', rfl⟩

end Outcomes

/-! ## `CREATE INDEX` -/

section Creating

variable {cat : CatalogT} {tableName indexName column : CString} {isUnique : Bool}

/-- A column of a table has an index. -/
def Indexed (cat : CatalogT) (tableId : TableId) (columnId : ColumnId) : Prop :=
  ∃ index ∈ catalogGetTableIndexes cat tableId, index.columnId = columnId

theorem indexed_catalogCreateIndex {other : CatalogT} {tableId : TableId} {colId : ColumnId}
    {rootPageId : PageId} {indexId : IndexId}
    (unused : cat.indexCache.hashmapGet cat.nextIndexId = none)
    (created : catalogCreateIndex cat indexName tableId colId rootPageId isUnique =
      .ok (other, some indexId)) (table : TableId) (columnId : ColumnId) :
    Indexed other table columnId ↔
      Indexed cat table columnId ∨ table = tableId ∧ columnId = colId := by
  unfold catalogCreateIndex at created
  split at created
  · cases created
  · obtain ⟨next, -, returned⟩ := Returning.returned created
    obtain ⟨rfl, -⟩ := Prod.mk.inj (Except.ok.inj returned)
    simp only [Indexed, mem_catalogGetTableIndexes, get_put_id]
    constructor
    · rintro ⟨index, ⟨⟨id, found⟩, rfl⟩, rfl⟩
      split at found
      · obtain rfl := Option.some.inj found
        exact .inr ⟨rfl, rfl⟩
      · exact .inl ⟨index, ⟨⟨id, found⟩, rfl⟩, rfl⟩
    · rintro (⟨index, ⟨⟨id, found⟩, rfl⟩, rfl⟩ | ⟨rfl, rfl⟩)
      · have differ : id ≠ cat.nextIndexId := by
          rintro rfl
          rw [unused] at found
          cases found
        exact ⟨index, ⟨⟨id, by rw [if_neg differ, found]⟩, rfl⟩, rfl⟩
      · exact ⟨_, ⟨⟨cat.nextIndexId, if_pos rfl⟩, rfl⟩, rfl⟩

/-- A database with one more index, and the page that was taken for it. -/
structure IndexAdded (db indexed : Database PageStore) (tableMeta : TableMeta) (colIdx : Nat) :
    Prop where
  tables : SameTables db.catalog indexed.catalog
  pages : PagesKept db.bpm indexed.bpm
  added : ∀ table columnId, Indexed indexed.catalog table columnId ↔
    Indexed db.catalog table columnId ∨
      table = tableMeta.tableId ∧ columnId = Int32.ofNat colIdx

/-- The calls that a `CREATE INDEX` that succeeds has made. -/
theorem createIndex_calls {db indexed : Database PageStore} {result : StatementResult Double}
    (created : executeDdl db (.createIndex tableName indexName column isUnique) =
      .ok (indexed, result)) (succeeded : result.code = .ok) :
    ∃ rootPid frame tableMeta schema colIdx indexId,
      PagePool.newPage db.bpm = .ok (indexed.bpm, some (rootPid, frame)) ∧
      lookUpTable db.catalog tableName = some (tableMeta, schema) ∧
      schemaFindColumn schema column = some colIdx ∧
      catalogCreateIndex db.catalog indexName tableMeta.tableId (Int32.ofNat colIdx) rootPid
        isUnique = .ok (indexed.catalog, some indexId) := by
  have failed : ∀ {other : Database PageStore} {code affected}, code ≠ .ok →
      (Except.ok (ended other code affected) : Except Fault (Executed PageStore Double)) ≠
        .ok (indexed, result) := by
    intro other code affected bad same
    obtain ⟨-, rfl⟩ := Prod.mk.inj (Except.ok.inj same)
    exact bad succeeded
  rw [executeDdl] at created
  cases allocated : PagePool.newPage db.bpm with
  | error fault => rw [allocated] at created; cases created
  | ok page =>
      obtain ⟨bpm, page⟩ := page
      rw [allocated] at created
      cases page with
      | none => exact absurd created (failed (by decide))
      | some page =>
          obtain ⟨rootPid, frame⟩ := page
          simp only [ok_bind, unpinPage_store] at created
          split at created
          · rename_i unknown
            exact absurd created (failed (catalogGetTable_failed unknown))
          · rename_i tableMeta known
            split at created
            · rename_i unknown
              exact absurd created (failed (catalogGetSchema_failed unknown))
            · rename_i schema cached
              have found : lookUpTable db.catalog tableName = some (tableMeta, schema) := by
                rw [lookUpTable, known]
                dsimp only
                rw [cached]
              split at created
              · exact absurd created (failed (by decide))
              · rename_i colIdx column_eq
                cases entered : catalogCreateIndex db.catalog indexName tableMeta.tableId
                    (Int32.ofNat colIdx) rootPid isUnique with
                | error fault => rw [entered] at created; cases created
                | ok entry =>
                    obtain ⟨cat, indexId⟩ := entry
                    rw [entered] at created
                    cases indexId with
                    | none => exact absurd created (failed (by decide))
                    | some indexId =>
                        obtain ⟨rfl, -⟩ := Prod.mk.inj (Except.ok.inj created)
                        exact ⟨rootPid, frame, tableMeta, schema, colIdx, indexId, rfl, found,
                          column_eq, entered⟩

/-- What a `CREATE INDEX` that succeeds has done. -/
theorem createIndex_added {db indexed : Database PageStore} {result : StatementResult Double}
    (sound : DatabaseSound db)
    (created : executeDdl db (.createIndex tableName indexName column isUnique) =
      .ok (indexed, result)) (succeeded : result.code = .ok) :
    ∃ tableMeta schema colIdx, lookUpTable db.catalog tableName = some (tableMeta, schema) ∧
      schemaFindColumn schema column = some colIdx ∧ IndexAdded db indexed tableMeta colIdx := by
  obtain ⟨rootPid, frame, tableMeta, schema, colIdx, indexId, allocated, found, position, entered⟩ :=
    createIndex_calls created succeeded
  have unused : db.catalog.indexCache.hashmapGet db.catalog.nextIndexId = none := by
    cases used : db.catalog.indexCache.hashmapGet db.catalog.nextIndexId with
    | none => rfl
    | some index => exact (Int32.lt_irrefl (sound.indexes _ index used).2).elim
  exact ⟨tableMeta, schema, colIdx, found, position, catalogCreateIndex_tables entered,
    fun _ _ => newPage_pages allocated, indexed_catalogCreateIndex unused entered⟩

/-- The statement reads one table under a condition that compares a column with an integer, and
`CREATE INDEX` on the table and column finds the same column. -/
def ComparesColumn (cat : CatalogT) (tableName column : CString) (stmt : Stmt Double) : Prop :=
  ∃ predicate tableMeta schema compared keyVal colIdx comparedIdx,
    conditionOn stmt = some (tableName, predicate) ∧
      equalityOf predicate = some (compared, .int keyVal) ∧
        lookUpTable cat tableName = some (tableMeta, schema) ∧ tableMeta.tableId ≠ invalidTableId ∧
          schemaFindColumn schema column = some colIdx ∧
            schemaFindColumn schema compared = some comparedIdx ∧
              Int32.ofNat comparedIdx = Int32.ofNat colIdx

theorem indexMatches_iff {tableMeta : TableMeta} {predicate : Expr Double} :
    IndexMatches cat (scanOf cat tableName tableMeta) predicate ↔
      tableMeta.tableId ≠ invalidTableId ∧ ∃ compared keyVal schema colIdx,
        equalityOf predicate = some (compared, .int keyVal) ∧
          getTableSchema cat tableMeta.tableId = some schema ∧
            schemaFindColumn schema compared = some colIdx ∧
              Indexed cat tableMeta.tableId (Int32.ofNat colIdx) := by
  rw [IndexMatches, scanOf]
  refine and_congr_right fun _ => ?_
  constructor
  · rintro ⟨compared, keyVal, schema, equality, known, index, member, colIdx, found, same⟩
    exact ⟨compared, keyVal, schema, colIdx, equality, known, found, index, member, same.symm⟩
  · rintro ⟨compared, keyVal, schema, colIdx, equality, known, found, index, member, same⟩
    exact ⟨compared, keyVal, schema, equality, known, index, member, colIdx, found, same.symm⟩

/-- The conditions that an index matches after `CREATE INDEX`. -/
theorem IndexAdded.matched_iff {db indexed : Database PageStore} {tableMeta : TableMeta}
    {schema : Schema} {colIdx : Nat} {stmt : Stmt Double} (filed : TablesFiled db.catalog)
    (found : lookUpTable db.catalog tableName = some (tableMeta, schema))
    (position : schemaFindColumn schema column = some colIdx)
    (added : IndexAdded db indexed tableMeta colIdx) :
    Matched indexed.catalog stmt ↔
      Matched db.catalog stmt ∨ ComparesColumn db.catalog tableName column stmt := by
  have schemas : ∀ tableId, getTableSchema indexed.catalog tableId =
      getTableSchema db.catalog tableId := fun tableId => by
    rw [getTableSchema, getTableSchema, added.tables.catalogGetSchema]
  simp only [Matched, indexMatches_iff, added.tables.catalogGetTable, schemas, added.added]
  constructor
  · rintro ⟨name, predicate, otherMeta, condition, known, valid, compared, keyVal, other, otherIdx,
      equality, cached, comparedAt, before | ⟨sameId, sameColumn⟩⟩
    · exact .inl ⟨name, predicate, otherMeta, condition, known, valid, compared, keyVal, other,
        otherIdx, equality, cached, comparedAt, before⟩
    · have otherFound := lookUpTable_of_schema known cached
      obtain rfl : name = tableName := by
        by_contra differ
        exact filed.ids_ne differ (filed.cached otherFound).1 (filed.cached found).1 sameId
      obtain ⟨rfl, rfl⟩ := Prod.mk.inj (Option.some.inj (otherFound.symm.trans found))
      exact .inr ⟨predicate, otherMeta, other, compared, keyVal, colIdx, otherIdx, condition,
        equality, found, valid, position, comparedAt, sameColumn⟩
  · rintro (⟨name, predicate, otherMeta, condition, known, valid, compared, keyVal, other, otherIdx,
      equality, cached, comparedAt, before⟩ | ⟨predicate, otherMeta, other, compared, keyVal,
      otherIdx, comparedIdx, condition, equality, otherFound, valid, otherPosition, comparedAt,
      sameColumn⟩)
    · exact ⟨name, predicate, otherMeta, condition, known, valid, compared, keyVal, other,
        otherIdx, equality, cached, comparedAt, .inl before⟩
    · obtain ⟨rfl, rfl⟩ := Prod.mk.inj (Option.some.inj (otherFound.symm.trans found))
      obtain rfl := Option.some.inj (otherPosition.symm.trans position)
      obtain ⟨known, cached⟩ := lookUpTable_eq found
      have schema_eq : getTableSchema db.catalog otherMeta.tableId = some other := by
        rw [getTableSchema, cached]
        rfl
      exact ⟨tableName, predicate, otherMeta, condition, known, valid, compared, keyVal, other,
        comparedIdx, equality, schema_eq, comparedAt, .inr ⟨rfl, sameColumn⟩⟩

end Creating

/-! ## Statements before and after -/

theorem Reached.filed [Platform Double] {db : Database PageStore} (reached : Reached Double db) :
    TablesFiled db.catalog := by
  induction reached with
  | start store => exact tablesFiled_init
  | step reached ran ih => exact (ih.execute reached.sound ran).filed

section Transparency

variable [Platform Double] {db indexed after : Database PageStore} {stmt : Stmt Double}
variable {result : StatementResult Double}

/-- A statement that is planned over the rows of tables. -/
def readsRows : Stmt Double → Bool
  | .select _ | .update .. | .delete .. => true
  | _ => false

/-- From the database, the statement ends with the result code and rows that it has had from
another one, and all tables are found with the rows they have had there. -/
def SameOutcome (db : Database PageStore) (stmt : Stmt Double) (after : Database PageStore)
    (result : StatementResult Double) : Prop :=
  ∃ bound, ∀ turns, bound ≤ turns → ∃ after' result',
    executionEngineExecute turns db stmt = .ok (after', result') ∧
      result'.code = result.code ∧ result'.tuples = result.tuples ∧
        ∀ tableName, TableKept after after' tableName

/-- A statement does the same to a database with more indexes and pages. -/
theorem outcome_kept (sound : TablesSound db) (same : SameTables db.catalog indexed.catalog)
    (kept : PagesKept db.bpm indexed.bpm) (reads : readsRows stmt = true)
    (agree : Matched indexed.catalog stmt ↔ Matched db.catalog stmt)
    (outcome : outcomeOf db stmt = .ok (after, result)) :
    ∃ larger, outcomeOf indexed stmt = .ok (⟨indexed.catalog, larger⟩, result) ∧
      PagesKept after.bpm larger ∧ after.catalog = db.catalog := by
  cases stmt with
  | select select =>
      obtain ⟨answered, rfl⟩ := select_kept sound same kept agree outcome
      exact ⟨indexed.bpm, answered, kept, rfl⟩
  | update tableName assignments whereClause =>
      exact @change_kept _ _ db indexed after result sound same kept
        (.update tableName assignments whereClause) tableName whereClause
        (fun firstPageId schema => updateTuple firstPageId schema assignments) rfl
        (fun _ _ schema => steady_updateTuple schema assignments)
        (fun _ _ schema => framed_updateTuple schema assignments) agree outcome
  | delete tableName whereClause =>
      exact @change_kept _ _ db indexed after result sound same kept (.delete tableName whereClause)
        tableName whereClause (fun firstPageId _ => deleteTuple firstPageId) rfl
        (fun _ _ _ => steady_deleteTuple) (fun _ _ _ => framed_deleteTuple) agree outcome
  | _ => cases reads

theorem sameOutcome_of_agree (sound : DatabaseSound db) (soundIndexed : DatabaseSound indexed)
    (filed : TablesFiled db.catalog) (same : SameTables db.catalog indexed.catalog)
    (kept : PagesKept db.bpm indexed.bpm) (reads : readsRows stmt = true)
    (agree : Matched indexed.catalog stmt ↔ Matched db.catalog stmt) {turns : Nat}
    (ran : executionEngineExecute turns db stmt = .ok (after, result)) :
    SameOutcome indexed stmt after result := by
  obtain ⟨larger, outcome, kept', catalog_eq⟩ :=
    outcome_kept sound.tables same kept reads agree (outcome_of_execute sound.tables ran)
  obtain ⟨bound, ends⟩ := execute_ends soundIndexed.tables stmt
  refine ⟨bound, fun turns enough => ⟨_, _, (ends turns enough).trans outcome, rfl, rfl,
    fun tableName => ?_⟩⟩
  have filedAfter := (filed.execute sound ran).filed
  rw [← catalog_eq] at same
  have others : OthersKept after ⟨indexed.catalog, larger⟩ none :=
    filedAfter.othersKept (sound.execute ran) none same kept'
  exact others.kept tableName (by simp)

/-- A change of rows over an index scan crashes. -/
theorem changeOutcome_matched {tableName : CString} {whereClause : Option (Expr Double)}
    {change : PageId → Schema → Tuple Double → ExecM PageStore RowFate}
    (condition : conditionOn stmt = whereClause.map (tableName, ·))
    (matched : Matched db.catalog stmt) :
    changeOutcome db tableName whereClause change = .error .nullPointer := by
  obtain ⟨name, predicate, tableMeta, reads, known, matches'⟩ := matched
  obtain rfl : tableName = name := by
    obtain ⟨_, -, same⟩ := Option.map_eq_some_iff.mp (condition.symm.trans reads)
    exact (Prod.mk.inj same).1
  have indexed := (isIndexScan_iff condition known).mpr ⟨_, _, _, reads, known, matches'⟩
  obtain ⟨-, _, _, schema, _, -, cached, -⟩ := indexMatches_iff.mp matches'
  rw [changeOutcome, lookUpTable_of_schema known cached]
  exact if_pos indexed

/-- A statement that an index matches fails as a query, and crashes as a change. -/
theorem outcomeOf_matched (reads : readsRows stmt = true) (matched : Matched db.catalog stmt)
    (outcome : outcomeOf db stmt = .ok (after, result)) : result.code = .internalError := by
  cases stmt with
  | select select =>
      rw [outcomeOf_builtFor, builtFor_matched matched] at outcome
      obtain ⟨-, rfl⟩ := Prod.mk.inj (Except.ok.inj outcome)
      rfl
  | update tableName assignments whereClause | delete tableName whereClause =>
      rw [outcomeOf, changeOutcome_matched rfl matched] at outcome
      cases outcome
  | _ => cases reads

/-- Where a column is compared and no index matches, the statement succeeds. -/
theorem outcomeOf_compares {tableName column : CString} (reads : readsRows stmt = true)
    (compares : ComparesColumn db.catalog tableName column stmt)
    (unmatched : ¬Matched db.catalog stmt)
    (outcome : outcomeOf db stmt = .ok (after, result)) : result.code = .ok := by
  obtain ⟨predicate, tableMeta, schema, _, _, _, _, condition, -, found, valid, -⟩ := compares
  have known := (lookUpTable_eq found).1
  have changed : ∀ {name : CString} {whereClause : Option (Expr Double)}
      {change : PageId → Schema → Tuple Double → ExecM PageStore RowFate},
      conditionOn stmt = whereClause.map (name, ·) →
        changeOutcome db name whereClause change = .ok (after, result) → result.code = .ok := by
    intro name whereClause change reading outcome
    obtain rfl : name = tableName := by
      obtain ⟨_, -, same⟩ := Option.map_eq_some_iff.mp (reading.symm.trans condition)
      exact (Prod.mk.inj same).1
    rcases changeOutcome_cases outcome with ⟨absent, -⟩ | ⟨_, _, _, _, -, -, same⟩
    · rw [found] at absent
      cases absent
    · obtain ⟨-, rfl⟩ := Prod.mk.inj same
      rfl
  cases stmt with
  | select select =>
      obtain ⟨plan, planned, guard⟩ := planSelect_conditioned condition known valid
      have noMatch : ¬IndexMatches db.catalog (scanOf db.catalog tableName tableMeta) predicate :=
        fun matches' => unmatched ⟨_, _, _, condition, known, matches'⟩
      obtain ⟨exec, built⟩ := buildExecutor_unmatched (planSelect_reads planned) guard noMatch found
      rw [outcomeOf_builtFor, builtFor, plannerPlan, plannerPlanLogical, planned] at outcome
      dsimp only [Option.map_some, plannerPlanPhysical] at outcome
      rw [built, ok_bind] at outcome
      dsimp only at outcome
      obtain ⟨answer, -, returned⟩ := Returning.returned outcome
      obtain ⟨-, rfl⟩ := Prod.mk.inj (Except.ok.inj returned)
      rfl
  | update name assignments whereClause | delete name whereClause =>
      rw [outcomeOf] at outcome
      exact changed rfl outcome
  | _ => cases reads

/-- `CREATE INDEX` does not change what the statement does, unless the statement compares the
column with an integer and no index has matched the condition before: there is no executor
for the index scan that it then gets. -/
theorem sameOutcome_iff (sound : DatabaseSound db) (filed : TablesFiled db.catalog)
    {tableName indexName column : CString} {isUnique : Bool} {turns turns' : Nat}
    {created : StatementResult Double}
    (indexing : executionEngineExecute turns db
      (.createIndex tableName indexName column isUnique) = .ok (indexed, created))
    (succeeded : created.code = .ok) (reads : readsRows stmt = true)
    (ran : executionEngineExecute turns' db stmt = .ok (after, result)) :
    SameOutcome indexed stmt after result ↔
      (ComparesColumn db.catalog tableName column stmt → Matched db.catalog stmt) := by
  obtain ⟨tableMeta, schema, colIdx, found, position, added⟩ :=
    createIndex_added sound indexing succeeded
  have matched_iff := @IndexAdded.matched_iff _ _ _ _ _ _ _ _ stmt filed found position added
  constructor
  · rintro ⟨bound, ends⟩ compares
    by_contra unmatched
    obtain ⟨after', result', ended, sameCode, -⟩ := ends bound (Nat.le_refl _)
    have failed := outcomeOf_matched reads (matched_iff.mpr (.inr compares))
      (outcome_of_execute (sound.execute indexing).tables ended)
    have answered := outcomeOf_compares reads compares unmatched
      (outcome_of_execute sound.tables ran)
    rw [failed, answered] at sameCode
    cases sameCode
  · intro before
    have agree : Matched indexed.catalog stmt ↔ Matched db.catalog stmt :=
      matched_iff.trans ⟨fun either => either.elim id before, .inl⟩
    exact sameOutcome_of_agree sound (sound.execute indexing) filed added.tables added.pages reads
      agree ran

/-- `CREATE INDEX i ON t (n)`. -/
def indexOne : Stmt Int := .createIndex (.ofChars ['t']) (.ofChars ['i']) (.ofChars ['n']) false

/-- `SELECT * FROM t WHERE n = 1`. -/
def selectOnes : Stmt Int :=
  .select ⟨[star], [.ofChars ['t']], [], some isOne, [], none, [], -1, 0⟩

/-- `DELETE FROM t`. -/
def deleteRows : Stmt Int := .delete (.ofChars ['t']) none

/-- The statement ends on the database of `createOne` before and after `CREATE INDEX`. -/
def EndsBeside (stmt : Stmt Int) (indexed after : Database PageStore)
    (created result : StatementResult Int) : Prop :=
  executionEngineExecute 100 (scriptDatabase createOne) indexOne = .ok (indexed, created) ∧
    created.code = .ok ∧
      executionEngineExecute 100 (scriptDatabase createOne) stmt = .ok (after, result)

theorem exists_endsBeside {stmt : Stmt Int}
    (ends : (executionEngineExecute 100 (scriptDatabase createOne) stmt).isOk = true) :
    ∃ indexed after created result, EndsBeside stmt indexed after created result := by
  have succeeds : (executionEngineExecute 100 (scriptDatabase createOne) indexOne).toOption.any
      (fun ending => decide (ending.2.code = .ok)) = true := by decide +kernel
  cases indexing : executionEngineExecute 100 (scriptDatabase createOne) indexOne with
  | error fault => rw [indexing] at succeeds; cases succeeds
  | ok ending =>
      rw [indexing] at succeeds
      cases ran : executionEngineExecute 100 (scriptDatabase createOne) stmt with
      | error fault => rw [ran] at ends; cases ends
      | ok answer =>
          exact ⟨ending.1, answer.1, ending.2, answer.2, indexing, of_decide_eq_true succeeds, ran⟩

theorem deleteRows_sameOutcome : ∃ indexed after created result,
    EndsBeside deleteRows indexed after created result ∧
      SameOutcome indexed deleteRows after result := by
  obtain ⟨indexed, after, created, result, ends⟩ :=
    @exists_endsBeside deleteRows (by decide +kernel)
  have reached := reached_scriptDatabase createOne
  refine ⟨indexed, after, created, result, ends,
    (sameOutcome_iff reached.sound reached.filed ends.1 ends.2.1 rfl ends.2.2).mpr ?_⟩
  rintro ⟨_, _, _, _, _, _, _, condition, -⟩
  cases condition

/-- With the index, the query has no executor. -/
theorem selectOnes_differs : ∃ indexed after created result,
    EndsBeside selectOnes indexed after created result ∧
      ¬SameOutcome indexed selectOnes after result := by
  obtain ⟨indexed, after, created, result, ends⟩ :=
    @exists_endsBeside selectOnes (by decide +kernel)
  refine ⟨indexed, after, created, result, ends, ?_⟩
  rintro ⟨bound, same⟩
  obtain ⟨after', result', ended, sameCode, -⟩ := same bound (Nat.le_refl _)
  have sound := (reached_scriptDatabase createOne).sound.execute ends.1
  have answered : (executionEngineExecute 100 (scriptDatabase createOne) selectOnes).toOption.all
      (fun ending => decide (ending.2.code = .ok)) = true := by decide +kernel
  have refused : (executionEngineExecute 100 (scriptDatabase createOne) indexOne).toOption.all
      (fun ending => (outcomeOf ending.1 selectOnes).toOption.all
        fun ending => decide (ending.2.code = .internalError)) = true := by decide +kernel
  rw [ends.2.2] at answered
  rw [ends.1] at refused
  have outcome := outcome_of_execute sound.tables ended
  dsimp only [Except.toOption, Option.all] at answered refused
  rw [outcome] at refused
  have code : result'.code = .internalError := of_decide_eq_true refused
  rw [code, show result.code = .ok from of_decide_eq_true answered] at sameCode
  cases sameCode

end Transparency

end MiniSqlite.Executor
