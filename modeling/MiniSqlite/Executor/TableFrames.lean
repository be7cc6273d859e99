import MiniSqlite.Catalog.CatalogRuns
import MiniSqlite.Executor.DatabaseRuns
import MiniSqlite.Std.Returns

/-!
# The tables that a statement leaves alone

A statement changes the table that it names, and no other: all other tables are found in
the catalog as before, and hold the rows they held.
-/

namespace MiniSqlite.Executor

open MiniSqlite.Common MiniSqlite.Std MiniSqlite.Storage MiniSqlite.Buffer MiniSqlite.Catalog
  MiniSqlite.Parser MiniSqlite.Planner

variable {Double : Type}

/-- The table that a statement may change. -/
def targetTable : Stmt Double → Option CString
  | .createTable tableName _ _ | .dropTable tableName _ | .insert tableName _ _
  | .update tableName _ _ | .delete tableName _ => some tableName
  | _ => none

/-- A table is found as before, and has the rows it had. -/
structure TableKept (db after : Database PageStore) (tableName : CString) : Prop where
  found : lookUpTable after.catalog tableName = lookUpTable db.catalog tableName
  rows : ∀ tableMeta schema, lookUpTable db.catalog tableName = some (tableMeta, schema) →
    heapContents ⟨after.bpm, tableMeta.rootPageId⟩ = heapContents ⟨db.bpm, tableMeta.rootPageId⟩

theorem TableKept.refl (db : Database PageStore) (tableName : CString) :
    TableKept db db tableName :=
  ⟨rfl, fun _ _ _ => rfl⟩

/-! ## Tables in the catalog -/

/-- The tables are filed under their names, and under ids below the next one. -/
structure TablesFiled (cat : CatalogT) : Prop where
  lookups : Lookups cat.tableCache cat.nameToId
  below : ∀ tableId tableMeta, cat.tableCache.hashmapGet tableId = some tableMeta →
    tableId < cat.nextTableId

theorem tablesFiled_init : TablesFiled catalogInit where
  lookups := lookups_init
  below tableId tableMeta found := by
    refine Int32.not_le.mp fun beyond => ?_
    have absent := @TablesKept.fresh _ tablesKept_init tableId beyond
    exact absurd (absent.symm.trans found) (by simp)

section Catalog

variable {cat other : CatalogT} {name tableName : CString}

/-- The maps agree on what a name leads to. -/
structure SameTable (cat other : CatalogT) (name : CString) : Prop where
  named : other.nameToId.hashmapGet name = cat.nameToId.hashmapGet name
  tables : ∀ tableId, cat.nameToId.hashmapGet name = some tableId →
    other.tableCache.hashmapGet tableId = cat.tableCache.hashmapGet tableId
  schemas : ∀ tableId, cat.nameToId.hashmapGet name = some tableId →
    other.schemaCache.hashmapGet tableId = cat.schemaCache.hashmapGet tableId

/-- A table that the maps agree on is found as before. -/
theorem TablesFiled.lookUpTable_eq (filed : TablesFiled cat) (same : SameTable cat other name) :
    lookUpTable other name = lookUpTable cat name := by
  unfold lookUpTable catalogGetTable
  rw [same.named]
  cases named : cat.nameToId.hashmapGet name with
  | none => rfl
  | some tableId =>
      dsimp only
      rw [same.tables tableId named]
      cases found : cat.tableCache.hashmapGet tableId with
      | none => rfl
      | some tableMeta =>
          dsimp only
          rw [filed.lookups.byId tableId tableMeta found, catalogGetSchema, catalogGetSchema,
            same.schemas tableId named]

/-- Different names lead to different tables. -/
theorem TablesFiled.ids_ne (filed : TablesFiled cat) (differ : name ≠ tableName)
    {tableId other : TableId} (named : cat.nameToId.hashmapGet name = some tableId)
    (otherNamed : cat.nameToId.hashmapGet tableName = some other) : tableId ≠ other := by
  rintro rfl
  obtain ⟨tableMeta, found, here⟩ := (filed.lookups.byName _ _).mp named
  obtain ⟨otherMeta, there, otherHere⟩ := (filed.lookups.byName _ _).mp otherNamed
  obtain rfl := Option.some.inj (found.symm.trans there)
  exact differ (here.symm.trans otherHere)

/-- What `catalog_create_table` does. -/
theorem catalogCreateTable_cases {schema : Schema} {tableId : Option TableId}
    (created : catalogCreateTable cat tableName schema = .ok (other, tableId)) :
    (tableId = none ∧ other = cat) ∨
      ∃ next, nextId cat.nextTableId = .ok next ∧ cat.nameToId.hashmapGet tableName = none ∧
        tableId = some cat.nextTableId ∧
        other = { registerTable { cat with nextTableId := next } tableName cat.nextTableId .user with
          schemaCache := cat.schemaCache.hashmapPut cat.nextTableId schema } := by
  unfold catalogCreateTable at created
  split at created
  · obtain ⟨rfl, rfl⟩ := Prod.mk.inj (Except.ok.inj created)
    exact .inl ⟨rfl, rfl⟩
  · rename_i new
    dsimp only at created
    cases following : nextId cat.nextTableId with
    | error fault => rw [following] at created; cases created
    | ok next =>
        rw [following] at created
        obtain ⟨rfl, rfl⟩ := Prod.mk.inj (Except.ok.inj created)
        exact .inr ⟨next, rfl, new, rfl, rfl⟩

theorem TablesFiled.createTable (filed : TablesFiled cat) {schema : Schema}
    {tableId : Option TableId}
    (created : catalogCreateTable cat tableName schema = .ok (other, tableId)) :
    TablesFiled other ∧ (name ≠ tableName → SameTable cat other name) := by
  rcases catalogCreateTable_cases created with ⟨-, rfl⟩ | ⟨next, following, newName, -, rfl⟩
  · exact ⟨filed, fun _ => ⟨rfl, fun _ _ => rfl, fun _ _ => rfl⟩⟩
  · have grown := lt_of_nextId following
    have newId : cat.tableCache.hashmapGet cat.nextTableId = none :=
      Option.eq_none_iff_forall_ne_some.mpr fun tableMeta found =>
        Int32.lt_irrefl (filed.below _ tableMeta found)
    have old : ∀ tableId, cat.nameToId.hashmapGet name = some tableId →
        tableId ≠ cat.nextTableId := by
      rintro _ named rfl
      obtain ⟨tableMeta, found, -⟩ := (filed.lookups.byName _ _).mp named
      exact absurd (newId.symm.trans found) (by simp)
    refine ⟨⟨?_, fun tableId tableMeta found => ?_⟩, fun differ => ⟨?_, ?_, ?_⟩⟩
    · exact @lookups_registerTable { cat with nextTableId := next } filed.lookups _ _ _ newId newName
    · dsimp only [registerTable] at found ⊢
      rw [get_put_id] at found
      split at found
      · rename_i here
        rw [here]
        exact grown
      · exact Int32.lt_trans (filed.below tableId tableMeta found) grown
    · dsimp only [registerTable]
      rw [get_put_name, if_neg differ]
    · intro tableId named
      dsimp only [registerTable]
      rw [get_put_id, if_neg (old tableId named)]
    · intro tableId named
      dsimp only [registerTable]
      rw [get_put_id, if_neg (old tableId named)]

theorem TablesFiled.dropTable (filed : TablesFiled cat) :
    TablesFiled (catalogDropTable cat tableName).1 ∧
      (name ≠ tableName → SameTable cat (catalogDropTable cat tableName).1 name) := by
  unfold catalogDropTable
  split
  · exact ⟨filed, fun _ => ⟨rfl, fun _ _ => rfl, fun _ _ => rfl⟩⟩
  · rename_i dropped known
    refine ⟨⟨filed.lookups.remove known, fun tableId tableMeta found => ?_⟩,
      fun differ => ⟨?_, ?_, ?_⟩⟩
    · exact filed.below tableId tableMeta (get_of_get_remove found)
    · dsimp only
      rw [get_remove_name, if_neg differ]
    · intro tableId named
      dsimp only
      rw [get_remove_id, if_neg (filed.ids_ne differ named known)]
    · intro tableId named
      dsimp only
      rw [get_remove_id, if_neg (filed.ids_ne differ named known)]

/-- The first page of a table is set. -/
theorem TablesFiled.rootUpdated (filed : TablesFiled cat) {tableMeta : TableMeta}
    {firstPageId : PageId} (known : cat.nameToId.hashmapGet tableName = some tableMeta.tableId) :
    TablesFiled (rootUpdated cat tableMeta firstPageId) ∧
      (name ≠ tableName → SameTable cat (rootUpdated cat tableMeta firstPageId) name) := by
  unfold Executor.rootUpdated
  split
  · unfold catalogUpdateRootPage
    split
    · exact ⟨filed, fun _ => ⟨rfl, fun _ _ => rfl, fun _ _ => rfl⟩⟩
    · rename_i before found
      refine ⟨⟨filed.lookups.update found rfl rfl, fun tableId other present => ?_⟩,
        fun differ => ⟨rfl, fun tableId named => ?_, fun _ _ => rfl⟩⟩
      · dsimp only at present ⊢
        rw [get_put_id] at present
        split at present
        · rename_i here
          rw [here]
          exact filed.below _ before found
        · exact filed.below tableId other present
      · dsimp only
        rw [get_put_id, if_neg (filed.ids_ne differ named known)]
  · exact ⟨filed, fun _ => ⟨rfl, fun _ _ => rfl, fun _ _ => rfl⟩⟩

/-- The maps of the tables agree. -/
structure SameTables (cat other : CatalogT) : Prop where
  tables : other.tableCache = cat.tableCache
  names : other.nameToId = cat.nameToId
  schemas : other.schemaCache = cat.schemaCache
  next : other.nextTableId = cat.nextTableId

theorem catalogCreateIndex_tables {indexName : CString} {tableId : TableId} {colId : ColumnId}
    {rootPageId : PageId} {isUnique : Bool} {indexId : Option IndexId}
    (created : catalogCreateIndex cat indexName tableId colId rootPageId isUnique =
      .ok (other, indexId)) : SameTables cat other := by
  unfold catalogCreateIndex at created
  split at created
  · obtain ⟨rfl, -⟩ := Prod.mk.inj (Except.ok.inj created)
    exact ⟨rfl, rfl, rfl, rfl⟩
  · obtain ⟨next, -, returned⟩ := Returning.returned created
    obtain ⟨rfl, -⟩ := Prod.mk.inj (Except.ok.inj returned)
    exact ⟨rfl, rfl, rfl, rfl⟩

theorem catalogDropIndex_tables (cat : CatalogT) (indexName : CString) :
    SameTables cat (catalogDropIndex cat indexName).1 := by
  unfold catalogDropIndex
  split <;> exact ⟨rfl, rfl, rfl, rfl⟩

/-- A table that is found has its name, and its id leads to it. -/
theorem TablesFiled.cached (filed : TablesFiled cat) {tableMeta : TableMeta} {schema : Schema}
    (found : lookUpTable cat name = some (tableMeta, schema)) :
    cat.nameToId.hashmapGet name = some tableMeta.tableId ∧
      cat.tableCache.hashmapGet tableMeta.tableId = some tableMeta := by
  have known := (Executor.lookUpTable_eq found).1
  unfold catalogGetTable at known
  split at known
  · cases known
  · rename_i tableId named
    split at known
    · cases known
    · rename_i other cached
      obtain rfl := Except.ok.inj known
      have same := filed.lookups.byId tableId other cached
      rw [same]
      exact ⟨named, cached⟩

end Catalog

/-! ## Rows of the tables -/

section Rows

variable {db after : Database PageStore} {tableName : CString}

/-- A heap whose pages are kept holds what it held. -/
theorem HeapSound.contents_elsewhere {before after : PageStore} {firstPageId : PageId}
    {chain : List PageId} (sound : HeapSound ⟨before, firstPageId⟩ chain)
    (kept : ∀ pid ∈ chain, ∀ page, before.pages pid = some page → after.pages pid = some page) :
    heapContents ⟨after, firstPageId⟩ = heapContents ⟨before, firstPageId⟩ := by
  funext rid
  rw [(sound.elsewhere kept).contents_eq, sound.contents_eq]
  split
  · rename_i member
    obtain ⟨page, used⟩ := sound.chained.used member
    rw [used, kept _ member page used]
  · rfl

/-- A table whose pages are kept. -/
theorem DatabaseSound.tableKept (sound : DatabaseSound db)
    (found : lookUpTable after.catalog tableName = lookUpTable db.catalog tableName)
    (kept : ∀ tableMeta schema, lookUpTable db.catalog tableName = some (tableMeta, schema) →
      ∀ pid ∈ tablePages db.bpm tableMeta, ∀ page, db.bpm.pages pid = some page →
        after.bpm.pages pid = some page) : TableKept db after tableName := by
  refine ⟨found, fun tableMeta schema here => ?_⟩
  obtain ⟨tableId, cached⟩ := tableCache_of_get (lookUpTable_eq here).1
  exact (sound.heaps tableId tableMeta cached).2.contents_elsewhere (kept tableMeta schema here)

/-- A table apart from the one whose pages have changed. -/
theorem DatabaseSound.tableKept_apart (sound : DatabaseSound db) (filed : TablesFiled db.catalog)
    {changed : CString} {tableMeta : TableMeta} {schema : Schema}
    (target : lookUpTable db.catalog changed = some (tableMeta, schema))
    (differ : tableName ≠ changed)
    (found : lookUpTable after.catalog tableName = lookUpTable db.catalog tableName)
    (kept : ∀ pid ∉ tablePages db.bpm tableMeta, ∀ page, db.bpm.pages pid = some page →
      after.bpm.pages pid = some page) : TableKept db after tableName := by
  refine sound.tableKept found fun otherMeta otherSchema here pid member => kept pid fun shared => ?_
  obtain ⟨named, cached⟩ := filed.cached target
  obtain ⟨otherNamed, otherCached⟩ := filed.cached here
  exact sound.apart _ _ _ _ (filed.ids_ne differ otherNamed named).symm cached otherCached
    shared member

end Rows

/-! ## Statements -/

/-- The tables stay filed, and all but the target are kept. -/
structure OthersKept (db after : Database PageStore) (target : Option CString) : Prop where
  filed : TablesFiled after.catalog
  kept : ∀ tableName, target ≠ some tableName → TableKept db after tableName

section Statements

variable {db after : Database PageStore} {result : StatementResult Double}
variable (sound : DatabaseSound db) (filed : TablesFiled db.catalog)

include filed

theorem TablesFiled.unchanged (target : Option CString) : OthersKept db db target :=
  ⟨filed, fun _ _ => .refl db _⟩

include sound

/-- The tables of the catalog and all pages are kept. -/
theorem TablesFiled.othersKept (target : Option CString) (same : SameTables db.catalog after.catalog)
    (pages : ∀ pid page, db.bpm.pages pid = some page → after.bpm.pages pid = some page) :
    OthersKept db after target where
  filed := by
    refine ⟨?_, ?_⟩
    · rw [same.tables, same.names]
      exact filed.lookups
    · rw [same.tables, same.next]
      exact filed.below
  kept tableName _ := by
    refine sound.tableKept (filed.lookUpTable_eq ⟨?_, fun _ _ => ?_, fun _ _ => ?_⟩)
      fun _ _ _ pid _ => pages pid
    · rw [same.names]
    · rw [same.tables]
    · rw [same.schemas]

omit sound filed in
/-- A new page leaves the others alone. -/
theorem newPage_pages {before bpm : PageStore} {page : Option (PageId × PageId)}
    (allocated : PagePool.newPage before = .ok (bpm, page)) {pid : PageId} {held : Page}
    (used : before.pages pid = some held) : bpm.pages pid = some held := by
  cases supply : before.fresh with
  | nil =>
      rw [newPage_exhausted supply] at allocated
      cases allocated
  | cons fresh rest =>
      obtain ⟨store, new, -, pages⟩ := newPage_store supply
      rw [new] at allocated
      obtain ⟨rfl, -⟩ := Prod.mk.inj (Except.ok.inj allocated)
      have differ : pid ≠ fresh := by
        rintro rfl
        rw [before.fresh_unused pid (by simp [supply])] at used
        cases used
      rw [pages, if_neg differ, used]

theorem TablesFiled.ddl {stmt : Stmt Double} (ran : executeDdl db stmt = .ok (after, result)) :
    OthersKept db after (targetTable stmt) := by
  have same : ∀ {other : Database PageStore} {code affected} {target : Option CString},
      OthersKept db other target → (Except.ok (ended other code affected) :
        Except Fault (Executed PageStore Double)) = .ok (after, result) →
          OthersKept db after target := by
    intro other code affected target kept same
    obtain ⟨rfl, -⟩ := Prod.mk.inj (Except.ok.inj same)
    exact kept
  have changed : ∀ {cat : CatalogT} {tableName : CString}, (TablesFiled cat ∧
      ∀ name, name ≠ tableName → SameTable db.catalog cat name) →
        OthersKept db ⟨cat, db.bpm⟩ (some tableName) := by
    intro cat tableName others
    refine ⟨others.1, fun name other => ?_⟩
    have differ : name ≠ tableName := fun same => other (congrArg some same.symm)
    exact sound.tableKept (filed.lookUpTable_eq (others.2 name differ)) fun _ _ _ _ _ _ used => used
  cases stmt with
  | createTable tableName columns ifNotExists =>
      rw [executeDdl] at ran
      split at ran
      · exact same (filed.unchanged _) ran
      · rename_i schema _
        cases created : catalogCreateTable db.catalog tableName schema with
        | error fault => rw [created] at ran; cases ran
        | ok entry =>
            obtain ⟨cat, tableId⟩ := entry
            have filedAfter := (@TablesFiled.createTable _ _ tableName _ filed _ _ created).1
            have kept := changed ⟨filedAfter, fun name => (filed.createTable created).2⟩
            rw [created] at ran
            cases tableId <;> exact same kept ran
  | dropTable tableName ifExists =>
      have filedAfter := (@TablesFiled.dropTable _ tableName tableName filed).1
      exact same (changed ⟨filedAfter, fun name => filed.dropTable.2⟩) ran
  | createIndex tableName indexName column isUnique =>
      rw [executeDdl] at ran
      cases allocated : PagePool.newPage db.bpm with
      | error fault => rw [allocated] at ran; cases ran
      | ok page =>
          obtain ⟨bpm, page⟩ := page
          have paged : ∀ {cat : CatalogT}, SameTables db.catalog cat → OthersKept db ⟨cat, bpm⟩ none :=
            fun same => filed.othersKept sound none same fun _ _ => newPage_pages allocated
          have kept := paged ⟨rfl, rfl, rfl, rfl⟩
          rw [allocated] at ran
          cases page with
          | none => exact same kept ran
          | some page =>
              obtain ⟨rootPid, frame⟩ := page
              simp only [ok_bind, unpinPage_store] at ran
              split at ran
              · exact same kept ran
              · split at ran
                · exact same kept ran
                · split at ran
                  · exact same kept ran
                  · rename_i colIdx _
                    cases created : catalogCreateIndex db.catalog indexName _ (Int32.ofNat colIdx)
                        rootPid isUnique with
                    | error fault => rw [created] at ran; cases ran
                    | ok entry =>
                        obtain ⟨cat, indexId⟩ := entry
                        rw [created] at ran
                        have added := paged (catalogCreateIndex_tables created)
                        cases indexId <;> exact same added ran
  | dropIndex indexName =>
      have dropped : OthersKept db ⟨(catalogDropIndex db.catalog indexName).1, db.bpm⟩ none :=
        filed.othersKept sound none (catalogDropIndex_tables db.catalog indexName)
          fun _ _ used => used
      exact same dropped ran
  | _ => exact same (filed.unchanged _) ran

variable [Platform Double] {columns : List CString} {tableName : CString}

theorem TablesFiled.change {whereClause : Option (Expr Double)}
    {change : PageId → Schema → Tuple Double → ExecM PageStore RowFate}
    (steady : ∀ firstPageId chain schema, Steady firstPageId chain (change firstPageId schema))
    (outcome : changeOutcome db tableName whereClause change = .ok (after, result)) :
    OthersKept db after (some tableName) := by
  rcases changeOutcome_cases outcome with
    ⟨-, same⟩ | ⟨tableMeta, schema, tuples, session, found, ran, same⟩
  · obtain ⟨rfl, -⟩ := Prod.mk.inj same
    exact filed.unchanged _
  · obtain ⟨rfl, -⟩ := Prod.mk.inj same
    obtain ⟨-, cached⟩ := filed.cached found
    obtain ⟨-, heapSound⟩ := sound.heaps _ tableMeta cached
    have stored := heapSound.rowsStored
    rw [← tableRows_eq heapSound] at stored
    have changed := changeRows_elsewhere (steady _ _ schema) stored ran
    refine ⟨filed, fun name other => ?_⟩
    refine sound.tableKept_apart filed found (fun same => other (congrArg some same.symm)) rfl
      fun pid absent page used => ?_
    exact (changed.elsewhere pid absent).trans used

theorem TablesFiled.insert {rows : List (List (Expr Double))}
    (outcome : outcomeOf db (.insert tableName columns rows) = .ok (after, result)) :
    OthersKept db after (some tableName) := by
  rcases insertOutcome_cases outcome with
    ⟨-, code, same⟩ | ⟨tableMeta, schema, firstPageId, tuples, session, found, ran, rfl, rfl⟩
  · obtain ⟨rfl, -⟩ := Prod.mk.inj same
    exact filed.unchanged _
  · obtain ⟨named, cached⟩ := filed.cached found
    obtain ⟨-, heapSound⟩ := sound.heaps _ tableMeta cached
    obtain ⟨⟨chain, now, moved⟩, -⟩ := insertRows_cases heapSound ran
    refine ⟨(@TablesFiled.rootUpdated _ tableName _ filed _ _ named).1, fun name other => ?_⟩
    have differ : name ≠ tableName := fun same => other (congrArg some same.symm)
    exact sound.tableKept_apart filed found differ
      (filed.lookUpTable_eq ((filed.rootUpdated named).2 differ)) moved.elsewhere

/-- A statement keeps the tables filed, and all tables but its target. -/
theorem TablesFiled.execute {stmt : Stmt Double} {turns : Nat}
    (ran : executionEngineExecute turns db stmt = .ok (after, result)) :
    OthersKept db after (targetTable stmt) := by
  have outcome := outcome_of_execute sound.tables ran
  cases stmt with
  | select select =>
      rcases selectOutcome_cases outcome with ⟨-, same⟩ | ⟨exec, -, same⟩
      · obtain ⟨rfl, -⟩ := Prod.mk.inj same
        exact filed.unchanged _
      · obtain ⟨rfl, -⟩ := Prod.mk.inj same
        exact filed.unchanged _
  | insert tableName columns rows => exact filed.insert sound outcome
  | update tableName assignments whereClause =>
      exact filed.change sound (fun _ _ schema => steady_updateTuple schema assignments) outcome
  | delete tableName whereClause =>
      exact filed.change sound (fun _ _ _ => steady_deleteTuple) outcome
  | createTable | dropTable | createIndex | dropIndex =>
      rw [executionEngineExecute] at ran
      exact filed.ddl sound ran
  | explain | transaction =>
      obtain ⟨rfl, -⟩ := Prod.mk.inj (Except.ok.inj ran)
      exact filed.unchanged _

end Statements

end MiniSqlite.Executor
