import MiniSqlite.Executor.RowInserts

/-!
# Runs of statements

Every database that statements have made of an empty one is sound: its tables are
sound heaps that share no page, and its catalog hands out index ids in order.
-/

namespace MiniSqlite.Executor

open MiniSqlite.Common MiniSqlite.Std MiniSqlite.Storage MiniSqlite.Buffer MiniSqlite.Catalog
  MiniSqlite.Parser MiniSqlite.Planner

/-- The pages of a table. -/
def tablePages (store : PageStore) (tableMeta : TableMeta) : List PageId :=
  heapPages ⟨store, tableMeta.rootPageId⟩

/-- The tables are sound heaps without common pages, and index ids are below the next one. -/
structure DatabaseSound (db : Database PageStore) : Prop where
  heaps : ∀ tableId tableMeta, db.catalog.tableCache.hashmapGet tableId = some tableMeta →
    tableMeta.tableId = tableId ∧
      HeapSound ⟨db.bpm, tableMeta.rootPageId⟩ (tablePages db.bpm tableMeta)
  apart : ∀ tableId tableMeta other otherMeta, tableId ≠ other →
    db.catalog.tableCache.hashmapGet tableId = some tableMeta →
      db.catalog.tableCache.hashmapGet other = some otherMeta →
        (tablePages db.bpm tableMeta).Disjoint (tablePages db.bpm otherMeta)
  indexes : ∀ indexId index, db.catalog.indexCache.hashmapGet indexId = some index →
    index.indexId = indexId ∧ indexId < db.catalog.nextIndexId

theorem HeapSound.tablePages_eq {store : PageStore} {tableMeta : TableMeta} {chain : List PageId}
    (sound : HeapSound ⟨store, tableMeta.rootPageId⟩ chain) : tablePages store tableMeta = chain :=
  sound.heapPages_eq

theorem tableCache_of_get {cat : CatalogT} {tableName : CString} {tableMeta : TableMeta}
    (known : catalogGetTable cat tableName = .ok tableMeta) :
    ∃ tableId, cat.tableCache.hashmapGet tableId = some tableMeta := by
  unfold catalogGetTable at known
  split at known
  · cases known
  · rename_i tableId _
    split at known
    · cases known
    · rename_i found
      exact ⟨tableId, found.trans (congrArg some (Except.ok.inj known))⟩

theorem DatabaseSound.tables {db : Database PageStore} (sound : DatabaseSound db) :
    TablesSound db := by
  intro tableName tableMeta known
  obtain ⟨tableId, found⟩ := tableCache_of_get known
  exact ⟨_, (sound.heaps tableId tableMeta found).2⟩

/-! ## Changes of a sound database -/

/-- A heap stays sound where its pages are kept. -/
theorem HeapSound.elsewhere {before after : PageStore} {firstPageId : PageId} {chain : List PageId}
    (sound : HeapSound ⟨before, firstPageId⟩ chain)
    (kept : ∀ pid ∈ chain, ∀ page, before.pages pid = some page → after.pages pid = some page) :
    HeapSound ⟨after, firstPageId⟩ chain where
  chained := sound.chained.congr fun pid member page used => ⟨page, kept pid member page used, rfl⟩
  nodup := sound.nodup
  valid pid member page used := by
    obtain ⟨before, usedBefore⟩ := sound.chained.used member
    have same := kept pid member before usedBefore
    rw [show after.pages pid = some page from used, Option.some.injEq] at same
    exact sound.valid pid member page (same ▸ usedBefore)

section Changes

variable {db after : Database PageStore}

/-- The page store keeps all pages, and no table is new. -/
theorem DatabaseSound.shrink (sound : DatabaseSound db)
    (kept : ∀ pid page, db.bpm.pages pid = some page → after.bpm.pages pid = some page)
    (tables : ∀ tableId tableMeta, after.catalog.tableCache.hashmapGet tableId = some tableMeta →
      db.catalog.tableCache.hashmapGet tableId = some tableMeta)
    (indexes : ∀ indexId index, after.catalog.indexCache.hashmapGet indexId = some index →
      index.indexId = indexId ∧ indexId < after.catalog.nextIndexId) : DatabaseSound after := by
  have same : ∀ tableId tableMeta, after.catalog.tableCache.hashmapGet tableId = some tableMeta →
      HeapSound ⟨after.bpm, tableMeta.rootPageId⟩ (tablePages db.bpm tableMeta) := by
    intro tableId tableMeta found
    exact (sound.heaps tableId tableMeta (tables _ _ found)).2.elsewhere fun pid _ => kept pid
  refine ⟨fun tableId tableMeta found => ⟨(sound.heaps _ _ (tables _ _ found)).1, ?_⟩,
    fun tableId tableMeta other otherMeta differ found foundOther => ?_, indexes⟩
  · rw [(same tableId tableMeta found).tablePages_eq]
    exact same tableId tableMeta found
  · rw [(same tableId tableMeta found).tablePages_eq, (same other otherMeta foundOther).tablePages_eq]
    exact sound.apart _ _ _ _ differ (tables _ _ found) (tables _ _ foundOther)

/-- One table is replaced or added, and the pages of the others are kept. -/
theorem DatabaseSound.replace (sound : DatabaseSound db) {tableMeta : TableMeta}
    {chain : List PageId} (now : HeapSound ⟨after.bpm, tableMeta.rootPageId⟩ chain)
    (tables : ∀ other, after.catalog.tableCache.hashmapGet other =
      if other = tableMeta.tableId then some tableMeta
      else db.catalog.tableCache.hashmapGet other)
    (others : ∀ other otherMeta, other ≠ tableMeta.tableId →
      db.catalog.tableCache.hashmapGet other = some otherMeta →
        HeapSound ⟨after.bpm, otherMeta.rootPageId⟩ (tablePages db.bpm otherMeta) ∧
          chain.Disjoint (tablePages db.bpm otherMeta))
    (indexes : ∀ indexId index, after.catalog.indexCache.hashmapGet indexId = some index →
      index.indexId = indexId ∧ indexId < after.catalog.nextIndexId) : DatabaseSound after := by
  have cases : ∀ other otherMeta, after.catalog.tableCache.hashmapGet other = some otherMeta →
      (other = tableMeta.tableId ∧ otherMeta = tableMeta) ∨
        (other ≠ tableMeta.tableId ∧ db.catalog.tableCache.hashmapGet other = some otherMeta) := by
    intro other otherMeta found
    rw [tables] at found
    split at found
    · rename_i same
      exact .inl ⟨same, (Option.some.inj found).symm⟩
    · rename_i differ
      exact .inr ⟨differ, found⟩
  refine ⟨fun other otherMeta found => ?_, fun first firstMeta second secondMeta differ found found' => ?_,
    indexes⟩
  · rcases cases other otherMeta found with ⟨rfl, rfl⟩ | ⟨differ, found⟩
    · rw [now.tablePages_eq]
      exact ⟨rfl, now⟩
    · obtain ⟨kept, -⟩ := others other otherMeta differ found
      rw [kept.tablePages_eq]
      exact ⟨(sound.heaps _ _ found).1, kept⟩
  · rcases cases first firstMeta found with ⟨rfl, rfl⟩ | ⟨differ₁, found₁⟩
    · rcases cases second secondMeta found' with ⟨rfl, -⟩ | ⟨differ₂, found₂⟩
      · exact absurd rfl differ
      · obtain ⟨kept, disjoint⟩ := others second secondMeta differ₂ found₂
        rw [now.tablePages_eq, kept.tablePages_eq]
        exact disjoint
    · obtain ⟨kept₁, disjoint₁⟩ := others first firstMeta differ₁ found₁
      rcases cases second secondMeta found' with ⟨rfl, rfl⟩ | ⟨differ₂, found₂⟩
      · rw [now.tablePages_eq, kept₁.tablePages_eq]
        exact disjoint₁.symm
      · obtain ⟨kept₂, -⟩ := others second secondMeta differ₂ found₂
        rw [kept₁.tablePages_eq, kept₂.tablePages_eq]
        exact sound.apart _ _ _ _ differ found₁ found₂

/-- The pages of one table have changed, and perhaps it has got its first page. -/
theorem DatabaseSound.moved (sound : DatabaseSound db) {tableMeta : TableMeta}
    {firstPageId : PageId} {chain chain' : List PageId}
    (found : db.catalog.tableCache.hashmapGet tableMeta.tableId = some tableMeta)
    (before : HeapSound ⟨db.bpm, tableMeta.rootPageId⟩ chain)
    (now : HeapSound ⟨after.bpm, firstPageId⟩ chain')
    (moved : HeapMoved ⟨db.bpm, tableMeta.rootPageId⟩ ⟨after.bpm, firstPageId⟩ chain chain')
    (tables : ∀ other, after.catalog.tableCache.hashmapGet other =
      if other = tableMeta.tableId then some { tableMeta with rootPageId := firstPageId }
      else db.catalog.tableCache.hashmapGet other)
    (indexCache : after.catalog.indexCache = db.catalog.indexCache)
    (nextIndexId : after.catalog.nextIndexId = db.catalog.nextIndexId) : DatabaseSound after := by
  refine @DatabaseSound.replace _ _ sound { tableMeta with rootPageId := firstPageId } _ now tables
    (fun other otherMeta differ foundOther => ?_) (by rw [indexCache, nextIndexId]; exact sound.indexes)
  have apart := sound.apart _ _ _ _ (Ne.symm differ) found foundOther
  rw [before.tablePages_eq] at apart
  have otherSound := (sound.heaps other otherMeta foundOther).2
  constructor
  · exact otherSound.elsewhere fun pid member =>
      moved.elsewhere pid fun inChain => apart inChain member
  · intro pid inNew member
    by_cases old : pid ∈ chain
    · exact apart old member
    · obtain ⟨page, used⟩ := otherSound.chained.used member
      have unused := moved.unused pid inNew old
      rw [show db.bpm.pages pid = some page from used] at unused
      exact absurd unused (by simp)

end Changes

/-! ## Statements on the catalog -/

section Catalog

variable {db after : Database PageStore} (sound : DatabaseSound db)

include sound

/-- `CREATE TABLE` adds a table without pages. -/
theorem DatabaseSound.createTable {tableName : CString} {schema : Schema} {cat : CatalogT}
    {tableId : Option TableId}
    (created : catalogCreateTable db.catalog tableName schema = .ok (cat, tableId)) :
    DatabaseSound { db with catalog := cat } := by
  unfold catalogCreateTable at created
  split at created
  · obtain ⟨rfl, -⟩ := Prod.mk.inj (Except.ok.inj created)
    exact sound
  · dsimp only at created
    cases next : nextId db.catalog.nextTableId with
    | error fault => rw [next] at created; cases created
    | ok following =>
        rw [next] at created
        obtain ⟨rfl, -⟩ := Prod.mk.inj (Except.ok.inj created)
        refine @DatabaseSound.replace _ _ sound ⟨db.catalog.nextTableId, tableName, invalidPageId, .user⟩ []
          ⟨rfl, List.nodup_nil, fun _ member => absurd member List.not_mem_nil⟩ (fun other => ?_)
          (fun other otherMeta _ found => ⟨(sound.heaps _ _ found).2, List.disjoint_nil_left _⟩)
          sound.indexes
        exact get_put_id _ _ _ other

/-- Catalogs from which things were dropped. -/
theorem DatabaseSound.dropTable (tableName : CString) :
    DatabaseSound { db with catalog := (catalogDropTable db.catalog tableName).1 } := by
  unfold catalogDropTable
  split
  · exact sound
  · rename_i tableId _
    refine sound.shrink (fun _ _ used => used) (fun other otherMeta found => get_of_get_remove found)
      (fun indexId index found => ?_)
    · refine sound.indexes indexId index ?_
      have dropped : ∀ (entries : List (IndexId × IndexMeta)) (indexes : Hashmap idKeys IndexMeta),
          (entries.foldl (fun indexes entry => indexes.hashmapRemove entry.2.indexId)
            indexes).hashmapGet indexId = some index → indexes.hashmapGet indexId = some index := by
        intro entries
        induction entries with
        | nil => exact fun _ found => found
        | cons entry entries ih =>
            intro indexes found
            exact get_of_get_remove (ih _ found)
      exact dropped _ _ found

theorem DatabaseSound.dropIndex (indexName : CString) :
    DatabaseSound { db with catalog := (catalogDropIndex db.catalog indexName).1 } := by
  unfold catalogDropIndex
  split
  · exact sound
  · exact sound.shrink (fun _ _ used => used) (fun _ _ found => found) fun indexId index found =>
      sound.indexes indexId index (get_of_get_remove found)

/-- `CREATE INDEX` takes a page that no table has, and an id that no index has. -/
theorem DatabaseSound.createIndex {indexName : CString} {tableId : TableId} {colId : ColumnId}
    {rootPageId : PageId} {isUnique : Bool} {cat : CatalogT} {indexId : Option IndexId}
    (created : catalogCreateIndex db.catalog indexName tableId colId rootPageId isUnique =
      .ok (cat, indexId)) : DatabaseSound { db with catalog := cat } := by
  unfold catalogCreateIndex at created
  split at created
  · obtain ⟨rfl, -⟩ := Prod.mk.inj (Except.ok.inj created)
    exact sound
  · dsimp only at created
    cases next : nextId db.catalog.nextIndexId with
    | error fault => rw [next] at created; cases created
    | ok following =>
        rw [next] at created
        obtain ⟨rfl, -⟩ := Prod.mk.inj (Except.ok.inj created)
        have grown := lt_of_nextId next
        refine sound.shrink (fun _ _ used => used) (fun _ _ found => found) fun id index found => ?_
        dsimp only at found ⊢
        rw [get_put_id] at found
        split at found
        · rename_i same
          rw [← Option.some.inj found, same]
          exact ⟨rfl, grown⟩
        · obtain ⟨same, below⟩ := sound.indexes id index found
          exact ⟨same, Int32.lt_trans below grown⟩

end Catalog

/-! ## All statements -/

section Statements

variable {Double : Type} {db after : Database PageStore} {result : StatementResult Double}

/-- A page that no table has yet. -/
theorem DatabaseSound.newPage (sound : DatabaseSound db) {bpm : PageStore}
    {page : Option (PageId × PageId)} (allocated : PagePool.newPage db.bpm = .ok (bpm, page)) :
    DatabaseSound { db with bpm := bpm } := by
  cases supply : db.bpm.fresh with
  | nil =>
      rw [newPage_exhausted supply] at allocated
      cases allocated
  | cons pid rest =>
      obtain ⟨store, new, -, pages⟩ := newPage_store supply
      rw [new] at allocated
      obtain ⟨rfl, -⟩ := Prod.mk.inj (Except.ok.inj allocated)
      refine sound.shrink (fun other page used => ?_) (fun _ _ found => found) sound.indexes
      have differ : other ≠ pid := by
        rintro rfl
        rw [db.bpm.fresh_unused other (by simp [supply])] at used
        exact absurd used (by simp)
      dsimp only
      rw [pages, if_neg differ, used]

theorem DatabaseSound.ddl (sound : DatabaseSound db) {stmt : Stmt Double}
    (ran : executeDdl db stmt = .ok (after, result)) : DatabaseSound after := by
  have same : ∀ {other : Database PageStore} {code affected},
      DatabaseSound other → (Except.ok (ended other code affected) :
        Except Fault (Executed PageStore Double)) = .ok (after, result) → DatabaseSound after := by
    intro other code affected otherSound same
    obtain ⟨rfl, -⟩ := Prod.mk.inj (Except.ok.inj same)
    exact otherSound
  cases stmt with
  | createTable tableName columns ifNotExists =>
      rw [executeDdl] at ran
      split at ran
      · exact same sound ran
      · rename_i schema _
        cases created : catalogCreateTable db.catalog tableName schema with
        | error fault => rw [created] at ran; cases ran
        | ok entry =>
            have added := sound.createTable created
            obtain ⟨cat, _ | tableId⟩ := entry <;> rw [created] at ran <;> exact same added ran
  | dropTable tableName ifExists => exact same (sound.dropTable tableName) ran
  | createIndex tableName indexName column isUnique =>
      rw [executeDdl] at ran
      cases allocated : PagePool.newPage db.bpm with
      | error fault => rw [allocated] at ran; cases ran
      | ok page =>
          have paged := sound.newPage allocated
          rw [allocated] at ran
          obtain ⟨bpm, _ | ⟨rootPid, frame⟩⟩ := page
          · exact same paged ran
          · simp only [ok_bind, unpinPage_store] at ran
            split at ran
            · exact same paged ran
            · split at ran
              · exact same paged ran
              · split at ran
                · exact same paged ran
                · rename_i colIdx _
                  cases created : catalogCreateIndex db.catalog indexName _ (Int32.ofNat colIdx)
                      rootPid isUnique with
                  | error fault => rw [created] at ran; cases ran
                  | ok entry =>
                      have added := paged.createIndex created
                      obtain ⟨cat, _ | indexId⟩ := entry <;> rw [created] at ran <;>
                        exact same added ran
  | dropIndex indexName => exact same (sound.dropIndex indexName) ran
  | _ => exact same sound ran

variable [Platform Double]

/-- `UPDATE` and `DELETE` change the pages of their table only. -/
theorem DatabaseSound.change (sound : DatabaseSound db) {tableName : CString}
    {whereClause : Option (Expr Double)}
    {change : PageId → Schema → Tuple Double → ExecM PageStore RowFate}
    (steady : ∀ firstPageId chain schema, Steady firstPageId chain (change firstPageId schema))
    (outcome : changeOutcome db tableName whereClause change = .ok (after, result)) :
    DatabaseSound after := by
  rcases changeOutcome_cases outcome with
    ⟨-, same⟩ | ⟨tableMeta, schema, tuples, session, found, ran, same⟩
  · obtain ⟨rfl, -⟩ := Prod.mk.inj same
    exact sound
  · obtain ⟨rfl, -⟩ := Prod.mk.inj same
    obtain ⟨tableId, cached⟩ := tableCache_of_get (lookUpTable_eq found).1
    obtain ⟨rfl, heapSound⟩ := sound.heaps tableId tableMeta cached
    have stored := heapSound.rowsStored
    rw [← tableRows_eq heapSound] at stored
    have changed := changeRows_elsewhere (steady _ _ schema) stored ran
    refine sound.moved cached heapSound changed.sound ⟨fun _ => rfl, fun pid absent page used => ?_,
      fun _ member absent => absurd member absent⟩ (fun other => ?_) rfl rfl
    · exact (changed.elsewhere pid absent).trans used
    · split
      · rename_i same
        rw [same]
        exact cached
      · rfl

/-- `INSERT` may give a table new pages, and its first one. -/
theorem DatabaseSound.insert (sound : DatabaseSound db) {tableName : CString}
    {rows : List (List (Expr Double))}
    (outcome : outcomeOf db (.insert tableName columns rows) = .ok (after, result)) :
    DatabaseSound after := by
  rcases insertOutcome_cases outcome with
    ⟨-, code, same⟩ | ⟨tableMeta, schema, firstPageId, tuples, session, found, ran, rfl, rfl⟩
  · obtain ⟨rfl, -⟩ := Prod.mk.inj same
    exact sound
  · obtain ⟨tableId, cached⟩ := tableCache_of_get (lookUpTable_eq found).1
    obtain ⟨rfl, heapSound⟩ := sound.heaps tableId tableMeta cached
    obtain ⟨⟨chain, now, moved⟩, -⟩ := insertRows_cases heapSound ran
    have unmoved : ∀ other, { tableMeta with rootPageId := firstPageId } = tableMeta →
        db.catalog.tableCache.hashmapGet other =
          if other = tableMeta.tableId then some { tableMeta with rootPageId := firstPageId }
          else db.catalog.tableCache.hashmapGet other := by
      intro other same
      split
      · rename_i here
        rw [same, here, cached]
      · rfl
    by_cases rooted : firstPageId ≠ invalidPageId ∧ tableMeta.rootPageId = invalidPageId
    · rw [rootUpdated, if_pos rooted, catalogUpdateRootPage, cached]
      exact sound.moved cached heapSound now moved (fun other => get_put_id _ _ _ other) rfl rfl
    · rw [rootUpdated, if_neg rooted]
      have same : firstPageId = tableMeta.rootPageId := by
        by_cases empty : tableMeta.rootPageId = invalidPageId
        · by_contra differ
          exact rooted ⟨fun invalid => differ (invalid.trans empty.symm), empty⟩
        · exact moved.first empty
      exact sound.moved cached heapSound now moved (fun other => unmoved other (by rw [same])) rfl rfl

/-- Every statement keeps a database sound. -/
theorem DatabaseSound.execute (sound : DatabaseSound db) {stmt : Stmt Double} {turns : Nat}
    (ran : executionEngineExecute turns db stmt = .ok (after, result)) : DatabaseSound after := by
  have outcome := outcome_of_execute sound.tables ran
  cases stmt with
  | select select =>
      rcases selectOutcome_cases outcome with ⟨-, same⟩ | ⟨exec, -, same⟩
      · obtain ⟨rfl, -⟩ := Prod.mk.inj same
        exact sound
      · obtain ⟨rfl, -⟩ := Prod.mk.inj same
        exact sound
  | insert tableName columns rows => exact sound.insert outcome
  | update tableName assignments whereClause =>
      exact sound.change (fun _ _ schema => steady_updateTuple schema assignments) outcome
  | delete tableName whereClause => exact sound.change (fun _ _ _ => steady_deleteTuple) outcome
  | createTable | dropTable | createIndex | dropIndex =>
      rw [executionEngineExecute] at ran
      exact sound.ddl ran
  | explain | transaction =>
      obtain ⟨rfl, -⟩ := Prod.mk.inj (Except.ok.inj ran)
      exact sound

/-- What statements make of an empty database. -/
inductive Reached (Double : Type) [Platform Double] : Database PageStore → Prop where
  | start (store : PageStore) : Reached Double ⟨catalogInit, store⟩
  | step {db after : Database PageStore} {stmt : Stmt Double} {turns : Nat}
      {result : StatementResult Double} (reached : Reached Double db)
      (ran : executionEngineExecute turns db stmt = .ok (after, result)) : Reached Double after

/-- The system tables have no pages. -/
theorem databaseSound_init (store : PageStore) : DatabaseSound ⟨catalogInit, store⟩ := by
  have empty : ∀ tableId tableMeta, catalogInit.tableCache.hashmapGet tableId = some tableMeta →
      tableMeta.tableId = tableId ∧ tableMeta.rootPageId = invalidPageId := by
    intro tableId tableMeta found
    simp only [catalogInit, registerTable, get_put_id, Hashmap.hashmapGet_init] at found
    split_ifs at found with third second first
    · obtain rfl := Option.some.inj found
      exact ⟨third.symm, rfl⟩
    · obtain rfl := Option.some.inj found
      exact ⟨second.symm, rfl⟩
    · obtain rfl := Option.some.inj found
      exact ⟨first.symm, rfl⟩
  have none : ∀ tableId tableMeta, catalogInit.tableCache.hashmapGet tableId = some tableMeta →
      HeapSound ⟨store, tableMeta.rootPageId⟩ [] := by
    intro tableId tableMeta found
    exact ⟨(empty tableId tableMeta found).2, List.nodup_nil,
      fun _ member => absurd member List.not_mem_nil⟩
  refine ⟨fun tableId tableMeta found => ⟨(empty _ _ found).1, ?_⟩,
    fun tableId tableMeta other otherMeta _ found _ => ?_, fun indexId index found => ?_⟩
  · rw [(none tableId tableMeta found).tablePages_eq]
    exact none tableId tableMeta found
  · rw [(none tableId tableMeta found).tablePages_eq]
    exact List.disjoint_nil_left _
  · exact absurd found (by simp [catalogInit, registerTable])

theorem Reached.sound {db : Database PageStore} (reached : Reached Double db) :
    DatabaseSound db := by
  induction reached with
  | start store => exact databaseSound_init store
  | step _ ran ih => exact ih.execute ran

/-- The statements of a script, one after the other. -/
def executeAll (turns : Nat) : Database PageStore → List (Stmt Double) →
    Except Fault (Database PageStore × List (StatementResult Double))
  | db, [] => .ok (db, [])
  | db, stmt :: stmts => do
      let (db, result) ← executionEngineExecute turns db stmt
      let (db, results) ← executeAll turns db stmts
      return (db, result :: results)

theorem Reached.executeAll {turns : Nat} {stmts : List (Stmt Double)}
    {results : List (StatementResult Double)} (reached : Reached Double db)
    (ran : executeAll turns db stmts = .ok (after, results)) : Reached Double after := by
  induction stmts generalizing db results with
  | nil =>
      obtain ⟨rfl, -⟩ := Prod.mk.inj (Except.ok.inj ran)
      exact reached
  | cons stmt stmts ih =>
      rw [Executor.executeAll] at ran
      cases first : executionEngineExecute turns db stmt with
      | error fault => rw [first] at ran; cases ran
      | ok ended =>
          obtain ⟨middle, result⟩ := ended
          rw [first, ok_bind] at ran
          dsimp only at ran
          cases others : Executor.executeAll turns middle stmts with
          | error fault => rw [others] at ran; cases ran
          | ok ended =>
              obtain ⟨last, rest⟩ := ended
              rw [others, ok_bind] at ran
              obtain ⟨rfl, -⟩ := Prod.mk.inj (Except.ok.inj ran)
              exact ih (.step reached first) others

/-- A store without pages that has three to give. -/
def smallStore : PageStore where
  pages _ := none
  fresh := [1, 2, 3]
  fresh_nodup := by decide
  fresh_unused _ _ := rfl
  invalid_unused := by decide

/-- The database that a script makes, or the empty one if it does not end. -/
def scriptDatabase (stmts : List (Stmt Double)) : Database PageStore :=
  match executeAll 100 ⟨catalogInit, smallStore⟩ stmts with
  | .ok (db, _) => db
  | .error _ => ⟨catalogInit, smallStore⟩

theorem reached_scriptDatabase (stmts : List (Stmt Double)) :
    Reached Double (scriptDatabase stmts) := by
  unfold scriptDatabase
  split
  · rename_i ran
    exact (Reached.start smallStore).executeAll ran
  · exact .start smallStore

end Statements

/-- What a computation that ends has given, from what is seen of it. -/
theorem ends_of_map {α β : Type} {outcome : Except Fault α} {view : α → β} {seen : β}
    (observed : outcome.map view = .ok seen) : ∃ value, outcome = .ok value ∧ view value = seen := by
  cases outcome with
  | error fault => cases observed
  | ok value => exact ⟨value, rfl, Except.ok.inj observed⟩

end MiniSqlite.Executor
