import MiniSqlite.Catalog.Catalog

/-!
# Runs of the catalog

Four maps under different keys hold what is known about a table. Whatever calls are
made, they stay consistent with each other and with what the calls have created
(`catalog_correct`), and a call that fails changes nothing.
-/

namespace MiniSqlite.Catalog

open MiniSqlite.Common MiniSqlite.Storage MiniSqlite.Buffer

/-- A schema that `schema_create` has made. -/
def BuiltSchema : Type := { schema : Schema // schemaCreate schema.columns = .ok schema }

/-- The calls that change a catalog. -/
inductive CatalogOp where
  | createTable (name : CString) (schema : BuiltSchema)
  | dropTable (name : CString)
  | createIndex (name : CString) (tableId : TableId) (colId : ColumnId) (rootPageId : PageId)
      (unique : Bool)
  | dropIndex (name : CString)
  | updateRootPage (tableId : TableId) (rootPageId : PageId)

/-- What a call returns. -/
inductive CatalogReply where
  | table (tableId : Option TableId)
  | index (indexId : Option IndexId)
  | code (rc : ErrorCode)
  deriving DecidableEq

/-- The reply reports a failure. -/
def CatalogReply.Failed : CatalogReply → Prop
  | .table tableId => tableId = none
  | .index indexId => indexId = none
  | .code rc => rc ≠ .ok

def catalogCall (cat : CatalogT) : CatalogOp → Except Fault (CatalogT × CatalogReply)
  | .createTable name schema => do
      let (cat, tableId) ← catalogCreateTable cat name schema.1
      return (cat, .table tableId)
  | .dropTable name =>
      let (cat, rc) := catalogDropTable cat name
      .ok (cat, .code rc)
  | .createIndex name tableId colId rootPageId unique => do
      let (cat, indexId) ← catalogCreateIndex cat name tableId colId rootPageId unique
      return (cat, .index indexId)
  | .dropIndex name =>
      let (cat, rc) := catalogDropIndex cat name
      .ok (cat, .code rc)
  | .updateRootPage tableId rootPageId =>
      let (cat, rc) := catalogUpdateRootPage cat tableId rootPageId
      .ok (cat, .code rc)

/-- A table that was created. -/
structure CreatedTable where
  tableId : TableId
  tableName : CString
  schema : BuiltSchema

/-- A catalog with all tables and indexes that were ever created in it, the latest first. -/
structure CatalogHistory where
  cat : CatalogT
  tables : List CreatedTable
  indexIds : List IndexId

/-- The history after a call. -/
def CatalogHistory.record (history : CatalogHistory) (cat : CatalogT) :
    CatalogOp → CatalogReply → CatalogHistory
  | .createTable name schema, .table (some tableId) =>
      ⟨cat, ⟨tableId, name, schema⟩ :: history.tables, history.indexIds⟩
  | _, .index (some indexId) => ⟨cat, history.tables, indexId :: history.indexIds⟩
  | _, _ => ⟨cat, history.tables, history.indexIds⟩

/-- The table of the catalog with the id, if there is one. -/
abbrev CatalogT.table? (cat : CatalogT) (tableId : TableId) : Option TableMeta :=
  cat.tableCache.hashmapGet tableId

/-- An index is created on an existing table. -/
def CatalogOp.OnTable (cat : CatalogT) : CatalogOp → Prop
  | .createIndex _ tableId .. => cat.table? tableId ≠ none
  | _ => True

/-- The histories of a catalog from `catalog_init` on. -/
inductive CatalogReached : CatalogHistory → Prop where
  | init : CatalogReached ⟨catalogInit, [], []⟩
  | call {history : CatalogHistory} {op : CatalogOp} {cat : CatalogT} {reply : CatalogReply}
      (reached : CatalogReached history) (onTable : op.OnTable history.cat)
      (called : catalogCall history.cat op = .ok (cat, reply)) :
      CatalogReached (history.record cat op reply)

/-- The ids of the system tables. -/
def systemIds : List TableId := [0, 1, 2]

/-- The names of the tables lead to them, and their ids are those they are filed under. -/
structure Lookups (tables : Hashmap idKeys TableMeta) (names : Hashmap nameKeys TableId) : Prop where
  byName : ∀ name tableId, names.hashmapGet name = some tableId ↔
    ∃ tableMeta, tables.hashmapGet tableId = some tableMeta ∧ tableMeta.tableName = name
  byId : ∀ tableId tableMeta, tables.hashmapGet tableId = some tableMeta →
    tableMeta.tableId = tableId

/-- The tables and schemas of a catalog are those that were created and not dropped. -/
structure TablesKept (history : CatalogHistory) : Prop where
  created : ∀ tableId tableMeta, history.cat.table? tableId = some tableMeta →
    (tableMeta.tableType = .user ∧ ∃ table ∈ history.tables, table.tableId = tableId ∧
        table.tableName = tableMeta.tableName ∧
        history.cat.schemaCache.hashmapGet tableId = some table.schema.1) ∨
      tableMeta.tableType = .system ∧ tableId ∈ systemIds
  schemas : ∀ tableId schema, history.cat.schemaCache.hashmapGet tableId = some schema →
    ∃ tableMeta, history.cat.table? tableId = some tableMeta ∧ tableMeta.tableType = .user
  distinct : (history.tables.map CreatedTable.tableId ++ systemIds).Nodup
  below : ∀ tableId ∈ history.tables.map CreatedTable.tableId ++ systemIds,
    tableId < history.cat.nextTableId

/-- The indexes of a catalog were created, have different names and are on its tables. -/
structure IndexesKept (history : CatalogHistory) : Prop where
  byId : ∀ indexId index, history.cat.indexCache.hashmapGet indexId = some index →
    index.indexId = indexId
  onTables : ∀ indexId index, history.cat.indexCache.hashmapGet indexId = some index →
    history.cat.table? index.tableId ≠ none
  names : ∀ first second one other, history.cat.indexCache.hashmapGet first = some one →
    history.cat.indexCache.hashmapGet second = some other → one.indexName = other.indexName →
      first = second
  created : ∀ indexId index, history.cat.indexCache.hashmapGet indexId = some index →
    indexId ∈ history.indexIds
  distinct : history.indexIds.Nodup
  below : ∀ indexId ∈ history.indexIds, indexId < history.cat.nextIndexId

/-- The maps of a catalog agree with each other and with its history. -/
structure CatalogSound (history : CatalogHistory) : Prop where
  lookups : Lookups history.cat.tableCache history.cat.nameToId
  tables : TablesKept history
  indexes : IndexesKept history

/-! ## Tables -/

section Tables

variable {tables : Hashmap idKeys TableMeta} {names : Hashmap nameKeys TableId}

/-- A table under a new name and a new id. -/
theorem Lookups.register (lookups : Lookups tables names) {tableMeta : TableMeta}
    (newId : tables.hashmapGet tableMeta.tableId = none)
    (newName : names.hashmapGet tableMeta.tableName = none) :
    Lookups (tables.hashmapPut tableMeta.tableId tableMeta)
      (names.hashmapPut tableMeta.tableName tableMeta.tableId) where
  byName name tableId := by
    rw [get_put_name, get_put_id]
    by_cases named : name = tableMeta.tableName
    · rw [if_pos named, named]
      constructor
      · intro same
        exact ⟨tableMeta, by rw [if_pos (Option.some.inj same).symm], rfl⟩
      · rintro ⟨other, found, same⟩
        split at found
        · rename_i here
          rw [here]
        · have := (lookups.byName _ _).mpr ⟨other, found, same⟩
          rw [newName] at this
          cases this
    · rw [if_neg named, lookups.byName]
      constructor
      · rintro ⟨other, found, same⟩
        refine ⟨other, ?_, same⟩
        rw [if_neg, found]
        rintro rfl
        rw [newId] at found
        cases found
      · rintro ⟨other, found, same⟩
        split at found
        · exact absurd (same.symm.trans (congrArg _ (Option.some.inj found)).symm) named
        · exact ⟨other, found, same⟩
  byId tableId other found := by
    rw [get_put_id] at found
    split at found
    · rename_i here
      rw [← Option.some.inj found, here]
    · exact lookups.byId tableId other found

/-- A table dropped with its name. -/
theorem Lookups.remove (lookups : Lookups tables names) {name : CString} {tableId : TableId}
    (known : names.hashmapGet name = some tableId) :
    Lookups (tables.hashmapRemove tableId) (names.hashmapRemove name) where
  byName other otherId := by
    obtain ⟨tableMeta, found, named⟩ := (lookups.byName _ _).mp known
    rw [get_remove_name, get_remove_id]
    by_cases same : other = name
    · rw [if_pos same]
      refine iff_of_false (by simp) ?_
      rintro ⟨otherMeta, there, otherName⟩
      split at there
      · cases there
      · rename_i differ
        have again := (lookups.byName name otherId).mpr ⟨otherMeta, there, otherName.trans same⟩
        exact differ (Option.some.inj (again.symm.trans known))
    · rw [if_neg same, lookups.byName]
      refine exists_congr fun otherMeta => and_congr_left fun otherName => ?_
      have differ : ¬otherId = tableId ∨ tables.hashmapGet otherId ≠ some otherMeta := by
        by_contra both
        push Not at both
        obtain ⟨rfl, there⟩ := both
        rw [found] at there
        exact same (otherName.symm.trans ((congrArg _ (Option.some.inj there)).symm.trans named))
      split
      · rename_i here
        exact iff_of_false (differ.resolve_left (not_not.mpr here)) (by simp)
      · exact Iff.rfl
  byId otherId otherMeta found := lookups.byId _ _ (get_of_get_remove found)

/-- A table changed under its name. -/
theorem Lookups.update (lookups : Lookups tables names) {tableId : TableId}
    {before after : TableMeta} (known : tables.hashmapGet tableId = some before)
    (sameId : after.tableId = before.tableId) (sameName : after.tableName = before.tableName) :
    Lookups (tables.hashmapPut tableId after) names where
  byName name otherId := by
    rw [lookups.byName, get_put_id]
    by_cases here : otherId = tableId
    · rw [if_pos here, here, known]
      simp [sameName]
    · rw [if_neg here]
  byId otherId otherMeta found := by
    rw [get_put_id] at found
    split at found
    · rename_i here
      rw [← Option.some.inj found, sameId, here]
      exact lookups.byId _ _ known
    · exact lookups.byId _ _ found

end Tables

theorem lookups_registerTable {cat : CatalogT} (lookups : Lookups cat.tableCache cat.nameToId)
    {name : CString} {tableId : TableId} {tableType : TableType}
    (newId : cat.tableCache.hashmapGet tableId = none)
    (newName : cat.nameToId.hashmapGet name = none) :
    Lookups (registerTable cat name tableId tableType).tableCache
      (registerTable cat name tableId tableType).nameToId :=
  @Lookups.register _ _ lookups ⟨tableId, name, invalidPageId, tableType⟩ newId newName

theorem lookups_init : Lookups catalogInit.tableCache catalogInit.nameToId := by
  rw [catalogInit]
  refine lookups_registerTable (lookups_registerTable (lookups_registerTable ⟨?_, ?_⟩ ?_ ?_) ?_ ?_)
    ?_ ?_
  · simp
  · simp
  all_goals decide +kernel

theorem tablesKept_init : TablesKept ⟨catalogInit, [], []⟩ where
  created tableId tableMeta found := by
    simp only [catalogInit, registerTable, CatalogT.table?, get_put_id, Hashmap.hashmapGet_init] at found
    refine .inr ?_
    split at found
    · rename_i here
      rw [← Option.some.inj found, here]
      exact ⟨rfl, by simp [systemIds]⟩
    · split at found
      · rename_i here
        rw [← Option.some.inj found, here]
        exact ⟨rfl, by simp [systemIds]⟩
      · split at found
        · rename_i here
          rw [← Option.some.inj found, here]
          exact ⟨rfl, by simp [systemIds]⟩
        · cases found
  schemas tableId schema found := absurd found (by simp [catalogInit, registerTable])
  distinct := by decide
  below := by
    show ∀ tableId ∈ systemIds, tableId < 3
    simp [systemIds]

variable {history : CatalogHistory}

/-- Ids of tables are below the next one. -/
theorem TablesKept.fresh (kept : TablesKept history) {tableId : TableId}
    (beyond : history.cat.nextTableId ≤ tableId) : history.cat.table? tableId = none := by
  cases found : history.cat.table? tableId with
  | none => rfl
  | some tableMeta =>
      have member : tableId ∈ history.tables.map CreatedTable.tableId ++ systemIds := by
        rcases kept.created _ _ found with ⟨-, table, among, same, -⟩ | ⟨-, among⟩
        · exact List.mem_append_left _ (List.mem_map.mpr ⟨table, among, same⟩)
        · exact List.mem_append_right _ among
      exact absurd (kept.below _ member) (Int32.not_lt.mpr beyond)

theorem TablesKept.create (kept : TablesKept history) {name : CString} {schema : BuiltSchema}
    {next : TableId} (following : nextId history.cat.nextTableId = .ok next) :
    TablesKept
      ⟨{ registerTable { history.cat with nextTableId := next } name history.cat.nextTableId .user with
          schemaCache := history.cat.schemaCache.hashmapPut history.cat.nextTableId schema.1 },
        ⟨history.cat.nextTableId, name, schema⟩ :: history.tables, history.indexIds⟩ where
  created tableId tableMeta found := by
    dsimp only [registerTable, CatalogT.table?] at found ⊢
    rw [get_put_id] at found
    rw [get_put_id]
    split at found
    · rename_i here
      rw [← Option.some.inj found, if_pos here]
      exact .inl ⟨rfl, _, List.mem_cons_self, here.symm, rfl, rfl⟩
    · rename_i other
      rw [if_neg other]
      refine (kept.created tableId tableMeta found).imp_left ?_
      rintro ⟨user, table, among, rest⟩
      exact ⟨user, table, List.mem_cons_of_mem _ among, rest⟩
  schemas tableId other found := by
    dsimp only [registerTable, CatalogT.table?] at found ⊢
    rw [get_put_id] at found ⊢
    split at found
    · rename_i here
      rw [if_pos here]
      exact ⟨_, rfl, rfl⟩
    · rename_i differ
      rw [if_neg differ]
      exact kept.schemas tableId other found
  distinct := by
    refine List.nodup_cons.mpr ⟨fun member => ?_, kept.distinct⟩
    exact Int32.lt_irrefl (kept.below _ member)
  below := by
    have grown := lt_of_nextId following
    refine List.forall_mem_cons.mpr ⟨grown, fun tableId member => ?_⟩
    exact Int32.lt_trans (kept.below tableId member) grown

theorem TablesKept.drop (kept : TablesKept history) (tableId : TableId) (name : CString)
    (indexes : Hashmap idKeys IndexMeta) :
    TablesKept { history with cat := { history.cat with
      indexCache := indexes
      tableCache := history.cat.tableCache.hashmapRemove tableId
      nameToId := history.cat.nameToId.hashmapRemove name
      schemaCache := history.cat.schemaCache.hashmapRemove tableId } } where
  created other tableMeta found := by
    dsimp only [CatalogT.table?] at found ⊢
    rw [get_remove_id] at found ⊢
    split at found
    · cases found
    · rename_i differ
      rw [if_neg differ]
      exact kept.created other tableMeta found
  schemas other schema found := by
    dsimp only [CatalogT.table?] at found ⊢
    rw [get_remove_id] at found ⊢
    split at found
    · cases found
    · rename_i differ
      rw [if_neg differ]
      exact kept.schemas other schema found
  distinct := kept.distinct
  below := kept.below

theorem TablesKept.update (kept : TablesKept history) {tableId : TableId} {before after : TableMeta}
    (known : history.cat.table? tableId = some before) (sameName : after.tableName = before.tableName)
    (sameType : after.tableType = before.tableType) :
    TablesKept { history with cat := { history.cat with
      tableCache := history.cat.tableCache.hashmapPut tableId after } } where
  created other tableMeta found := by
    dsimp only [CatalogT.table?] at found ⊢
    rw [get_put_id] at found
    split at found
    · rename_i here
      rw [← Option.some.inj found, sameName, sameType, here]
      exact kept.created tableId before known
    · exact kept.created other tableMeta found
  schemas other schema found := by
    obtain ⟨tableMeta, there, user⟩ := kept.schemas other schema found
    dsimp only [CatalogT.table?]
    rw [get_put_id]
    split
    · rename_i here
      rw [here, known] at there
      exact ⟨after, rfl, by rw [sameType, Option.some.inj there, user]⟩
    · exact ⟨tableMeta, there, user⟩
  distinct := kept.distinct
  below := kept.below

/-! ## Indexes -/

/-- The indexes stay kept where only they are left that were there before and whose tables
are still there. -/
theorem IndexesKept.shrink (kept : IndexesKept history) {cat : CatalogT} {tables : List CreatedTable}
    (indexes : ∀ indexId index, cat.indexCache.hashmapGet indexId = some index →
      history.cat.indexCache.hashmapGet indexId = some index ∧ cat.table? index.tableId ≠ none)
    (next : cat.nextIndexId = history.cat.nextIndexId) :
    IndexesKept ⟨cat, tables, history.indexIds⟩ where
  byId indexId index found := kept.byId _ _ (indexes _ _ found).1
  onTables indexId index found := (indexes _ _ found).2
  names first second one other here there :=
    kept.names first second one other (indexes _ _ here).1 (indexes _ _ there).1
  created indexId index found := kept.created _ _ (indexes _ _ found).1
  distinct := kept.distinct
  below indexId member := by
    show indexId < cat.nextIndexId
    rw [next]
    exact kept.below indexId member

theorem IndexesKept.create (kept : IndexesKept history) {name : CString} {tableId : TableId}
    {colId : ColumnId} {rootPageId : PageId} {unique : Bool} {next : IndexId}
    (onTable : history.cat.table? tableId ≠ none)
    (newName : ∀ indexId index, history.cat.indexCache.hashmapGet indexId = some index →
      index.indexName ≠ name)
    (following : nextId history.cat.nextIndexId = .ok next) :
    IndexesKept
      ⟨{ history.cat with
          nextIndexId := next
          indexCache := history.cat.indexCache.hashmapPut history.cat.nextIndexId
            ⟨history.cat.nextIndexId, name, tableId, colId, rootPageId, unique⟩ },
        history.tables, history.cat.nextIndexId :: history.indexIds⟩ := by
  have cases : ∀ indexId index, (history.cat.indexCache.hashmapPut history.cat.nextIndexId
      ⟨history.cat.nextIndexId, name, tableId, colId, rootPageId, unique⟩).hashmapGet indexId =
        some index →
      (indexId = history.cat.nextIndexId ∧
        index = ⟨history.cat.nextIndexId, name, tableId, colId, rootPageId, unique⟩) ∨
      history.cat.indexCache.hashmapGet indexId = some index := by
    intro indexId index found
    rw [get_put_id] at found
    split at found
    · rename_i here
      exact .inl ⟨here, (Option.some.inj found).symm⟩
    · exact .inr found
  refine ⟨fun indexId index found => ?_, fun indexId index found => ?_,
    fun first second one other here there same => ?_, fun indexId index found => ?_, ?_, ?_⟩
  · rcases cases _ _ found with ⟨rfl, rfl⟩ | old
    · rfl
    · exact kept.byId _ _ old
  · rcases cases _ _ found with ⟨rfl, rfl⟩ | old
    · exact onTable
    · exact kept.onTables _ _ old
  · rcases cases _ _ here with ⟨rfl, rfl⟩ | oldHere <;> rcases cases _ _ there with ⟨rfl, rfl⟩ | oldThere
    · rfl
    · exact absurd same.symm (newName _ _ oldThere)
    · exact absurd same (newName _ _ oldHere)
    · exact kept.names _ _ _ _ oldHere oldThere same
  · rcases cases _ _ found with ⟨rfl, rfl⟩ | old
    · exact List.mem_cons_self
    · exact List.mem_cons_of_mem _ (kept.created _ _ old)
  · refine List.nodup_cons.mpr ⟨fun member => ?_, kept.distinct⟩
    exact Int32.lt_irrefl (kept.below _ member)
  · have grown := lt_of_nextId following
    refine List.forall_mem_cons.mpr ⟨grown, fun indexId member => ?_⟩
    exact Int32.lt_trans (kept.below indexId member) grown

/-- The loop of `catalog_drop_table` removes the indexes it has collected. -/
theorem get_dropped (indexes : Hashmap idKeys IndexMeta) (dropped : List (IndexId × IndexMeta))
    (indexId : IndexId) :
    (dropped.foldl (fun indexes entry => indexes.hashmapRemove entry.2.indexId) indexes).hashmapGet
        indexId =
      if ∃ entry ∈ dropped, entry.2.indexId = indexId then none else indexes.hashmapGet indexId := by
  induction dropped generalizing indexes with
  | nil => simp
  | cons entry dropped ih =>
      rw [List.foldl_cons, ih, get_remove_id]
      by_cases later : ∃ entry ∈ dropped, entry.2.indexId = indexId
      · simp [later]
      · simp only [later, if_false, List.mem_cons, exists_eq_or_imp, or_false]
        simp only [eq_comm]

/-! ## Histories -/

theorem catalogSound_init : CatalogSound ⟨catalogInit, [], []⟩ where
  lookups := lookups_init
  tables := tablesKept_init
  indexes := {
    byId := fun indexId index found => absurd found (by simp [catalogInit, registerTable])
    onTables := fun indexId index found => absurd found (by simp [catalogInit, registerTable])
    names := fun first second one other found => absurd found (by simp [catalogInit, registerTable])
    created := fun indexId index found => absurd found (by simp [catalogInit, registerTable])
    distinct := List.nodup_nil
    below := fun indexId member => absurd member List.not_mem_nil }

section Calls

variable {cat : CatalogT} (sound : CatalogSound history)

include sound

theorem CatalogSound.createTable {name : CString} {schema : BuiltSchema} {tableId : Option TableId}
    (called : catalogCreateTable history.cat name schema.1 = .ok (cat, tableId)) :
    CatalogSound (history.record cat (.createTable name schema) (.table tableId)) := by
  unfold catalogCreateTable at called
  split at called
  · obtain ⟨rfl, rfl⟩ := Prod.mk.inj (Except.ok.inj called)
    exact sound
  · rename_i newName
    dsimp only at called
    cases following : nextId history.cat.nextTableId with
    | error fault => rw [following] at called; cases called
    | ok next =>
        rw [following] at called
        obtain ⟨rfl, rfl⟩ := Prod.mk.inj (Except.ok.inj called)
        refine ⟨?_, sound.tables.create following, sound.indexes.shrink (fun indexId index found => ?_) rfl⟩
        · exact @lookups_registerTable { history.cat with nextTableId := next } sound.lookups _ _ _
            (sound.tables.fresh (Int32.le_refl _)) newName
        · refine ⟨found, ?_⟩
          dsimp only [registerTable, CatalogT.table?]
          rw [get_put_id]
          split
          · exact Option.some_ne_none _
          · exact sound.indexes.onTables indexId index found

theorem CatalogSound.dropTable (name : CString) (rc : ErrorCode) :
    CatalogSound (history.record (catalogDropTable history.cat name).1 (.dropTable name) (.code rc)) := by
  unfold catalogDropTable
  split
  · exact sound
  · rename_i tableId known
    refine ⟨sound.lookups.remove known, sound.tables.drop tableId name _,
      sound.indexes.shrink (fun indexId index found => ?_) rfl⟩
    dsimp only at found
    rw [get_dropped] at found
    split at found
    · cases found
    · rename_i stays
      refine ⟨found, ?_⟩
      dsimp only [CatalogT.table?]
      rw [get_remove_id, if_neg]
      · exact sound.indexes.onTables indexId index found
      · intro here
        refine stays ⟨(indexId, index), List.mem_filter.mpr ⟨mem_entries_id.mpr found, ?_⟩,
          sound.indexes.byId indexId index found⟩
        exact decide_eq_true here

theorem CatalogSound.createIndex {name : CString} {tableId : TableId} {colId : ColumnId}
    {rootPageId : PageId} {unique : Bool} {indexId : Option IndexId}
    (onTable : history.cat.table? tableId ≠ none)
    (called : catalogCreateIndex history.cat name tableId colId rootPageId unique =
      .ok (cat, indexId)) :
    CatalogSound (history.record cat (.createIndex name tableId colId rootPageId unique)
      (.index indexId)) := by
  unfold catalogCreateIndex at called
  split at called
  · obtain ⟨rfl, rfl⟩ := Prod.mk.inj (Except.ok.inj called)
    exact sound
  · rename_i newName
    dsimp only at called
    cases following : nextId history.cat.nextIndexId with
    | error fault => rw [following] at called; cases called
    | ok next =>
        rw [following] at called
        obtain ⟨rfl, rfl⟩ := Prod.mk.inj (Except.ok.inj called)
        refine ⟨sound.lookups, ⟨sound.tables.created, sound.tables.schemas, sound.tables.distinct,
          sound.tables.below⟩, sound.indexes.create onTable (fun indexId index found same => ?_)
            following⟩
        refine newName (List.any_eq_true.mpr ⟨(indexId, index), mem_entries_id.mpr found, ?_⟩)
        exact decide_eq_true same

theorem CatalogSound.dropIndex (name : CString) (rc : ErrorCode) :
    CatalogSound (history.record (catalogDropIndex history.cat name).1 (.dropIndex name) (.code rc)) := by
  unfold catalogDropIndex
  split
  · exact sound
  · refine ⟨sound.lookups, ⟨sound.tables.created, sound.tables.schemas, sound.tables.distinct,
      sound.tables.below⟩, sound.indexes.shrink (fun indexId index found => ?_) rfl⟩
    have before := get_of_get_remove found
    exact ⟨before, sound.indexes.onTables indexId index before⟩

theorem CatalogSound.updateRootPage (tableId : TableId) (rootPageId : PageId) (rc : ErrorCode) :
    CatalogSound (history.record (catalogUpdateRootPage history.cat tableId rootPageId).1
      (.updateRootPage tableId rootPageId) (.code rc)) := by
  unfold catalogUpdateRootPage
  split
  · exact sound
  · rename_i tableMeta known
    refine ⟨sound.lookups.update known rfl rfl, sound.tables.update known rfl rfl,
      sound.indexes.shrink (fun indexId index found => ⟨found, ?_⟩) rfl⟩
    dsimp only [CatalogT.table?]
    rw [get_put_id]
    split
    · exact Option.some_ne_none _
    · exact sound.indexes.onTables indexId index found

theorem CatalogSound.call {op : CatalogOp} {reply : CatalogReply} (onTable : op.OnTable history.cat)
    (called : catalogCall history.cat op = .ok (cat, reply)) :
    CatalogSound (history.record cat op reply) := by
  cases op with
  | createTable name schema =>
      rw [catalogCall] at called
      cases created : catalogCreateTable history.cat name schema.1 with
      | error fault => rw [created] at called; cases called
      | ok outcome =>
          rw [created] at called
          obtain ⟨rfl, rfl⟩ := Prod.mk.inj (Except.ok.inj called)
          exact sound.createTable created
  | createIndex name tableId colId rootPageId unique =>
      rw [catalogCall] at called
      cases created : catalogCreateIndex history.cat name tableId colId rootPageId unique with
      | error fault => rw [created] at called; cases called
      | ok outcome =>
          rw [created] at called
          obtain ⟨rfl, rfl⟩ := Prod.mk.inj (Except.ok.inj called)
          exact sound.createIndex onTable created
  | dropTable name =>
      obtain ⟨rfl, rfl⟩ := Prod.mk.inj (Except.ok.inj called)
      exact sound.dropTable name _
  | dropIndex name =>
      obtain ⟨rfl, rfl⟩ := Prod.mk.inj (Except.ok.inj called)
      exact sound.dropIndex name _
  | updateRootPage tableId rootPageId =>
      obtain ⟨rfl, rfl⟩ := Prod.mk.inj (Except.ok.inj called)
      exact sound.updateRootPage tableId rootPageId _

end Calls

theorem CatalogReached.sound (reached : CatalogReached history) : CatalogSound history := by
  induction reached with
  | init => exact catalogSound_init
  | call _ onTable called ih => exact ih.call onTable called

/-! ## Correctness -/

/-- What is looked up and listed in a catalog is what was created in it and not dropped. -/
structure CatalogCorrect (history : CatalogHistory) : Prop where
  byName : ∀ name tableId, history.cat.nameToId.hashmapGet name = some tableId ↔
    ∃ tableMeta, history.cat.table? tableId = some tableMeta ∧ tableMeta.tableName = name
  byId : ∀ tableId tableMeta, history.cat.table? tableId = some tableMeta →
    tableMeta.tableId = tableId
  getTable : ∀ name tableMeta, catalogGetTable history.cat name = .ok tableMeta ↔
    history.cat.table? tableMeta.tableId = some tableMeta ∧ tableMeta.tableName = name
  schema : ∀ tableId tableMeta, history.cat.table? tableId = some tableMeta →
    tableMeta.tableType = .user → ∃ table ∈ history.tables, table.tableId = tableId ∧
      table.tableName = tableMeta.tableName ∧
      catalogGetSchema history.cat tableId = .ok table.schema.1
  schemaLive : ∀ tableId schema, history.cat.schemaCache.hashmapGet tableId = some schema →
    ∃ tableMeta, history.cat.table? tableId = some tableMeta ∧ tableMeta.tableType = .user
  indexNames : ∀ first second one other, history.cat.indexCache.hashmapGet first = some one →
    history.cat.indexCache.hashmapGet second = some other → one.indexName = other.indexName →
      first = second
  indexLive : ∀ indexId index, history.cat.indexCache.hashmapGet indexId = some index →
    index.indexId = indexId ∧ indexId ∈ history.indexIds ∧ history.cat.table? index.tableId ≠ none
  tableIds : (history.tables.map CreatedTable.tableId ++ systemIds).Nodup
  indexIds : history.indexIds.Nodup
  listed : (catalogListTables history.cat).Nodup ∧ ∀ name, name ∈ catalogListTables history.cat ↔
    ∃ tableId tableMeta, history.cat.table? tableId = some tableMeta ∧
      tableMeta.tableType = .user ∧ tableMeta.tableName = name
  tableIndexes : ∀ tableId, (catalogGetTableIndexes history.cat tableId).Nodup ∧
    ∀ index, index ∈ catalogGetTableIndexes history.cat tableId ↔
      history.cat.indexCache.hashmapGet index.indexId = some index ∧ index.tableId = tableId
  failed : ∀ op cat reply, catalogCall history.cat op = .ok (cat, reply) → reply.Failed →
    cat = history.cat

/-- The values of a map are different if they tell their keys. -/
theorem values_nodup {V K : Type} (map : Hashmap idKeys V) (tell : V → K)
    (injective : ∀ first second one other, map.hashmapGet first = some one →
      map.hashmapGet second = some other → tell one = tell other → first = second) :
    ((map.entries.map Prod.snd).map tell).Nodup := by
  rw [List.map_map, List.nodup_iff_pairwise_ne, List.pairwise_map]
  refine map.entries_pairwise.imp_of_mem ?_
  intro one other here there differ same
  have equal := injective one.1 other.1 one.2 other.2 (mem_entries_id.mp here)
    (mem_entries_id.mp there) same
  rw [equal, HashKey.refl] at differ
  cases differ

theorem catalogCreateTable_failed {before cat : CatalogT} {name : CString} {schema : Schema}
    (called : catalogCreateTable before name schema = .ok (cat, none)) : cat = before := by
  unfold catalogCreateTable at called
  split at called
  · exact (Prod.mk.inj (Except.ok.inj called)).1.symm
  · dsimp only at called
    cases following : nextId before.nextTableId <;> rw [following] at called <;> cases called

theorem catalogCreateIndex_failed {before cat : CatalogT} {name : CString} {tableId : TableId}
    {colId : ColumnId} {rootPageId : PageId} {unique : Bool}
    (called : catalogCreateIndex before name tableId colId rootPageId unique = .ok (cat, none)) :
    cat = before := by
  unfold catalogCreateIndex at called
  split at called
  · exact (Prod.mk.inj (Except.ok.inj called)).1.symm
  · dsimp only at called
    cases following : nextId before.nextIndexId <;> rw [following] at called <;> cases called

theorem catalogDropTable_failed (cat : CatalogT) (name : CString) :
    (catalogDropTable cat name).2 ≠ .ok → (catalogDropTable cat name).1 = cat := by
  unfold catalogDropTable
  split
  · intro _
    rfl
  · intro failed
    exact absurd rfl failed

theorem catalogDropIndex_failed (cat : CatalogT) (name : CString) :
    (catalogDropIndex cat name).2 ≠ .ok → (catalogDropIndex cat name).1 = cat := by
  unfold catalogDropIndex
  split
  · intro _
    rfl
  · intro failed
    exact absurd rfl failed

theorem catalogUpdateRootPage_failed (cat : CatalogT) (tableId : TableId) (rootPageId : PageId) :
    (catalogUpdateRootPage cat tableId rootPageId).2 ≠ .ok →
      (catalogUpdateRootPage cat tableId rootPageId).1 = cat := by
  unfold catalogUpdateRootPage
  split
  · intro _
    rfl
  · intro failed
    exact absurd rfl failed

/-- A call that fails changes nothing. -/
theorem catalogCall_failed {before cat : CatalogT} {op : CatalogOp} {reply : CatalogReply}
    (called : catalogCall before op = .ok (cat, reply)) (failed : reply.Failed) : cat = before := by
  cases op with
  | createTable name schema =>
      rw [catalogCall] at called
      cases created : catalogCreateTable before name schema.1 with
      | error fault => rw [created] at called; cases called
      | ok outcome =>
          rw [created] at called
          obtain ⟨rfl, rfl⟩ := Prod.mk.inj (Except.ok.inj called)
          obtain ⟨after, tableId⟩ := outcome
          obtain rfl : tableId = none := failed
          exact catalogCreateTable_failed created
  | createIndex name tableId colId rootPageId unique =>
      rw [catalogCall] at called
      cases created : catalogCreateIndex before name tableId colId rootPageId unique with
      | error fault => rw [created] at called; cases called
      | ok outcome =>
          rw [created] at called
          obtain ⟨rfl, rfl⟩ := Prod.mk.inj (Except.ok.inj called)
          obtain ⟨after, indexId⟩ := outcome
          obtain rfl : indexId = none := failed
          exact catalogCreateIndex_failed created
  | dropTable name =>
      obtain ⟨rfl, rfl⟩ := Prod.mk.inj (Except.ok.inj called)
      exact catalogDropTable_failed before name failed
  | dropIndex name =>
      obtain ⟨rfl, rfl⟩ := Prod.mk.inj (Except.ok.inj called)
      exact catalogDropIndex_failed before name failed
  | updateRootPage tableId rootPageId =>
      obtain ⟨rfl, rfl⟩ := Prod.mk.inj (Except.ok.inj called)
      exact catalogUpdateRootPage_failed before tableId rootPageId failed

/-! ## What a catalog answers -/

section Answers

variable (sound : CatalogSound history)

include sound

theorem CatalogSound.catalogGetTable_iff (name : CString) (tableMeta : TableMeta) :
    catalogGetTable history.cat name = .ok tableMeta ↔
      history.cat.table? tableMeta.tableId = some tableMeta ∧ tableMeta.tableName = name := by
  unfold catalogGetTable
  constructor
  · intro found
    split at found
    · cases found
    · rename_i tableId known
      obtain ⟨there, look, named⟩ := (sound.lookups.byName _ _).mp known
      rw [look] at found
      obtain rfl := Except.ok.inj found
      exact ⟨by rw [sound.lookups.byId _ _ look]; exact look, named⟩
  · rintro ⟨look, named⟩
    rw [(sound.lookups.byName name tableMeta.tableId).mpr ⟨tableMeta, look, named⟩]
    dsimp only [CatalogT.table?] at look ⊢
    rw [look]

/-- Two tables of one name are one. -/
theorem CatalogSound.tableName_inj {first second : TableId} {one other : TableMeta}
    (here : history.cat.table? first = some one) (there : history.cat.table? second = some other)
    (same : one.tableName = other.tableName) : first = second := by
  have byName := (sound.lookups.byName one.tableName first).mpr ⟨one, here, rfl⟩
  rw [(sound.lookups.byName one.tableName second).mpr ⟨other, there, same.symm⟩] at byName
  exact (Option.some.inj byName).symm

theorem CatalogSound.catalogListTables_nodup : (catalogListTables history.cat).Nodup := by
  have names := values_nodup history.cat.tableCache TableMeta.tableName
    fun _ _ _ _ here there same => sound.tableName_inj here there same
  exact names.sublist (List.filter_sublist.map _)

omit sound in
theorem mem_catalogListTables {cat : CatalogT} {name : CString} :
    name ∈ catalogListTables cat ↔ ∃ tableId tableMeta, cat.table? tableId = some tableMeta ∧
      tableMeta.tableType = .user ∧ tableMeta.tableName = name := by
  unfold catalogListTables
  constructor
  · intro listed
    obtain ⟨tableMeta, kept, named⟩ := List.mem_map.mp listed
    obtain ⟨among, user⟩ := List.mem_filter.mp kept
    obtain ⟨⟨tableId, _⟩, entry, rfl⟩ := List.mem_map.mp among
    exact ⟨tableId, _, mem_entries_id.mp entry, of_decide_eq_true user, named⟩
  · rintro ⟨tableId, tableMeta, found, user, named⟩
    refine List.mem_map.mpr ⟨tableMeta, List.mem_filter.mpr ⟨?_, decide_eq_true user⟩, named⟩
    exact List.mem_map.mpr ⟨(tableId, tableMeta), mem_entries_id.mpr found, rfl⟩

theorem CatalogSound.catalogGetTableIndexes_nodup (tableId : TableId) :
    (catalogGetTableIndexes history.cat tableId).Nodup := by
  have ids := values_nodup history.cat.indexCache IndexMeta.indexId
    fun first second one other here there same => by
      rw [← sound.indexes.byId _ _ here, ← sound.indexes.byId _ _ there, same]
  exact ids.of_map.filter _

theorem CatalogSound.mem_catalogGetTableIndexes {tableId : TableId} {index : IndexMeta} :
    index ∈ catalogGetTableIndexes history.cat tableId ↔
      history.cat.indexCache.hashmapGet index.indexId = some index ∧ index.tableId = tableId := by
  rw [Catalog.mem_catalogGetTableIndexes]
  refine and_congr_left fun _ => ⟨?_, fun found => ⟨_, found⟩⟩
  rintro ⟨indexId, found⟩
  rw [sound.indexes.byId _ _ found]
  exact found

theorem CatalogSound.catalogGetSchema_user {tableId : TableId} {tableMeta : TableMeta}
    (found : history.cat.table? tableId = some tableMeta) (user : tableMeta.tableType = .user) :
    ∃ table ∈ history.tables, table.tableId = tableId ∧ table.tableName = tableMeta.tableName ∧
      catalogGetSchema history.cat tableId = .ok table.schema.1 := by
  rcases sound.tables.created _ _ found with ⟨-, table, among, sameId, sameName, cached⟩ | ⟨system, -⟩
  · refine ⟨table, among, sameId, sameName, ?_⟩
    unfold catalogGetSchema
    rw [cached]
    exact table.schema.2
  · rw [user] at system
    cases system

end Answers

theorem catalog_correct (reached : CatalogReached history) : CatalogCorrect history := by
  have sound := reached.sound
  exact {
    byName := sound.lookups.byName
    byId := sound.lookups.byId
    getTable := sound.catalogGetTable_iff
    schema := fun _ _ => sound.catalogGetSchema_user
    schemaLive := sound.tables.schemas
    indexNames := sound.indexes.names
    indexLive := fun indexId index found => ⟨sound.indexes.byId _ _ found,
      sound.indexes.created _ _ found, sound.indexes.onTables _ _ found⟩
    tableIds := sound.tables.distinct
    indexIds := sound.indexes.distinct
    listed := ⟨sound.catalogListTables_nodup, fun _ => mem_catalogListTables⟩
    tableIndexes := fun tableId => ⟨sound.catalogGetTableIndexes_nodup tableId,
      fun _ => sound.mem_catalogGetTableIndexes⟩
    failed := fun _ _ _ => catalogCall_failed }

/-- A schema with one column. -/
def oneColumn : BuiltSchema := ⟨schemaBuild [⟨.ofChars ['a'], .integer, true, 0, 0⟩], rfl⟩

/-- A table is created. -/
theorem catalog_correct_created : ∃ history, history.tables.length = 1 ∧
    CatalogReached history ∧ CatalogCorrect history := by
  have created : (catalogCall catalogInit (.createTable (.ofChars ['t']) oneColumn)).map Prod.snd =
      .ok (.table (some 3)) := by
    decide +kernel
  cases called : catalogCall catalogInit (.createTable (.ofChars ['t']) oneColumn) with
  | error fault => rw [called] at created; cases created
  | ok outcome =>
      rw [called] at created
      obtain ⟨cat, reply⟩ := outcome
      obtain rfl : reply = .table (some 3) := Except.ok.inj created
      have reached := CatalogReached.call .init (by exact trivial) called
      exact ⟨_, rfl, reached, catalog_correct reached⟩

end MiniSqlite.Catalog
