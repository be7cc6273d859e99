import MiniSqlite.Buffer.LruReplacer
import MiniSqlite.Common.Config
import MiniSqlite.Common.Hashmap
import MiniSqlite.Storage.Schema

/-!
# The system catalog

`catalog/catalog.c` with `catalog/id_generator.c`: tables, their schemas and their
indexes in four hash maps, kept in memory only. Names are C strings that fit the arrays
they are copied to. The pages reserved for the system tables, which nothing reads, are
left out.
-/

namespace MiniSqlite.Catalog

open MiniSqlite.Common MiniSqlite.Buffer MiniSqlite.Storage

/-- `table_id_t`. -/
abbrev TableId := Int32

/-- `column_id_t`. -/
abbrev ColumnId := Int32

/-- `index_id_t`. -/
abbrev IndexId := Int32

/-- `INVALID_TABLE_ID`. -/
def invalidTableId : TableId := -1

/-- `table_type`. -/
inductive TableType where
  | user
  | system
  deriving DecidableEq

/-- `table_meta_t`. -/
structure TableMeta where
  tableId : TableId
  tableName : CString
  rootPageId : PageId
  tableType : TableType
  deriving DecidableEq

/-- `index_meta_t`. -/
structure IndexMeta where
  indexId : IndexId
  indexName : CString
  tableId : TableId
  columnId : ColumnId
  rootPageId : PageId
  isUnique : Bool
  deriving DecidableEq

/-- `int_hash_fn` and `int_equal_fn` on identifiers widened to `uintptr_t`. -/
def idKeys : HashKey Int32 := .ofEq fun id => intHash id.toInt64.toUInt64

/-- `str_hash_fn`. -/
def strHashFn (key : CString) : Nat :=
  (key.chars.foldl (fun (h : UInt64) char => ((h <<< 5) + h) + char.toUInt64) 5381).toNat

/-- `str_hash_fn` and `str_equal_fn`. -/
def nameKeys : HashKey CString := .ofEq strHashFn

/-- `catalog_t` with its `id_generator_t`. -/
structure CatalogT where
  nextTableId : TableId
  nextIndexId : IndexId
  tableCache : Hashmap idKeys TableMeta
  nameToId : Hashmap nameKeys TableId
  schemaCache : Hashmap idKeys Schema
  indexCache : Hashmap idKeys IndexMeta

/-- `next_table_id++` and `next_index_id++`. -/
def nextId (id : Int32) : Except Fault Int32 :=
  if id + 1 < id then .error .overflow else .ok (id + 1)

/-- The table caches with a table added: the common part of `register_system_table` and
`catalog_create_table`. -/
def registerTable (cat : CatalogT) (name : CString) (tableId : TableId) (tableType : TableType) :
    CatalogT :=
  { cat with
    tableCache := cat.tableCache.hashmapPut tableId ⟨tableId, name, invalidPageId, tableType⟩
    nameToId := cat.nameToId.hashmapPut name tableId }

/-- `catalog_init`. -/
def catalogInit : CatalogT :=
  let empty : CatalogT := {
    nextTableId := 3
    nextIndexId := 1
    tableCache := Hashmap.hashmapInit idKeys _ 64
    nameToId := Hashmap.hashmapInit nameKeys _ 64
    schemaCache := Hashmap.hashmapInit idKeys _ 64
    indexCache := Hashmap.hashmapInit idKeys _ 64 }
  let cat := registerTable empty
    (.ofChars ['_', '_', 't', 'a', 'b', 'l', 'e', 's']) 0 .system
  let cat := registerTable cat
    (.ofChars ['_', '_', 'c', 'o', 'l', 'u', 'm', 'n', 's']) 1 .system
  registerTable cat (.ofChars ['_', '_', 'i', 'n', 'd', 'e', 'x', 'e', 's']) 2 .system

/-- `catalog_create_table`, with `none` for `INVALID_TABLE_ID`. -/
def catalogCreateTable (cat : CatalogT) (name : CString) (schema : Schema) :
    Except Fault (CatalogT × Option TableId) :=
  match cat.nameToId.hashmapGet name with
  | some _ => .ok (cat, none)
  | none => do
      let tableId := cat.nextTableId
      let next ← nextId tableId
      let cat := registerTable { cat with nextTableId := next } name tableId .user
      return ({ cat with schemaCache := cat.schemaCache.hashmapPut tableId schema }, some tableId)

/-- `catalog_get_table`. -/
def catalogGetTable (cat : CatalogT) (name : CString) : Except ErrorCode TableMeta :=
  match cat.nameToId.hashmapGet name with
  | none => .error .unknownTable
  | some tableId =>
      match cat.tableCache.hashmapGet tableId with
      | none => .error .unknownTable
      | some tableMeta => .ok tableMeta

/-- `catalog_drop_table`. -/
def catalogDropTable (cat : CatalogT) (name : CString) : CatalogT × ErrorCode :=
  match cat.nameToId.hashmapGet name with
  | none => (cat, .unknownTable)
  | some tableId =>
      let indexesToDrop := cat.indexCache.entries.filter fun entry => entry.2.tableId = tableId
      ({ cat with
          indexCache := indexesToDrop.foldl
            (fun indexes entry => indexes.hashmapRemove entry.2.indexId) cat.indexCache
          tableCache := cat.tableCache.hashmapRemove tableId
          nameToId := cat.nameToId.hashmapRemove name
          schemaCache := cat.schemaCache.hashmapRemove tableId }, .ok)

/-- `catalog_update_root_page`. -/
def catalogUpdateRootPage (cat : CatalogT) (tableId : TableId) (rootPageId : PageId) :
    CatalogT × ErrorCode :=
  match cat.tableCache.hashmapGet tableId with
  | none => (cat, .unknownTable)
  | some tableMeta =>
      ({ cat with
          tableCache := cat.tableCache.hashmapPut tableId
            { tableMeta with rootPageId := rootPageId } }, .ok)

/-- `catalog_get_schema`. -/
def catalogGetSchema (cat : CatalogT) (tableId : TableId) : Except ErrorCode Schema :=
  match cat.schemaCache.hashmapGet tableId with
  | none => .error .unknownTable
  | some cached => schemaCreate cached.columns

/-- `catalog_list_tables`. -/
def catalogListTables (cat : CatalogT) : List CString :=
  ((cat.tableCache.entries.map Prod.snd).filter fun tableMeta => tableMeta.tableType = .user).map
    TableMeta.tableName

/-- `catalog_create_index`, with `none` for `INVALID_INDEX_ID`. -/
def catalogCreateIndex (cat : CatalogT) (name : CString) (tableId : TableId) (colId : ColumnId)
    (rootPageId : PageId) (unique : Bool) : Except Fault (CatalogT × Option IndexId) :=
  if cat.indexCache.entries.any fun entry => entry.2.indexName = name then .ok (cat, none)
  else do
    let indexId := cat.nextIndexId
    let next ← nextId indexId
    return ({ cat with
      nextIndexId := next
      indexCache := cat.indexCache.hashmapPut indexId
        ⟨indexId, name, tableId, colId, rootPageId, unique⟩ }, some indexId)

/-- `catalog_get_table_indexes`. -/
def catalogGetTableIndexes (cat : CatalogT) (tableId : TableId) : List IndexMeta :=
  (cat.indexCache.entries.map Prod.snd).filter fun index => index.tableId = tableId

/-- `catalog_drop_index`. -/
def catalogDropIndex (cat : CatalogT) (name : CString) : CatalogT × ErrorCode :=
  match cat.indexCache.entries.find? fun entry => entry.2.indexName = name with
  | none => (cat, .unknownTable)
  | some entry =>
      ({ cat with indexCache := cat.indexCache.hashmapRemove entry.2.indexId }, .ok)

/-! ## Ids and names as keys -/

section Keys

variable {V : Type}

theorem get_put_id (map : Hashmap idKeys V) (id : Int32) (value : V) (other : Int32) :
    (map.hashmapPut id value).hashmapGet other =
      if other = id then some value else map.hashmapGet other :=
  Hashmap.hashmapGet_put_eq map id value other

theorem get_remove_id (map : Hashmap idKeys V) (id other : Int32) :
    (map.hashmapRemove id).hashmapGet other = if other = id then none else map.hashmapGet other :=
  Hashmap.hashmapGet_remove_eq map id other

theorem get_put_name (map : Hashmap nameKeys V) (name : CString) (value : V) (other : CString) :
    (map.hashmapPut name value).hashmapGet other =
      if other = name then some value else map.hashmapGet other :=
  Hashmap.hashmapGet_put_eq map name value other

theorem get_remove_name (map : Hashmap nameKeys V) (name other : CString) :
    (map.hashmapRemove name).hashmapGet other =
      if other = name then none else map.hashmapGet other :=
  Hashmap.hashmapGet_remove_eq map name other

theorem mem_entries_id {map : Hashmap idKeys V} {entry : Int32 × V} :
    entry ∈ map.entries ↔ map.hashmapGet entry.1 = some entry.2 :=
  Hashmap.mem_entries_eq

theorem mem_catalogGetTableIndexes {cat : CatalogT} {tableId : TableId} {index : IndexMeta} :
    index ∈ catalogGetTableIndexes cat tableId ↔
      (∃ indexId, cat.indexCache.hashmapGet indexId = some index) ∧ index.tableId = tableId := by
  unfold catalogGetTableIndexes
  rw [List.mem_filter, decide_eq_true_iff]
  refine and_congr_left fun _ => ?_
  constructor
  · intro among
    obtain ⟨⟨indexId, _⟩, entry, rfl⟩ := List.mem_map.mp among
    exact ⟨indexId, mem_entries_id.mp entry⟩
  · rintro ⟨indexId, found⟩
    exact List.mem_map.mpr ⟨(indexId, index), mem_entries_id.mpr found, rfl⟩

/-- What is left after a removal was there before. -/
theorem get_of_get_remove {map : Hashmap idKeys V} {id other : Int32} {value : V}
    (found : (map.hashmapRemove id).hashmapGet other = some value) :
    map.hashmapGet other = some value := by
  rw [get_remove_id] at found
  split at found
  · exact absurd found (by simp)
  · exact found

end Keys

theorem lt_of_nextId {id next : Int32} (following : nextId id = .ok next) : id < next := by
  unfold nextId at following
  split at following
  · cases following
  · rename_i grown
    obtain rfl := Except.ok.inj following
    rw [Int32.lt_iff_toInt_lt] at grown ⊢
    have differ : (id + 1).toInt ≠ id.toInt := by
      intro same
      have absurdity : id + 1 = id := Int32.toInt_inj.mp same
      grind
    omega

end MiniSqlite.Catalog
