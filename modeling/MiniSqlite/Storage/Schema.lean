import MiniSqlite.Storage.Value

/-!
# Schemas

`storage/schema.c`: column definitions with the offsets and sizes computed from
them. Indices among the variable-length columns, which nothing reads, are left
out.
-/

namespace MiniSqlite.Storage

open MiniSqlite.Common

/-- `column_def_t`. -/
structure ColumnDef where
  name : CString
  type : TypeId
  nullable : Bool
  maxLength : UInt32
  fixedOffset : Nat := 0
  deriving DecidableEq

/-- `schema_t`. -/
structure Schema where
  columns : List ColumnDef
  fixedSize : Nat
  nullBitmapSize : Nat
  deriving DecidableEq

/-- `schema->num_columns`. -/
abbrev Schema.numColumns (schema : Schema) : Nat := schema.columns.length

/-- `schema_column_fixed_size`. -/
def schemaColumnFixedSize : TypeId → Nat
  | .integer => 8
  | .float => 8
  | .boolean => 1
  | .null => 0
  | .varchar => 0

/-- The loop of `schema_build`: the columns with their offsets, and the fixed size. -/
def placeColumns (fixedOffset : Nat) : List ColumnDef → List ColumnDef × Nat
  | [] => ([], fixedOffset)
  | col :: rest =>
      if col.type = .varchar then
        let (placed, fixedSize) := placeColumns fixedOffset rest
        ({ col with fixedOffset := 0 } :: placed, fixedSize)
      else
        let (placed, fixedSize) := placeColumns (fixedOffset + schemaColumnFixedSize col.type) rest
        ({ col with fixedOffset := fixedOffset } :: placed, fixedSize)

/-- `schema_build`. -/
def schemaBuild (columns : List ColumnDef) : Schema :=
  let (placed, fixedSize) := placeColumns 0 columns
  { columns := placed, fixedSize := fixedSize, nullBitmapSize := (columns.length + 7) / 8 }

/-- `schema_create`. -/
def schemaCreate (columns : List ColumnDef) : Except ErrorCode Schema :=
  if columns = [] then .error .invalidArgument else .ok (schemaBuild columns)

/-- `schema_max_tuple_size`. -/
def schemaMaxTupleSize (schema : Schema) : Nat :=
  schema.columns.foldl
    (fun size col =>
      if col.type = .varchar then (size + col.maxLength.toNat + 4) % 4294967296 else size)
    (schema.nullBitmapSize + schema.fixedSize)

/-- `schema_find_column`, with `none` for `-1`. -/
def schemaFindColumn (schema : Schema) (name : CString) : Option Nat :=
  schema.columns.findIdx? (·.name = name)

/-! ## Schemas of placed columns -/

/-- Columns that are placed already are placed in the same way. -/
theorem placeColumns_again (start : Nat) (columns : List ColumnDef) :
    placeColumns start (placeColumns start columns).1 = placeColumns start columns := by
  induction columns generalizing start with
  | nil => rfl
  | cons col rest ih =>
      rw [placeColumns]
      split
      · rename_i text
        dsimp only
        rw [placeColumns, if_pos text, ih]
      · rename_i fixed
        dsimp only
        rw [placeColumns, if_neg fixed, ih]

theorem placeColumns_length (start : Nat) (columns : List ColumnDef) :
    (placeColumns start columns).1.length = columns.length := by
  induction columns generalizing start with
  | nil => rfl
  | cons col rest ih =>
      rw [placeColumns]
      split
      · exact congrArg Nat.succ (ih start)
      · exact congrArg Nat.succ (ih _)

/-- The columns of a schema make the same schema again. -/
theorem schemaBuild_columns (columns : List ColumnDef) :
    schemaBuild (schemaBuild columns).columns = schemaBuild columns := by
  have again := placeColumns_again 0 columns
  have count := placeColumns_length 0 columns
  unfold schemaBuild
  dsimp only
  rw [again, count]

theorem schemaCreate_columns {columns : List ColumnDef} {schema : Schema}
    (created : schemaCreate columns = .ok schema) :
    schema = schemaBuild columns ∧ schemaCreate schema.columns = .ok schema := by
  unfold schemaCreate at created
  split at created
  · cases created
  · rename_i nonempty
    obtain rfl := Except.ok.inj created
    refine ⟨rfl, ?_⟩
    have some : (schemaBuild columns).columns ≠ [] := by
      intro none
      have count := placeColumns_length 0 columns
      rw [show (placeColumns 0 columns).1 = [] from none] at count
      exact nonempty (List.length_eq_zero_iff.mp count.symm)
    rw [schemaCreate, if_neg some, schemaBuild_columns]

/-! ## The names of the columns -/

/-- The names of the columns in order. -/
def Schema.names (schema : Schema) : List CString := schema.columns.map ColumnDef.name

theorem schemaFindColumn_names (schema : Schema) (name : CString) :
    schemaFindColumn schema name = schema.names.findIdx? (· = name) := by
  rw [schemaFindColumn, Schema.names, List.findIdx?_map]
  rfl

/-- Placing columns keeps their names. -/
theorem placeColumns_names (start : Nat) (columns : List ColumnDef) :
    (placeColumns start columns).1.map ColumnDef.name = columns.map ColumnDef.name := by
  induction columns generalizing start with
  | nil => rfl
  | cons col rest ih =>
      rw [placeColumns]
      split
      · exact congrArg (col.name :: ·) (ih start)
      · exact congrArg (col.name :: ·) (ih _)

theorem schemaBuild_names (columns : List ColumnDef) :
    (schemaBuild columns).names = columns.map ColumnDef.name :=
  placeColumns_names 0 columns

end MiniSqlite.Storage
