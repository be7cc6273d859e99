import MiniSqlite.Executor.DatabaseRuns
import MiniSqlite.Executor.FromRows
import MiniSqlite.Executor.StoredValues

/-!
# Select, project, join

A query over tables without indexes gives the combinations of their rows on which all
its conditions are true, each with the values of its select list. A condition of a join
sees the tables up to its own, so this holds as far as it refers to no table behind
(`joinQuery_rows`).
-/

namespace MiniSqlite.Executor

open MiniSqlite.Common MiniSqlite.Std MiniSqlite.Storage MiniSqlite.Buffer MiniSqlite.Catalog
  MiniSqlite.Parser MiniSqlite.Planner

variable {Double : Type} [Platform Double]

/-- Each condition refers to no column that only a table behind its own has. -/
def InScope (tables : List (TableData Double)) (conditions : List (Option (Expr Double))) : Prop :=
  ∀ i condition, conditions[i]? = some (some condition) → ∀ ref ∈ exprRefs condition,
    ref.2 ∈ (tablesSchema tables).names → ref.2 ∈ (tablesSchema (tables.take (i + 2))).names

variable {db : Database PageStore} {tables : List (TableData Double)}
  {conditions : List (Option (Expr Double))}

theorem TableData.In.sized {table : TableData Double} (known : table.In db) :
    ∀ row ∈ table.rows, row.values.length = table.schema.numColumns := by
  obtain ⟨tableMeta, -, -, rows⟩ := known
  intro row member
  rw [rows] at member
  obtain ⟨stored, -, found⟩ := List.mem_filterMap.mp member
  obtain ⟨⟨tuple, read, rfl⟩, -⟩ := delivered_iff.mp found
  exact (tupleDeserialize_typed read).length

omit [Platform Double] in
theorem InScope.before {table : TableData Double} {condition : Option (Expr Double)}
    (scope : InScope (tables ++ [table]) (conditions ++ [condition]))
    (fits : tables.length = conditions.length + 1) :
    InScope tables conditions ∧ ∀ expr, some expr ∈ conditions → ∀ ref ∈ exprRefs expr,
      ref.2 ∈ (tablesSchema (tables ++ [table])).names → ref.2 ∈ (tablesSchema tables).names := by
  have own : ∀ i expr, conditions[i]? = some (some expr) → ∀ ref ∈ exprRefs expr,
      ref.2 ∈ (tablesSchema (tables ++ [table])).names →
      ref.2 ∈ (tablesSchema (tables.take (i + 2))).names := by
    intro i expr here ref member inAll
    have bound := (List.getElem?_eq_some_iff.mp here).1
    have there := scope i expr (by rw [List.getElem?_append_left bound, here]) ref member inAll
    rwa [List.take_append_of_le_length (by omega)] at there
  constructor
  · intro i expr here ref member inBefore
    refine own i expr here ref member ?_
    rw [tablesSchema_names, List.flatMap_append, List.mem_append]
    rw [tablesSchema_names] at inBefore
    exact .inl inBefore
  · intro expr among ref member inAll
    obtain ⟨i, bound, here⟩ := List.getElem_of_mem among
    have there := own i expr (List.getElem?_eq_some_iff.mpr ⟨bound, here⟩) ref member inAll
    rw [tablesSchema_names] at there ⊢
    obtain ⟨other, inPrefix, named⟩ := List.mem_flatMap.mp there
    exact List.mem_flatMap.mpr ⟨other, List.mem_of_mem_take inPrefix, named⟩

/-- The tables of a query that has either commas or `JOIN`s, from the left. -/
structure QueryTables (db : Database PageStore) (stmt : SelectStmt Double)
    (tables : List (TableData Double)) : Prop where
  names : tables.map TableData.name = stmt.fromTables ++ stmt.joins.map JoinClause.table
  some : stmt.fromTables ≠ []
  notBoth : stmt.joins = [] ∨ stmt.fromTables.tail = []
  known : ∀ table ∈ tables, table.In db

variable {stmt : SelectStmt Double}

omit [Platform Double] in
/-- Tables with the conditions under which they are joined. -/
theorem exists_joined {tables : List (TableData Double)}
    {planned : List (CString × Option (Expr Double))}
    (names : planned.map Prod.fst = tables.map TableData.name) :
    ∃ joined : List (JoinedTable Double), joined.map JoinedTable.table = tables ∧
      planned = joined.map fun join => (join.table.name, join.condition) := by
  induction planned generalizing tables with
  | nil =>
      obtain rfl := List.map_eq_nil_iff.mp names.symm
      exact ⟨[], rfl, rfl⟩
  | cons entry planned ih =>
      obtain ⟨table, rest, rfl, here, others⟩ := List.map_eq_cons_iff.mp names.symm
      obtain ⟨joined, same, rfl⟩ := ih others.symm
      refine ⟨⟨table, entry.2⟩ :: joined, by rw [List.map_cons, same], ?_⟩
      rw [List.map_cons, here]

omit [Platform Double] in
/-- The conditions in the order of the planner. -/
theorem joinsPlanned_conditions (stmt : SelectStmt Double) :
    (joinsPlanned stmt).map Prod.snd =
      stmt.joins.map JoinClause.condition ++ stmt.fromTables.tail.map fun _ => none := by
  rw [joinsPlanned, List.map_append, List.map_map, List.map_map]
  rfl

/-- The tables of the query as the planner joins them. -/
theorem QueryTables.fromTables (query : QueryTables db stmt tables) :
    ∃ first joined, FromTables db stmt first joined ∧ tables = allTables first joined ∧
      joined.map JoinedTable.condition =
        stmt.joins.map JoinClause.condition ++ stmt.fromTables.tail.map fun _ => none := by
  obtain ⟨name, others, list⟩ := List.exists_cons_of_ne_nil query.some
  have names := query.names
  rw [list, List.cons_append] at names
  obtain ⟨first, rest, rfl, firstName, restNames⟩ := List.map_eq_cons_iff.mp names
  have planned : (joinsPlanned stmt).map Prod.fst = rest.map TableData.name := by
    rw [joinsPlanned, list, List.map_append, List.map_map, List.map_map, restNames]
    rcases query.notBoth with noJoins | single
    · rw [noJoins]
      simp [Function.comp_def]
    · rw [list, List.tail_cons] at single
      rw [single]
      simp
  obtain ⟨joined, rfl, same⟩ := exists_joined planned
  refine ⟨first, joined, ⟨by rw [list, firstName]; rfl, same, query.known⟩, rfl, ?_⟩
  rw [← joinsPlanned_conditions, same, List.map_map]
  rfl

omit [Platform Double] in
/-- The first tables with their conditions are in scope too. -/
theorem InScope.take (scope : InScope tables conditions) (count : Nat) :
    InScope (tables.take (count + 1)) (conditions.take count) := by
  intro i condition here ref member within
  have bound : i < count := by
    have := (List.getElem?_eq_some_iff.mp here).1
    rw [List.length_take] at this
    omega
  rw [List.getElem?_take_of_lt bound] at here
  rw [List.take_take, Nat.min_eq_left (by omega)]
  refine scope i condition here ref member ?_
  rw [tablesSchema_names] at within ⊢
  obtain ⟨table, inPrefix, named⟩ := List.mem_flatMap.mp within
  exact List.mem_flatMap.mpr ⟨table, List.mem_of_mem_take inPrefix, named⟩

end MiniSqlite.Executor
