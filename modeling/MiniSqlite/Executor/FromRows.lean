import MiniSqlite.Executor.ColumnNames
import MiniSqlite.Executor.SelectTrees

/-!
# The rows of a `FROM` clause

The joins of a `FROM` clause stand on each other, each over one table more. Their rows
are the combinations of rows of the tables that pass the conditions, each condition
evaluated on the rows of the tables up to its own (`fromTree_yields`).
-/

namespace MiniSqlite.Executor

open MiniSqlite.Common MiniSqlite.Std MiniSqlite.Storage MiniSqlite.Buffer MiniSqlite.Catalog
  MiniSqlite.Parser MiniSqlite.Planner

variable {Double : Type}

/-- A table with its rows in the order of its heap. -/
structure TableData (Double : Type) where
  name : CString
  schema : Schema
  rows : List (Tuple Double)

/-- A table that is joined to those before it, with the condition of the join. -/
structure JoinedTable (Double : Type) where
  table : TableData Double
  condition : Option (Expr Double)

/-- The schema of the tables side by side. -/
def tablesSchema (tables : List (TableData Double)) : Schema :=
  schemaBuild (tables.flatMap fun table => table.schema.columns)

/-- The rows of one combination side by side. -/
def joinedTuple (combo : List (Tuple Double)) : Tuple Double :=
  ⟨combo.flatMap Tuple.values, invalidRid⟩

/-- The values of a tuple without its place in a heap. -/
def bare (tuple : Tuple Double) : Tuple Double := ⟨tuple.values, invalidRid⟩

theorem tablesSchema_names (tables : List (TableData Double)) :
    (tablesSchema tables).names = tables.flatMap fun table => table.schema.names := by
  rw [tablesSchema, schemaBuild_names, List.map_flatMap]
  rfl

theorem joinSchema_names (outer inner : Schema) :
    (joinSchema outer inner).names = outer.names ++ inner.names := by
  rw [joinSchema, schemaBuild_names, List.map_append]
  rfl

theorem joinedTuple_concat (combo : List (Tuple Double)) (row : Tuple Double) :
    joinedTuple (combo ++ [row]) = combineTuples (joinedTuple combo) row := by
  rw [joinedTuple, List.flatMap_append, List.flatMap_singleton]
  rfl

variable [Platform Double]

section Alike

variable {tuple other : Tuple Double} {schema schema' : Schema}
  (values : tuple.values = other.values) (names : schema.names = schema'.names)

include values names

theorem valueOf_alike (expr : Expr Double) :
    valueOf (.to schema) tuple expr = valueOf (.to schema') other expr := by
  rw [valueOf, valueOf, exprEvaluate_values values names]

theorem defined_alike (expr : Expr Double) :
    Defined (.to schema) tuple expr ↔ Defined (.to schema') other expr := by
  rw [Defined, Defined, exprEvaluate_values values names]

theorem holds_alike (predicate : Option (Expr Double)) :
    holds (.to schema) predicate tuple = holds (.to schema') predicate other := by
  cases predicate with
  | none => rfl
  | some condition => exact congrArg isTrue (valueOf_alike values names condition)

end Alike

/-- Filtering tuples and looking at their values filters the values. -/
theorem map_bare_filter {schema schema' : Schema} (names : schema.names = schema'.names)
    (predicate : Option (Expr Double)) (rows : List (Tuple Double)) :
    (rows.filter (holds (.to schema) predicate)).map bare =
      (rows.map bare).filter (holds (.to schema') predicate) := by
  rw [List.filter_map]
  refine congrArg (List.map bare) (List.filter_congr fun row _ => ?_)
  exact @holds_alike _ _ row (bare row) _ _ rfl names predicate

/-! ## Tables -/

/-- The database has the table with these rows, and they can be read. -/
def TableData.In (db : Database PageStore) (table : TableData Double) : Prop :=
  ∃ tableMeta, lookUpTable db.catalog table.name = some (tableMeta, table.schema) ∧
    (∀ row ∈ tableRows db.bpm tableMeta,
      ∃ found, Computes (scanRow table.schema (none : Option (Expr Double)) row) found) ∧
    table.rows = (tableRows db.bpm tableMeta).filterMap (delivered table.schema none)

omit [Platform Double] in
theorem tableRows_scan (store : PageStore) (tableMeta : TableMeta) :
    tableRows store tableMeta = rowsOf store (startIter tableMeta.rootPageId) := by
  show chainRows store (chainFrom store.pages maxPages tableMeta.rootPageId) =
    pendingRows store _ (chainFrom store.pages maxPages tableMeta.rootPageId)
  cases chainFrom store.pages maxPages tableMeta.rootPageId <;> rfl

variable {db : Database PageStore} {cat : CatalogT}

/-- The scan of a table yields its rows. -/
theorem TableData.In.yields {table : TableData Double} (known : table.In db) :
    ∃ tableMeta, lookUpTable db.catalog table.name = some (tableMeta, table.schema) ∧
      Yields db.bpm (scanExecutor tableMeta table.schema (none : Option (Expr Double)))
        table.rows := by
  obtain ⟨tableMeta, found, readable, rows⟩ := known
  rw [tableRows_scan] at readable rows
  exact ⟨tableMeta, found, yields_seqScan.mpr ⟨readable, rows⟩⟩

/-! ## Levels of joins -/

/-- The first table and those joined to it. -/
def allTables (first : TableData Double) (joined : List (JoinedTable Double)) :
    List (TableData Double) :=
  first :: joined.map JoinedTable.table

/-- Whether the rows of the tables so far pass the condition of a join. -/
def joinPasses (first : TableData Double) (joined : List (JoinedTable Double)) (i : Nat)
    (combo : List (Tuple Double)) : Bool :=
  holds (.to (tablesSchema (allTables first (joined.take (i + 1)))))
    (joined[i]?.bind JoinedTable.condition) (joinedTuple combo)

/-- The combinations of rows that pass the conditions of the joins. -/
def passingCombos (first : TableData Double) (joined : List (JoinedTable Double)) :
    List (List (Tuple Double)) :=
  (combinations ((allTables first joined).map TableData.rows)).filter
    (prefixesPass (joinPasses first joined) joined.length)

/-- Each condition is defined where it is evaluated: on the rows that pass those before it. -/
def JoinsDefined (first : TableData Double) (joined : List (JoinedTable Double)) : Prop :=
  ∀ i join, joined[i]? = some join → ∀ combo ∈ passingCombos first (joined.take i),
    ∀ row ∈ join.table.rows, ∀ condition ∈ join.condition,
      Defined (.to (tablesSchema (allTables first (joined.take (i + 1)))))
        (joinedTuple (combo ++ [row])) condition

omit [Platform Double] in
theorem allTables_concat (first : TableData Double) (joined : List (JoinedTable Double))
    (join : JoinedTable Double) :
    allTables first (joined ++ [join]) = allTables first joined ++ [join.table] := by
  rw [allTables, List.map_append]
  rfl

theorem passingCombos_concat (first : TableData Double) (joined : List (JoinedTable Double))
    (join : JoinedTable Double) :
    passingCombos first (joined ++ [join]) =
      (passingCombos first joined).flatMap fun combo =>
        (join.table.rows.map fun row => combo ++ [row]).filter fun combo =>
          holds (.to (tablesSchema (allTables first (joined ++ [join])))) join.condition
            (joinedTuple combo) := by
  have before : ∀ i < joined.length, ∀ combo,
      joinPasses first (joined ++ [join]) i combo = joinPasses first joined i combo := by
    intro i bound combo
    rw [joinPasses, joinPasses, List.getElem?_append_left bound,
      List.take_append_of_le_length (by omega)]
  have last : joinPasses first (joined ++ [join]) joined.length = fun combo =>
      holds (.to (tablesSchema (allTables first (joined ++ [join])))) join.condition
        (joinedTuple combo) := by
    funext combo
    rw [joinPasses, List.getElem?_concat_length, List.take_of_length_le (by simp)]
    rfl
  have fits : ((allTables first joined).map TableData.rows).length = joined.length + 1 := by
    simp [allTables]
  have earlier : prefixesPass (joinPasses first (joined ++ [join])) joined.length =
      prefixesPass (joinPasses first joined) joined.length := by
    funext combo
    exact prefixesPass_congr fun i bound => before i bound _
  have loops := @filter_combinations_concat _ (joinPasses first (joined ++ [join])) _ _ fits
    join.table.rows
  rw [earlier, last] at loops
  rw [passingCombos, passingCombos, ← loops, allTables_concat, List.map_append, List.length_append]
  rfl

/-! ## The tree of the tables -/

/-- The tree yields the combinations of rows of the tables, wherever it yields rows. -/
structure TablesYield (db : Database PageStore) (exec : ExecutorT Double PageId)
    (first : TableData Double) (joined : List (JoinedTable Double)) : Prop where
  schema : ∃ schema, exec.outputSchema = .to schema ∧
    schema.names = (tablesSchema (allTables first joined)).names
  given : ∀ rows, Yields db.bpm exec rows →
    JoinsDefined first joined ∧ rows.map bare = (passingCombos first joined).map joinedTuple
  ends : JoinsDefined first joined → ∃ rows, Yields db.bpm exec rows

omit [Platform Double] in
theorem scanTable_of_lookUp {tableName : CString} {tableMeta : TableMeta} {schema : Schema}
    (found : lookUpTable cat tableName = some (tableMeta, schema)) :
    scanTable cat tableName = some (.scan (scanOf cat tableName tableMeta) : LogicalNode Double) := by
  rw [scanTable, (lookUpTable_eq found).1]
  rfl

/-- A table has a plan, whose tree yields its rows. -/
theorem TableData.In.scan {table : TableData Double} (known : table.In db) :
    ∃ plan exec, scanTable db.catalog table.name = some plan ∧
      treeOf db.catalog plan = some exec ∧ exec.outputSchema = .to table.schema ∧
      Yields db.bpm exec table.rows := by
  obtain ⟨tableMeta, found, yields⟩ := known.yields
  have plain : plannerPlanPhysical db.catalog (.scan (scanOf db.catalog table.name tableMeta)) =
      (.seqScan (scanOf db.catalog table.name tableMeta) none : PhysicalNode Double) := rfl
  refine ⟨_, _, scanTable_of_lookUp found, ?_, rfl, yields⟩
  rw [treeOf_seqScan plain, scanOf, found]
  rfl

theorem TablesYield.first {exec : ExecutorT Double PageId} {table : TableData Double}
    (has : exec.outputSchema = .to table.schema) (yields : Yields db.bpm exec table.rows) :
    TablesYield db exec table [] where
  schema := ⟨table.schema, has, by rw [tablesSchema_names]; exact (List.append_nil _).symm⟩
  given rows other := by
    obtain rfl := other.unique yields
    refine ⟨fun i join absent => absurd absent (by simp), ?_⟩
    have single : ∀ row : Tuple Double, joinedTuple [row] = bare row := fun row => by
      rw [joinedTuple, List.flatMap_singleton]
      rfl
    have all : ∀ combo : List (Tuple Double), prefixesPass (joinPasses table []) 0 combo = true :=
      fun _ => rfl
    simp only [passingCombos, List.length_nil, allTables, List.map_nil, List.map_cons, combinations,
      ← List.map_eq_flatMap, List.map_map, Function.comp_def, single,
      List.filter_eq_self.mpr fun combo _ => all combo]
  ends _ := ⟨_, yields⟩

/-- The pairs of some combinations and the rows of a table. -/
theorem map_bare_joinRows {schema schema' : Schema} (names : schema.names = schema'.names)
    {condition : Option (Expr Double)} {left right : List (Tuple Double)}
    {combos : List (List (Tuple Double))} (alike : left.map bare = combos.map joinedTuple) :
    (joinRows (.to schema) condition left right).map bare =
      (combos.flatMap fun combo => (right.map fun row => combo ++ [row]).filter fun combo =>
        holds (.to schema') condition (joinedTuple combo)).map joinedTuple := by
  have pairs : ∀ row : Tuple Double,
      ((right.map (combineTuples row)).filter (holds (.to schema) condition)).map bare =
        (right.map (combineTuples (bare row))).filter (holds (.to schema') condition) := by
    intro row
    rw [map_bare_filter names, List.map_map]
    rfl
  have loop : ∀ combo : List (Tuple Double),
      ((right.map fun row => combo ++ [row]).filter fun combo =>
        holds (.to schema') condition (joinedTuple combo)).map joinedTuple =
          (right.map (combineTuples (joinedTuple combo))).filter (holds (.to schema') condition) := by
    intro combo
    have wider : (right.map (combineTuples (joinedTuple combo))) =
        (right.map fun row => combo ++ [row]).map joinedTuple := by
      rw [List.map_map]
      exact List.map_congr_left fun row _ => (joinedTuple_concat combo row).symm
    rw [wider]
    exact (@List.filter_map _ _ joinedTuple (holds (.to schema') condition) _).symm
  rw [joinRows, List.map_flatMap, List.map_flatMap]
  simp only [pairs, loop]
  rw [← @List.flatMap_map _ _ _ bare fun row =>
      (right.map (combineTuples row)).filter (holds (.to schema') condition), alike, List.flatMap_map]

theorem joinsDefined_concat {first : TableData Double} {joined : List (JoinedTable Double)}
    {join : JoinedTable Double} :
    JoinsDefined first (joined ++ [join]) ↔ JoinsDefined first joined ∧
      ∀ combo ∈ passingCombos first joined, ∀ row ∈ join.table.rows,
        ∀ condition ∈ join.condition,
          Defined (.to (tablesSchema (allTables first (joined ++ [join]))))
            (joinedTuple (combo ++ [row])) condition := by
  have whole : (joined ++ [join]).take (joined.length + 1) = joined ++ [join] :=
    List.take_of_length_le (by simp)
  have early : ∀ {i}, i < joined.length → (joined ++ [join]).take i = joined.take i ∧
      (joined ++ [join]).take (i + 1) = joined.take (i + 1) := fun bound =>
    ⟨List.take_append_of_le_length bound.le, List.take_append_of_le_length bound⟩
  constructor
  · intro defined
    refine ⟨fun i other here => ?_, ?_⟩
    · have bound := (List.getElem?_eq_some_iff.mp here).1
      have there := defined i other (by rw [List.getElem?_append_left bound, here])
      rwa [(early bound).1, (early bound).2] at there
    · have there := defined joined.length join List.getElem?_concat_length
      rwa [whole, List.take_left] at there
  · rintro ⟨before, last⟩ i other here
    by_cases bound : i < joined.length
    · rw [List.getElem?_append_left bound] at here
      rw [(early bound).1, (early bound).2]
      exact before i other here
    · have atEnd : i = joined.length := by
        have := (List.getElem?_eq_some_iff.mp here).1
        rw [List.length_append, List.length_singleton] at this
        omega
      subst atEnd
      rw [List.getElem?_concat_length, Option.some.injEq] at here
      rw [whole, List.take_left, ← here]
      exact last

/-- One table more. -/
theorem TablesYield.join {outer inner : ExecutorT Double PageId} {first : TableData Double}
    {joined : List (JoinedTable Double)} {join : JoinedTable Double} {outerSchema : Schema}
    (before : TablesYield db outer first joined) (outerHas : outer.outputSchema = .to outerSchema)
    (yields : Yields db.bpm inner join.table.rows) :
    TablesYield db
      (.nlJoin join.condition (joinSchema outerSchema join.table.schema) none outer inner) first
      (joined ++ [join]) := by
  have names : (joinSchema outerSchema join.table.schema).names =
      (tablesSchema (allTables first (joined ++ [join]))).names := by
    obtain ⟨schema, has, same⟩ := before.schema
    obtain rfl := SchemaPointer.to.inj (outerHas.symm.trans has)
    rw [joinSchema_names, same, allTables_concat, tablesSchema_names, tablesSchema_names,
      List.flatMap_append, List.flatMap_singleton]
  have definedAlike : ∀ {left : List (Tuple Double)},
      left.map bare = (passingCombos first joined).map joinedTuple →
      ((∀ row ∈ left, ∀ second ∈ join.table.rows, ∀ condition ∈ join.condition,
        Defined (.to (joinSchema outerSchema join.table.schema)) (combineTuples row second) condition) ↔
      ∀ combo ∈ passingCombos first joined, ∀ row ∈ join.table.rows, ∀ condition ∈ join.condition,
        Defined (.to (tablesSchema (allTables first (joined ++ [join]))))
          (joinedTuple (combo ++ [row])) condition) := by
    intro left alike
    have each : ∀ (row second : Tuple Double) (condition : Expr Double),
        Defined (.to (joinSchema outerSchema join.table.schema)) (combineTuples row second) condition ↔
          Defined (.to (tablesSchema (allTables first (joined ++ [join]))))
            (combineTuples (bare row) second) condition :=
      fun row second condition => defined_alike rfl names condition
    simp only [each, joinedTuple_concat]
    rw [← @List.forall_mem_map _ _ bare left fun row => ∀ second ∈ join.table.rows,
      ∀ condition ∈ join.condition, Defined (.to (tablesSchema (allTables first (joined ++ [join]))))
        (combineTuples row second) condition, alike, List.forall_mem_map]
  refine ⟨⟨_, rfl, names⟩, fun rows given => ?_, fun defined => ?_⟩
  · obtain ⟨left, right, yieldsLeft, yieldsRight, defined, rfl⟩ := yields_nlJoin.mp given
    obtain ⟨definedBefore, alike⟩ := before.given left yieldsLeft
    by_cases none : left = []
    · subst none
      have empty : passingCombos first joined = [] := List.map_eq_nil_iff.mp alike.symm
      rw [joinsDefined_concat, passingCombos_concat, empty]
      exact ⟨⟨definedBefore, by simp⟩, rfl⟩
    · obtain rfl := (yieldsRight none).unique yields
      rw [passingCombos_concat]
      exact ⟨joinsDefined_concat.mpr ⟨definedBefore, (definedAlike alike).mp defined⟩,
        map_bare_joinRows names alike⟩
  · obtain ⟨definedBefore, definedLast⟩ := joinsDefined_concat.mp defined
    obtain ⟨left, yieldsLeft⟩ := before.ends definedBefore
    obtain ⟨-, alike⟩ := before.given left yieldsLeft
    exact ⟨_, yields_nlJoin.mpr ⟨left, join.table.rows, yieldsLeft, fun _ => yields,
      (definedAlike alike).mpr definedLast, rfl⟩⟩

/-! ## The tables of a query -/

/-- The tables that `plan_select` joins to the first, in its order: those of the `JOIN`s, then
the others of the `FROM` list. -/
def joinsPlanned (stmt : SelectStmt Double) : List (CString × Option (Expr Double)) :=
  stmt.joins.map (fun join => (join.table, join.condition)) ++
    stmt.fromTables.tail.map fun table => (table, none)

/-- The tables of a query with their rows. -/
structure FromTables (db : Database PageStore) (stmt : SelectStmt Double)
    (first : TableData Double) (joined : List (JoinedTable Double)) : Prop where
  head : stmt.fromTables.head? = some first.name
  others : joinsPlanned stmt = joined.map fun join => (join.table.name, join.condition)
  known : ∀ table ∈ allTables first joined, table.In db

end MiniSqlite.Executor
