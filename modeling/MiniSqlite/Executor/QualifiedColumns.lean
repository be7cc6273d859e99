import MiniSqlite.Executor.DatabaseRuns
import MiniSqlite.Executor.FromRows

/-!
# Qualified columns

A reference `t.c` is looked up by its column alone, in the columns of the tables that
have been joined so far; and the tables of the `JOIN`s are joined before the further
tables of the `FROM` list. `resolved_iff` says when every reference still denotes its
column.
-/

namespace MiniSqlite.Executor

open MiniSqlite.Common MiniSqlite.Std MiniSqlite.Storage MiniSqlite.Buffer MiniSqlite.Catalog
  MiniSqlite.Parser MiniSqlite.Planner

variable {Double : Type} {cat : CatalogT}

/-! ## Tables side by side -/

/-- The names of the columns of a table. -/
def columnNames (cat : CatalogT) (tableName : CString) : List CString :=
  match lookUpTable cat tableName with
  | some (_, schema) => schema.names
  | none => []

/-- The names of the columns of some tables side by side. -/
def rowNames (cat : CatalogT) (tables : List CString) : List CString :=
  tables.flatMap (columnNames cat)

/-- The reference is to a column of one of the tables. -/
def Refers (cat : CatalogT) (tables : List CString) (ref : CString × CString) : Prop :=
  ref.1 ∈ tables ∧ ref.2 ∈ columnNames cat ref.1

/-- Where the column of a reference is in the columns of some tables side by side. -/
def columnPosition (cat : CatalogT) : List CString → CString × CString → Option Nat
  | [], _ => none
  | tableName :: tables, ref =>
      if tableName = ref.1 then (columnNames cat tableName).findIdx? (· = ref.2)
      else (columnPosition cat tables ref).map ((columnNames cat tableName).length + ·)

/-- The executor finds the column that the reference is to. -/
def Denotes (cat : CatalogT) (tables : List CString) (schema : Schema) (ref : CString × CString) :
    Prop :=
  ∃ position, columnPosition cat tables ref = some position ∧
    schemaFindColumn schema ref.2 = some position

/-- The first of some tables that has a column. -/
def firstHolder (cat : CatalogT) (tables : List CString) (column : CString) : Option CString :=
  tables.find? fun tableName => column ∈ columnNames cat tableName

theorem findIdx?_eq_none {names : List CString} {column : CString} :
    names.findIdx? (· = column) = none ↔ column ∉ names := by
  rw [List.findIdx?_eq_none_iff]
  constructor
  · intro none member
    exact absurd (none column member) (by simp)
  · intro absent name member
    rw [decide_eq_false_iff_not]
    rintro rfl
    exact absent member

/-- A column is found in the table that it is a reference to exactly if that is the first
table to have it. -/
theorem position_iff {tables : List CString} {ref : CString × CString} :
    (∃ position, columnPosition cat tables ref = some position ∧
      (rowNames cat tables).findIdx? (· = ref.2) = some position) ↔
        firstHolder cat tables ref.2 = some ref.1 := by
  induction tables with
  | nil => simp [columnPosition, firstHolder]
  | cons tableName tables ih =>
      rw [rowNames, List.flatMap_cons, List.findIdx?_append, columnPosition, firstHolder,
        List.find?_cons]
      by_cases held : ref.2 ∈ columnNames cat tableName
      · obtain ⟨i, found⟩ : ∃ i, (columnNames cat tableName).findIdx? (· = ref.2) = some i :=
          Option.ne_none_iff_exists'.mp (mt findIdx?_eq_none.mp (not_not.mpr held))
        rw [found, Option.some_or, decide_eq_true held]
        by_cases same : tableName = ref.1
        · simp [same]
        · rw [if_neg same]
          have bound := (List.findIdx?_eq_some_iff_getElem.mp found).1
          constructor
          · rintro ⟨position, placed, here⟩
            obtain ⟨after, -, rfl⟩ := Option.map_eq_some_iff.mp placed
            have := Option.some.inj here
            omega
          · exact fun first => absurd (Option.some.inj first) same
      · rw [findIdx?_eq_none.mpr held, Option.none_or, decide_eq_false held]
        by_cases same : tableName = ref.1
        · rw [if_pos same]
          constructor
          · rintro ⟨position, placed, -⟩
            cases placed
          · intro first
            have holds := List.find?_some first
            rw [← same] at holds
            exact absurd (of_decide_eq_true holds) held
        · rw [if_neg same, ← firstHolder, ← ih, rowNames]
          constructor
          · rintro ⟨position, placed, here⟩
            obtain ⟨after, inside, rfl⟩ := Option.map_eq_some_iff.mp placed
            obtain ⟨found, at_, equal⟩ := Option.map_eq_some_iff.mp here
            refine ⟨after, inside, ?_⟩
            rw [at_]
            congr 1
            omega
          · rintro ⟨position, placed, here⟩
            refine ⟨_, Option.map_eq_some_iff.mpr ⟨position, placed, rfl⟩, ?_⟩
            rw [here, Option.map_some]
            congr 1
            omega

theorem denotes_iff {tables : List CString} {schema : Schema} {ref : CString × CString}
    (names : schema.names = rowNames cat tables) :
    Denotes cat tables schema ref ↔ firstHolder cat tables ref.2 = some ref.1 := by
  rw [Denotes, schemaFindColumn_names, names, position_iff]

/-! ## The tree of a `FROM` clause -/

/-- The tables that a plan scans, from the left. -/
def scannedTables : LogicalNode Double → List CString
  | .scan scan => [scan.tableName]
  | .join _ _ left right => scannedTables left ++ scannedTables right
  | .filter _ child | .project _ child | .aggregate _ _ child | .sort _ child | .limit _ _ child
  | .update _ _ child | .delete _ child => scannedTables child
  | .insert _ => []

/-- The joins of a tree, the innermost first: the condition and the schema that it is
evaluated with. -/
def joinLevels : ExecutorT Double PageId → List (Option (Expr Double) × Schema)
  | .nlJoin condition schema _ outer _ => joinLevels outer ++ [(condition, schema)]
  | _ => []

/-- What each condition sees: the columns of the tables up to its own. -/
def levelNames (cat : CatalogT) (tables : List CString) (conditions : List (Option (Expr Double))) :
    List (Option (Expr Double) × List CString) :=
  conditions.mapIdx fun k condition => (condition, rowNames cat (tables.take (k + 2)))

/-- The plan and the tree of some tables that are joined from the left. -/
structure Joined (cat : CatalogT) (tables : List CString) (conditions : List (Option (Expr Double)))
    (plan : LogicalNode Double) (exec : ExecutorT Double PageId) : Prop where
  length : tables.length = conditions.length + 1
  tree : treeOf cat plan = some exec
  scanned : scannedTables plan = tables
  schema : ∃ schema, exec.outputSchema = .to schema ∧ schema.names = rowNames cat tables
  levels : (joinLevels exec).map (fun level => (level.1, level.2.names)) =
    levelNames cat tables conditions

theorem rowNames_concat (tables : List CString) (tableName : CString) :
    rowNames cat (tables ++ [tableName]) = rowNames cat tables ++ columnNames cat tableName := by
  rw [rowNames, List.flatMap_append, List.flatMap_singleton]
  rfl

theorem levelNames_concat {tables : List CString} {conditions : List (Option (Expr Double))}
    (length : tables.length = conditions.length + 1) (tableName : CString)
    (condition : Option (Expr Double)) :
    levelNames cat (tables ++ [tableName]) (conditions ++ [condition]) =
      levelNames cat tables conditions ++ [(condition, rowNames cat (tables ++ [tableName]))] := by
  rw [levelNames, List.mapIdx_concat, levelNames, List.take_of_length_le (by simp [length])]
  congr 1
  refine List.ext_getElem (by simp) fun k bound _ => ?_
  rw [List.length_mapIdx] at bound
  simp only [List.getElem_mapIdx]
  rw [List.take_append_of_le_length (by omega)]

theorem columnNames_of {tableName : CString} {tableMeta : TableMeta} {schema : Schema}
    (found : lookUpTable cat tableName = some (tableMeta, schema)) :
    columnNames cat tableName = schema.names := by
  rw [columnNames, found]

/-- A table of the catalog has a plan and a tree. -/
theorem scan_known {tableName : CString} (known : (lookUpTable cat tableName).isSome = true) :
    ∃ plan : LogicalNode Double, ∃ exec schema, scanTable cat tableName = some plan ∧
      scannedTables plan = [tableName] ∧ treeOf cat plan = some exec ∧ joinLevels exec = [] ∧
      exec.outputSchema = .to schema ∧ schema.names = columnNames cat tableName := by
  obtain ⟨⟨tableMeta, schema⟩, found⟩ := Option.isSome_iff_exists.mp known
  have plain : plannerPlanPhysical cat (.scan (scanOf cat tableName tableMeta)) =
      (.seqScan (scanOf cat tableName tableMeta) none : PhysicalNode Double) := rfl
  refine ⟨_, scanExecutor tableMeta schema none, schema, scanTable_of_lookUp found, rfl, ?_, rfl,
    rfl, (columnNames_of found).symm⟩
  rw [treeOf_seqScan plain, scanOf, found]
  rfl

theorem Joined.first {tableName : CString} {plan : LogicalNode Double}
    {exec : ExecutorT Double PageId} {schema : Schema}
    (scanned : scannedTables plan = [tableName]) (tree : treeOf cat plan = some exec)
    (plain : joinLevels exec = []) (has : exec.outputSchema = .to schema)
    (names : schema.names = columnNames cat tableName) : Joined cat [tableName] [] plan exec where
  length := rfl
  tree := tree
  scanned := scanned
  schema := ⟨schema, has, by rw [names, rowNames, List.flatMap_singleton]⟩
  levels := by rw [plain]; rfl

/-- One table more. -/
theorem Joined.join {tables : List CString} {conditions : List (Option (Expr Double))}
    {left right : LogicalNode Double} {outer inner : ExecutorT Double PageId} {schema : Schema}
    {tableName : CString} (joined : Joined cat tables conditions left outer)
    (scanned : scannedTables right = [tableName]) (tree : treeOf cat right = some inner)
    (has : inner.outputSchema = .to schema) (names : schema.names = columnNames cat tableName)
    (joinType : TokenType) (condition : Option (Expr Double)) :
    ∃ exec, Joined cat (tables ++ [tableName]) (conditions ++ [condition])
      (.join joinType condition left right) exec := by
  obtain ⟨outerSchema, outerHas, outerNames⟩ := joined.schema
  have both : (joinSchema outerSchema schema).names = rowNames cat (tables ++ [tableName]) := by
    rw [joinSchema_names, rowNames_concat, outerNames, names]
  refine ⟨.nlJoin condition (joinSchema outerSchema schema) none outer inner, ?_,
    treeOf_join joined.tree tree outerHas has, ?_, ⟨_, rfl, both⟩, ?_⟩
  · rw [List.length_append, List.length_append, joined.length]
    rfl
  · rw [scannedTables, joined.scanned, scanned]
  · rw [joinLevels, List.map_append, joined.levels, levelNames_concat joined.length, ← both]
    rfl

theorem planJoins_joined {joins : List (TokenType × CString × Option (Expr Double))}
    {tables : List CString} {conditions : List (Option (Expr Double))}
    {current : LogicalNode Double} {outer : ExecutorT Double PageId}
    (joined : Joined cat tables conditions current outer)
    (known : ∀ join ∈ joins, (lookUpTable cat join.2.1).isSome = true) :
    ∃ plan exec, planJoins cat joins current = some plan ∧
      Joined cat (tables ++ joins.map fun join => join.2.1)
        (conditions ++ joins.map fun join => join.2.2) plan exec := by
  induction joins generalizing tables conditions current outer with
  | nil => exact ⟨current, outer, rfl, by simpa using joined⟩
  | cons join joins ih =>
      obtain ⟨joinType, tableName, condition⟩ := join
      obtain ⟨right, inner, schema, planned, scanned, tree, -, has, names⟩ :=
        @scan_known Double cat tableName (known _ List.mem_cons_self)
      obtain ⟨wider, next⟩ := joined.join scanned tree has names joinType condition
      obtain ⟨plan, exec, rest, done⟩ :=
        ih next fun other member => known other (List.mem_cons_of_mem _ member)
      refine ⟨plan, exec, ?_, by simpa using done⟩
      rw [planJoins, List.foldlM_cons]
      simp only [planned, Option.bind_eq_bind, Option.bind_some, Option.pure_def]
      exact rest

/-! ## References of a query -/

/-- The tables of a `FROM` clause in the order in which they are written. -/
def writtenTables (stmt : SelectStmt Double) : List CString :=
  stmt.fromTables ++ stmt.joins.map JoinClause.table

/-- The tables of a `FROM` clause in the order in which they are joined. -/
def plannedTables (stmt : SelectStmt Double) : List CString :=
  stmt.fromTables.take 1 ++ (joinsPlanned stmt).map Prod.fst

/-- The arguments of an aggregate. -/
def callArgs : Expr Double → List (Expr Double)
  | .functionCall _ args _ => args
  | _ => []

/-- The expressions of a query that are evaluated on the rows of its `FROM` clause. -/
def rowExprs (stmt : SelectStmt Double) : List (Expr Double) :=
  stmt.whereClause.toList ++
    if Grouped stmt then stmt.groupBy ++ stmt.selectList.flatMap callArgs
    else stmt.having.toList ++ stmt.selectList ++
      if Projected stmt then [] else stmt.orderBy.map OrderByItem.expr

/-- The schema of the rows that the select list gives. -/
def projectSchema (stmt : SelectStmt Double) (schema : Schema) : Schema :=
  schemaBuild (stmt.selectList.zipIdx.map
    (projectColumn (if Grouped stmt then .null else .to schema)))

/-- What the rows of the select list call an item of it. -/
def itemName (stmt : SelectStmt Double) (entry : Expr Double × Nat) : CString :=
  match entry.1 with
  | .columnRef _ column => if Grouped stmt then defaultColumnName entry.2 else column
  | _ => defaultColumnName entry.2

/-- The tables of a query are combined as they are written, and each reference to a column
of one of them denotes that column wherever it is looked up. -/
structure Resolved (cat : CatalogT) (stmt : SelectStmt Double) (plan : LogicalNode Double)
    (exec : ExecutorT Double PageId) : Prop where
  order : scannedTables plan = writtenTables stmt
  rows : ∀ schema, exec.outputSchema = .to schema → ∀ expr ∈ rowExprs stmt,
    ∀ ref ∈ exprRefs expr, Refers cat (writtenTables stmt) ref →
      Denotes cat (scannedTables plan) schema ref
  conditions : ∀ k condition schema, (joinLevels exec)[k]? = some (some condition, schema) →
    ∀ ref ∈ exprRefs condition,
      Refers cat (stmt.fromTables ++ (stmt.joins.take (k + 1)).map JoinClause.table) ref →
        Denotes cat ((scannedTables plan).take (k + 2)) schema ref
  sorted : Projected stmt → ∀ schema, exec.outputSchema = .to schema → ∀ item ∈ stmt.orderBy,
    ∀ ref ∈ exprRefs item.expr, .columnRef ref.1 ref.2 ∈ stmt.selectList →
      ∃ i, schemaFindColumn (projectSchema stmt schema) ref.2 = some i ∧
        stmt.selectList[i]? = some (.columnRef ref.1 ref.2)

/-- The tables and columns of a query are such that looking columns up by their names
alone makes no difference. -/
structure NamesSuffice (cat : CatalogT) (stmt : SelectStmt Double) : Prop where
  order : stmt.joins.map JoinClause.table ++ stmt.fromTables.tail =
    stmt.fromTables.tail ++ stmt.joins.map JoinClause.table
  rows : ∀ expr ∈ rowExprs stmt, ∀ ref ∈ exprRefs expr, Refers cat (writtenTables stmt) ref →
    firstHolder cat (plannedTables stmt) ref.2 = some ref.1
  conditions : ∀ k join, stmt.joins[k]? = some join → ∀ condition ∈ join.condition,
    ∀ ref ∈ exprRefs condition,
      Refers cat (stmt.fromTables ++ (stmt.joins.take (k + 1)).map JoinClause.table) ref →
        firstHolder cat ((plannedTables stmt).take (k + 2)) ref.2 = some ref.1
  sorted : Projected stmt → ∀ item ∈ stmt.orderBy, ∀ ref ∈ exprRefs item.expr,
    .columnRef ref.1 ref.2 ∈ stmt.selectList →
      (stmt.selectList.zipIdx.find? fun entry => itemName stmt entry = ref.2).map Prod.fst =
        some (.columnRef ref.1 ref.2)

variable {stmt : SelectStmt Double}

theorem projectColumn_name (stmt : SelectStmt Double) (schema : Schema)
    (entry : Expr Double × Nat) :
    (projectColumn (if Grouped stmt then .null else .to schema) entry).name = itemName stmt entry := by
  obtain ⟨expr, i⟩ := entry
  by_cases grouped : Grouped stmt
  · rw [if_pos grouped]
    cases expr <;> simp only [projectColumn, itemName, if_pos grouped]
  · rw [if_neg grouped]
    cases expr <;> simp only [projectColumn, itemName, if_neg grouped]
    split
    · split <;> rfl
    · rfl

/-- The first item of a select list with a name. -/
theorem schemaFindColumn_projectSchema (schema : Schema) (ref : CString × CString) :
    (∃ i, schemaFindColumn (projectSchema stmt schema) ref.2 = some i ∧
      stmt.selectList[i]? = some (.columnRef ref.1 ref.2)) ↔
    (stmt.selectList.zipIdx.find? fun entry => itemName stmt entry = ref.2).map Prod.fst =
        some (.columnRef ref.1 ref.2) := by
  have names : (projectSchema stmt schema).names =
      stmt.selectList.zipIdx.map (itemName stmt) := by
    rw [projectSchema, schemaBuild_names, List.map_map]
    exact List.map_congr_left fun entry _ => projectColumn_name stmt schema entry
  rw [schemaFindColumn_names, names, List.findIdx?_map, List.find?_eq_bind_findIdx?_getElem?]
  show (∃ i, stmt.selectList.zipIdx.findIdx? (fun entry => itemName stmt entry = ref.2) = some i ∧ _) ↔
    _
  cases stmt.selectList.zipIdx.findIdx? fun entry => itemName stmt entry = ref.2 with
  | none => simp
  | some i => simp [List.getElem?_zipIdx, Option.map_map, Function.comp_def]

/-- The conditions of the joins, with none for the further tables of the `FROM` list. -/
theorem conditions_planned {k : Nat} {condition : Expr Double} :
    ((joinsPlanned stmt).map Prod.snd)[k]? = some (some condition) ↔
      ∃ join, stmt.joins[k]? = some join ∧ join.condition = some condition := by
  rw [joinsPlanned, List.map_append, List.map_map, List.map_map, List.getElem?_append,
    List.length_map]
  split
  · rw [List.getElem?_map, Option.map_eq_some_iff]
    rfl
  · rename_i beyond
    rw [List.getElem?_eq_none (Nat.not_lt.mp beyond), List.getElem?_map]
    simp [Option.map_eq_some_iff]

variable {plan : LogicalNode Double} {exec : ExecutorT Double PageId}

/-- The joins that `plan_select` stacks on the first table. -/
def stackedJoins (stmt : SelectStmt Double) : List (TokenType × CString × Option (Expr Double)) :=
  stmt.joins.map (fun join => (join.joinType, join.table, join.condition)) ++
    stmt.fromTables.tail.map fun table => (.join, table, none)

theorem stackedJoins_planned (stmt : SelectStmt Double) :
    (stackedJoins stmt).map Prod.snd = joinsPlanned stmt := by
  rw [stackedJoins, List.map_append, List.map_map, List.map_map]
  rfl

theorem plannedTables_eq (stmt : SelectStmt Double) : plannedTables stmt =
    stmt.fromTables.take 1 ++ (stmt.joins.map JoinClause.table ++ stmt.fromTables.tail) := by
  rw [plannedTables, joinsPlanned, List.map_append, List.map_map, List.map_map]
  congr 2
  exact List.map_id _

/-- The plan and the tree of the tables of a query. -/
theorem planFrom_joined (nonempty : stmt.fromTables ≠ [])
    (known : ∀ tableName ∈ writtenTables stmt, (lookUpTable cat tableName).isSome = true)
    (planned : planFrom cat stmt = some plan) (tree : treeOf cat plan = some exec) :
    Joined cat (plannedTables stmt) ((joinsPlanned stmt).map Prod.snd) plan exec := by
  obtain ⟨first, others, tables⟩ := List.exists_cons_of_ne_nil nonempty
  have listed : ∀ tableName ∈ first :: others, (lookUpTable cat tableName).isSome = true :=
    fun tableName member => known tableName (List.mem_append_left _ (tables ▸ member))
  obtain ⟨scan, outer, schema, scanned, alone, outerTree, plain, has, names⟩ :=
    @scan_known Double cat first (listed first List.mem_cons_self)
  have joinsKnown : ∀ join ∈ stackedJoins stmt, (lookUpTable cat join.2.1).isSome = true := by
    rw [stackedJoins, List.forall_mem_append, List.forall_mem_map, List.forall_mem_map, tables]
    exact ⟨fun join member => known _ (List.mem_append_right _ (List.mem_map_of_mem member)),
      fun other member => listed other (List.mem_cons_of_mem _ member)⟩
  obtain ⟨built, made, all, joined⟩ :=
    planJoins_joined (Joined.first alone outerTree plain has names) joinsKnown
  have stacked : planJoins cat (stackedJoins stmt) scan = some plan := by
    rw [planFrom, tables] at planned
    simp only [scanned, Option.bind_eq_bind, Option.bind_some] at planned
    rwa [stackedJoins, tables]
  obtain rfl := Option.some.inj (all.symm.trans stacked)
  obtain rfl := Option.some.inj (joined.tree.symm.trans tree)
  rw [plannedTables, ← stackedJoins_planned, List.map_map, List.map_map, tables]
  exact joined

/-- What a join level of the tree is in the `FROM` clause. -/
theorem Joined.level_planned
    (joined : Joined cat (plannedTables stmt) ((joinsPlanned stmt).map Prod.snd) plan exec)
    {k : Nat} {condition : Expr Double} {schema : Schema}
    (level : (joinLevels exec)[k]? = some (some condition, schema)) :
    schema.names = rowNames cat ((plannedTables stmt).take (k + 2)) ∧
      ∃ join, stmt.joins[k]? = some join ∧ join.condition = some condition := by
  have same := congrArg (·[k]?) joined.levels
  simp only [List.getElem?_map, level, Option.map_some, levelNames, List.getElem?_mapIdx] at same
  obtain ⟨planned, there, equal⟩ := Option.map_eq_some_iff.mp same.symm
  obtain ⟨rfl, sameNames⟩ := Prod.mk.inj equal
  exact ⟨sameNames.symm, conditions_planned.mp (by rw [List.getElem?_map]; exact there)⟩

/-- The join level of a condition. -/
theorem Joined.level_of
    (joined : Joined cat (plannedTables stmt) ((joinsPlanned stmt).map Prod.snd) plan exec)
    {k : Nat} {join : JoinClause Double} {condition : Expr Double}
    (written : stmt.joins[k]? = some join) (holds : join.condition = some condition) :
    ∃ schema, (joinLevels exec)[k]? = some (some condition, schema) := by
  have there := conditions_planned.mpr ⟨join, written, holds⟩
  have same := congrArg (·[k]?) joined.levels
  simp only [List.getElem?_map, levelNames, List.getElem?_mapIdx] at same there
  rw [there, Option.map_some] at same
  obtain ⟨⟨first, schema⟩, here, equal⟩ := Option.map_eq_some_iff.mp same
  obtain ⟨rfl, -⟩ := Prod.mk.inj equal
  exact ⟨schema, here⟩

theorem order_iff : plannedTables stmt = writtenTables stmt ↔
    stmt.joins.map JoinClause.table ++ stmt.fromTables.tail =
      stmt.fromTables.tail ++ stmt.joins.map JoinClause.table := by
  have split : writtenTables stmt = stmt.fromTables.take 1 ++
      (stmt.fromTables.tail ++ stmt.joins.map JoinClause.table) := by
    rw [← List.append_assoc, ← List.drop_one, List.take_append_drop]
    rfl
  rw [plannedTables_eq, split, List.append_cancel_left_eq]

section Resolving

variable (joined : Joined cat (plannedTables stmt) ((joinsPlanned stmt).map Prod.snd) plan exec)

include joined

theorem Joined.suffices (resolved : Resolved cat stmt plan exec) : NamesSuffice cat stmt := by
  obtain ⟨schema, has, names⟩ := joined.schema
  refine ⟨order_iff.mp (joined.scanned.symm.trans resolved.order), ?_, ?_, ?_⟩
  · intro expr member ref inside refers
    have found := resolved.rows schema has expr member ref inside refers
    rwa [joined.scanned, denotes_iff names] at found
  · intro k join written condition holds ref inside refers
    obtain ⟨other, level⟩ := joined.level_of written holds
    have found := resolved.conditions k condition other level ref inside refers
    rwa [joined.scanned, denotes_iff (joined.level_planned level).1] at found
  · intro projected item member ref inside selected
    exact (schemaFindColumn_projectSchema schema ref).mp
      (resolved.sorted projected schema has item member ref inside selected)

theorem Joined.resolved (names : NamesSuffice cat stmt) : Resolved cat stmt plan exec := by
  obtain ⟨schema, has, rowsNames⟩ := joined.schema
  refine ⟨joined.scanned.trans (order_iff.mpr names.order), ?_, ?_, ?_⟩
  · intro other holds expr member ref inside refers
    obtain rfl := SchemaPointer.to.inj (holds.symm.trans has)
    rw [joined.scanned, denotes_iff rowsNames]
    exact names.rows expr member ref inside refers
  · intro k condition other level ref inside refers
    obtain ⟨sameNames, join, written, holds⟩ := joined.level_planned level
    rw [joined.scanned, denotes_iff sameNames]
    exact names.conditions k join written condition holds ref inside refers
  · intro projected other _ item member ref inside selected
    exact (schemaFindColumn_projectSchema other ref).mpr
      (names.sorted projected item member ref inside selected)

end Resolving

/-- References denote their columns exactly if the names of the columns suffice. -/
theorem resolved_iff (nonempty : stmt.fromTables ≠ [])
    (known : ∀ tableName ∈ writtenTables stmt, (lookUpTable cat tableName).isSome = true)
    (planned : planFrom cat stmt = some plan) (tree : treeOf cat plan = some exec) :
    Resolved cat stmt plan exec ↔ NamesSuffice cat stmt :=
  have joined := planFrom_joined nonempty known planned tree
  ⟨joined.suffices, joined.resolved⟩

/-- Tables `a` and `b` with one column each. -/
def createColumns (first second : Char) : List (Stmt Int) :=
  [.createTable (.ofChars ['a']) [.plain (.ofChars [first]) .integer 0] false,
    .createTable (.ofChars ['b']) [.plain (.ofChars [second]) .integer 0] false]

/-- `SELECT * FROM a INNER JOIN b ON` the columns of the two are equal. -/
def joinColumns (first second : Char) : SelectStmt Int :=
  ⟨[.columnRef .empty (.ofChars ['*'])], [.ofChars ['a']],
    [⟨.inner, .ofChars ['b'], some (.binary (.columnRef (.ofChars ['a']) (.ofChars [first])) .equal
      (.columnRef (.ofChars ['b']) (.ofChars [second])))⟩], none, [], none, [], -1, 0⟩

/-- What is needed of the tables of a query to look at its references. -/
theorem built_of_seen {stmt : SelectStmt Int} (seen : (fromTree cat stmt).isSome = true)
    (known : (writtenTables stmt).all fun tableName => (lookUpTable cat tableName).isSome) :
    (∀ tableName ∈ writtenTables stmt, (lookUpTable cat tableName).isSome = true) ∧
      ∃ plan exec, planFrom cat stmt = some plan ∧ treeOf cat plan = some exec := by
  obtain ⟨exec, found⟩ := Option.isSome_iff_exists.mp seen
  obtain ⟨plan, planned, tree⟩ := Option.bind_eq_some_iff.mp found
  exact ⟨List.all_eq_true.mp known, plan, exec, planned, tree⟩

/-- Columns with names of their own are told apart. -/
theorem joinColumns_resolved :
    ∃ plan exec, Resolved (scriptDatabase (createColumns 'n' 'm')).catalog (joinColumns 'n' 'm')
      plan exec := by
  obtain ⟨known, plan, exec, planned, tree⟩ :=
    @built_of_seen (scriptDatabase (createColumns 'n' 'm')).catalog (joinColumns 'n' 'm')
      (by decide +kernel) (by decide +kernel)
  refine ⟨plan, exec, (resolved_iff (by simp [joinColumns]) known planned tree).mpr ⟨rfl, ?_, ?_, ?_⟩⟩
  · intro expr member ref inside refers
    have star : rowExprs (joinColumns 'n' 'm') = [.columnRef .empty (.ofChars ['*'])] := rfl
    rw [star, List.mem_singleton] at member
    rw [member, exprRefs, List.mem_singleton] at inside
    rw [inside] at refers
    exact absurd refers.1 (by decide +kernel)
  · intro k join written condition holds ref inside _
    obtain ⟨rfl, rfl⟩ : k = 0 ∧ _ = join := by
      rw [joinColumns, List.getElem?_singleton] at written
      exact ⟨(ite_eq_iff.mp written).elim And.left (by simp),
        (ite_eq_iff.mp written).elim (fun here => Option.some.inj here.2) (by simp)⟩
    obtain rfl := Option.some.inj holds
    simp only [exprRefs, List.singleton_append, List.mem_cons, List.not_mem_nil, or_false] at inside
    rcases inside with rfl | rfl <;> decide +kernel
  · intro projected
    exact absurd projected (by decide +kernel)

/-- Columns of one name are not. -/
theorem joinColumns_unresolved :
    ∃ plan exec, planFrom (scriptDatabase (createColumns 'n' 'n')).catalog (joinColumns 'n' 'n') =
        some plan ∧ treeOf (scriptDatabase (createColumns 'n' 'n')).catalog plan = some exec ∧
      ¬Resolved (scriptDatabase (createColumns 'n' 'n')).catalog (joinColumns 'n' 'n') plan exec := by
  obtain ⟨known, plan, exec, planned, tree⟩ :=
    @built_of_seen (scriptDatabase (createColumns 'n' 'n')).catalog (joinColumns 'n' 'n')
      (by decide +kernel) (by decide +kernel)
  refine ⟨plan, exec, planned, tree, fun resolved => ?_⟩
  have names := (planFrom_joined (by simp [joinColumns]) known planned tree).suffices resolved
  have first := names.conditions 0 _ rfl _ rfl (.ofChars ['b'], .ofChars ['n'])
    (by simp [exprRefs]) ⟨by decide +kernel, by decide +kernel⟩
  exact absurd first (by decide +kernel)

end MiniSqlite.Executor
