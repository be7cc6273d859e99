import MiniSqlite.Planner.Planner

/-!
# The shapes of plans

The plan of a `SELECT` only reads. The plan of an `UPDATE` or `DELETE` reads from
one scan of its table. At most one scan of a plan has a condition; `MatchIndex`
makes an index scan of it if the condition compares an indexed column with an
integer, and leaves every other plan as it is.
-/

namespace MiniSqlite.Planner

open MiniSqlite.Common MiniSqlite.Storage MiniSqlite.Catalog MiniSqlite.Parser

variable {Double : Type}

/-- The plan only scans and joins tables. -/
def LogicalNode.Joins : LogicalNode Double → Prop
  | .scan _ => True
  | .join _ _ left right => left.Joins ∧ right.Joins
  | _ => False

/-- The plan contains no statement that writes, and filters only what it has joined. -/
def LogicalNode.Reads : LogicalNode Double → Prop
  | .scan _ => True
  | .filter _ child | .project _ child | .aggregate _ _ child | .sort _ child
  | .limit _ _ child => child.Reads
  | .join _ _ left right => left.Joins ∧ right.Joins
  | .insert _ | .update .. | .delete .. => False

/-- The plan contains no statement that writes. -/
def PhysicalNode.Reads : PhysicalNode Double → Prop
  | .seqScan .. | .indexScan .. => True
  | .filter _ child | .project _ child | .hashAggregate _ _ child | .sort _ child
  | .limit _ _ child => child.Reads
  | .nestedLoopJoin _ _ left right => left.Reads ∧ right.Reads
  | .insert _ | .update .. | .delete .. => False

/-! ## `SELECT` -/

theorem scanTable_eq {cat : CatalogT} {tableName : CString} {plan : LogicalNode Double}
    (planned : scanTable cat tableName = some plan) :
    ∃ tableMeta, catalogGetTable cat tableName = .ok tableMeta ∧
      plan = .scan ⟨tableName, tableMeta.tableId, getTableSchema cat tableMeta.tableId⟩ := by
  unfold scanTable at planned
  split at planned
  · exact absurd planned (by simp)
  · rename_i tableMeta found
    exact ⟨tableMeta, found, (Option.some.inj planned).symm⟩

theorem LogicalNode.Joins.reads {plan : LogicalNode Double} (joins : plan.Joins) : plan.Reads := by
  cases plan <;> first | exact joins | exact joins.elim

theorem scanTable_joins {cat : CatalogT} {tableName : CString} {plan : LogicalNode Double}
    (planned : scanTable cat tableName = some plan) : plan.Joins := by
  obtain ⟨tableMeta, -, rfl⟩ := scanTable_eq planned
  trivial

theorem planJoins_joins {cat : CatalogT}
    {joins : List (TokenType × CString × Option (Expr Double))} {first last : LogicalNode Double}
    (plain : first.Joins) (planned : planJoins cat joins first = some last) : last.Joins := by
  induction joins generalizing first with
  | nil => exact Option.some.inj planned ▸ plain
  | cons join joins ih =>
      obtain ⟨joinType, table, condition⟩ := join
      rw [planJoins, List.foldlM_cons] at planned
      cases scanned : (scanTable cat table : Option (LogicalNode Double)) with
      | none => simp [scanned] at planned
      | some right =>
          simp only [scanned, Option.bind_eq_bind, Option.bind_some, Option.pure_def] at planned
          have both : (LogicalNode.join joinType condition first right).Joins :=
            ⟨plain, scanTable_joins scanned⟩
          exact ih both planned

theorem planFrom_joins {cat : CatalogT} {stmt : SelectStmt Double} {plan : LogicalNode Double}
    (planned : planFrom cat stmt = some plan) : plan.Joins := by
  unfold planFrom at planned
  cases tables : stmt.fromTables with
  | nil =>
      rw [tables] at planned
      exact Option.some.inj planned ▸ trivial
  | cons first others =>
      rw [tables] at planned
      cases scanned : (scanTable cat first : Option (LogicalNode Double)) with
      | none => simp [scanned] at planned
      | some scan =>
          simp only [scanned, Option.bind_eq_bind, Option.bind_some] at planned
          exact planJoins_joins (scanTable_joins scanned) planned

/-- A stage of a plan that may be left out. -/
theorem reads_stage {condition : Prop} [Decidable condition] {stage plan : LogicalNode Double}
    (stays : stage.Reads = plan.Reads) (reads : plan.Reads) :
    (if condition then stage else plan).Reads := by
  split
  · exact stays ▸ reads
  · exact reads

theorem planSelect_reads {cat : CatalogT} {stmt : SelectStmt Double} {plan : LogicalNode Double}
    (planned : planSelect cat stmt = some plan) : plan.Reads := by
  unfold planSelect at planned
  cases base : planFrom cat stmt with
  | none => simp [base] at planned
  | some current =>
      have reads := (planFrom_joins base).reads
      simp only [base, Option.bind_eq_bind, Option.bind_some, Option.pure_def,
        Option.some.injEq] at planned
      subst planned
      refine reads_stage rfl (reads_stage rfl (reads_stage rfl ?_))
      have grouped : ∀ plan : LogicalNode Double, plan.Reads →
          (if stmt.groupBy ≠ [] ∨ stmt.selectList.filter isFunctionCall ≠ []
            then LogicalNode.aggregate stmt.groupBy (stmt.selectList.filter isFunctionCall) plan
            else plan).Reads := fun plan reads => reads_stage rfl reads
      cases stmt.having <;> cases stmt.whereClause <;> exact grouped _ reads

/-- Converting a plan keeps it reading. -/
theorem convertLogical_reads {plan : LogicalNode Double} (reads : plan.Reads) :
    (convertLogical plan).Reads := by
  fun_induction convertLogical plan <;>
    simp_all [LogicalNode.Reads, PhysicalNode.Reads, LogicalNode.Joins.reads]

/-- A scan stays as it is or becomes an index scan. -/
theorem matchIndex_cases (cat : CatalogT) (scan : ScanNode) (predicate : Expr Double) :
    matchIndex cat scan predicate = .seqScan scan (some predicate) ∨
      ∃ indexId columnId keyVal,
        matchIndex cat scan predicate = .indexScan scan indexId columnId keyVal keyVal := by
  unfold matchIndex
  by_cases invalid : scan.tableId = invalidTableId
  · exact .inl (if_pos invalid)
  · rw [if_neg invalid]
    split
    · dsimp only
      split
      · exact .inr ⟨_, _, _, rfl⟩
      · exact .inl rfl
    · exact .inl rfl

theorem matchIndex_reads (cat : CatalogT) (scan : ScanNode) (predicate : Expr Double) :
    (matchIndex cat scan predicate).Reads := by
  rcases matchIndex_cases cat scan predicate with same | ⟨_, _, _, same⟩ <;> rw [same] <;> trivial

theorem optimizeMatchIndex_reads {cat : CatalogT} {plan : PhysicalNode Double}
    (reads : plan.Reads) : (optimizeMatchIndex cat plan).Reads := by
  fun_induction optimizeMatchIndex cat plan <;>
    simp_all [PhysicalNode.Reads, matchIndex_reads]

theorem plannerPlan_select_reads {cat : CatalogT} {stmt : SelectStmt Double}
    {plan : PhysicalNode Double} (planned : plannerPlan cat (.select stmt) = some plan) :
    plan.Reads := by
  obtain ⟨logical, selected, rfl⟩ := Option.map_eq_some_iff.mp planned
  exact optimizeMatchIndex_reads (convertLogical_reads (planSelect_reads selected))

/-! ## The scan with a condition -/

/-- The scan that a filter stands on, with the condition of the filter. -/
def LogicalNode.guard? : LogicalNode Double → Option (ScanNode × Expr Double)
  | .filter predicate (.scan node) => some (node, predicate)
  | .filter _ child | .project _ child | .aggregate _ _ child | .sort _ child | .limit _ _ child
  | .update _ _ child | .delete _ child => child.guard?
  | .scan _ | .join .. | .insert _ => none

theorem guard_of_not_scan {predicate : Expr Double} {child : LogicalNode Double}
    (notScan : ∀ node, child = .scan node → False) :
    (LogicalNode.filter predicate child).guard? = child.guard? := by
  cases child <;> first | rfl | exact (notScan _ rfl).elim

/-- The condition compares a column of the scanned table with an integer, and the column
has an index. -/
def IndexMatches (cat : CatalogT) (scan : ScanNode) (predicate : Expr Double) : Prop :=
  scan.tableId ≠ invalidTableId ∧ ∃ column keyVal schema,
    equalityOf predicate = some (column, .int keyVal) ∧ scan.outputSchema = some schema ∧
      ∃ index ∈ catalogGetTableIndexes cat scan.tableId, ∃ colIdx,
        schemaFindColumn schema column = some colIdx ∧ Int32.ofNat colIdx = index.columnId

/-- The test for an index in `matchIndex`. -/
theorem onColumn_iff {schema : Schema} {column : CString} {index : IndexMeta} :
    (match schemaFindColumn schema column with
      | some colIdx => decide (Int32.ofNat colIdx = index.columnId)
      | none => false) = true ↔
      ∃ colIdx, schemaFindColumn schema column = some colIdx ∧
        Int32.ofNat colIdx = index.columnId := by
  cases schemaFindColumn schema column <;> simp

theorem matchIndex_of_matches {cat : CatalogT} {scan : ScanNode} {predicate : Expr Double}
    (matched : IndexMatches cat scan predicate) :
    ∃ indexId columnId keyVal,
      matchIndex cat scan predicate = .indexScan scan indexId columnId keyVal keyVal := by
  obtain ⟨valid, column, keyVal, schema, equality, known, index, member, colIdx, found, same⟩ :=
    matched
  rw [matchIndex, if_neg valid, equality, known]
  dsimp only
  split
  · rename_i key first _ keyEq
    exact ⟨_, _, _, rfl⟩
  · rename_i other
    cases searched : (catalogGetTableIndexes cat scan.tableId).find? fun index =>
        match schemaFindColumn schema column with
        | some colIdx => decide (Int32.ofNat colIdx = index.columnId)
        | none => false with
    | some first => exact (other first keyVal searched rfl).elim
    | none =>
        have unmatched := List.find?_eq_none.mp searched index member
        exact absurd (onColumn_iff.mpr ⟨colIdx, found, same⟩) unmatched

theorem matchIndex_of_not_matches {cat : CatalogT} {scan : ScanNode} {predicate : Expr Double}
    (unmatched : ¬IndexMatches cat scan predicate) :
    matchIndex cat scan predicate = .seqScan scan (some predicate) := by
  unfold matchIndex
  by_cases invalid : scan.tableId = invalidTableId
  · exact if_pos invalid
  · rw [if_neg invalid]
    split
    · rename_i column value schema equality known
      dsimp only
      split
      · rename_i index keyVal searched
        refine (unmatched ⟨invalid, column, keyVal, schema, equality, known, index,
          List.mem_of_find?_eq_some searched, ?_⟩).elim
        have onColumn := List.find?_some searched
        exact onColumn_iff.mp onColumn
      · rfl
    · rfl

theorem optimizeMatchIndex_joins {cat : CatalogT} {plan : LogicalNode Double} (joins : plan.Joins) :
    optimizeMatchIndex cat (convertLogical plan) = convertLogical plan := by
  induction plan with
  | scan scan => rfl
  | join joinType condition left right ihLeft ihRight =>
      rw [convertLogical, optimizeMatchIndex, ihLeft joins.1, ihRight joins.2]
  | _ => exact joins.elim

/-- A plan stays as it is unless an index matches. -/
theorem optimizeMatchIndex_eq {cat : CatalogT} {plan : LogicalNode Double} (reads : plan.Reads)
    (unmatched : ∀ scan predicate, plan.guard? = some (scan, predicate) →
      ¬IndexMatches cat scan predicate) :
    optimizeMatchIndex cat (convertLogical plan) = convertLogical plan := by
  fun_induction convertLogical plan with
  | case1 scan => rfl
  | case2 predicate scan =>
      rw [optimizeMatchIndex]
      exact matchIndex_of_not_matches (unmatched scan predicate rfl)
  | case3 predicate child notScan ih =>
      rw [optimizeMatchIndex, ih reads (guard_of_not_scan notScan ▸ unmatched)]
  | case4 expressions child ih => rw [optimizeMatchIndex, ih reads unmatched]
  | case5 joinType condition left right =>
      have plain : (LogicalNode.join joinType condition left right).Joins := reads
      exact optimizeMatchIndex_joins plain
  | case6 groupBy aggregates child ih => rw [optimizeMatchIndex, ih reads unmatched]
  | case7 items child ih => rw [optimizeMatchIndex, ih reads unmatched]
  | case8 limit offset child ih => rw [optimizeMatchIndex, ih reads unmatched]
  | case9 | case10 | case11 => exact reads.elim

/-! ## The condition of a statement -/

/-- The condition that `plan_select` puts on the tables of a query first. -/
def selectCondition (stmt : SelectStmt Double) : Option (Expr Double) :=
  match stmt.whereClause with
  | some predicate => some predicate
  | none =>
      if stmt.groupBy ≠ [] ∨ stmt.selectList.filter isFunctionCall ≠ [] then none else stmt.having

/-- The table and the condition of a statement that reads the rows of one table under a
condition. -/
def conditionOn : Stmt Double → Option (CString × Expr Double)
  | .select stmt =>
      match stmt.fromTables, stmt.joins with
      | [tableName], [] => (selectCondition stmt).map (tableName, ·)
      | _, _ => none
  | .update tableName _ whereClause | .delete tableName whereClause =>
      whereClause.map (tableName, ·)
  | _ => none

/-- The scan that the planner makes of a table. -/
def scanOf (cat : CatalogT) (tableName : CString) (tableMeta : TableMeta) : ScanNode :=
  ⟨tableName, tableMeta.tableId, getTableSchema cat tableMeta.tableId⟩

/-- An index matches the condition of the statement. -/
def Matched (cat : CatalogT) (stmt : Stmt Double) : Prop :=
  ∃ tableName predicate tableMeta, conditionOn stmt = some (tableName, predicate) ∧
    catalogGetTable cat tableName = .ok tableMeta ∧
      IndexMatches cat (scanOf cat tableName tableMeta) predicate

/-- The scan a condition is put on, if the plan is a scan. -/
def LogicalNode.scanNode? : LogicalNode Double → Option ScanNode
  | .scan node => some node
  | _ => none

theorem LogicalNode.Joins.guard_eq_none {plan : LogicalNode Double} (joins : plan.Joins) :
    plan.guard? = none := by
  cases plan <;> first | rfl | exact joins.elim

theorem guard_filter (predicate : Expr Double) (plan : LogicalNode Double) :
    (LogicalNode.filter predicate plan).guard? =
      match plan.scanNode? with
      | some node => some (node, predicate)
      | none => plan.guard? := by
  cases plan <;> rfl

theorem planSelect_guard {cat : CatalogT} {stmt : SelectStmt Double} {plan : LogicalNode Double}
    (planned : planSelect cat stmt = some plan) :
    ∃ current, planFrom cat stmt = some current ∧ plan.guard? =
      current.scanNode?.bind fun node => (selectCondition stmt).map (node, ·) := by
  unfold planSelect at planned
  cases base : (planFrom cat stmt : Option (LogicalNode Double)) with
  | none => simp [base] at planned
  | some current =>
      refine ⟨current, rfl, ?_⟩
      simp only [base, Option.bind_eq_bind, Option.bind_some, Option.pure_def,
        Option.some.injEq] at planned
      have joins := (planFrom_joins base).guard_eq_none
      subst planned
      simp only [apply_ite LogicalNode.guard?, LogicalNode.guard?, ite_self, selectCondition]
      cases stmt.whereClause with
      | some predicate =>
          have guard := guard_filter predicate current
          cases stmt.having with
          | none =>
              simp only [apply_ite LogicalNode.guard?, LogicalNode.guard?, ite_self, guard]
              cases current.scanNode? <;> simp [joins]
          | some having =>
              rw [guard_filter]
              have notScan : (if stmt.groupBy ≠ [] ∨ stmt.selectList.filter isFunctionCall ≠ []
                  then LogicalNode.aggregate stmt.groupBy (stmt.selectList.filter isFunctionCall)
                    (.filter predicate current)
                  else .filter predicate current).scanNode? = none := by
                split <;> rfl
              rw [notScan]
              simp only [apply_ite LogicalNode.guard?, LogicalNode.guard?, ite_self, guard]
              cases current.scanNode? <;> simp [joins]
      | none =>
          by_cases grouped : stmt.groupBy ≠ [] ∨ stmt.selectList.filter isFunctionCall ≠ []
          · rw [if_pos grouped, if_pos grouped]
            cases stmt.having with
            | none => simpa [LogicalNode.guard?] using joins
            | some having => simpa [LogicalNode.guard?] using joins
          · rw [if_neg grouped, if_neg grouped]
            cases stmt.having with
            | none => simpa using joins
            | some having =>
                rw [guard_filter]
                cases current.scanNode? <;> simp [joins]

theorem planJoins_scanNode {cat : CatalogT}
    {joins : List (TokenType × CString × Option (Expr Double))} {first last : LogicalNode Double}
    (planned : planJoins cat joins first = some last) :
    last.scanNode? = if joins = [] then first.scanNode? else none := by
  induction joins generalizing first with
  | nil => exact Option.some.inj planned ▸ rfl
  | cons join joins ih =>
      obtain ⟨joinType, table, condition⟩ := join
      rw [planJoins, List.foldlM_cons] at planned
      cases scanned : (scanTable cat table : Option (LogicalNode Double)) with
      | none => simp [scanned] at planned
      | some right =>
          simp only [scanned, Option.bind_eq_bind, Option.bind_some, Option.pure_def] at planned
          rw [@ih (.join joinType condition first right) planned, if_neg (List.cons_ne_nil _ _)]
          exact ite_self none

/-- Only a query of one table starts with a scan that an index can serve. -/
theorem planFrom_scanNode {cat : CatalogT} {stmt : SelectStmt Double} {current : LogicalNode Double}
    (planned : planFrom cat stmt = some current) {node : ScanNode} (valid : node.tableId ≠ invalidTableId) :
    current.scanNode? = some node ↔
      ∃ tableName tableMeta, stmt.fromTables = [tableName] ∧ stmt.joins = [] ∧
        catalogGetTable cat tableName = .ok tableMeta ∧ node = scanOf cat tableName tableMeta := by
  unfold planFrom at planned
  cases tables : stmt.fromTables with
  | nil =>
      rw [tables] at planned
      have nowhere : LogicalNode.scan ⟨CString.empty, invalidTableId, none⟩ = current :=
        Option.some.inj planned
      rw [← nowhere]
      constructor
      · intro same
        exact absurd (congrArg ScanNode.tableId (Option.some.inj same)).symm valid
      · rintro ⟨_, _, absurdity, -⟩
        exact absurd absurdity (by simp)
  | cons first others =>
      rw [tables] at planned
      cases scanned : (scanTable cat first : Option (LogicalNode Double)) with
      | none => simp [scanned] at planned
      | some scan =>
          simp only [scanned, Option.bind_eq_bind, Option.bind_some] at planned
          obtain ⟨tableMeta, found, rfl⟩ := scanTable_eq scanned
          rw [planJoins_scanNode planned]
          constructor
          · intro here
            split at here
            · rename_i single
              obtain ⟨noJoins, noOthers⟩ := List.append_eq_nil_iff.mp single
              refine ⟨first, tableMeta, ?_, List.map_eq_nil_iff.mp noJoins, found,
                (Option.some.inj here).symm⟩
              rw [List.map_eq_nil_iff.mp noOthers]
            · exact absurd here (by simp)
          · rintro ⟨tableName, other, one, noJoins, foundOther, rfl⟩
            obtain ⟨rfl, rfl⟩ := List.cons.inj one
            rw [found, Except.ok.injEq] at foundOther
            rw [noJoins, ← foundOther]
            rfl

/-- The scan of a table under a condition, if there is one. -/
def scanUnder (node : ScanNode) : Option (Expr Double) → LogicalNode Double
  | some predicate => .filter predicate (.scan node)
  | none => .scan node

theorem planTarget_eq (cat : CatalogT) (tableName : CString)
    (whereClause : Option (Expr Double)) :
    planTarget cat tableName whereClause =
      (catalogGetTable cat tableName).toOption.map fun tableMeta =>
        scanUnder (scanOf cat tableName tableMeta) whereClause := by
  rw [planTarget, scanTable]
  cases catalogGetTable cat tableName with
  | error rc => rfl
  | ok tableMeta => cases whereClause <;> rfl

theorem optimizeMatchIndex_scanUnder (cat : CatalogT) (node : ScanNode)
    (whereClause : Option (Expr Double)) :
    plannerPlanPhysical cat (scanUnder node whereClause) =
      match whereClause with
      | some predicate => matchIndex cat node predicate
      | none => .seqScan node none := by
  cases whereClause <;> rfl

/-- An index matches the plan of a statement if it matches its condition. -/
theorem matched_iff {cat : CatalogT} {stmt : Stmt Double} {plan : LogicalNode Double}
    (planned : plannerPlanLogical cat stmt = some plan) :
    (∃ node predicate, plan.guard? = some (node, predicate) ∧ IndexMatches cat node predicate) ↔
      Matched cat stmt := by
  have target : ∀ {tableName whereClause child}, planTarget cat tableName whereClause = some child →
      ((∃ node predicate, child.guard? = some (node, predicate) ∧ IndexMatches cat node predicate) ↔
        ∃ name predicate tableMeta,
          whereClause.map (tableName, ·) = some (name, (predicate : Expr Double)) ∧
            catalogGetTable cat name = .ok tableMeta ∧
              IndexMatches cat (scanOf cat name tableMeta) predicate) := by
    intro tableName whereClause child planned
    rw [planTarget_eq] at planned
    obtain ⟨tableMeta, known, rfl⟩ := Option.map_eq_some_iff.mp planned
    have found : catalogGetTable cat tableName = .ok tableMeta := by
      cases outcome : catalogGetTable cat tableName with
      | error rc => simp [outcome, Except.toOption] at known
      | ok other => rw [outcome] at known; rw [Option.some.inj known]
    cases whereClause with
    | none => simp [scanUnder, LogicalNode.guard?]
    | some predicate =>
        simp only [scanUnder, LogicalNode.guard?, Option.some.injEq, Prod.mk.injEq, Option.map_some]
        constructor
        · rintro ⟨_, _, ⟨rfl, rfl⟩, matched⟩
          exact ⟨tableName, predicate, tableMeta, ⟨rfl, rfl⟩, found, matched⟩
        · rintro ⟨_, _, other, ⟨rfl, rfl⟩, foundOther, matched⟩
          rw [found, Except.ok.injEq] at foundOther
          exact ⟨_, predicate, ⟨rfl, rfl⟩, foundOther ▸ matched⟩
  cases stmt with
  | select stmt =>
      obtain ⟨current, base, guard⟩ := planSelect_guard planned
      rw [guard]
      constructor
      · rintro ⟨node, predicate, guarded, matched⟩
        obtain ⟨_, here, conditionMap⟩ := Option.bind_eq_some_iff.mp guarded
        obtain ⟨_, condition, same⟩ := Option.map_eq_some_iff.mp conditionMap
        obtain ⟨rfl, rfl⟩ := Prod.mk.inj same
        obtain ⟨tableName, tableMeta, one, noJoins, found, rfl⟩ :=
          (planFrom_scanNode base matched.1).mp here
        refine ⟨tableName, _, tableMeta, ?_, found, matched⟩
        rw [conditionOn, one, noJoins, condition]
        rfl
      · rintro ⟨tableName, predicate, tableMeta, condition, found, matched⟩
        rw [conditionOn] at condition
        split at condition
        · rename_i one noJoins
          obtain ⟨_, selected, same⟩ := Option.map_eq_some_iff.mp condition
          obtain ⟨rfl, rfl⟩ := Prod.mk.inj same
          have here := (planFrom_scanNode base matched.1).mpr ⟨_, tableMeta, one, noJoins, found, rfl⟩
          exact ⟨_, _, by rw [here, selected]; rfl, matched⟩
        · exact absurd condition (by simp)
  | update tableName assignments whereClause =>
      obtain ⟨child, targeted, rfl⟩ := Option.map_eq_some_iff.mp planned
      have reads := target targeted
      exact reads
  | delete tableName whereClause =>
      obtain ⟨child, targeted, rfl⟩ := Option.map_eq_some_iff.mp planned
      have reads := target targeted
      exact reads
  | insert tableName rows =>
      obtain ⟨tableMeta, -, rfl⟩ := Option.map_eq_some_iff.mp planned
      simp [LogicalNode.guard?, Matched, conditionOn]
  | _ => exact absurd planned (by simp [plannerPlanLogical])

end MiniSqlite.Planner
