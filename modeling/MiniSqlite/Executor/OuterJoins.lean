import MiniSqlite.Executor.DatabaseRuns
import MiniSqlite.Executor.QueryRows

/-!
# Outer joins

A join keeps its type and never looks at it: all joins give the matching pairs. So a
`LEFT`, `RIGHT` or `FULL` join is right exactly where no row that it would have to pad
is without a match (`outerJoins_iff`).
-/

namespace MiniSqlite.Executor

open MiniSqlite.Common MiniSqlite.Std MiniSqlite.Storage MiniSqlite.Buffer MiniSqlite.Catalog
  MiniSqlite.Parser MiniSqlite.Planner

variable {Double : Type}

/-- Left rows without a match are kept. -/
def keepsLeft : TokenType → Bool
  | .left | .full => true
  | _ => false

/-- Right rows without a match are kept. -/
def keepsRight : TokenType → Bool
  | .right | .full => true
  | _ => false

/-- As many `NULL`s as the schema has columns. -/
def nullRow (schema : Schema) : Tuple Double :=
  ⟨List.replicate schema.numColumns .null, invalidRid⟩

variable [Platform Double]

section Rows

variable (condition : Option (Expr Double)) (outerSchema innerSchema : Schema)
variable (left right : List (Tuple Double))

/-- Whether two rows match. -/
def rowsMatch (first second : Tuple Double) : Bool :=
  holds (.to (joinSchema outerSchema innerSchema)) condition (combineTuples first second)

/-- The left rows that match no right row. -/
def unmatchedLeft : List (Tuple Double) :=
  left.filter fun first => !right.any fun second =>
    rowsMatch condition outerSchema innerSchema first second

/-- The right rows that match no left row. -/
def unmatchedRight : List (Tuple Double) :=
  right.filter fun second => !left.any fun first =>
    rowsMatch condition outerSchema innerSchema first second

/-- The rows of a join of the type: the matching pairs, and the rows to keep padded with
`NULL`s. -/
def outerJoinRows (joinType : TokenType) : List (Tuple Double) :=
  joinRows (.to (joinSchema outerSchema innerSchema)) condition left right ++
    (if keepsLeft joinType then
      (unmatchedLeft condition outerSchema innerSchema left right).map
        (combineTuples · (nullRow innerSchema))
    else []) ++
    if keepsRight joinType then
      (unmatchedRight condition outerSchema innerSchema left right).map
        (combineTuples (nullRow outerSchema))
    else []

/-- All rows that a join of the type keeps have a match. -/
def KeptMatch (joinType : TokenType) : Prop :=
  (keepsLeft joinType → unmatchedLeft condition outerSchema innerSchema left right = []) ∧
    (keepsRight joinType → unmatchedRight condition outerSchema innerSchema left right = [])

variable {condition outerSchema innerSchema left right}

theorem outerJoinRows_eq {joinType : TokenType}
    (kept : KeptMatch condition outerSchema innerSchema left right joinType) :
    outerJoinRows condition outerSchema innerSchema left right joinType =
      joinRows (.to (joinSchema outerSchema innerSchema)) condition left right := by
  rw [outerJoinRows]
  have first : (if keepsLeft joinType then
      (unmatchedLeft condition outerSchema innerSchema left right).map
        (combineTuples · (nullRow innerSchema)) else []) = [] := by
    split
    · rw [kept.1 ‹_›, List.map_nil]
    · rfl
  have second : (if keepsRight joinType then
      (unmatchedRight condition outerSchema innerSchema left right).map
        (combineTuples (nullRow outerSchema)) else []) = [] := by
    split
    · rw [kept.2 ‹_›, List.map_nil]
    · rfl
  rw [first, second, List.append_nil, List.append_nil]

/-- The matching pairs are all rows of the join if and only if the rows it keeps have a
match. -/
theorem joinRows_perm_iff {joinType : TokenType} :
    (joinRows (.to (joinSchema outerSchema innerSchema)) condition left right).Perm
        (outerJoinRows condition outerSchema innerSchema left right joinType) ↔
      KeptMatch condition outerSchema innerSchema left right joinType := by
  constructor
  · intro perm
    have length := perm.length_eq
    rw [outerJoinRows, List.length_append, List.length_append] at length
    constructor
    · intro keeps
      rw [if_pos keeps, List.length_map] at length
      exact List.eq_nil_of_length_eq_zero (by omega)
    · intro keeps
      rw [if_pos keeps, List.length_map] at length
      exact List.eq_nil_of_length_eq_zero (by omega)
  · intro kept
    rw [outerJoinRows_eq kept]

end Rows

/-! ## The joins of a plan -/

/-- A join of a physical plan. -/
structure JoinNode (Double : Type) where
  joinType : TokenType
  condition : Option (Expr Double)
  left : PhysicalNode Double
  right : PhysicalNode Double

omit [Platform Double] in
/-- The joins of a plan. -/
def joinsOf : PhysicalNode Double → List (JoinNode Double)
  | .nestedLoopJoin joinType condition left right =>
      ⟨joinType, condition, left, right⟩ :: (joinsOf left ++ joinsOf right)
  | .filter _ child | .project _ child | .hashAggregate _ _ child | .sort _ child
  | .limit _ _ child | .update _ _ child | .delete _ child => joinsOf child
  | .seqScan .. | .indexScan .. | .insert _ => []

/-- The plan gets a tree with the schema, which gives the rows. -/
def PlanGives (db : Database PageStore) (plan : PhysicalNode Double) (schema : Schema)
    (rows : List (Tuple Double)) : Prop :=
  ∃ exec, buildTree db.catalog plan = .ok (some exec) ∧ exec.outputSchema = .to schema ∧
    Gives db.bpm exec rows

/-- What a join joins: the rows that its children give, on all pairs of which its condition
is defined. -/
structure JoinInputs (db : Database PageStore) (join : JoinNode Double)
    (outerSchema innerSchema : Schema) (left right : List (Tuple Double)) : Prop where
  givenLeft : PlanGives db join.left outerSchema left
  givenRight : PlanGives db join.right innerSchema right
  defined : ∀ first ∈ left, ∀ second ∈ right, ∀ expr ∈ join.condition,
    Defined (.to (joinSchema outerSchema innerSchema)) (combineTuples first second) expr

/-- The join gives the rows of a join of its type, in some order. -/
def JoinRight (db : Database PageStore) (join : JoinNode Double) : Prop :=
  ∀ outerSchema innerSchema left right, JoinInputs db join outerSchema innerSchema left right →
    ∃ tuples,
      PlanGives db (.nestedLoopJoin join.joinType join.condition join.left join.right)
        (joinSchema outerSchema innerSchema) tuples ∧
      tuples.Perm (outerJoinRows join.condition outerSchema innerSchema left right join.joinType)

/-- The rows that the join keeps have a match. -/
def JoinMatched (db : Database PageStore) (join : JoinNode Double) : Prop :=
  ∀ outerSchema innerSchema left right, JoinInputs db join outerSchema innerSchema left right →
    KeptMatch join.condition outerSchema innerSchema left right join.joinType

variable {db : Database PageStore}

theorem PlanGives.unique (sound : TablesSound db) {plan : PhysicalNode Double} (reads : plan.Reads)
    {schema other : Schema} {rows others : List (Tuple Double)}
    (first : PlanGives db plan schema rows) (second : PlanGives db plan other others) :
    schema = other ∧ rows = others := by
  obtain ⟨exec, built, has, gives⟩ := first
  obtain ⟨exec', built', has', gives'⟩ := second
  obtain rfl := Option.some.inj (Except.ok.inj (built.symm.trans built'))
  have ready := buildExecutor_ready sound reads built
  rw [gives_iff_yields ready] at gives gives'
  exact ⟨SchemaPointer.to.inj (has.symm.trans has'), gives.unique gives'⟩

/-- A join gives the matching pairs. -/
theorem JoinInputs.gives (sound : TablesSound db) {join : JoinNode Double}
    (readsLeft : join.left.Reads) (readsRight : join.right.Reads) {outerSchema innerSchema : Schema}
    {left right : List (Tuple Double)}
    (inputs : JoinInputs db join outerSchema innerSchema left right) :
    PlanGives db (.nestedLoopJoin join.joinType join.condition join.left join.right)
      (joinSchema outerSchema innerSchema)
      (joinRows (.to (joinSchema outerSchema innerSchema)) join.condition left right) := by
  obtain ⟨outer, builtLeft, hasLeft, givesLeft⟩ := inputs.givenLeft
  obtain ⟨inner, builtRight, hasRight, givesRight⟩ := inputs.givenRight
  have readyLeft := buildExecutor_ready sound readsLeft builtLeft
  have readyRight := buildExecutor_ready sound readsRight builtRight
  have ready : (ExecutorT.nlJoin join.condition (joinSchema outerSchema innerSchema) none outer
    inner).Ready db.bpm := ⟨readyLeft, readyRight⟩
  refine ⟨_, buildTree_join.mpr ⟨outer, inner, outerSchema, innerSchema, builtLeft, builtRight,
    hasLeft, hasRight, rfl⟩, rfl, (gives_iff_yields ready).mpr ?_⟩
  exact yields_nlJoin.mpr ⟨left, right, (gives_iff_yields readyLeft).mp givesLeft,
    fun _ => (gives_iff_yields readyRight).mp givesRight, inputs.defined, rfl⟩

theorem joinRight_iff (sound : TablesSound db) {join : JoinNode Double}
    (readsLeft : join.left.Reads) (readsRight : join.right.Reads) :
    JoinRight db join ↔ JoinMatched db join := by
  have reads : (PhysicalNode.nestedLoopJoin join.joinType join.condition join.left
    join.right).Reads := ⟨readsLeft, readsRight⟩
  refine forall₄_congr fun outerSchema innerSchema left right => forall_congr' fun inputs => ?_
  have gives := inputs.gives sound readsLeft readsRight
  rw [← joinRows_perm_iff]
  constructor
  · rintro ⟨tuples, given, perm⟩
    exact (given.unique sound reads gives).2 ▸ perm
  · exact fun perm => ⟨_, gives, perm⟩

omit [Platform Double] in
/-- The children of the joins of a plan that reads read. -/
theorem reads_of_mem_joinsOf {plan : PhysicalNode Double} (reads : plan.Reads)
    {join : JoinNode Double} (member : join ∈ joinsOf plan) : join.left.Reads ∧ join.right.Reads := by
  induction plan with
  | nestedLoopJoin joinType condition left right ihLeft ihRight =>
      rcases List.mem_cons.mp member with rfl | inside
      · exact reads
      · rcases List.mem_append.mp inside with inLeft | inRight
        · exact ihLeft reads.1 inLeft
        · exact ihRight reads.2 inRight
  | filter _ child ih | project _ child ih | hashAggregate _ _ child ih | sort _ child ih
  | limit _ _ child ih => exact ih reads member
  | seqScan | indexScan | insert => exact absurd member List.not_mem_nil
  | update | delete => exact reads.elim

/-! ## Chains -/

/-- The rows of a chain of joins, each of its type, over the rows of the tables it joins. -/
def ChainRows (db : Database PageStore) : PhysicalNode Double → Schema → List (Tuple Double) → Prop
  | .nestedLoopJoin joinType condition left right, schema, rows =>
      ∃ outerSchema innerSchema leftRows rightRows, ChainRows db left outerSchema leftRows ∧
        PlanGives db right innerSchema rightRows ∧ schema = joinSchema outerSchema innerSchema ∧
        rows = outerJoinRows condition outerSchema innerSchema leftRows rightRows joinType
  | plan, schema, rows => PlanGives db plan schema rows

/-- A chain of joins that all have a match for the rows they keep gives its rows. -/
theorem chainRows_given (sound : TablesSound db) {plan : PhysicalNode Double} (reads : plan.Reads)
    (matched : ∀ join ∈ joinsOf plan, JoinMatched db join) {schema other : Schema}
    {tuples rows : List (Tuple Double)} (given : PlanGives db plan schema tuples)
    (chain : ChainRows db plan other rows) : schema = other ∧ tuples = rows := by
  induction plan generalizing schema other tuples rows with
  | nestedLoopJoin joinType condition left right ihLeft ihRight =>
      obtain ⟨outerSchema, innerSchema, leftRows, rightRows, chainLeft, givenRight, rfl, rfl⟩ := chain
      obtain ⟨exec, built, has, gives⟩ := given
      have ready := buildExecutor_ready sound reads built
      have yields := (gives_iff_yields ready).mp gives
      obtain ⟨outer, inner, outerHas, innerHas, builtLeft, builtRight, hasLeft, hasRight, rfl⟩ :=
        buildTree_join.mp built
      obtain ⟨rowsLeft, rowsRight, yieldsLeft, yieldsRight, defined, rfl⟩ := yields_nlJoin.mp yields
      have givenLeft : PlanGives db left outerHas rowsLeft :=
        ⟨outer, builtLeft, hasLeft,
          (gives_iff_yields (buildExecutor_ready sound reads.1 builtLeft)).mpr yieldsLeft⟩
      obtain ⟨rfl, rfl⟩ := ihLeft reads.1 (fun join member => matched join
        (List.mem_cons_of_mem _ (List.mem_append_left _ member))) givenLeft chainLeft
      obtain ⟨inner', builtRight', hasRight', givesRight'⟩ := givenRight
      obtain rfl := Option.some.inj (Except.ok.inj (builtRight.symm.trans builtRight'))
      obtain rfl := SchemaPointer.to.inj (hasRight.symm.trans hasRight')
      have yieldsRight' :=
        (gives_iff_yields (buildExecutor_ready sound reads.2 builtRight)).mp givesRight'
      obtain rfl := SchemaPointer.to.inj has
      refine ⟨rfl, ?_⟩
      by_cases none : rowsLeft = []
      · subst none
        have inputs : JoinInputs db ⟨joinType, condition, left, right⟩ outerHas innerHas [] rightRows :=
          ⟨givenLeft, ⟨inner, builtRight, hasRight, givesRight'⟩, by simp⟩
        rw [outerJoinRows_eq (matched _ List.mem_cons_self _ _ _ _ inputs)]
        rfl
      · obtain rfl := (yieldsRight none).unique yieldsRight'
        have inputs : JoinInputs db ⟨joinType, condition, left, right⟩ outerHas innerHas rowsLeft
            rowsRight := ⟨givenLeft, ⟨inner, builtRight, hasRight, givesRight'⟩, defined⟩
        rw [outerJoinRows_eq (matched _ List.mem_cons_self _ _ _ _ inputs)]
  | update | delete => exact reads.elim
  | _ => exact given.unique sound reads chain

/-- The joins of a plan are all right if and only if they all have a match for the rows that
they keep, and then a chain of them gives its rows. -/
theorem outerJoins_iff (sound : TablesSound db) {plan : PhysicalNode Double} (reads : plan.Reads) :
    ((∀ join ∈ joinsOf plan, JoinRight db join) ↔ ∀ join ∈ joinsOf plan, JoinMatched db join) ∧
      ((∀ join ∈ joinsOf plan, JoinMatched db join) → ∀ schema other tuples rows,
        PlanGives db plan schema tuples → ChainRows db plan other rows → tuples.Perm rows) := by
  constructor
  · refine forall₂_congr fun join member => ?_
    obtain ⟨readsLeft, readsRight⟩ := reads_of_mem_joinsOf reads member
    exact joinRight_iff sound readsLeft readsRight
  · intro matched schema other tuples rows given chain
    rw [(chainRows_given sound reads matched given chain).2]

/-! ## A left row without a match -/

/-- The scan of a table gives what it yields. -/
theorem planGives_scan (sound : TablesSound db) {scan : ScanNode} {tableMeta : TableMeta}
    {schema : Schema} (found : lookUpTable db.catalog scan.tableName = some (tableMeta, schema))
    {predicate : Option (Expr Double)} {rows : List (Tuple Double)}
    (yields : Yields db.bpm (scanExecutor tableMeta schema predicate) rows) :
    PlanGives db (.seqScan scan predicate) schema rows := by
  refine ⟨scanExecutor tableMeta schema predicate, ?_, rfl,
    (gives_iff_yields (scanExecutor_ready sound found predicate)).mpr yields⟩
  rw [buildTree, buildExecutor, found]
  rfl

/-- `CREATE TABLE a (n INTEGER)` with the row `1`, `CREATE TABLE b (m INTEGER)` without rows. -/
def createOneAndNone : List (Stmt Int) :=
  [.createTable (.ofChars ['a']) [.plain (.ofChars ['n']) .integer 0] false,
    .insert (.ofChars ['a']) [] [[.literal (.int 1)]],
    .createTable (.ofChars ['b']) [.plain (.ofChars ['m']) .integer 0] false]

/-- The scan of a table without a condition. -/
def scanOfTable (name : Char) : PhysicalNode Int := .seqScan ⟨.ofChars [name], 0, none⟩ none

/-- `a LEFT JOIN` the table. -/
def leftJoinWith (name : Char) : PhysicalNode Int :=
  .nestedLoopJoin .left none (scanOfTable 'a') (scanOfTable name)

/-- A scan of one of the tables. -/
theorem scan_createOneAndNone {name : Char} {rows : List (Tuple Int)}
    (seen : (lookUpTable (scriptDatabase createOneAndNone).catalog (.ofChars [name])).any
      (fun entry => decide (Yields (scriptDatabase createOneAndNone).bpm
        (scanExecutor entry.1 entry.2 none) rows)) = true) :
    ∃ schema, PlanGives (scriptDatabase createOneAndNone) (scanOfTable name) schema rows := by
  obtain ⟨⟨tableMeta, schema⟩, found, seen⟩ := (Option.any_eq_true _ _).mp seen
  exact ⟨schema, planGives_scan (reached_scriptDatabase createOneAndNone).sound.tables found
    (of_decide_eq_true seen)⟩

/-- The row of `a` has no match in `b`, and is dropped. -/
theorem leftJoin_drops :
    ¬∀ join ∈ joinsOf (leftJoinWith 'b'), JoinRight (scriptDatabase createOneAndNone) join := by
  intro right
  have sound := (reached_scriptDatabase createOneAndNone).sound.tables
  obtain ⟨schemaA, givenA⟩ := @scan_createOneAndNone 'a' [⟨[.integer 1], ⟨1, 0⟩⟩] (by decide +kernel)
  obtain ⟨schemaB, givenB⟩ := @scan_createOneAndNone 'b' [] (by decide +kernel)
  have reads : ∀ name, (scanOfTable name).Reads := fun _ => trivial
  have matched := (joinRight_iff sound (reads 'a') (reads 'b')).mp (right _ List.mem_cons_self)
  have inputs : JoinInputs (scriptDatabase createOneAndNone)
      ⟨.left, none, scanOfTable 'a', scanOfTable 'b'⟩ schemaA schemaB _ _ :=
    ⟨givenA, givenB, by simp⟩
  exact absurd ((matched _ _ _ _ inputs).1 rfl) (List.cons_ne_nil _ _)

theorem outerJoins_iff_self :
    joinsOf (leftJoinWith 'a') ≠ [] ∧
      ∀ join ∈ joinsOf (leftJoinWith 'a'), JoinRight (scriptDatabase createOneAndNone) join := by
  refine ⟨List.cons_ne_nil _ _, ?_⟩
  have sound := (reached_scriptDatabase createOneAndNone).sound.tables
  obtain ⟨schemaA, givenA⟩ := @scan_createOneAndNone 'a' [⟨[.integer 1], ⟨1, 0⟩⟩] (by decide +kernel)
  have reads : (scanOfTable 'a').Reads := trivial
  refine (@outerJoins_iff _ _ _ sound (leftJoinWith 'a') ⟨reads, reads⟩).1.mpr fun join member => ?_
  obtain rfl := List.mem_singleton.mp member
  intro outerSchema innerSchema left right inputs
  obtain ⟨rfl, rfl⟩ := inputs.givenLeft.unique sound reads givenA
  obtain ⟨rfl, rfl⟩ := inputs.givenRight.unique sound reads givenA
  exact ⟨fun _ => rfl, fun keeps => absurd keeps (by decide)⟩

end MiniSqlite.Executor
