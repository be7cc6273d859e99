import MiniSqlite.Executor.Statements
import MiniSqlite.Executor.TableChanges
import MiniSqlite.Std.Rows

/-!
# The rows of a query

What a tree that only reads gives when it is pulled to its end, operator by operator
and without iterators: `Yields` relates a tree to its rows, and each operator's rows
are those of its children filtered, projected, combined, grouped or sorted. An
evaluation that fails counts as `NULL` everywhere (`valueOf`).
-/

namespace MiniSqlite.Executor

open MiniSqlite.Common MiniSqlite.Std MiniSqlite.Storage MiniSqlite.Buffer MiniSqlite.Catalog
  MiniSqlite.Parser MiniSqlite.Planner

variable {Double : Type}

/-! ## Computations without access to the pool -/

/-- The computation ends with the value, whatever error codes it meets. -/
def Computes {α : Type} (call : Noted α) (value : α) : Prop :=
  ∃ notes, call.run = .ok (value, notes)

theorem computes_pure {α : Type} {value other : α} :
    Computes (pure value) other ↔ other = value := by
  constructor
  · rintro ⟨notes, same⟩
    exact (Prod.mk.inj (Except.ok.inj same)).1.symm
  · rintro rfl
    exact ⟨[], rfl⟩

theorem computes_bind {α β : Type} {call : Noted α} {rest : α → Noted β} {result : β} :
    Computes (call >>= rest) result ↔
      ∃ value, Computes call value ∧ Computes (rest value) result := by
  rw [Computes, noted_run_bind]
  constructor
  · rintro ⟨notes, same⟩
    cases first : call.run with
    | error fault => rw [first] at same; cases same
    | ok entry =>
        obtain ⟨value, before⟩ := entry
        rw [first, ok_bind] at same
        dsimp only at same
        cases second : (rest value).run with
        | error fault => rw [second] at same; cases same
        | ok outcome =>
            rw [second, ok_bind] at same
            obtain ⟨rfl, -⟩ := Prod.mk.inj (Except.ok.inj same)
            exact ⟨value, ⟨before, first⟩, outcome.2, second⟩
  · rintro ⟨value, ⟨notes, first⟩, more, second⟩
    refine ⟨notes ++ more, ?_⟩
    rw [first, ok_bind]
    dsimp only
    rw [second, ok_bind]

theorem computes_map {α β : Type} {call : Noted α} {f : α → β} {result : β} :
    Computes (f <$> call) result ↔ ∃ value, Computes call value ∧ result = f value := by
  have mapped : (f <$> call) = (call >>= fun value => pure (f value)) := by
    show WriterT.mk _ = WriterT.mk _
    congr 1
    show _ = (call.run >>= _)
    cases call.run with
    | error fault => rfl
    | ok entry => simp
  rw [mapped, computes_bind]
  simp only [computes_pure]

theorem Computes.unique {α : Type} {call : Noted α} {value other : α} (first : Computes call value)
    (second : Computes call other) : value = other := by
  obtain ⟨notes, first⟩ := first
  obtain ⟨more, second⟩ := second
  rw [first] at second
  exact (Prod.mk.inj (Except.ok.inj second)).1

/-- A loop, from its last turn. -/
theorem computes_foldlM_concat {α State : Type} {step : State → α → Noted State} {items : List α}
    {item : α} {start finish : State} :
    Computes ((items ++ [item]).foldlM step start) finish ↔
      ∃ before, Computes (items.foldlM step start) before ∧ Computes (step before item) finish := by
  induction items generalizing start with
  | nil =>
      simp only [List.nil_append, List.foldlM_cons, List.foldlM_nil, computes_bind, computes_pure]
      constructor
      · rintro ⟨_, stepped, rfl⟩
        exact ⟨start, rfl, stepped⟩
      · rintro ⟨_, rfl, stepped⟩
        exact ⟨_, stepped, rfl⟩
  | cons first items ih =>
      simp only [List.cons_append, List.foldlM_cons, computes_bind, ih]
      constructor
      · rintro ⟨middle, stepped, before, others, last⟩
        exact ⟨before, ⟨middle, stepped, others⟩, last⟩
      · rintro ⟨before, ⟨middle, stepped, others⟩, last⟩
        exact ⟨middle, stepped, before, others, last⟩

theorem fault?_eventsOf {α : Type} {call : Noted (List α)} :
    Event.fault? (eventsOf call) = none ↔ ∃ values, Computes call values := by
  constructor
  · intro clean
    rw [eventsOf] at clean
    cases ran : call.run with
    | error fault => rw [ran] at clean; cases clean
    | ok entry => exact ⟨entry.1, entry.2, ran⟩
  · rintro ⟨values, notes, ran⟩
    exact (Event.clean_ofCall ran).1

theorem Computes.items {α : Type} {call : Noted (List α)} {values : List α}
    (computes : Computes call values) : Event.items (eventsOf call) = values := by
  obtain ⟨notes, ran⟩ := computes
  exact (Event.clean_ofCall ran).2

section Evaluating

variable [Platform Double]

/-- The value of an expression on a tuple, `NULL` where evaluating it fails. -/
def valueOf (schema : SchemaPointer) (tuple : Tuple Double) (expr : Expr Double) : Value Double :=
  match (exprEvaluate (some tuple) schema expr).run with
  | .ok (.ok value) => value
  | _ => .null

/-- Evaluating the expression on the tuple leaves nothing that C defines. -/
def Defined (schema : SchemaPointer) (tuple : Tuple Double) (expr : Expr Double) : Prop :=
  ∃ outcome, (exprEvaluate (some tuple) schema expr).run = .ok outcome

/-- Whether a tuple passes a condition, if there is one. -/
def holds (schema : SchemaPointer) (predicate : Option (Expr Double)) (tuple : Tuple Double) : Bool :=
  predicate.all fun condition => isTrue (valueOf schema tuple condition)

variable {schema : SchemaPointer} {tuple : Tuple Double}

theorem evaluate_computes {expr : Expr Double} {value : Value Double} :
    Computes (evaluate tuple schema expr) value ↔
      Defined schema tuple expr ∧ value = valueOf schema tuple expr := by
  rw [Computes, evaluate, orNull, noted_run_bind, attempted_run, Defined, valueOf]
  rcases (exprEvaluate (some tuple) schema expr).run with fault | (rc | known)
  · simp [bind, Except.bind]
  · simp only [ok_bind, noted_run_pure, Except.ok.injEq, Prod.mk.injEq, exists_eq', true_and,
      exists_and_left, and_true]
    exact eq_comm
  · simp only [ok_bind, noted_run_pure, Except.ok.injEq, Prod.mk.injEq, exists_eq', true_and,
      exists_and_left, and_true]
    exact eq_comm

theorem evaluateAll_computes {exprs : List (Expr Double)} {values : List (Value Double)} :
    Computes (evaluateAll tuple schema exprs) values ↔
      (∀ expr ∈ exprs, Defined schema tuple expr) ∧
        values = exprs.map (valueOf schema tuple) := by
  induction exprs generalizing values with
  | nil => simp [evaluateAll, computes_pure]
  | cons expr exprs ih =>
      simp only [evaluateAll, computes_bind, computes_pure, evaluate_computes, ih,
        List.forall_mem_cons, List.map_cons]
      constructor
      · rintro ⟨_, ⟨defined, rfl⟩, _, ⟨others, rfl⟩, rfl⟩
        exact ⟨⟨defined, others⟩, rfl⟩
      · rintro ⟨⟨defined, others⟩, rfl⟩
        exact ⟨_, ⟨defined, rfl⟩, _, ⟨others, rfl⟩, rfl⟩

theorem passes_computes {predicate : Option (Expr Double)} {passed : Bool} :
    Computes (passes schema predicate tuple) passed ↔
      (∀ condition ∈ predicate, Defined schema tuple condition) ∧
        passed = holds schema predicate tuple := by
  cases predicate with
  | none => simp [passes, computes_pure, holds]
  | some condition =>
      simp only [passes, computes_bind, computes_pure, evaluate_computes, Option.mem_some_iff,
        forall_eq', holds, Option.all_some]
      constructor
      · rintro ⟨_, ⟨defined, rfl⟩, rfl⟩
        exact ⟨defined, rfl⟩
      · rintro ⟨defined, rfl⟩
        exact ⟨_, ⟨defined, rfl⟩, rfl⟩

end Evaluating

/-! ## What a tree yields -/

section Yields

variable [Platform Double] {store : PageStore} {exec child : ExecutorT Double PageId}
variable {tuples : List (Tuple Double)}

/-- Pulled to its end, the tree gives the tuples, and C defines all that happens on the way. -/
def Yields (store : PageStore) (exec : ExecutorT Double PageId) (tuples : List (Tuple Double)) :
    Prop :=
  Event.fault? (exec.events store true) = none ∧ tuples = Event.items (exec.events store true)

instance [DecidableEq Double] : Decidable (Yields store exec tuples) :=
  inferInstanceAs (Decidable (_ ∧ _))

theorem Yields.unique {other : List (Tuple Double)} (first : Yields store exec tuples)
    (second : Yields store exec other) : tuples = other :=
  first.2.trans second.2.symm

/-- What a run that has ended has given is what the tree yields. -/
theorem yields_of_run (ready : exec.Ready store) {turns : Nat} {log : List Int}
    {session : Session PageStore}
    (ran : (runExecutor turns exec).run ⟨store, log⟩ = .ok (tuples, session)) :
    Yields store exec tuples ∧ session.bpm = store := by
  have same := @runExecutor_query _ _ _ (· = .unending) _ ready turns (.inr rfl) log
  rw [ran, queryOutcome] at same
  cases faulty : Event.fault? (exec.events store true) with
  | some fault => rw [faulty] at same; cases same
  | none =>
      rw [faulty] at same
      cases same with
      | ok related =>
          obtain ⟨rfl, rfl⟩ := Prod.mk.inj related
          exact ⟨⟨faulty, rfl⟩, rfl⟩

/-- With enough turns a tree gives what it yields. -/
theorem Yields.ends (ready : exec.Ready store) (yields : Yields store exec tuples) :
    ∃ bound, ∀ turns, bound ≤ turns → ∀ log, ∃ errors,
      (runExecutor turns exec).run ⟨store, log⟩ = .ok (tuples, ⟨store, log ++ errors⟩) := by
  refine ⟨exec.need store true + (exec.events store true).length + 1, fun turns enough log =>
    ⟨Event.notes (exec.events store true), ?_⟩⟩
  have same := @runExecutor_query _ _ _ (fun _ => False) _ ready _ (.inl enough) log
  rw [queryOutcome, yields.1] at same
  generalize (runExecutor turns exec).run ⟨store, log⟩ = outcome at same ⊢
  cases same with
  | ok related => rw [related, yields.2]
  | excused impossible => exact impossible.elim

/-- With enough turns, pulling the tree to its end gives the tuples. -/
def Gives (store : PageStore) (exec : ExecutorT Double PageId) (tuples : List (Tuple Double)) :
    Prop :=
  ∃ bound, ∀ turns, bound ≤ turns → ∀ log, ∃ errors,
    (runExecutor turns exec).run ⟨store, log⟩ = .ok (tuples, ⟨store, log ++ errors⟩)

theorem gives_iff_yields (ready : exec.Ready store) :
    Gives store exec tuples ↔ Yields store exec tuples := by
  constructor
  · rintro ⟨bound, ends⟩
    obtain ⟨errors, ran⟩ := ends bound (Nat.le_refl _) []
    exact (yields_of_run ready ran).1
  · exact Yields.ends ready

omit [Platform Double] in
/-- The rows of one stream replaced by the rows of others. -/
theorem yields_bindItems {events : List (RowEvent Double)}
    {replace : Tuple Double → List (RowEvent Double)} :
    (Event.fault? (Event.bindItems events replace) = none ∧
        tuples = Event.items (Event.bindItems events replace)) ↔
      Event.fault? events = none ∧
        (∀ row ∈ Event.items events, Event.fault? (replace row) = none) ∧
          tuples = (Event.items events).flatMap fun row => Event.items (replace row) := by
  constructor
  · rintro ⟨clean, rfl⟩
    obtain ⟨inner, replaced⟩ := Event.fault?_bindItems.mp clean
    exact ⟨inner, replaced, Event.items_bindItems clean⟩
  · rintro ⟨inner, replaced, rfl⟩
    have clean := Event.fault?_bindItems.mpr ⟨inner, replaced⟩
    exact ⟨clean, (Event.items_bindItems clean).symm⟩

theorem fault?_passEvents {schema : SchemaPointer} {predicate : Option (Expr Double)}
    {row : Tuple Double} :
    Event.fault? (passEvents (passes schema predicate) row) = none ↔
      ∀ condition ∈ predicate, Defined schema row condition := by
  simp only [passEvents, fault?_eventsOf, computes_map, passes_computes]
  constructor
  · rintro ⟨_, _, ⟨defined, -⟩, -⟩
    exact defined
  · exact fun defined => ⟨_, _, ⟨defined, rfl⟩, rfl⟩

theorem items_passEvents {schema : SchemaPointer} {predicate : Option (Expr Double)}
    {row : Tuple Double} (defined : ∀ condition ∈ predicate, Defined schema row condition) :
    Event.items (passEvents (passes schema predicate) row) =
      if holds schema predicate row then [row] else [] :=
  Computes.items (computes_map.mpr ⟨_, passes_computes.mpr ⟨defined, rfl⟩, rfl⟩)

theorem flatMap_passEvents {schema : SchemaPointer} {predicate : Option (Expr Double)}
    {rows : List (Tuple Double)}
    (defined : ∀ row ∈ rows, ∀ condition ∈ predicate, Defined schema row condition) :
    (rows.flatMap fun row => Event.items (passEvents (passes schema predicate) row)) =
      rows.filter (holds schema predicate) := by
  rw [← flatMap_guard]
  exact List.flatMap_congr fun row member => items_passEvents (defined row member)

/-- The tuples a scan has of a row. -/
def rowEvents (schema : Schema) (predicate : Option (Expr Double)) (row : Rid × List UInt8) :
    List (RowEvent Double) :=
  eventsOf (Option.toList <$> scanRow schema predicate row)

theorem fault?_rowEvents {schema : Schema} {predicate : Option (Expr Double)}
    {row : Rid × List UInt8} :
    Event.fault? (rowEvents schema predicate row) = none ↔
      ∃ found, Computes (scanRow schema predicate row) found := by
  simp only [rowEvents, fault?_eventsOf, computes_map]
  constructor
  · rintro ⟨_, found, computes, -⟩
    exact ⟨found, computes⟩
  · rintro ⟨found, computes⟩
    exact ⟨_, found, computes, rfl⟩

theorem items_rowEvents {schema : Schema} {predicate : Option (Expr Double)}
    {row : Rid × List UInt8} {found : Option (Tuple Double)}
    (computes : Computes (scanRow schema predicate row) found) :
    Event.items (rowEvents schema predicate row) = found.toList :=
  Computes.items (computes_map.mpr ⟨_, computes, rfl⟩)

theorem Computes.delivered {schema : Schema} {predicate : Option (Expr Double)}
    {row : Rid × List UInt8} {found : Option (Tuple Double)}
    (computes : Computes (scanRow schema predicate row) found) :
    delivered schema predicate row = found := by
  obtain ⟨notes, ran⟩ := computes
  exact delivered_eq ran

omit [Platform Double] in
/-- The scan of a table is ready to run. -/
theorem scanExecutor_ready {db : Database PageStore} (sound : TablesSound db)
    {tableName : CString} {tableMeta : TableMeta} {schema : Schema}
    (found : lookUpTable db.catalog tableName = some (tableMeta, schema))
    (predicate : Option (Expr Double)) : (scanExecutor tableMeta schema predicate).Ready db.bpm := by
  obtain ⟨chain, tableSound⟩ := sound _ _ (lookUpTable_eq found).1
  exact ⟨⟨chain, tableSound.chained, tableSound.length_lt⟩, chain, ⟨tableSound.chained, by simp [startIter]⟩,
    tableSound.length_lt⟩

variable {firstPageId : PageId} {schema : Schema} {iter : BpmHeapIter PageId}

/-- A scan yields the rows of its table that can be read and that pass. -/
theorem yields_seqScan {predicate : Option (Expr Double)} :
    Yields store (.seqScan firstPageId schema predicate iter) tuples ↔
      (∀ row ∈ rowsOf store (startIter firstPageId),
        ∃ found, Computes (scanRow schema predicate row) found) ∧
        tuples = (rowsOf store (startIter firstPageId)).filterMap (delivered schema predicate) := by
  have items := Event.clean_items (ε := Fault) (ν := Int) (rowsOf store (startIter firstPageId))
  have events : (ExecutorT.seqScan firstPageId schema predicate iter).events store true =
      Event.bindItems ((rowsOf store (startIter firstPageId)).map .item)
        (rowEvents schema predicate) := by
    rw [Event.bindItems, List.flatMap_map]
    rfl
  have found : ∀ row, (∃ found, Computes (scanRow schema predicate row) found) →
      Event.items (rowEvents schema predicate row) = (delivered schema predicate row).toList := by
    rintro row ⟨found, computes⟩
    rw [items_rowEvents computes, computes.delivered]
  rw [Yields, events]
  constructor
  · rintro ⟨clean, rfl⟩
    obtain ⟨-, computes⟩ := Event.fault?_bindItems.mp clean
    rw [items.2] at computes
    simp only [fault?_rowEvents] at computes
    refine ⟨computes, ?_⟩
    rw [Event.items_bindItems clean, items.2, List.filterMap_eq_flatMap_toList]
    exact List.flatMap_congr fun row member => found row (computes row member)
  · rintro ⟨computes, rfl⟩
    have clean : Event.fault? (Event.bindItems ((rowsOf store (startIter firstPageId)).map .item)
        (rowEvents schema predicate)) = none := by
      refine Event.fault?_bindItems.mpr ⟨items.1, ?_⟩
      rw [items.2]
      exact fun row member => fault?_rowEvents.mpr (computes row member)
    refine ⟨clean, ?_⟩
    rw [Event.items_bindItems clean, items.2, List.filterMap_eq_flatMap_toList]
    exact (List.flatMap_congr fun row member => found row (computes row member)).symm

omit [Platform Double] in
/-- `combine_tuples`. -/
def combineTuples (left right : Tuple Double) : Tuple Double :=
  ⟨left.values ++ right.values, invalidRid⟩

/-- The pairs that pass, the left row outermost. -/
def joinRows (schema : SchemaPointer) (condition : Option (Expr Double))
    (left right : List (Tuple Double)) : List (Tuple Double) :=
  left.flatMap fun row => (right.map (combineTuples row)).filter (holds schema condition)

/-- A join yields the pairs of its children's rows on which the condition is true. The
right child is not looked at if there is no left row. -/
theorem yields_nlJoin {condition : Option (Expr Double)} {outputSchema : Schema}
    {currentOuter : Option (Tuple Double)} {outer inner : ExecutorT Double PageId} :
    Yields store (.nlJoin condition outputSchema currentOuter outer inner) tuples ↔
      ∃ left right, Yields store outer left ∧ (left ≠ [] → Yields store inner right) ∧
        (∀ first ∈ left, ∀ second ∈ right, ∀ expr ∈ condition,
          Defined (.to outputSchema) (combineTuples first second) expr) ∧
        tuples = joinRows (.to outputSchema) condition left right := by
  have pairs : ∀ {first : Tuple Double} {right : List (Tuple Double)},
      (∀ second ∈ right, ∀ expr ∈ condition,
        Defined (.to outputSchema) (combineTuples first second) expr) →
      (right.flatMap fun second =>
        Event.items (pairEvents (passes (.to outputSchema) condition) first second)) =
        (right.map (combineTuples first)).filter (holds (.to outputSchema) condition) := by
    intro first right defined
    rw [← flatMap_passEvents (by simpa using defined), List.flatMap_map]
    rfl
  have events : (ExecutorT.nlJoin condition outputSchema currentOuter outer inner).events store true =
      Event.bindItems (outer.events store true) fun first =>
        Event.bindItems (inner.events store true)
          (pairEvents (passes (.to outputSchema) condition) first) := by
    cases currentOuter <;> rfl
  rw [Yields, events, yields_bindItems]
  simp only [Event.fault?_bindItems, pairEvents, fault?_passEvents]
  constructor
  · rintro ⟨ended, inside, rfl⟩
    refine ⟨_, Event.items (inner.events store true), ⟨ended, rfl⟩, fun some => ?_,
      fun first member => (inside first member).2, ?_⟩
    · obtain ⟨first, member⟩ := List.exists_mem_of_ne_nil _ some
      exact ⟨(inside first member).1, rfl⟩
    · refine List.flatMap_congr fun first member => ?_
      obtain ⟨endedInner, defined⟩ := inside first member
      rw [Event.items_bindItems, pairs defined]
      exact Event.fault?_bindItems.mpr ⟨endedInner, fun second within =>
        fault?_passEvents.mpr (defined second within)⟩
  · rintro ⟨left, right, ⟨ended, rfl⟩, yieldsInner, defined, rfl⟩
    have inside : ∀ first ∈ Event.items (outer.events store true),
        Event.fault? (inner.events store true) = none ∧
          right = Event.items (inner.events store true) := fun first member =>
      yieldsInner (List.ne_nil_of_mem member)
    refine ⟨ended, fun first member => ⟨(inside first member).1, ?_⟩, ?_⟩
    · rw [← (inside first member).2]
      exact defined first member
    · refine List.flatMap_congr fun first member => ?_
      obtain ⟨endedInner, rfl⟩ := inside first member
      rw [Event.items_bindItems, pairs (defined first member)]
      exact Event.fault?_bindItems.mpr ⟨endedInner, fun second within =>
        fault?_passEvents.mpr (defined first member second within)⟩

/-! ### Operators that read all rows first -/

omit [Platform Double] in
theorem foldValues_computes {Acc : Type} {step : Acc → Tuple Double → Noted Acc} {acc last : Acc}
    {rows : List (Tuple Double)} :
    Event.foldValues (fun acc tuple => (step acc tuple).run) acc rows = .ok last ↔
      Computes (rows.foldlM step acc) last := by
  induction rows generalizing acc with
  | nil =>
      rw [Event.foldValues, List.foldlM_nil, computes_pure, Except.ok.injEq]
      exact eq_comm
  | cons row rows ih =>
      rw [Event.foldValues, List.foldlM_cons, computes_bind]
      constructor
      · intro folded
        cases stepped : (step acc row).run with
        | error fault => rw [stepped] at folded; cases folded
        | ok entry =>
            rw [stepped] at folded
            exact ⟨entry.1, ⟨entry.2, stepped⟩, ih.mp folded⟩
      · rintro ⟨middle, ⟨notes, stepped⟩, others⟩
        rw [stepped]
        exact ih.mpr others

/-- Grouping yields one row for each group it has made of the rows of its child. -/
theorem yields_hashAgg {groupBy aggregates : List (Expr Double)}
    {groups : Option (List (AggGroup Double))} :
    Yields store (.hashAgg groupBy aggregates groups child) tuples ↔
      ∃ rows last, Yields store child rows ∧
        Computes (rows.foldlM (addToGroups groupBy aggregates child.outputSchema) []) last ∧
        tuples = last.map (groupRow groupBy aggregates) := by
  have events : (ExecutorT.hashAgg groupBy aggregates groups child).events store true =
      Event.fold (fun groups tuple =>
          (addToGroups groupBy aggregates child.outputSchema groups tuple).run)
        (groupEvents groupBy aggregates) [] (child.events store true) := by
    cases groups <;> rfl
  have emitted : ∀ groups : List (AggGroup Double),
      groupEvents groupBy aggregates groups =
        (groups.map (groupRow groupBy aggregates)).map .item := fun groups => by
    rw [groupEvents, List.map_map]
    rfl
  rw [Yields, events, Event.fault?_fold]
  constructor
  · rintro ⟨⟨ended, last, folded, -⟩, rfl⟩
    refine ⟨_, last, ⟨ended, rfl⟩, foldValues_computes.mp folded, ?_⟩
    rw [Event.items_fold ended folded, emitted, (Event.clean_items _).2]
  · rintro ⟨_, last, ⟨ended, rfl⟩, computes, rfl⟩
    have folded := foldValues_computes.mpr computes
    refine ⟨⟨ended, last, folded, ?_⟩, ?_⟩
    · rw [emitted, (Event.clean_items _).1]
    · rw [Event.items_fold ended folded, emitted, (Event.clean_items _).2]

end Yields

/-! ## What a `SELECT` yields -/

section Select

variable [Platform Double] {db after : Database PageStore} {select : SelectStmt Double}
variable {result : StatementResult Double} {turns : Nat}

/-- The query gets a tree, and the tree yields the tuples. -/
def SelectYields (db : Database PageStore) (select : SelectStmt Double)
    (tuples : List (Tuple Double)) : Prop :=
  ∃ exec, queryTree db.catalog select = some exec ∧ Yields db.bpm exec tuples

theorem outcomeOf_tree {exec : ExecutorT Double PageId}
    (found : queryTree db.catalog select = some exec) :
    outcomeOf db (.select select) =
      (queryOutcome (exec.events db.bpm true) [] >>= fun outcome =>
        .ok (pulled db exec.outputSchema (outcome.1, ⟨db.bpm, outcome.2⟩))) := by
  rw [queryTree] at found
  rw [outcomeOf]
  cases planned : plannerPlan db.catalog (Stmt.select select) with
  | none => rw [planned] at found; cases found
  | some plan =>
      rw [planned] at found
      dsimp only at found ⊢
      cases built : buildTree db.catalog plan with
      | error fault => rw [built] at found; cases found
      | ok tree =>
          rw [built] at found
          dsimp only at found
          subst found
          rfl

/-- What a query that has succeeded returns is what it yields. -/
theorem selectYields_of_execute (sound : TablesSound db)
    (ran : executionEngineExecute turns db (.select select) = .ok (after, result))
    (succeeded : result.code = .ok) : SelectYields db select result.tuples ∧ after = db := by
  have outcome := outcome_of_execute sound ran
  rcases selectOutcome_cases outcome with ⟨-, same⟩ | ⟨exec, found, -⟩
  · obtain ⟨-, rfl⟩ := Prod.mk.inj same
    cases succeeded
  · rw [outcomeOf_tree found, queryOutcome] at outcome
    cases faulty : Event.fault? (exec.events db.bpm true) with
    | some fault => rw [faulty] at outcome; cases outcome
    | none =>
        rw [faulty] at outcome
        obtain ⟨rfl, rfl⟩ := Prod.mk.inj (Except.ok.inj outcome)
        exact ⟨⟨exec, found, faulty, rfl⟩, rfl⟩

/-- With enough turns a query returns what it yields. -/
theorem SelectYields.ends (sound : TablesSound db) {tuples : List (Tuple Double)}
    (yields : SelectYields db select tuples) :
    ∃ bound, ∀ turns, bound ≤ turns → ∃ result,
      executionEngineExecute turns db (.select select) = .ok (db, result) ∧
        result.code = .ok ∧ result.tuples = tuples := by
  obtain ⟨exec, found, clean, rfl⟩ := yields
  obtain ⟨bound, ends⟩ := execute_ends sound (.select select)
  refine ⟨bound, fun turns enough => ?_⟩
  rw [ends turns enough, outcomeOf_tree found, queryOutcome, clean, ok_bind]
  exact ⟨_, rfl, rfl, rfl⟩

end Select

end MiniSqlite.Executor
