import MiniSqlite.Executor.HeapsRuns
import MiniSqlite.Executor.Statements

/-!
# Inserting rows

What `insert_next` does with a row of expressions. The loop around it ends with
the first row that has no tuple or that the heap refuses, and the statement
reports the rows before that one.
-/

namespace MiniSqlite.Executor

open MiniSqlite.Common MiniSqlite.Std MiniSqlite.Storage MiniSqlite.Buffer MiniSqlite.Catalog
  MiniSqlite.Parser MiniSqlite.Planner

variable {Double : Type} [Platform Double]

/-- The bytes that `insert_next` passes to the heap for a row. -/
def insertedBytes (tableSchema : Schema) (values : List (Expr Double)) : Checked (List UInt8) := do
  let tuple ← insertTuple tableSchema values
  heapBytes tuple tableSchema

/-- The row has a tuple, and its bytes are some. -/
def Insertable (tableSchema : Schema) (values : List (Expr Double)) : Prop :=
  ∃ bytes, (insertedBytes tableSchema values).run = .ok (.ok bytes) ∧ bytes ≠ []

theorem insertedBytes_run (tableSchema : Schema) (values : List (Expr Double)) :
    (insertedBytes tableSchema values).run =
      ((insertTuple tableSchema values).run >>= fun outcome =>
        match outcome with
        | .error rc => .ok (.error rc)
        | .ok tuple => heapBytes tuple tableSchema >>= fun bytes => .ok (.ok bytes)) := by
  rw [insertedBytes, ExceptT.run_bind]
  rcases (insertTuple tableSchema values).run with fault | (rc | tuple) <;> rfl

variable {firstPageId : PageId} {chain : List PageId} {store : PageStore}

omit [Platform Double] in
/-- The heap refuses nothing but the empty tuple. -/
theorem bpmHeapInsert_cases {hf after : StoreHeap} (sound : HeapSound hf chain) {tuple : List UInt8}
    {result : HeapResult} (inserted : bpmHeapInsert hf tuple = .ok (after, result)) :
    (tuple = [] ∧ after = hf ∧ result = { code := ErrorCode.invalidArgument.code }) ∨
      (tuple ≠ [] ∧ (∃ rid, result = { code := ErrorCode.ok.code, rid := some rid }) ∧
        ∃ chain', HeapSound after chain' ∧ HeapMoved hf after chain chain') := by
  by_cases empty : tuple = []
  · subst empty
    obtain ⟨same, refused⟩ := Prod.mk.inj (Except.ok.inj inserted)
    exact .inl ⟨rfl, same.symm, refused.symm⟩
  · have positive : 0 < tuple.length := List.length_pos_iff.mpr empty
    rcases findPageWithSpace_ends sound tuple.length with
      ⟨overflow, _⟩ | ⟨found, chain', pid, page, foundEq, grown, member, used, _⟩
    · rw [bpmHeapInsert, if_neg (Nat.ne_of_gt positive), overflow] at inserted
      cases inserted
    · rw [bpmHeapInsert_found positive foundEq used (slottedPageInsert_nonneg page tuple)] at inserted
      obtain ⟨rfl, rfl⟩ := Prod.mk.inj (Except.ok.inj inserted)
      refine .inr ⟨empty, ⟨_, rfl⟩, chain', grown.sound.insertInto member used tuple,
        grown.toHeapMoved.trans ⟨fun _ => rfl, fun other absent page' usedOther => ?_,
          fun _ inside absent => absurd inside absent⟩⟩
      have differ : other ≠ pid := by
        rintro rfl
        exact absent member
      dsimp only
      rw [PageStore.set_pages used, if_neg differ, usedOther]

/-- What `insert_next` does to a row: it is stored, or an error is met. -/
inductive InsertFate (tableSchema : Schema) (values : List (Expr Double)) (log : List Int)
    (before : StoreHeap) (chain : List PageId) :
    PageId × Option (Tuple Double) → Session PageStore → Prop where
  | stored {firstPageId : PageId} {after : PageStore} {chain' : List PageId} (tuple : Tuple Double)
      (insertable : Insertable tableSchema values)
      (sound : HeapSound ⟨after, firstPageId⟩ chain')
      (moved : HeapMoved before ⟨after, firstPageId⟩ chain chain') :
      InsertFate tableSchema values log before chain (firstPageId, some tuple) ⟨after, log⟩
  | refused (rc : Int) (uninsertable : ¬Insertable tableSchema values) :
      InsertFate tableSchema values log before chain (before.firstPageId, none)
        ⟨before.bpm, log ++ [rc]⟩

theorem insertNext_cases (sound : HeapSound ⟨store, firstPageId⟩ chain) {tableSchema : Schema}
    {values : List (Expr Double)} {log : List Int} {outcome : PageId × Option (Tuple Double)}
    {after : Session PageStore}
    (ran : (insertNext tableSchema firstPageId values).run ⟨store, log⟩ = .ok (outcome, after)) :
    InsertFate tableSchema values log ⟨store, firstPageId⟩ chain outcome after := by
  rw [insertNext, StateT.run_bind, note_run, attempted_run] at ran
  cases made : (insertTuple tableSchema values).run with
  | error fault => rw [made] at ran; cases ran
  | ok checked =>
      rw [made] at ran
      cases checked with
      | error rc =>
          obtain ⟨rfl, rfl⟩ := Prod.mk.inj (Except.ok.inj ran)
          refine .refused rc.code ?_
          rintro ⟨bytes, insertable, -⟩
          simp [insertedBytes_run, made, ok_bind] at insertable
      | ok tuple =>
          simp only [ok_bind, List.append_nil] at ran
          rw [StateT.run_bind, lift_run] at ran
          cases serialized : heapBytes tuple tableSchema with
          | error fault => rw [serialized] at ran; cases ran
          | ok bytes =>
              have bytes_eq : (insertedBytes tableSchema values).run = .ok (.ok bytes) := by
                simp only [insertedBytes_run, made, ok_bind, serialized]
              simp only [serialized, ok_bind] at ran
              rw [StateT.run_bind, onHeap_run] at ran
              cases inserted : bpmHeapInsert ⟨store, firstPageId⟩ bytes with
              | error fault => rw [inserted] at ran; cases ran
              | ok ended =>
                  obtain ⟨heap, result⟩ := ended
                  rw [inserted, ok_bind, ok_bind] at ran
                  rcases bpmHeapInsert_cases sound inserted with
                    ⟨rfl, rfl, rfl⟩ | ⟨some, ⟨rid, rfl⟩, chain', sound', moved⟩
                  · obtain ⟨rfl, rfl⟩ := Prod.mk.inj (Except.ok.inj ran)
                    refine .refused ErrorCode.invalidArgument.code ?_
                    rintro ⟨other, otherEq, nonempty⟩
                    rw [bytes_eq, Except.ok.injEq, Except.ok.injEq] at otherEq
                    exact nonempty otherEq.symm
                  · obtain ⟨rfl, rfl⟩ := Prod.mk.inj (Except.ok.inj ran)
                    have quiet : errorsOf { code := ErrorCode.ok.code, rid := rid } = [] := rfl
                    rw [quiet, List.append_nil]
                    exact .stored _ ⟨bytes, bytes_eq, some⟩ sound' moved

/-- What is found where `insert_next` says it has stored a row are the bytes of its tuple. -/
theorem insertNext_contents (sound : HeapSound ⟨store, firstPageId⟩ chain) {tableSchema : Schema}
    {values : List (Expr Double)} {log : List Int} {firstPageId' : PageId} {tuple : Tuple Double}
    {after : Session PageStore} {bytes : List UInt8}
    (ran : (insertNext tableSchema firstPageId values).run ⟨store, log⟩ =
      .ok ((firstPageId', some tuple), after))
    (stored : heapContents ⟨after.bpm, firstPageId'⟩ tuple.rid = some bytes) :
    ∃ made, insertTuple tableSchema values = pure made ∧ heapBytes made tableSchema = .ok bytes := by
  rw [insertNext, StateT.run_bind, note_run, attempted_run] at ran
  rcases made : (insertTuple tableSchema values).run with fault | (rc | inserted)
  · rw [made] at ran; cases ran
  · rw [made] at ran; cases ran
  · rw [made] at ran
    simp only [ok_bind, List.append_nil] at ran
    rw [StateT.run_bind, lift_run] at ran
    cases serialized : heapBytes inserted tableSchema with
    | error fault => rw [serialized] at ran; cases ran
    | ok own =>
        refine ⟨inserted, made, serialized.trans (congrArg Except.ok ?_)⟩
        simp only [serialized, ok_bind] at ran
        rw [StateT.run_bind, onHeap_run] at ran
        cases called : bpmHeapInsert ⟨store, firstPageId⟩ own with
        | error fault => rw [called] at ran; cases ran
        | ok ended =>
            obtain ⟨heap, result⟩ := ended
            rw [called, ok_bind, ok_bind] at ran
            dsimp only at ran
            cases handed : result.rid with
            | none => rw [handed] at ran; cases ran
            | some rid =>
                rw [handed] at ran
                obtain ⟨returned, rfl⟩ := Prod.mk.inj (Except.ok.inj ran)
                obtain ⟨rfl, rowStored⟩ := Prod.mk.inj returned
                obtain rfl := Option.some.inj rowStored
                exact (bpmHeapInsert_contents sound (heapBytes_length serialized) called handed
                  stored).symm

/-- What the loop around `insert_next` does: it meets no error if every row can be stored. -/
theorem insertRows_cases (sound : HeapSound ⟨store, firstPageId⟩ chain) {tableSchema : Schema}
    {rows : List (List (Expr Double))} {log : List Int} {firstPageId' : PageId}
    {tuples : List (Tuple Double)} {after : Session PageStore}
    (ran : (insertRows tableSchema rows firstPageId).run ⟨store, log⟩ =
      .ok ((firstPageId', tuples), after)) :
    (∃ chain', HeapSound ⟨after.bpm, firstPageId'⟩ chain' ∧
        HeapMoved ⟨store, firstPageId⟩ ⟨after.bpm, firstPageId'⟩ chain chain') ∧
      ∃ errors, after.errors = log ++ errors ∧
        (errors = [] ↔ ∀ values ∈ rows, Insertable tableSchema values) := by
  induction rows generalizing firstPageId chain store tuples with
  | nil =>
      obtain ⟨same, rfl⟩ := Prod.mk.inj (Except.ok.inj ran)
      obtain ⟨rfl, -⟩ := Prod.mk.inj same
      exact ⟨⟨chain, sound, .refl _ _⟩, [], by simp, by simp⟩
  | cons values rows ih =>
      rw [insertRows, StateT.run_bind] at ran
      cases first : (insertNext tableSchema firstPageId values).run ⟨store, log⟩ with
      | error fault => rw [first] at ran; cases ran
      | ok ended =>
          obtain ⟨inserted, session⟩ := ended
          rw [first, ok_bind] at ran
          cases insertNext_cases sound first with
          | refused rc uninsertable =>
              obtain ⟨same, rfl⟩ := Prod.mk.inj (Except.ok.inj ran)
              obtain ⟨rfl, -⟩ := Prod.mk.inj same
              exact ⟨⟨chain, sound, .refl _ _⟩, [rc], rfl, by simp [uninsertable]⟩
          | @stored middle store' chain' tuple insertable sound' moved =>
              dsimp only at ran
              rw [StateT.run_bind] at ran
              cases others : (insertRows tableSchema rows middle).run ⟨store', log⟩ with
              | error fault => rw [others] at ran; cases ran
              | ok ended =>
                  obtain ⟨⟨last, rest⟩, session⟩ := ended
                  rw [others, ok_bind] at ran
                  obtain ⟨same, rfl⟩ := Prod.mk.inj (Except.ok.inj ran)
                  obtain ⟨rfl, -⟩ := Prod.mk.inj same
                  obtain ⟨⟨chain'', sound'', moved'⟩, errors, errors_eq, errors_iff⟩ := ih sound' others
                  exact ⟨⟨chain'', sound'', moved.trans moved'⟩, errors, errors_eq,
                    by simp [errors_iff, insertable]⟩

/-- The catalog after an `INSERT`, which may have given the table its first page. -/
def rootUpdated (cat : CatalogT) (tableMeta : TableMeta) (firstPageId : PageId) : CatalogT :=
  if firstPageId ≠ invalidPageId ∧ tableMeta.rootPageId = invalidPageId
  then (catalogUpdateRootPage cat tableMeta.tableId firstPageId).1 else cat

/-- What an `INSERT` that ends has done. -/
theorem insertOutcome_cases {db after : Database PageStore} {result : StatementResult Double}
    {tableName : CString} {rows : List (List (Expr Double))}
    (outcome : outcomeOf db (.insert tableName columns rows) = .ok (after, result)) :
    (lookUpTable db.catalog tableName = none ∧ ∃ code, (after, result) = ended db code none) ∨
      ∃ tableMeta schema firstPageId tuples session,
        lookUpTable db.catalog tableName = some (tableMeta, schema) ∧
        (insertRows schema rows tableMeta.rootPageId).run ⟨db.bpm, []⟩ =
          .ok ((firstPageId, tuples), session) ∧
        after = ⟨rootUpdated db.catalog tableMeta firstPageId, session.bpm⟩ ∧
        result = {
          code := .ok
          tuples := tuples
          schema := .to schema
          affected := some tuples.length
          errors := session.errors } := by
  have ran : executeDml 0 db (.insert tableName columns rows) = .ok (after, result) := outcome
  rw [executeDml, plannerPlan, plannerPlanLogical] at ran
  cases known : catalogGetTable db.catalog tableName with
  | error rc =>
      rw [known] at ran
      exact .inl ⟨by simp [lookUpTable, known], _, (Except.ok.inj ran).symm⟩
  | ok tableMeta =>
      simp only [known, Except.toOption, Option.map_some, executeInsert] at ran
      cases schemaKnown : catalogGetSchema db.catalog tableMeta.tableId with
      | error rc =>
          rw [schemaKnown] at ran
          exact .inl ⟨by simp [lookUpTable, known, schemaKnown], _, (Except.ok.inj ran).symm⟩
      | ok schema =>
          rw [schemaKnown] at ran
          dsimp only at ran
          cases inserted : (insertRows schema rows tableMeta.rootPageId).run ⟨db.bpm, []⟩ with
          | error fault => rw [inserted] at ran; cases ran
          | ok ended =>
              obtain ⟨⟨firstPageId, tuples⟩, session⟩ := ended
              rw [inserted] at ran
              obtain ⟨rfl, rfl⟩ := Prod.mk.inj (Except.ok.inj ran)
              exact .inr ⟨tableMeta, schema, firstPageId, tuples, session,
                by simp [lookUpTable, known, schemaKnown], inserted, rfl, rfl⟩

end MiniSqlite.Executor
