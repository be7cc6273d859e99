import MiniSqlite.Executor.TupleChanges

/-!
# Updating and deleting the rows of a table

What `changeRows` makes of a table. A `DELETE` deletes every row that its scan
delivers. An `UPDATE` stops at the first row whose new tuple cannot be computed
and passes over rows whose new tuple does not fit; `UpdatesFit` says that
neither happens.
-/

namespace MiniSqlite.Executor

open MiniSqlite.Common MiniSqlite.Std MiniSqlite.Storage MiniSqlite.Buffer MiniSqlite.Parser

variable {Double : Type} [Platform Double]

/-! ## The rows a scan delivers -/

/-- The tuple a scan delivers of a row, if it does. -/
def delivered (tableSchema : Schema) (predicate : Option (Expr Double))
    (row : Rid × List UInt8) : Option (Tuple Double) :=
  match (scanRow tableSchema predicate row).run with
  | .ok (found, _) => found
  | .error _ => none

/-- The error codes a scan meets at a row. -/
def scanErrors (tableSchema : Schema) (predicate : Option (Expr Double))
    (row : Rid × List UInt8) : List Int :=
  match (scanRow tableSchema predicate row).run with
  | .ok (_, errors) => errors
  | .error _ => []

section Delivered

variable {tableSchema : Schema} {predicate : Option (Expr Double)} {row : Rid × List UInt8}
variable {found : Option (Tuple Double)} {notes : List Int}

theorem delivered_eq (scanned : (scanRow tableSchema predicate row).run = .ok (found, notes)) :
    delivered tableSchema predicate row = found := by
  rw [delivered, scanned]

theorem scanErrors_eq (scanned : (scanRow tableSchema predicate row).run = .ok (found, notes)) :
    scanErrors tableSchema predicate row = notes := by
  rw [scanErrors, scanned]

theorem delivered_rid {old : Tuple Double} (found : delivered tableSchema predicate row = some old) :
    old.rid = row.1 := by
  cases scanned : (scanRow tableSchema predicate row).run with
  | error fault => simp [delivered, scanned] at found
  | ok outcome =>
      obtain ⟨tuple, notes⟩ := outcome
      rw [delivered_eq scanned] at found
      subst found
      exact scanRow_rid tableSchema predicate scanned

/-- The tuples delivered come from different rows. -/
theorem rid_of_mem_delivered {rows : List (Rid × List UInt8)} {old : Tuple Double}
    (member : old ∈ rows.filterMap (delivered tableSchema predicate)) :
    old.rid ∈ rows.map Prod.fst := by
  obtain ⟨row, inRows, found⟩ := List.mem_filterMap.mp member
  rw [delivered_rid found]
  exact List.mem_map_of_mem inRows

end Delivered

/-- A scan delivers the rows that deserialize and on which the predicate is `TRUE`. -/
theorem delivered_iff {tableSchema : Schema} {predicate : Option (Expr Double)}
    {row : Rid × List UInt8} {old : Tuple Double} :
    delivered tableSchema predicate row = some old ↔
      (∃ tuple : Tuple Double, (tupleDeserialize tableSchema row.2).run = .ok (.ok tuple) ∧
        old = { tuple with rid := row.1 }) ∧
      ∀ condition ∈ predicate,
        (exprEvaluate (some old) (.to tableSchema) condition).run = .ok (.ok (.boolean true)) := by
  rw [delivered, scanRow_run]
  rcases (tupleDeserialize tableSchema row.2 : Checked (Tuple Double)).run with fault | (rc | tuple)
  · simp [bind, Except.bind]
  · simp [ok_bind]
  · simp only [ok_bind, Except.ok.injEq, exists_eq_left']
    cases predicate with
    | none =>
        constructor
        · intro found
          exact ⟨(Option.some.inj found).symm, fun _ absent => absurd absent (by simp)⟩
        · rintro ⟨rfl, -⟩
          rfl
    | some condition =>
        rw [passes_some_run]
        constructor
        · intro found
          rcases value : (exprEvaluate (some { tuple with rid := row.1 }) (.to tableSchema)
            condition).run with fault | (rc | value) <;> rw [value] at found
          · cases found
          · cases found
          · simp only [ok_bind] at found
            split at found
            · rename_i passed
              obtain rfl := Option.some.inj found
              refine ⟨rfl, fun _ same => ?_⟩
              rw [← Option.some.inj same, value, isTrue_iff.mp passed]
            · cases found
        · rintro ⟨rfl, holds⟩
          rw [holds condition rfl]
          rfl

section Statements

variable (tableSchema : Schema) (predicate : Option (Expr Double))
variable (assignments : List (Assignment Double))

/-- Every row delivered has a new tuple that fits when its turn comes. -/
def UpdatesFit : PageStore → List (Rid × List UInt8) → Prop
  | _, [] => True
  | store, row :: rows =>
      match delivered tableSchema predicate row with
      | none => UpdatesFit store rows
      | some old =>
          ∃ bytes, (updatedBytes tableSchema assignments old).run = .ok (.ok bytes) ∧
            RowFits store old.rid bytes ∧ UpdatesFit (updatedRow store old.rid bytes) rows

variable (firstPageId : PageId)

/-- The tuples delivered have been replaced by their new ones. -/
structure RowsUpdated (rows : List (Rid × List UInt8)) (after : PageStore)
    (changed : List (Tuple Double)) (errors : List Int) : Prop where
  changed_eq : changed = rows.filterMap (delivered tableSchema predicate)
  errors_eq : errors = rows.flatMap (scanErrors tableSchema predicate)
  contents : ∀ old ∈ changed, ∃ bytes,
    (updatedBytes tableSchema assignments old).run = .ok (.ok bytes) ∧
      heapContents ⟨after, firstPageId⟩ old.rid = some bytes

/-- Some tuple delivered has not been replaced, and an error has been met. -/
structure RowsSkipped (rows : List (Rid × List UInt8)) (changed : List (Tuple Double))
    (errors : List Int) : Prop where
  fewer : changed.length < (rows.filterMap (delivered tableSchema predicate)).length
  failed : errors ≠ []

/-- What becomes of a table. -/
structure TableUpdated (chain : List PageId) (rows : List (Rid × List UInt8))
    (before after : PageStore) (changed : List (Tuple Double)) (errors : List Int) : Prop where
  sound : HeapSound ⟨after, firstPageId⟩ chain
  others : ∀ rid, rid ∉ (rows.filterMap (delivered tableSchema predicate)).map Tuple.rid →
    heapContents ⟨after, firstPageId⟩ rid = heapContents ⟨before, firstPageId⟩ rid
  outcome :
    UpdatesFit tableSchema predicate assignments before rows ∧
        RowsUpdated tableSchema predicate assignments firstPageId rows after changed errors ∨
      ¬UpdatesFit tableSchema predicate assignments before rows ∧
        RowsSkipped tableSchema predicate rows changed errors

end Statements

section Runs

variable {tableSchema : Schema} {predicate : Option (Expr Double)}
variable {assignments : List (Assignment Double)} {firstPageId : PageId} {chain : List PageId}
variable {row : Rid × List UInt8} {rows : List (Rid × List UInt8)} {before after : PageStore}
variable {changed : List (Tuple Double)} {errors : List Int}

/-! ## `UPDATE` -/

/-- A row that is not delivered. -/
theorem TableUpdated.pass {notes : List Int}
    (scanned : (scanRow tableSchema predicate row).run = .ok (none, notes))
    (rest : TableUpdated tableSchema predicate assignments firstPageId chain rows before after
      changed errors) :
    TableUpdated tableSchema predicate assignments firstPageId chain (row :: rows) before after
      changed (notes ++ errors) := by
  have missing := delivered_eq scanned
  have matched : (row :: rows).filterMap (delivered tableSchema predicate) =
      rows.filterMap (delivered tableSchema predicate) := List.filterMap_cons_none missing
  have fits : UpdatesFit tableSchema predicate assignments before (row :: rows) ↔
      UpdatesFit tableSchema predicate assignments before rows := by
    rw [UpdatesFit, missing]
  refine ⟨rest.sound, by rw [matched]; exact rest.others, ?_⟩
  rw [fits]
  refine rest.outcome.imp (And.imp_right fun updated => ?_) (And.imp_right fun skipped => ?_)
  · refine ⟨updated.changed_eq.trans matched.symm, ?_, updated.contents⟩
    rw [List.flatMap_cons, scanErrors_eq scanned, ← updated.errors_eq]
  · refine ⟨by rw [matched]; exact skipped.fewer, fun none => skipped.failed ?_⟩
    exact (List.append_eq_nil_iff.mp none).2

/-- A row whose new tuple fits. -/
theorem TableUpdated.change {notes : List Int} {old : Tuple Double} {bytes : List UInt8}
    (stored : RowsStored firstPageId chain before (row :: rows))
    (scanned : (scanRow tableSchema predicate row).run = .ok (some old, notes))
    (made : (updatedBytes tableSchema assignments old).run = .ok (.ok bytes))
    (fits : RowFits before old.rid bytes)
    (changedRow : RowChanged firstPageId chain old.rid before (updatedRow before old.rid bytes))
    (content : heapContents ⟨updatedRow before old.rid bytes, firstPageId⟩ old.rid = some bytes)
    (rest : TableUpdated tableSchema predicate assignments firstPageId chain rows
      (updatedRow before old.rid bytes) after changed errors) :
    TableUpdated tableSchema predicate assignments firstPageId chain (row :: rows) before after
      (old :: changed) (notes ++ errors) := by
  have found := delivered_eq scanned
  have matched : (row :: rows).filterMap (delivered tableSchema predicate) =
      old :: rows.filterMap (delivered tableSchema predicate) := List.filterMap_cons_some found
  have here : old.rid ∉ (rows.filterMap (delivered tableSchema predicate)).map Tuple.rid := by
    intro member
    obtain ⟨other, inRest, same⟩ := List.mem_map.mp member
    exact stored.absent (delivered_rid found ▸ same ▸ rid_of_mem_delivered inRest)
  have fitsAll : UpdatesFit tableSchema predicate assignments before (row :: rows) ↔
      UpdatesFit tableSchema predicate assignments (updatedRow before old.rid bytes) rows := by
    rw [UpdatesFit, found]
    refine ⟨?_, fun restFits => ⟨bytes, made, fits, restFits⟩⟩
    rintro ⟨other, madeOther, -, restFits⟩
    rw [made, Except.ok.injEq, Except.ok.injEq] at madeOther
    exact madeOther ▸ restFits
  refine ⟨rest.sound, fun rid absent => ?_, ?_⟩
  · rw [matched, List.map_cons, List.mem_cons, not_or] at absent
    rw [rest.others rid absent.2, changedRow.others rid absent.1]
  · rw [fitsAll]
    refine rest.outcome.imp (And.imp_right fun updated => ?_) (And.imp_right fun skipped => ?_)
    · refine ⟨by rw [matched, updated.changed_eq], ?_, fun other member => ?_⟩
      · rw [List.flatMap_cons, scanErrors_eq scanned, ← updated.errors_eq]
      · rcases List.mem_cons.mp member with rfl | inRest
        · exact ⟨bytes, made, (rest.others _ here).trans content⟩
        · exact updated.contents other inRest
    · refine ⟨by rw [matched]; exact Nat.succ_lt_succ skipped.fewer, fun none => skipped.failed ?_⟩
      exact (List.append_eq_nil_iff.mp none).2

/-- A row whose new tuple does not fit. -/
theorem TableUpdated.keep {notes : List Int} {old : Tuple Double} {rc : Int}
    (scanned : (scanRow tableSchema predicate row).run = .ok (some old, notes))
    (refused : ∀ bytes, (updatedBytes tableSchema assignments old).run = .ok (.ok bytes) →
      ¬RowFits before old.rid bytes)
    (fewer : changed.length ≤ (rows.filterMap (delivered tableSchema predicate)).length)
    (sound : HeapSound ⟨after, firstPageId⟩ chain)
    (others : ∀ rid, rid ∉ (rows.filterMap (delivered tableSchema predicate)).map Tuple.rid →
      heapContents ⟨after, firstPageId⟩ rid = heapContents ⟨before, firstPageId⟩ rid) :
    TableUpdated tableSchema predicate assignments firstPageId chain (row :: rows) before after
      changed (notes ++ rc :: errors) := by
  have found := delivered_eq scanned
  have matched : (row :: rows).filterMap (delivered tableSchema predicate) =
      old :: rows.filterMap (delivered tableSchema predicate) := List.filterMap_cons_some found
  refine ⟨sound, fun rid absent => ?_, .inr ⟨?_, ?_, by simp⟩⟩
  · rw [matched, List.map_cons, List.mem_cons, not_or] at absent
    exact others rid absent.2
  · rw [UpdatesFit, found]
    rintro ⟨bytes, made, fits, -⟩
    exact refused bytes made fits
  · rw [matched]
    exact Nat.lt_succ_of_le fewer

theorem TableUpdated.length_le (updated : TableUpdated tableSchema predicate assignments firstPageId
    chain rows before after changed errors) :
    changed.length ≤ (rows.filterMap (delivered tableSchema predicate)).length := by
  rcases updated.outcome with ⟨-, updated⟩ | ⟨-, skipped⟩
  · exact Nat.le_of_eq (congrArg List.length updated.changed_eq)
  · exact Nat.le_of_lt skipped.fewer

/-- What an `UPDATE` that ends has done. -/
theorem changeRows_update {log log' : List Int} {done tuples : List (Tuple Double)}
    (stored : RowsStored firstPageId chain before rows)
    (ran : changeRows tableSchema predicate (updateTuple firstPageId tableSchema assignments) rows
      ⟨before, log⟩ done = .ok (tuples, ⟨after, log'⟩)) :
    ∃ changed errors, tuples = done ++ changed ∧ log' = log ++ errors ∧
      TableUpdated tableSchema predicate assignments firstPageId chain rows before after changed
        errors := by
  induction rows generalizing before log done with
  | nil =>
      simp only [changeRows, Except.ok.injEq, Prod.mk.injEq, Session.mk.injEq] at ran
      obtain ⟨rfl, rfl, rfl⟩ := ran
      refine ⟨[], [], by simp, by simp, stored.sound, fun _ _ => rfl, .inl ⟨trivial, rfl, rfl, ?_⟩⟩
      intro old member
      exact absurd member List.not_mem_nil
  | cons row rows ih =>
      rw [changeRows] at ran
      cases scanned : (scanRow tableSchema predicate row).run with
      | error fault => rw [scanned] at ran; cases ran
      | ok outcome =>
          obtain ⟨_ | old, notes⟩ := outcome
          · rw [scanned, ok_bind] at ran
            obtain ⟨changed, errors, tuples_eq, log_eq, rest⟩ := ih stored.tail ran
            exact ⟨changed, notes ++ errors, tuples_eq, by rw [log_eq, List.append_assoc],
              rest.pass scanned⟩
          · rw [scanned, ok_bind] at ran
            have rid_eq := scanRow_rid tableSchema predicate scanned
            have content := stored.stored row List.mem_cons_self
            rw [← rid_eq] at content
            dsimp only at ran
            cases updated : (updateTuple firstPageId tableSchema assignments old).run
                ⟨before, log ++ notes⟩ with
            | error fault => rw [updated] at ran; cases ran
            | ok outcome =>
                obtain ⟨fate, session⟩ := outcome
                rw [updated, ok_bind] at ran
                cases updateTuple_cases stored.sound content updated with
                | changed made fits changedRow content' =>
                    obtain ⟨changed, errors, tuples_eq, log_eq, rest⟩ :=
                      ih (stored.changed rid_eq changedRow) ran
                    refine ⟨old :: changed, notes ++ errors, ?_, by rw [log_eq, List.append_assoc],
                      rest.change stored scanned made fits changedRow content'⟩
                    rw [tuples_eq, List.append_assoc, List.singleton_append]
                | kept rc other refused =>
                    cases fate with
                    | changed => exact absurd rfl other
                    | kept =>
                        obtain ⟨changed, errors, tuples_eq, log_eq, rest⟩ := ih stored.tail ran
                        refine ⟨changed, notes ++ rc :: errors, tuples_eq, ?_,
                          .keep scanned refused rest.length_le rest.sound rest.others⟩
                        rw [log_eq, List.append_assoc, List.append_assoc, List.singleton_append]
                    | stopped code =>
                        simp only [Except.ok.injEq, Prod.mk.injEq, Session.mk.injEq] at ran
                        obtain ⟨rfl, rfl, rfl⟩ := ran
                        exact ⟨[], notes ++ [rc], by simp, by simp,
                          .keep scanned refused (Nat.zero_le _) stored.sound fun _ _ => rfl⟩

/-- A place holds the new tuple of one of the rows delivered. -/
def HoldsUpdated (tableSchema : Schema) (predicate : Option (Expr Double))
    (assignments : List (Assignment Double)) (rows : List (Rid × List UInt8)) (heap : StoreHeap)
    (rid : Rid) : Prop :=
  ∃ row ∈ rows, ∃ old bytes, row.1 = rid ∧ delivered tableSchema predicate row = some old ∧
    (updatedBytes tableSchema assignments old).run = .ok (.ok bytes) ∧
      heapContents heap rid = some bytes

/-- Whatever becomes of the other rows, each place keeps what it held or holds its new tuple. -/
theorem changeRows_update_contents {log log' : List Int} {done tuples : List (Tuple Double)}
    (stored : RowsStored firstPageId chain before rows)
    (ran : changeRows tableSchema predicate (updateTuple firstPageId tableSchema assignments) rows
      ⟨before, log⟩ done = .ok (tuples, ⟨after, log'⟩)) (rid : Rid) :
    heapContents ⟨after, firstPageId⟩ rid = heapContents ⟨before, firstPageId⟩ rid ∨
      HoldsUpdated tableSchema predicate assignments rows ⟨after, firstPageId⟩ rid := by
  have later : ∀ {row : Rid × List UInt8} {rows : List (Rid × List UInt8)},
      HoldsUpdated tableSchema predicate assignments rows ⟨after, firstPageId⟩ rid →
        HoldsUpdated tableSchema predicate assignments (row :: rows) ⟨after, firstPageId⟩ rid := by
    rintro row rows ⟨other, member, held⟩
    exact ⟨other, List.mem_cons_of_mem _ member, held⟩
  induction rows generalizing before log done with
  | nil =>
      simp only [changeRows, Except.ok.injEq, Prod.mk.injEq, Session.mk.injEq] at ran
      obtain ⟨-, rfl, -⟩ := ran
      exact .inl rfl
  | cons row rows ih =>
      rw [changeRows] at ran
      cases scanned : (scanRow tableSchema predicate row).run with
      | error fault => rw [scanned] at ran; cases ran
      | ok outcome =>
          obtain ⟨_ | old, notes⟩ := outcome
          · rw [scanned, ok_bind] at ran
            exact (ih stored.tail ran).imp_right later
          · rw [scanned, ok_bind] at ran
            have rid_eq := scanRow_rid tableSchema predicate scanned
            have content := stored.stored row List.mem_cons_self
            rw [← rid_eq] at content
            dsimp only at ran
            cases updated : (updateTuple firstPageId tableSchema assignments old).run
                ⟨before, log ++ notes⟩ with
            | error fault => rw [updated] at ran; cases ran
            | ok outcome =>
                obtain ⟨fate, session⟩ := outcome
                rw [updated, ok_bind] at ran
                cases updateTuple_cases stored.sound content updated with
                | @changed bytes made fits changedRow content' =>
                    have tail := stored.changed rid_eq changedRow
                    by_cases here : rid = old.rid
                    · obtain ⟨_, _, -, -, rest⟩ := changeRows_update tail ran
                      have kept := rest.others old.rid fun member => by
                        obtain ⟨other, inRest, same⟩ := List.mem_map.mp member
                        exact stored.absent (rid_eq ▸ same ▸ rid_of_mem_delivered inRest)
                      refine .inr ⟨row, List.mem_cons_self, old, bytes, here ▸ rid_eq.symm,
                        delivered_eq scanned, made, ?_⟩
                      rw [here, kept, content']
                    · refine (ih tail ran).imp (fun same => ?_) later
                      rw [same, changedRow.others rid here]
                | kept rc other refused =>
                    cases fate with
                    | changed => exact absurd rfl other
                    | kept => exact (ih stored.tail ran).imp_right later
                    | stopped rc =>
                        simp only [Except.ok.injEq, Prod.mk.injEq, Session.mk.injEq] at ran
                        obtain ⟨-, rfl, -⟩ := ran
                        exact .inl rfl

/-! ## `DELETE` -/

/-- What becomes of a table whose delivered rows are deleted. -/
structure TableDeleted (tableSchema : Schema) (predicate : Option (Expr Double))
    (firstPageId : PageId) (chain : List PageId) (rows : List (Rid × List UInt8))
    (before after : PageStore) : Prop where
  sound : HeapSound ⟨after, firstPageId⟩ chain
  contents : ∀ rid, heapContents ⟨after, firstPageId⟩ rid =
    if rid ∈ (rows.filterMap (delivered tableSchema predicate)).map Tuple.rid then none
    else heapContents ⟨before, firstPageId⟩ rid

/-- What a `DELETE` that ends has done. -/
theorem changeRows_delete {log log' : List Int} {done tuples : List (Tuple Double)}
    (stored : RowsStored firstPageId chain before rows)
    (ran : changeRows tableSchema predicate (deleteTuple firstPageId) rows ⟨before, log⟩ done =
      .ok (tuples, ⟨after, log'⟩)) :
    tuples = done ++ rows.filterMap (delivered tableSchema predicate) ∧
      log' = log ++ rows.flatMap (scanErrors tableSchema predicate) ∧
      TableDeleted tableSchema predicate firstPageId chain rows before after := by
  induction rows generalizing before log done with
  | nil =>
      simp only [changeRows, Except.ok.injEq, Prod.mk.injEq, Session.mk.injEq] at ran
      obtain ⟨rfl, rfl, rfl⟩ := ran
      exact ⟨by simp, by simp, stored.sound, fun rid => by simp⟩
  | cons row rows ih =>
      rw [changeRows] at ran
      cases scanned : (scanRow tableSchema predicate row).run with
      | error fault => rw [scanned] at ran; cases ran
      | ok outcome =>
          obtain ⟨_ | old, notes⟩ := outcome
          · rw [scanned, ok_bind] at ran
            obtain ⟨tuples_eq, log_eq, rest⟩ := ih stored.tail ran
            have matched := List.filterMap_cons_none (l := rows) (delivered_eq scanned)
            refine ⟨by rw [matched, tuples_eq], ?_, rest.sound, ?_⟩
            · rw [List.flatMap_cons, scanErrors_eq scanned, log_eq, List.append_assoc]
            · rw [matched]
              exact rest.contents
          · rw [scanned, ok_bind] at ran
            have rid_eq := scanRow_rid tableSchema predicate scanned
            have content := stored.stored row List.mem_cons_self
            rw [← rid_eq] at content
            obtain ⟨page, rowIn⟩ := stored.sound.rowIn content
            obtain ⟨changedRow, gone⟩ := rowChanged_deletedRow stored.sound rowIn
            dsimp only at ran
            rw [deleteTuple_run stored.sound rowIn, ok_bind] at ran
            obtain ⟨tuples_eq, log_eq, rest⟩ := ih (stored.changed rid_eq changedRow) ran
            have matched := List.filterMap_cons_some (l := rows) (delivered_eq scanned)
            refine ⟨by rw [matched, tuples_eq, List.append_assoc, List.singleton_append], ?_,
              rest.sound, fun rid => ?_⟩
            · rw [List.flatMap_cons, scanErrors_eq scanned, log_eq, List.append_assoc]
            · rw [rest.contents, matched]
              by_cases here : rid = old.rid
              · simp [here, gone]
              · simp only [changedRow.others rid here, List.map_cons, List.mem_cons, here, false_or]

end Runs

end MiniSqlite.Executor
