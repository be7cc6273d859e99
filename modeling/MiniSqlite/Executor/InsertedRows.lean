import MiniSqlite.Executor.StoredValues

/-!
# The rows that an `INSERT` leaves in its table

A row that is stored gets a place where nothing was, and later rows leave it there. The
heap reports a row too long for a page as stored under a slot that no page has.
-/

namespace MiniSqlite.Executor

open MiniSqlite.Common MiniSqlite.Std MiniSqlite.Storage MiniSqlite.Buffer MiniSqlite.Catalog
  MiniSqlite.Parser MiniSqlite.Planner

/-! ## One insertion -/

/-- The RID has for its slot the error code of a page without room. -/
def Lost (rid : Rid) : Prop := rid.slotId = Int32.ofInt ErrorCode.outOfMemory.code

theorem Lost.contents {hf : StoreHeap} {chain : List PageId} (sound : HeapSound hf chain)
    {rid : Rid} (lost : Lost rid) : heapContents hf rid = none := by
  rw [sound.contents_eq]
  split
  · rename_i member
    obtain ⟨page, used⟩ := sound.chained.used member
    rw [used, Option.bind_some, lost]
    exact recordOf_outOfMemory (sound.valid _ member page used)
  · rfl

/-- A tuple is put at a place where nothing was, or reported to be at a place that is none. -/
structure RowPlaced (before after : StoreHeap) (bytes : List UInt8) (rid : Rid) : Prop where
  nonempty : bytes ≠ []
  new : heapContents before rid = none
  contents : ∀ other, heapContents after other =
    if other = rid ∧ bytes.length ≤ maxTuple then some bytes else heapContents before other
  lost : maxTuple < bytes.length → Lost rid

/-- An insertion that hands out a RID has placed its tuple. -/
theorem bpmHeapInsert_placed {hf after : StoreHeap} {chain : List PageId}
    (sound : HeapSound hf chain) {bytes : List UInt8} (small : bytes.length < 2 ^ 16)
    {result : HeapResult} {rid : Rid} (inserted : bpmHeapInsert hf bytes = .ok (after, result))
    (handed : result.rid = some rid) : RowPlaced hf after bytes rid := by
  by_cases empty : bytes.length = 0
  · rw [bpmHeapInsert, if_pos empty] at inserted
    obtain ⟨-, rfl⟩ := Prod.mk.inj (Except.ok.inj inserted)
    cases handed
  · have positive := Nat.pos_of_ne_zero empty
    rcases findPageWithSpace_ends sound bytes.length with
      ⟨overflow, -⟩ | ⟨found, chain', pid, page, foundEq, grown, member, used, room⟩
    · rw [bpmHeapInsert, if_neg empty, overflow] at inserted
      cases inserted
    · have nonempty : bytes ≠ [] := List.ne_nil_of_length_pos positive
      have valid := grown.sound.valid pid member page used
      rw [bpmHeapInsert_found positive foundEq used (slottedPageInsert_nonneg page bytes)] at inserted
      obtain ⟨rfl, rfl⟩ := Prod.mk.inj (Except.ok.inj inserted)
      obtain rfl := Option.some.inj handed
      by_cases fits : bytes.length ≤ maxTuple
      · have fitsPage : Fits page bytes := by
          unfold maxTuple at fits
          simp only [pageSize, pageHeaderSize, slotSize] at fits room
          exact ⟨positive, by simp only [slotSize]; omega⟩
        obtain ⟨code, placed⟩ := slottedPageInsert_fits valid.toLayout small fitsPage
        obtain ⟨-, contents⟩ := rewritePage grown.sound member used placed.valid placed.next
          (by rw [placed.count]; exact Nat.le_succ _)
        rw [code, Int32.ofInt_eq_ofNat]
        refine ⟨nonempty, ?_, fun other => ?_, fun long => absurd long (Nat.not_lt.mpr fits)⟩
        · have behind : recordOf page (Int32.ofNat (pageHeaderGetNumTuples page)) = none := by
            have := valid.count_lt
            have value := Int32.toInt_ofNat_of_lt (show pageHeaderGetNumTuples page < 2 ^ 31 by omega)
            have nonneg : ¬Int32.ofNat (pageHeaderGetNumTuples page) < 0 := by
              rw [Int32.lt_iff_toInt_lt, value, Int32.toInt_zero]
              omega
            rw [recordOf_of_nonneg nonneg]
            refine recordAt_eq_none fun live => absurd live.1 ?_
            rw [slotIndex, value]
            exact Nat.lt_irrefl _
          rw [← grown.contents sound, grown.sound.contents_eq, if_pos member, used]
          exact behind
        · rw [contents, ← grown.contents sound]
          obtain ⟨otherPid, otherSlot⟩ := other
          by_cases same : otherPid = pid
          · subst same
            rw [if_pos rfl, placed.recordOf_eq valid, grown.sound.contents_eq, if_pos member, used]
            simp [fits]
          · simp [same]
      · have refused : ¬Fits page bytes := by
          intro fitsPage
          have := fitsPage.2
          have := freeSpace_le page
          unfold maxTuple at fits
          simp only [pageSize, pageHeaderSize, slotSize] at *
          omega
        have returned := slottedPageInsert_refused valid.toLayout refused
        rw [if_neg empty] at returned
        obtain ⟨kept, contents⟩ := rewritePage grown.sound member used valid rfl (Nat.le_refl _)
        rw [returned]
        have lost : Lost ⟨pid, Int32.ofInt ErrorCode.outOfMemory.code⟩ := rfl
        refine ⟨nonempty, lost.contents sound, fun other => ?_, fun _ => lost⟩
        rw [if_neg (fun placed => fits placed.2), contents, ← grown.contents sound]
        split
        · rename_i same
          rw [grown.sound.contents_eq, if_pos (same ▸ member), same, used]
          rfl
        · rfl

/-! ## One row -/

variable {Double : Type} [Platform Double]
variable {firstPageId : PageId} {chain : List PageId} {store : PageStore}

/-- The bytes are those of the tuple that a row of expressions is made into. -/
def MadeOf (tableSchema : Schema) (values : List (Expr Double)) (bytes : List UInt8) : Prop :=
  ∃ made, insertTuple tableSchema values = pure made ∧ heapBytes made tableSchema = .ok bytes

/-- These are the bytes that `insert_next` passes to the heap. -/
theorem MadeOf.ran {tableSchema : Schema} {values : List (Expr Double)} {bytes : List UInt8}
    (built : MadeOf tableSchema values bytes) :
    (insertedBytes tableSchema values).run = .ok (.ok bytes) := by
  obtain ⟨made, madeEq, serialized⟩ := built
  have run : (insertTuple tableSchema values).run = .ok (.ok made) := madeEq
  rw [insertedBytes_run, run, ok_bind]
  dsimp only
  rw [serialized, ok_bind]

/-- What `insert_next` does when it returns a row. -/
theorem insertNext_placed (sound : HeapSound ⟨store, firstPageId⟩ chain) {tableSchema : Schema}
    {values : List (Expr Double)} {log : List Int} {firstPageId' : PageId} {tuple : Tuple Double}
    {after : Session PageStore}
    (ran : (insertNext tableSchema firstPageId values).run ⟨store, log⟩ =
      .ok ((firstPageId', some tuple), after)) :
    ∃ bytes, MadeOf tableSchema values bytes ∧
      RowPlaced ⟨store, firstPageId⟩ ⟨after.bpm, firstPageId'⟩ bytes tuple.rid := by
  rw [insertNext, StateT.run_bind, note_run, attempted_run] at ran
  rcases made : (insertTuple tableSchema values).run with fault | (rc | inserted)
  · rw [made] at ran; cases ran
  · rw [made] at ran; cases ran
  · rw [made] at ran
    simp only [ok_bind, List.append_nil] at ran
    rw [StateT.run_bind, lift_run] at ran
    cases serialized : heapBytes inserted tableSchema with
    | error fault => rw [serialized] at ran; cases ran
    | ok bytes =>
        simp only [serialized, ok_bind] at ran
        rw [StateT.run_bind, onHeap_run] at ran
        cases called : bpmHeapInsert ⟨store, firstPageId⟩ bytes with
        | error fault => rw [called] at ran; cases ran
        | ok ended =>
            obtain ⟨heap, result⟩ := ended
            rw [called, ok_bind, ok_bind] at ran
            dsimp only at ran
            cases handed : result.rid with
            | none => rw [handed] at ran; cases ran
            | some rid =>
                rw [handed] at ran
                obtain ⟨returned, rfl⟩ := Prod.mk.inj (Except.ok.inj ran)
                obtain ⟨rfl, rowStored⟩ := Prod.mk.inj returned
                obtain rfl := Option.some.inj rowStored
                exact ⟨bytes, ⟨inserted, made, serialized⟩,
                  bpmHeapInsert_placed sound (heapBytes_length serialized) called handed⟩

/-! ## All rows -/

/-- What a statement leaves in its table that has returned `tuples` for its first rows. -/
structure RowsPlaced (tableSchema : Schema) (rows : List (List (Expr Double)))
    (before after : StoreHeap) (tuples : List (Tuple Double)) : Prop where
  length : tuples.length ≤ rows.length
  complete : tuples.length = rows.length ↔ ∀ values ∈ rows, Insertable tableSchema values
  kept : ∀ rid bytes, heapContents before rid = some bytes → heapContents after rid = some bytes
  placed : ∀ (k : Nat) (tuple : Tuple Double), tuples[k]? = some tuple → ∃ values bytes, rows[k]? = some values ∧
    MadeOf tableSchema values bytes ∧ bytes ≠ [] ∧ heapContents before tuple.rid = none ∧
      heapContents after tuple.rid = if bytes.length ≤ maxTuple then some bytes else none
  others : ∀ rid bytes, heapContents after rid = some bytes →
    heapContents before rid = some bytes ∨
      ∃ (k : Nat) (tuple : Tuple Double), tuples[k]? = some tuple ∧ tuple.rid = rid

/-- One more row in front of those placed. -/
theorem RowsPlaced.cons {tableSchema : Schema} {values : List (Expr Double)}
    {rows : List (List (Expr Double))} {before middle after : StoreHeap} {tuple : Tuple Double}
    {tuples : List (Tuple Double)} {bytes : List UInt8}
    (insertable : Insertable tableSchema values) (made : MadeOf tableSchema values bytes)
    (first : RowPlaced before middle bytes tuple.rid) (sound : HeapSound after chain)
    (rest : RowsPlaced tableSchema rows middle after tuples) :
    RowsPlaced tableSchema (values :: rows) before after (tuple :: tuples) where
  length := Nat.succ_le_succ rest.length
  complete := by
    rw [List.length_cons, List.length_cons, Nat.add_right_cancel_iff, rest.complete,
      List.forall_mem_cons]
    exact (and_iff_right insertable).symm
  kept rid stored here := by
    refine rest.kept rid stored ?_
    rw [first.contents, if_neg, here]
    rintro ⟨rfl, -⟩
    rw [first.new] at here
    cases here
  placed k other given := by
    cases k with
    | zero =>
        obtain rfl : tuple = other := Option.some.inj given
        refine ⟨values, bytes, rfl, made, first.nonempty, first.new, ?_⟩
        split
        · rename_i fits
          refine rest.kept _ _ ?_
          rw [first.contents, if_pos ⟨rfl, fits⟩]
        · rename_i long
          exact (first.lost (Nat.lt_of_not_le long)).contents sound
    | succ k =>
        obtain ⟨otherValues, otherBytes, row, otherMade, nonempty, new, content⟩ :=
          rest.placed k other given
        refine ⟨otherValues, otherBytes, row, otherMade, nonempty, ?_, content⟩
        rw [first.contents] at new
        split at new
        · cases new
        · exact new
  others rid stored here := by
    rcases rest.others rid stored here with earlier | ⟨k, other, given, same⟩
    · rw [first.contents] at earlier
      split at earlier
      · rename_i placed
        exact .inr ⟨0, tuple, rfl, placed.1.symm⟩
      · exact .inl earlier
    · exact .inr ⟨k + 1, other, given, same⟩

/-- What the loop around `insert_next` leaves in the table. -/
theorem insertRows_placed (sound : HeapSound ⟨store, firstPageId⟩ chain) {tableSchema : Schema}
    {rows : List (List (Expr Double))} {log : List Int} {firstPageId' : PageId}
    {tuples : List (Tuple Double)} {after : Session PageStore}
    (ran : (insertRows tableSchema rows firstPageId).run ⟨store, log⟩ =
      .ok ((firstPageId', tuples), after)) :
    RowsPlaced tableSchema rows ⟨store, firstPageId⟩ ⟨after.bpm, firstPageId'⟩ tuples := by
  induction rows generalizing firstPageId chain store tuples log with
  | nil =>
      obtain ⟨same, rfl⟩ := Prod.mk.inj (Except.ok.inj ran)
      obtain ⟨rfl, rfl⟩ := Prod.mk.inj same
      exact ⟨Nat.le_refl _, by simp, fun _ _ here => here, by simp, fun _ _ here => .inl here⟩
  | cons values rows ih =>
      have ended := ran
      rw [insertRows, StateT.run_bind] at ran
      cases first : (insertNext tableSchema firstPageId values).run ⟨store, log⟩ with
      | error fault => rw [first] at ran; cases ran
      | ok outcome =>
          obtain ⟨inserted, session⟩ := outcome
          rw [first, ok_bind] at ran
          cases insertNext_cases sound first with
          | refused rc uninsertable =>
              obtain ⟨same, rfl⟩ := Prod.mk.inj (Except.ok.inj ran)
              obtain ⟨rfl, rfl⟩ := Prod.mk.inj same
              exact ⟨Nat.zero_le _, by simp [uninsertable], fun _ _ here => here, by simp,
                fun _ _ here => .inl here⟩
          | @stored middle store' chain' tuple insertable sound' moved =>
              obtain ⟨bytes, made, placed⟩ := insertNext_placed sound first
              dsimp only at ran
              rw [StateT.run_bind] at ran
              cases others : (insertRows tableSchema rows middle).run ⟨store', log⟩ with
              | error fault => rw [others] at ran; cases ran
              | ok outcome =>
                  obtain ⟨⟨last, rest⟩, session⟩ := outcome
                  rw [others, ok_bind] at ran
                  obtain ⟨same, rfl⟩ := Prod.mk.inj (Except.ok.inj ran)
                  obtain ⟨rfl, rfl⟩ := Prod.mk.inj same
                  obtain ⟨⟨chain'', sound'', -⟩, -⟩ := insertRows_cases sound' others
                  exact (ih sound' others).cons insertable made placed sound''

end MiniSqlite.Executor
