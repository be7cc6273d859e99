import MiniSqlite.Buffer.PoolServes
import MiniSqlite.Executor.ChangeRuns

/-!
# Updating and deleting one tuple

What `update_next` and `delete_next` do to the tuple a scan has delivered: a
delete always works, an update only if the new bytes fit where the old were or
into the free space of the page.
-/

namespace MiniSqlite.Executor

open MiniSqlite.Common MiniSqlite.Std MiniSqlite.Storage MiniSqlite.Buffer MiniSqlite.Parser

variable {Double : Type} {firstPageId : PageId} {chain : List PageId} {store : PageStore}

/-! ## Calls on the heap -/

/-- The error code of a call on the heap, if it failed. -/
def errorsOf (result : HeapResult) : List Int :=
  if result.code = ErrorCode.ok.code then [] else [result.code]

theorem onHeap_run {Pool : Type} (call : BpmHeap Pool → Except Fault (BpmHeap Pool × HeapResult))
    (session : Session Pool) :
    (onHeap firstPageId call).run session =
      (call ⟨session.bpm, firstPageId⟩ >>= fun (heap, result) =>
        .ok ((heap.firstPageId, result), ⟨heap.bpm, session.errors ++ errorsOf result⟩)) := by
  rw [onHeap, StateT.run_bind, onPool_run]
  cases call ⟨session.bpm, firstPageId⟩ with
  | error fault => rfl
  | ok outcome =>
      obtain ⟨heap, result⟩ := outcome
      by_cases ok : result.code = ErrorCode.ok.code
      · simp [errorsOf, ok, ok_bind]
        rfl
      · simp [errorsOf, ok, ok_bind]
        rfl

/-- Where the row of a tuple is. -/
structure RowIn (store : PageStore) (chain : List PageId) (rid : Rid) (page : Page)
    (bytes : List UInt8) : Prop where
  used : store.pages rid.pageId = some page
  member : rid.pageId ∈ chain
  valid : ValidPage page
  found : recordOf page rid.slotId = some bytes

theorem HeapSound.rowIn (sound : HeapSound ⟨store, firstPageId⟩ chain) {rid : Rid}
    {bytes : List UInt8} (stored : heapContents ⟨store, firstPageId⟩ rid = some bytes) :
    ∃ page, RowIn store chain rid page bytes := by
  rw [sound.contents_eq] at stored
  split at stored
  · rename_i member
    obtain ⟨page, used⟩ := sound.chained.used member
    rw [used] at stored
    exact ⟨page, used, member, sound.valid _ member page used, stored⟩
  · exact absurd stored (by simp)

theorem changeTuple_row {rid : Rid} {page : Page} {bytes : List UInt8}
    (sound : HeapSound ⟨store, firstPageId⟩ chain) (row : RowIn store chain rid page bytes)
    (change : Page → Page × ErrorCode) :
    changeTuple ⟨store, firstPageId⟩ rid change =
      .ok (⟨store.set rid.pageId (change page).1, firstPageId⟩, { code := (change page).2.code }) := by
  have good : ¬badRid rid = true := by
    intro bad
    have missing := contents_of_badRid sound bad
    rw [sound.contents_eq, if_pos row.member, row.used, Option.bind_some, row.found] at missing
    exact absurd missing (by simp)
  unfold changeTuple
  rw [if_neg good, fetch_of_used row.used]
  simp only [bind, Except.bind, pure, Except.pure, data_of_used row.used, setData_store,
    unpinPage_store]

/-! ## Deleting -/

/-- The pages after the row of a tuple is deleted. -/
def deletedRow (store : PageStore) (rid : Rid) : PageStore :=
  store.set rid.pageId (slottedPageDelete (PagePool.data store rid.pageId) rid.slotId).1

theorem deleteTuple_run {old : Tuple Double} {page : Page} {bytes : List UInt8}
    (sound : HeapSound ⟨store, firstPageId⟩ chain) (row : RowIn store chain old.rid page bytes)
    (log : List Int) :
    (deleteTuple firstPageId old).run ⟨store, log⟩ =
      .ok (.changed, ⟨deletedRow store old.rid, log⟩) := by
  obtain ⟨ok, -⟩ := slottedPageDelete_live row.valid.toLayout row.found
  rw [deleteTuple, StateT.run_bind, onHeap_run, bpmHeapDelete, changeTuple_row sound row, ok_bind,
    deletedRow, data_of_used row.used, ok]
  simp only [ok_bind, errorsOf, if_true, List.append_nil]
  rfl

theorem rowChanged_deletedRow {rid : Rid} {page : Page} {bytes : List UInt8}
    (sound : HeapSound ⟨store, firstPageId⟩ chain) (row : RowIn store chain rid page bytes) :
    RowChanged firstPageId chain rid store (deletedRow store rid) ∧
      heapContents ⟨deletedRow store rid, firstPageId⟩ rid = none := by
  obtain ⟨-, rewritten⟩ := slottedPageDelete_live row.valid.toLayout row.found
  rw [deletedRow, data_of_used row.used]
  exact rowChanged_set row.used row.valid row.found rewritten sound row.member

theorem steady_deleteTuple :
    Steady firstPageId chain (deleteTuple firstPageId : Tuple Double → ExecM PageStore RowFate) := by
  intro session after old bytes fate sound stored ran
  obtain ⟨page, row⟩ := sound.rowIn stored
  rw [show session = ⟨session.bpm, session.errors⟩ from rfl, deleteTuple_run sound row] at ran
  obtain ⟨-, rfl⟩ := Prod.mk.inj (Except.ok.inj ran)
  exact (rowChanged_deletedRow sound row).1

/-! ## Updating -/

variable [Platform Double]

/-- The bytes that `update_next` makes of a tuple. -/
def updatedBytes (tableSchema : Schema) (assignments : List (Assignment Double))
    (old : Tuple Double) : Checked (List UInt8) := do
  let new ← applyAssignments tableSchema old assignments
  heapBytes new tableSchema

/-- The pages after the row of a tuple is updated. -/
def updatedRow (store : PageStore) (rid : Rid) (bytes : List UInt8) : PageStore :=
  store.set rid.pageId (slottedPageUpdate (PagePool.data store rid.pageId) rid.slotId bytes).1

/-- There is room for the bytes in the page of the row. -/
def RowFits (store : PageStore) (rid : Rid) (bytes : List UInt8) : Prop :=
  UpdateFits (PagePool.data store rid.pageId) rid.slotId bytes

omit [Platform Double] in
theorem bpmHeapUpdate_row {rid : Rid} {page : Page} {oldBytes bytes : List UInt8}
    (sound : HeapSound ⟨store, firstPageId⟩ chain) (row : RowIn store chain rid page oldBytes) :
    bpmHeapUpdate ⟨store, firstPageId⟩ rid bytes =
      .ok (⟨updatedRow store rid bytes, firstPageId⟩,
        { code := (slottedPageUpdate page rid.slotId bytes).2.code }) := by
  unfold bpmHeapUpdate
  rw [updatedRow, data_of_used row.used]
  by_cases empty : bytes.length = 0
  · have refused : slottedPageUpdate page rid.slotId bytes = (page, .invalidArgument) := by
      rw [slottedPageUpdate, if_pos empty]
    rw [if_pos empty, refused, PageStore.set_same row.used]
  · rw [if_neg empty, changeTuple_row sound row]

omit [Platform Double] in
/-- Bytes that fit replace those of the row, and others change nothing. -/
theorem updatedRow_spec {rid : Rid} {page : Page} {oldBytes bytes : List UInt8}
    (sound : HeapSound ⟨store, firstPageId⟩ chain) (row : RowIn store chain rid page oldBytes)
    (small : bytes.length < 2 ^ 16) :
    (RowFits store rid bytes ∧ (slottedPageUpdate page rid.slotId bytes).2 = .ok ∧
        RowChanged firstPageId chain rid store (updatedRow store rid bytes) ∧
        heapContents ⟨updatedRow store rid bytes, firstPageId⟩ rid = some bytes) ∨
      (¬RowFits store rid bytes ∧ (slottedPageUpdate page rid.slotId bytes).2 ≠ .ok ∧
        updatedRow store rid bytes = store) := by
  rw [RowFits, updatedRow, data_of_used row.used]
  by_cases fits : UpdateFits page rid.slotId bytes
  · obtain ⟨ok, rewritten⟩ := slottedPageUpdate_live row.valid.toLayout row.found small fits
    obtain ⟨changed, contents⟩ :=
      rowChanged_set row.used row.valid row.found rewritten sound row.member
    exact .inl ⟨fits, ok, changed, contents⟩
  · obtain ⟨same, failed⟩ := slottedPageUpdate_refused row.valid.toLayout (.inr fits)
    rw [same]
    exact .inr ⟨fits, failed, PageStore.set_same row.used⟩

theorem heapBytes_length {tableSchema : Schema} {tuple : Tuple Double} {bytes : List UInt8}
    (made : heapBytes tuple tableSchema = .ok bytes) : bytes.length < 2 ^ 16 := by
  rw [heapBytes] at made
  cases serialized : tupleSerialize tuple tableSchema
      ⟨Platform.uninitialized Double, schemaMaxTupleSize tableSchema⟩ with
  | error fault => simp [serialized, bind, Except.bind] at made
  | ok all =>
      rw [serialized, ok_bind] at made
      rw [← Except.ok.inj made, List.length_take]
      have := Nat.mod_lt all.length (by decide : 65536 > 0)
      omega

theorem updatedBytes_run (tableSchema : Schema) (assignments : List (Assignment Double))
    (old : Tuple Double) :
    (updatedBytes tableSchema assignments old).run =
      ((applyAssignments tableSchema old assignments).run >>= fun outcome =>
        match outcome with
        | .error rc => .ok (.error rc)
        | .ok new => heapBytes new tableSchema >>= fun bytes => .ok (.ok bytes)) := by
  rw [updatedBytes, ExceptT.run_bind]
  rcases (applyAssignments tableSchema old assignments).run with fault | (rc | new) <;> rfl

/-- The bytes `update_next` stores are those of the new tuple. -/
theorem newTuple_of_updatedBytes {tableSchema : Schema} {assignments : List (Assignment Double)}
    {old : Tuple Double} {bytes : List UInt8}
    (made : (updatedBytes tableSchema assignments old).run = .ok (.ok bytes)) :
    ∃ new, (applyAssignments tableSchema old assignments).run = .ok (.ok new) ∧
      heapBytes new tableSchema = .ok bytes := by
  rw [updatedBytes_run] at made
  cases applied : (applyAssignments tableSchema old assignments).run with
  | error fault => rw [applied] at made; cases made
  | ok outcome =>
      rw [applied, ok_bind] at made
      cases outcome with
      | error rc => cases made
      | ok new =>
          cases stored : heapBytes new tableSchema with
          | error fault => simp [stored, bind, Except.bind] at made
          | ok other =>
              have same : other = bytes := by simpa [stored, ok_bind] using made
              exact ⟨new, rfl, same ▸ stored⟩

theorem updatedBytes_length {tableSchema : Schema} {assignments : List (Assignment Double)}
    {old : Tuple Double} {bytes : List UInt8}
    (made : (updatedBytes tableSchema assignments old).run = .ok (.ok bytes)) :
    bytes.length < 2 ^ 16 := by
  obtain ⟨new, -, serialized⟩ := newTuple_of_updatedBytes made
  exact heapBytes_length serialized

/-- What `update_next` does to a tuple. -/
theorem updateTuple_run {old : Tuple Double} {page : Page} {oldBytes : List UInt8}
    (sound : HeapSound ⟨store, firstPageId⟩ chain) (row : RowIn store chain old.rid page oldBytes)
    (tableSchema : Schema) (assignments : List (Assignment Double)) (log : List Int) :
    (updateTuple firstPageId tableSchema assignments old).run ⟨store, log⟩ =
      ((updatedBytes tableSchema assignments old).run >>= fun outcome =>
        match outcome with
        | .error rc => .ok (.stopped rc, ⟨store, log ++ [rc.code]⟩)
        | .ok bytes =>
            let rc := (slottedPageUpdate page old.rid.slotId bytes).2
            .ok (.of { code := rc.code }, ⟨updatedRow store old.rid bytes,
              log ++ errorsOf { code := rc.code }⟩)) := by
  rw [updateTuple, StateT.run_bind, note_run, attempted_run, updatedBytes_run]
  rcases (applyAssignments tableSchema old assignments).run with fault | (rc | new)
  · rfl
  · rfl
  · simp only [ok_bind, List.append_nil]
    rw [StateT.run_bind, lift_run]
    rcases heapBytes new tableSchema with fault | bytes
    · rfl
    · simp only [ok_bind]
      rw [StateT.run_bind, onHeap_run, bpmHeapUpdate_row sound row]
      rfl

/-- What `update_next` may do to a tuple: it replaces the row, or leaves it with an error. -/
inductive UpdateFate (firstPageId : PageId) (chain : List PageId) (tableSchema : Schema)
    (assignments : List (Assignment Double)) (store : PageStore) (log : List Int)
    (old : Tuple Double) : RowFate → Session PageStore → Prop where
  | changed {bytes : List UInt8}
      (made : (updatedBytes tableSchema assignments old).run = .ok (.ok bytes))
      (fits : RowFits store old.rid bytes)
      (row : RowChanged firstPageId chain old.rid store (updatedRow store old.rid bytes))
      (contents : heapContents ⟨updatedRow store old.rid bytes, firstPageId⟩ old.rid = some bytes) :
      UpdateFate firstPageId chain tableSchema assignments store log old .changed
        ⟨updatedRow store old.rid bytes, log⟩
  | kept {fate : RowFate} (rc : Int) (other : fate ≠ .changed)
      (refused : ∀ bytes, (updatedBytes tableSchema assignments old).run = .ok (.ok bytes) →
        ¬RowFits store old.rid bytes) :
      UpdateFate firstPageId chain tableSchema assignments store log old fate ⟨store, log ++ [rc]⟩

theorem updateTuple_cases {old : Tuple Double} {oldBytes : List UInt8}
    (sound : HeapSound ⟨store, firstPageId⟩ chain)
    (stored : heapContents ⟨store, firstPageId⟩ old.rid = some oldBytes) {tableSchema : Schema}
    {assignments : List (Assignment Double)} {log : List Int} {fate : RowFate}
    {after : Session PageStore}
    (ran : (updateTuple firstPageId tableSchema assignments old).run ⟨store, log⟩ =
      .ok (fate, after)) :
    UpdateFate firstPageId chain tableSchema assignments store log old fate after := by
  obtain ⟨page, row⟩ := sound.rowIn stored
  rw [updateTuple_run sound row] at ran
  cases made : (updatedBytes tableSchema assignments old).run with
  | error fault => rw [made] at ran; cases ran
  | ok outcome =>
      rw [made, ok_bind] at ran
      cases outcome with
      | error rc =>
          obtain ⟨rfl, rfl⟩ := Prod.mk.inj (Except.ok.inj ran)
          exact .kept rc.code (by simp) (by simp [made])
      | ok bytes =>
          obtain ⟨rfl, rfl⟩ := Prod.mk.inj (Except.ok.inj ran)
          rcases updatedRow_spec sound row (updatedBytes_length made) with
            ⟨fits, ok, changed, contents⟩ | ⟨unfit, failed, same⟩
          · rw [ok]
            simp only [RowFate.of, if_true, errorsOf, List.append_nil]
            exact .changed made fits changed contents
          · have code : ¬(slottedPageUpdate page old.rid.slotId bytes).2.code = ErrorCode.ok.code :=
              fun same => failed (ErrorCode.code_injective same)
            simp only [RowFate.of, if_neg code, errorsOf, same]
            refine .kept _ (by simp) fun other madeOther => ?_
            rw [made, Except.ok.injEq, Except.ok.injEq] at madeOther
            exact madeOther ▸ unfit

theorem steady_updateTuple (tableSchema : Schema) (assignments : List (Assignment Double)) :
    Steady firstPageId chain
      (updateTuple firstPageId tableSchema assignments : Tuple Double → ExecM PageStore RowFate) := by
  rintro ⟨store, log⟩ after old bytes fate sound stored ran
  cases updateTuple_cases sound stored ran with
  | changed made fits row contents => exact row
  | kept rc other refused => exact .refl sound _

end MiniSqlite.Executor
