import MiniSqlite.Executor.QueryRuns
import MiniSqlite.Executor.RowChange

/-!
# Statements that change rows

`UPDATE` and `DELETE` pull a scan of the table they change. Over an ideal pool
the scan does not see the changes, so that the statement does to each of the rows
the table had what `update_next` or `delete_next` does to a tuple
(`changeRows`, `consume_changeRows`).
-/

namespace MiniSqlite.Executor

open MiniSqlite.Common MiniSqlite.Std MiniSqlite.Storage MiniSqlite.Buffer MiniSqlite.Parser

variable {Pool Frame Double Child : Type}

/-! ## One loop for both operators -/

/-- What becomes of a tuple that an operator is to change. -/
inductive RowFate where
  | changed
  /-- The heap has refused the change. -/
  | kept
  /-- The operator ends with an error code. -/
  | stopped (rc : ErrorCode)
  deriving DecidableEq

/-- The fate a call on the heap leads to. -/
def RowFate.of (result : HeapResult) : RowFate :=
  if result.code = ErrorCode.ok.code then .changed else .kept

section Loop

variable [PagePool Pool Frame]

/-- The body of the loop of `update_next`. -/
def updateTuple [Platform Double] (firstPageId : PageId) (tableSchema : Schema)
    (assignments : List (Assignment Double)) (old : Tuple Double) : ExecM Pool RowFate := do
  match ← note (attempted (applyAssignments tableSchema old assignments)) with
  | .error rc => return .stopped rc
  | .ok new =>
      let bytes ← heapBytes new tableSchema
      let (_, result) ← onHeap firstPageId (bpmHeapUpdate · old.rid bytes)
      return .of result

/-- The body of the loop of `delete_next`. -/
def deleteTuple (firstPageId : PageId) (tuple : Tuple Double) : ExecM Pool RowFate := do
  let (_, result) ← onHeap firstPageId (bpmHeapDelete · tuple.rid)
  return .of result

/-- The loop that `update_next` and `delete_next` have in common. -/
def changeNext (next : Child → ExecM Pool (Pulled Child Double))
    (change : Tuple Double → ExecM Pool RowFate) :
    Nat → Child → ExecM Pool (Bool × Pulled Child Double)
  | 0, _ => throw .unending
  | turns + 1, child => do
      match ← next child with
      | (child, .error _) => return (true, child, .error .pageNotFound)
      | (child, .ok old) =>
          match ← change old with
          | .changed => return (false, child, .ok old)
          | .kept => changeNext next change turns child
          | .stopped rc => return (false, child, .error rc)

variable (next : Child → ExecM Pool (Pulled Child Double)) (firstPageId : PageId)

theorem updateNext_eq [Platform Double] (tableSchema : Schema) (assignments : List (Assignment Double))
    (turns : Nat) (child : Child) :
    updateNext next firstPageId tableSchema assignments turns child =
      changeNext next (updateTuple firstPageId tableSchema assignments) turns child := by
  induction turns generalizing child with
  | zero => rfl
  | succ turns ih =>
      rw [updateNext, changeNext]
      refine bind_congr ?_
      rintro ⟨child, row⟩
      cases row with
      | error rc => rfl
      | ok old =>
          simp only [updateTuple, bind_assoc]
          refine bind_congr fun applied => ?_
          cases applied with
          | error rc => simp
          | ok new =>
              simp only [bind_assoc, pure_bind]
              refine bind_congr fun bytes => bind_congr ?_
              rintro ⟨_, result⟩
              by_cases ok : result.code = ErrorCode.ok.code <;> simp [RowFate.of, ok, ih]

theorem deleteNext_eq (turns : Nat) (child : Child) :
    deleteNext next firstPageId turns child =
      changeNext next (deleteTuple firstPageId) turns child := by
  induction turns generalizing child with
  | zero => rfl
  | succ turns ih =>
      rw [deleteNext, changeNext]
      refine bind_congr ?_
      rintro ⟨child, row⟩
      cases row with
      | error rc => rfl
      | ok old =>
          simp only [deleteTuple, bind_assoc, pure_bind]
          refine bind_congr ?_
          rintro ⟨_, result⟩
          by_cases ok : result.code = ErrorCode.ok.code <;> simp [RowFate.of, ok, ih]

end Loop

/-! ## Changing rows one after the other -/

section Rows

variable [Platform Double] (tableSchema : Schema) (predicate : Option (Expr Double))
variable (change : Tuple Double → ExecM PageStore RowFate)

/-- Rows changed up to the first that is: its tuple, with the rows behind it. -/
def changeRow : List (Rid × List UInt8) → Session PageStore →
    Except Fault (Option (Tuple Double × List (Rid × List UInt8)) × Session PageStore)
  | [], session => .ok (none, session)
  | row :: rows, session => do
      match ← (scanRow tableSchema predicate row).run with
      | (none, notes) => changeRow rows ⟨session.bpm, session.errors ++ notes⟩
      | (some old, notes) =>
          match ← (change old).run ⟨session.bpm, session.errors ++ notes⟩ with
          | (.changed, session) => .ok (some (old, rows), session)
          | (.kept, session) => changeRow rows session
          | (.stopped _, session) => .ok (none, session)

/-- All rows changed: the tuples for which this worked, after those already `done`. -/
def changeRows : List (Rid × List UInt8) → Session PageStore → List (Tuple Double) →
    Except Fault (List (Tuple Double) × Session PageStore)
  | [], session, done => .ok (done, session)
  | row :: rows, session, done => do
      match ← (scanRow tableSchema predicate row).run with
      | (none, notes) => changeRows rows ⟨session.bpm, session.errors ++ notes⟩ done
      | (some old, notes) =>
          match ← (change old).run ⟨session.bpm, session.errors ++ notes⟩ with
          | (.changed, session) => changeRows rows session (done ++ [old])
          | (.kept, session) => changeRows rows session done
          | (.stopped _, session) => .ok (done, session)

theorem changeRows_eq (rows : List (Rid × List UInt8)) (session : Session PageStore)
    (done : List (Tuple Double)) :
    changeRows tableSchema predicate change rows session done =
      (changeRow tableSchema predicate change rows session >>= fun (taken, session) =>
        match taken with
        | none => .ok (done, session)
        | some (old, rest) => changeRows tableSchema predicate change rest session (done ++ [old])) := by
  induction rows generalizing session done with
  | nil => rfl
  | cons row rows ih =>
      rw [changeRows, changeRow, bind_assoc]
      refine bind_congr ?_
      rintro ⟨found, notes⟩
      cases found with
      | none => exact ih _ done
      | some old =>
          dsimp only
          rw [bind_assoc]
          refine bind_congr ?_
          rintro ⟨fate, session⟩
          cases fate with
          | changed => rfl
          | kept => exact ih session done
          | stopped rc => rfl

/-- The rows behind the one changed are fewer. -/
theorem length_of_changeRow {rows rest : List (Rid × List UInt8)}
    {session after : Session PageStore} {old : Tuple Double}
    (changed : changeRow tableSchema predicate change rows session = .ok (some (old, rest), after)) :
    rest.length < rows.length := by
  induction rows generalizing session with
  | nil => simp [changeRow] at changed
  | cons row rows ih =>
      rw [changeRow] at changed
      cases found : (scanRow tableSchema predicate row).run with
      | error fault => simp [found, bind, Except.bind] at changed
      | ok delivered =>
          obtain ⟨_ | tuple, notes⟩ := delivered
          · simp only [found, ok_bind] at changed
            exact Nat.lt_succ_of_lt (ih changed)
          · simp only [found, ok_bind] at changed
            cases outcome : (change tuple).run ⟨session.bpm, session.errors ++ notes⟩ with
            | error fault => simp [outcome, bind, Except.bind] at changed
            | ok ended =>
                obtain ⟨fate, session'⟩ := ended
                rw [outcome, ok_bind] at changed
                cases fate with
                | changed =>
                    simp only [Except.ok.injEq, Prod.mk.injEq, Option.some.injEq] at changed
                    rw [← changed.1.2]
                    exact Nat.lt_succ_self _
                | kept => exact Nat.lt_succ_of_lt (ih changed)
                | stopped rc => simp at changed

/-- Changing a row takes the next row of the scan. -/
theorem changeRow_eq (rows : List (Rid × List UInt8)) (session : Session PageStore) :
    changeRow tableSchema predicate change rows session =
      (takeRow tableSchema predicate rows session.errors >>= fun (taken, log) =>
        match taken with
        | none => .ok (none, ⟨session.bpm, log⟩)
        | some (old, rest) =>
            (change old).run ⟨session.bpm, log⟩ >>= fun (fate, session) =>
              match fate with
              | .changed => .ok (some (old, rest), session)
              | .kept => changeRow tableSchema predicate change rest session
              | .stopped _ => .ok (none, session)) := by
  induction rows generalizing session with
  | nil => rfl
  | cons row rows ih =>
      rw [changeRow, takeRow, bind_assoc]
      refine bind_congr ?_
      rintro ⟨found, notes⟩
      cases found with
      | none => exact ih _
      | some old =>
          simp only [ok_bind]
          refine bind_congr ?_
          rintro ⟨fate, session⟩
          cases fate <;> rfl

theorem scanRow_run (row : Rid × List UInt8) :
    (scanRow tableSchema predicate row).run =
      ((tupleDeserialize tableSchema row.2 : Checked (Tuple Double)).run >>= fun outcome =>
        match outcome with
        | .error rc => .ok (none, [rc.code])
        | .ok tuple =>
            (passes (.to tableSchema) predicate { tuple with rid := row.1 }).run >>=
              fun (passed, notes) =>
                .ok (if passed then some { tuple with rid := row.1 } else none, notes)) := by
  unfold scanRow attempted
  rw [noted_run_bind]
  cases (tupleDeserialize tableSchema row.2 : Checked (Tuple Double)).run with
  | error fault => rfl
  | ok outcome =>
      cases outcome with
      | error rc => rfl
      | ok tuple =>
          simp only [ok_bind, WriterT.run_mk, noted_run_bind]
          cases (passes (.to tableSchema) predicate { tuple with rid := row.1 }).run with
          | error fault => rfl
          | ok verdict =>
              obtain ⟨passed, notes⟩ := verdict
              cases passed <;> simp [ok_bind]

theorem scanRow_rid {row : Rid × List UInt8} {tuple : Tuple Double} {notes : List Int}
    (found : (scanRow tableSchema predicate row).run = .ok (some tuple, notes)) :
    tuple.rid = row.1 := by
  rw [scanRow_run] at found
  cases deserialized : (tupleDeserialize tableSchema row.2 : Checked (Tuple Double)).run with
  | error fault => simp [deserialized, bind, Except.bind] at found
  | ok outcome =>
      cases outcome with
      | error rc => simp [deserialized, bind, Except.bind] at found
      | ok read =>
          simp only [deserialized, ok_bind] at found
          cases outcome : (passes (.to tableSchema) predicate { read with rid := row.1 }).run with
          | error fault => simp [outcome, bind, Except.bind] at found
          | ok verdict =>
              rw [outcome, ok_bind] at found
              simp only [Except.ok.injEq, Prod.mk.injEq] at found
              cases passed : verdict.1 with
              | true =>
                  rw [passed, if_pos rfl, Option.some.injEq] at found
                  rw [← found.1]
              | false => simp [passed] at found

/-- The row a scan delivers is among its rows, with the others behind it. -/
theorem takeRow_split {rows rest : List (Rid × List UInt8)} {log log' : List Int}
    {tuple : Tuple Double}
    (taken : takeRow tableSchema predicate rows log = .ok (some (tuple, rest), log')) :
    ∃ skipped bytes, rows = skipped ++ (tuple.rid, bytes) :: rest := by
  induction rows generalizing log with
  | nil => simp [takeRow] at taken
  | cons row rows ih =>
      rw [takeRow] at taken
      cases outcome : (scanRow tableSchema predicate row).run with
      | error fault => simp [outcome, bind, Except.bind] at taken
      | ok found =>
          obtain ⟨_ | found, notes⟩ := found
          · simp only [outcome, ok_bind] at taken
            obtain ⟨skipped, bytes, rfl⟩ := ih taken
            exact ⟨row :: skipped, bytes, rfl⟩
          · simp only [outcome, ok_bind, Except.ok.injEq, Prod.mk.injEq, Option.some.injEq] at taken
            obtain ⟨⟨rfl, rfl⟩, -⟩ := taken
            exact ⟨[], row.2, by rw [scanRow_rid tableSchema predicate outcome]; rfl⟩

end Rows

/-! ## The scan under the changes -/

/-- A change of tuples only changes their rows. -/
def Steady (firstPageId : PageId) (chain : List PageId)
    (change : Tuple Double → ExecM PageStore RowFate) : Prop :=
  ∀ (session after : Session PageStore) (old : Tuple Double) (bytes : List UInt8) (fate : RowFate),
    HeapSound ⟨session.bpm, firstPageId⟩ chain →
    heapContents ⟨session.bpm, firstPageId⟩ old.rid = some bytes →
    (change old).run session = .ok (fate, after) →
    RowChanged firstPageId chain old.rid session.bpm after.bpm

/-- A change of the pages of a table. -/
structure TableChanged (firstPageId : PageId) (chain : List PageId)
    (before after : PageStore) : Prop where
  sound : HeapSound ⟨after, firstPageId⟩ chain
  elsewhere : ∀ pid ∉ chain, after.pages pid = before.pages pid
  fresh : after.fresh = before.fresh

/-- Rows that a table has. -/
structure RowsStored (firstPageId : PageId) (chain : List PageId) (store : PageStore)
    (rows : List (Rid × List UInt8)) : Prop where
  sound : HeapSound ⟨store, firstPageId⟩ chain
  nodup : (rows.map Prod.fst).Nodup
  stored : ∀ row ∈ rows, heapContents ⟨store, firstPageId⟩ row.1 = some row.2

/-- A scan of a table that has `rows` still to deliver, as they are in the table. -/
structure ScanAt (firstPageId : PageId) (chain : List PageId) (store : PageStore)
    (iter : BpmHeapIter PageId) (rows : List (Rid × List UInt8)) : Prop
    extends RowsStored firstPageId chain store rows where
  at_ : ∃ left, IterAt store iter left ∧ left.length < maxPages ∧ pendingRows store iter left = rows

section Stored

variable {firstPageId : PageId} {chain left : List PageId} {store after : PageStore}
variable {row : Rid × List UInt8} {rows : List (Rid × List UInt8)}

theorem HeapSound.rowsStored (sound : HeapSound ⟨store, firstPageId⟩ chain) :
    RowsStored firstPageId chain store (chainRows store chain) := by
  obtain ⟨nodup, rows⟩ := sound.rows_spec
  exact ⟨sound, nodup, fun row member => (rows row.1 row.2).mp member⟩

theorem RowsStored.tail (stored : RowsStored firstPageId chain store (row :: rows)) :
    RowsStored firstPageId chain store rows where
  sound := stored.sound
  nodup := (List.nodup_cons.mp stored.nodup).2
  stored other member := stored.stored other (List.mem_cons_of_mem _ member)

theorem RowsStored.drop {skipped : List (Rid × List UInt8)}
    (stored : RowsStored firstPageId chain store (skipped ++ rows)) :
    RowsStored firstPageId chain store rows := by
  induction skipped with
  | nil => exact stored
  | cons _ skipped ih => exact ih stored.tail

/-- The first row does not come again. -/
theorem RowsStored.absent (stored : RowsStored firstPageId chain store (row :: rows)) :
    row.1 ∉ rows.map Prod.fst :=
  (List.nodup_cons.mp stored.nodup).1

/-- The rows behind one that is changed stay as they are. -/
theorem RowsStored.changed (stored : RowsStored firstPageId chain store (row :: rows)) {rid : Rid}
    (same : rid = row.1) (changed : RowChanged firstPageId chain rid store after) :
    RowsStored firstPageId chain after rows where
  sound := changed.sound
  nodup := stored.tail.nodup
  stored other member := by
    have differ : other.1 ≠ rid := by
      rintro rfl
      exact stored.absent (same ▸ List.mem_map_of_mem member)
    rw [changed.others other.1 differ]
    exact stored.tail.stored other member

theorem scanAt_start (sound : HeapSound ⟨store, firstPageId⟩ chain) :
    ScanAt firstPageId chain store (startIter firstPageId) (chainRows store chain) := by
  refine ⟨sound.rowsStored, chain, ⟨sound.chained, by simp [startIter]⟩, sound.length_lt, ?_⟩
  cases chain <;> rfl

/-- A change of the row just delivered leaves the scan before the rows behind it. -/
theorem ScanAt.changed {iter iter' : BpmHeapIter PageId} {skipped : List (Rid × List UInt8)}
    {rid : Rid} {bytes : List UInt8}
    (start : ScanAt firstPageId chain store iter
      (skipped ++ (rid, bytes) :: pendingRows store iter' left))
    (at_ : IterAt store iter' left) (short : left.length < maxPages)
    (changed : RowChanged firstPageId chain rid store after) :
    ScanAt firstPageId chain after iter' (pendingRows store iter' left) := by
  have stored := start.toRowsStored.drop
  obtain ⟨at', pending⟩ := changed.steady iter' left at_ stored.absent
  exact ⟨stored.changed rfl changed, left, at', short, pending⟩

variable [Platform Double] {tableSchema : Schema} {predicate : Option (Expr Double)}
variable {change : Tuple Double → ExecM PageStore RowFate}

/-- Changing the rows of a table leaves everything else as it is. -/
theorem changeRows_elsewhere (steady : Steady firstPageId chain change)
    {session session' : Session PageStore} {done tuples : List (Tuple Double)}
    (stored : RowsStored firstPageId chain session.bpm rows)
    (ran : changeRows tableSchema predicate change rows session done = .ok (tuples, session')) :
    TableChanged firstPageId chain session.bpm session'.bpm := by
  induction rows generalizing session done with
  | nil =>
      obtain ⟨-, rfl⟩ := Prod.mk.inj (Except.ok.inj ran)
      exact ⟨stored.sound, fun _ _ => rfl, rfl⟩
  | cons row rows ih =>
      rw [changeRows] at ran
      cases scanned : (scanRow tableSchema predicate row).run with
      | error fault => rw [scanned] at ran; cases ran
      | ok outcome =>
          obtain ⟨_ | old, notes⟩ := outcome
          · rw [scanned, ok_bind] at ran
            exact @ih ⟨session.bpm, session.errors ++ notes⟩ _ stored.tail ran
          · rw [scanned, ok_bind] at ran
            have rid_eq := scanRow_rid tableSchema predicate scanned
            have content := stored.stored row List.mem_cons_self
            rw [← rid_eq] at content
            dsimp only at ran
            cases outcome : (change old).run ⟨session.bpm, session.errors ++ notes⟩ with
            | error fault => rw [outcome] at ran; cases ran
            | ok ended =>
                obtain ⟨fate, after⟩ := ended
                rw [outcome, ok_bind] at ran
                have changed := steady ⟨session.bpm, session.errors ++ notes⟩ after old row.2 fate
                  stored.sound content outcome
                have later : ∀ {done}, changeRows tableSchema predicate change rows after done =
                    .ok (tuples, session') →
                    TableChanged firstPageId chain session.bpm session'.bpm := by
                  intro done ran
                  have rest := ih (stored.changed rid_eq changed) ran
                  exact ⟨rest.sound, fun pid absent =>
                    (rest.elsewhere pid absent).trans (changed.elsewhere pid absent),
                    rest.fresh.trans changed.fresh⟩
                cases fate with
                | changed => exact later ran
                | kept => exact later ran
                | stopped rc =>
                    obtain ⟨-, rfl⟩ := Prod.mk.inj (Except.ok.inj ran)
                    exact ⟨changed.sound, changed.elsewhere, changed.fresh⟩

end Stored

section Pulling

variable [Platform Double] {excused : Fault → Prop} {firstPageId : PageId} {chain : List PageId}
variable {tableSchema : Schema} {predicate : Option (Expr Double)}
variable {change : Tuple Double → ExecM PageStore RowFate}

/-- `next` on a scan takes its next row. -/
theorem next_seqScan_rows {store : PageStore} {iter : BpmHeapIter PageId} {left : List PageId}
    (at_ : IterAt store iter left) (short : left.length < maxPages) {turns : Nat}
    (enough : (pendingRows store iter left).length + 2 ≤ turns ∨ excused .unending)
    (log : List Int) :
    Lockstep excused
      (fun outcome taken => ∃ iter', outcome.1.1 = .seqScan firstPageId tableSchema predicate iter' ∧
        Scanned store ((iter', outcome.1.2), outcome.2) taken)
      ((ExecutorT.next turns (.seqScan firstPageId tableSchema predicate iter)).run ⟨store, log⟩)
      (takeRow tableSchema predicate (pendingRows store iter left) log) := by
  cases turns with
  | zero => exact .excused (enough.resolve_left (by omega))
  | succ turns =>
      rw [ExecutorT.next, StateT.run_bind]
      refine (seqScanNext_rows tableSchema predicate at_ short
        (enough.imp_left (by omega)) log).bind_left fun outcome taken scanned => ?_
      exact .ok ⟨outcome.1.1, rfl, scanned⟩

/-- What an operator that changes rows delivers, with the scan it leaves. -/
inductive ChangePulled (firstPageId : PageId) (chain : List PageId) (tableSchema : Schema)
    (predicate : Option (Expr Double)) :
    (Bool × Pulled (ExecutorT Double PageId) Double) × Session PageStore →
    Option (Tuple Double × List (Rid × List UInt8)) × Session PageStore → Prop where
  | ended {finished : Bool} {iter : BpmHeapIter PageId} {rc : ErrorCode}
      {session : Session PageStore} :
      ChangePulled firstPageId chain tableSchema predicate
        ((finished, .seqScan firstPageId tableSchema predicate iter, .error rc), session)
        (none, session)
  | row {iter : BpmHeapIter PageId} {old : Tuple Double} {rows : List (Rid × List UInt8)}
      {session : Session PageStore} (at_ : ScanAt firstPageId chain session.bpm iter rows) :
      ChangePulled firstPageId chain tableSchema predicate
        ((false, .seqScan firstPageId tableSchema predicate iter, .ok old), session)
        (some (old, rows), session)

/-- The loop of `update_next` and `delete_next` over a scan of their table. -/
theorem changeNext_rows (steady : Steady firstPageId chain change) {iter : BpmHeapIter PageId}
    {rows : List (Rid × List UInt8)} {session : Session PageStore}
    (at_ : ScanAt firstPageId chain session.bpm iter rows) {turns inner : Nat}
    (enough : rows.length < turns ∨ excused .unending)
    (enoughInner : rows.length + 2 ≤ inner ∨ excused .unending) :
    Lockstep excused (ChangePulled firstPageId chain tableSchema predicate)
      ((changeNext (ExecutorT.next inner) change turns
        (.seqScan firstPageId tableSchema predicate iter)).run session)
      (changeRow tableSchema predicate change rows session) := by
  induction turns generalizing iter rows session with
  | zero => exact .excused (enough.resolve_left (Nat.not_lt_zero _))
  | succ turns ih =>
      obtain ⟨left, iterAt, short, rfl⟩ := at_.at_
      rw [changeNext, StateT.run_bind, changeRow_eq]
      refine (next_seqScan_rows iterAt short enoughInner session.errors).bind_of_eq ?_
      rintro ⟨⟨_, row⟩, session'⟩ expected ⟨iter', rfl, scanned⟩ taken
      cases scanned with
      | ended at' => exact .ok .ended
      | @row _ old log left' at' short' =>
          have shorter := length_of_takeRow taken
          obtain ⟨skipped, bytes, split⟩ := takeRow_split tableSchema predicate taken
          rw [split] at at_
          have stored := at_.stored (old.rid, bytes) (by simp)
          dsimp only
          rw [StateT.run_bind]
          refine .rfl_bind _ fun (fate, after) changed => ?_
          have next := at_.changed at' short'
            (steady ⟨session.bpm, log⟩ after old bytes fate at_.sound stored changed)
          cases fate with
          | changed => exact .ok (.row next)
          | kept => exact ih next (enough.imp_left (by omega)) (enoughInner.imp_left (by omega))
          | stopped rc => exact .ok .ended

variable (tableSchema predicate) in
/-- A statement that pulls such an operator to its end changes all rows of its table. -/
theorem consume_changeRows (steady : Steady firstPageId chain change)
    {wrap : Bool → ExecutorT Double PageId → ExecutorT Double PageId} {inner : Nat}
    (pulls : ∀ child, ExecutorT.next (inner + 1) (wrap false child) =
      (do
        let (finished, child, row) ← changeNext (ExecutorT.next inner) change inner child
        return (wrap finished child, row) : ExecM PageStore _))
    {iter : BpmHeapIter PageId} {rows : List (Rid × List UInt8)} {session : Session PageStore}
    (at_ : ScanAt firstPageId chain session.bpm iter rows) {turns : Nat}
    (enough : rows.length < turns ∨ excused .unending)
    (enoughInner : rows.length + 2 ≤ inner ∨ excused .unending) (done : List (Tuple Double)) :
    Lockstep excused
      (fun outcome expected => (∃ finished iter',
          outcome.1.1 = wrap finished (.seqScan firstPageId tableSchema predicate iter')) ∧
        outcome.1.2 = expected.1 ∧ outcome.2 = expected.2)
      ((consume (ExecutorT.next (inner + 1)) (fun tuples tuple => pure (tuples ++ [tuple])) turns
        (wrap false (.seqScan firstPageId tableSchema predicate iter)) done).run session)
      (changeRows tableSchema predicate change rows session done) := by
  induction turns generalizing iter rows session done with
  | zero => exact .excused (enough.resolve_left (Nat.not_lt_zero _))
  | succ turns ih =>
      rw [consume, StateT.run_bind, pulls, StateT.run_bind, bind_assoc, changeRows_eq]
      refine (changeNext_rows steady at_ (enoughInner.imp_left (by omega)) enoughInner).bind_of_eq
        fun outcome expected pulled taken => ?_
      cases pulled with
      | @ended finished iter _ _ => exact .ok ⟨⟨finished, iter, rfl⟩, rfl, rfl⟩
      | @row iter old rest session at' =>
          have shorter := length_of_changeRow tableSchema predicate change taken
          show Lockstep _ _ ((note (pure (done ++ [old])) >>= _).run session) _
          rw [StateT.run_bind, note_run, noted_run_pure, ok_bind, ok_bind, List.append_nil]
          exact ih at' (enough.imp_left (by omega)) (enoughInner.imp_left (by omega)) _

end Pulling

end MiniSqlite.Executor
