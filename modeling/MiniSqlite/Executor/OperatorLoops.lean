import MiniSqlite.Executor.QueryEvents
import MiniSqlite.Std.Lockstep

/-!
# The loops of the operators over a source

`Source` says that a `next` delivers the events its executor is said to hold. If
the child of an operator is a source, then so is the operator, with the events
that its loop makes of the child's. A loop may end early for want of turns only
where that is excused.
-/

namespace MiniSqlite.Executor

open MiniSqlite.Common MiniSqlite.Std MiniSqlite.Storage MiniSqlite.Buffer MiniSqlite.Parser

variable {Double Child Acc : Type}

/-- A pull from an executor gives what a pull from its events gives. -/
inductive Delivers (store : PageStore) (holds : Child → List (RowEvent Double) → Prop) :
    Pulled Child Double × Session PageStore →
    Option (Tuple Double × List (RowEvent Double)) × List Int → Prop where
  | ended {child : Child} {rc : ErrorCode} {log : List Int} (left : holds child []) :
      Delivers store holds ((child, .error rc), ⟨store, log⟩) (none, log)
  | row {child : Child} {tuple : Tuple Double} {rest : List (RowEvent Double)} {log : List Int}
      (left : holds child rest) :
      Delivers store holds ((child, .ok tuple), ⟨store, log⟩) (some (tuple, rest), log)

/-- `next` delivers the events that an executor `holds`, and leaves the pages as they are. -/
def Source (excused : Fault → Prop) (store : PageStore)
    (next : Child → ExecM PageStore (Pulled Child Double))
    (holds : Child → List (RowEvent Double) → Prop) : Prop :=
  ∀ child events log, holds child events →
    Lockstep excused (Delivers store holds) ((next child).run ⟨store, log⟩)
      (Event.pull events log)

theorem Delivers.mono {store : PageStore} {holds weaker : Child → List (RowEvent Double) → Prop}
    (weaken : ∀ child events, holds child events → weaker child events)
    (outcome : Pulled Child Double × Session PageStore)
    (expected : Option (Tuple Double × List (RowEvent Double)) × List Int)
    (delivered : Delivers store holds outcome expected) :
    Delivers store weaker outcome expected := by
  cases delivered with
  | ended left => exact .ended (weaken _ _ left)
  | row left => exact .row (weaken _ _ left)

variable {excused : Fault → Prop} {store : PageStore}
variable {next : Child → ExecM PageStore (Pulled Child Double)}
variable {holds : Child → List (RowEvent Double) → Prop}

theorem note_run {Pool α : Type} (call : Noted α) (session : Session Pool) :
    (note call).run session =
      (call.run >>= fun (value, errors) =>
        .ok (value, ⟨session.bpm, session.errors ++ errors⟩)) := by
  unfold note
  generalize call.run = outcome
  cases outcome <;> rfl

/-! ## Selecting rows -/

/-- The loop of a filter. -/
theorem Source.filterNext (source : Source excused store next holds)
    (pass : Tuple Double → Noted Bool) {bound turns : Nat}
    (enough : bound < turns ∨ excused .unending) :
    Source excused store (filterNext next pass turns) fun child events =>
      ∃ pulled, holds child pulled ∧ pulled.length ≤ bound ∧
        events = Event.bindItems pulled (passEvents pass) := by
  induction turns generalizing bound with
  | zero => exact fun _ _ _ _ => .excused (enough.resolve_left (Nat.not_lt_zero _))
  | succ turns ih =>
      rintro child _ log ⟨pulled, held, bounded, rfl⟩
      rw [Executor.filterNext, StateT.run_bind, Event.pull_bindItems]
      refine (source child pulled log held).bind_of_eq fun outcome expected delivered taken => ?_
      cases delivered with
      | ended left => exact .ok (.ended ⟨[], left, Nat.zero_le _, rfl⟩)
      | @row child tuple rest log left =>
          have shorter := Event.length_of_pull taken
          dsimp only
          rw [StateT.run_bind, note_run, passEvents, pull_eventsOf_map, bind_assoc]
          refine .rfl_bind _ fun (passed, notes) _ => ?_
          cases passed with
          | true => exact .ok (.row ⟨rest, left, by omega, rfl⟩)
          | false =>
              have fewer : bound - 1 < turns ∨ excused .unending := enough.imp_left (by omega)
              refine (ih fewer child _ _ ⟨rest, left, by omega, rfl⟩).mono (Delivers.mono ?_)
              rintro child _ ⟨pulled, held, bounded, same⟩
              exact ⟨pulled, held, by omega, same⟩

/-- The inner loop of a join. -/
theorem Source.joinInner (source : Source excused store next holds)
    (pass : Tuple Double → Noted Bool) (outer : Tuple Double) {bound turns : Nat}
    (enough : bound < turns ∨ excused .unending) :
    Source excused store (joinInner next pass outer turns) fun child events =>
      ∃ pulled, holds child pulled ∧ pulled.length ≤ bound ∧
        events = Event.bindItems pulled (pairEvents pass outer) := by
  induction turns generalizing bound with
  | zero => exact fun _ _ _ _ => .excused (enough.resolve_left (Nat.not_lt_zero _))
  | succ turns ih =>
      rintro child _ log ⟨pulled, held, bounded, rfl⟩
      rw [Executor.joinInner, StateT.run_bind, Event.pull_bindItems]
      refine (source child pulled log held).bind_of_eq fun outcome expected delivered taken => ?_
      cases delivered with
      | ended left => exact .ok (.ended ⟨[], left, Nat.zero_le _, rfl⟩)
      | @row child tuple rest log left =>
          have shorter := Event.length_of_pull taken
          dsimp only
          rw [StateT.run_bind, note_run, pairEvents, passEvents, pull_eventsOf_map, bind_assoc]
          refine .rfl_bind _ fun (passed, notes) _ => ?_
          cases passed with
          | true => exact .ok (.row ⟨rest, left, by omega, rfl⟩)
          | false =>
              have fewer : bound - 1 < turns ∨ excused .unending := enough.imp_left (by omega)
              refine (ih fewer child _ _ ⟨rest, left, by omega, rfl⟩).mono (Delivers.mono ?_)
              rintro child _ ⟨pulled, held, bounded, same⟩
              exact ⟨pulled, held, by omega, same⟩

/-! ## Consuming all rows -/

/-- A child pulled to its end, with what its tuples came to. -/
inductive Consumed (store : PageStore) (holds : Child → List (RowEvent Double) → Prop) :
    (Child × Acc) × Session PageStore → Acc × List Int → Prop where
  | ended {child : Child} {acc : Acc} {log : List Int} (left : holds child []) :
      Consumed store holds ((child, acc), ⟨store, log⟩) (acc, log)

/-- The loop that pulls a child to its end. -/
theorem Source.consume (source : Source excused store next holds)
    (accumulate : Acc → Tuple Double → Noted Acc) {turns : Nat} {child : Child}
    {pulled : List (RowEvent Double)} (held : holds child pulled)
    (enough : pulled.length < turns ∨ excused .unending) (acc : Acc) (log : List Int) :
    Lockstep excused (Consumed store holds)
      ((consume next accumulate turns child acc).run ⟨store, log⟩)
      (Event.drain (fun acc tuple => (accumulate acc tuple).run) acc pulled log) := by
  induction turns generalizing child pulled acc log with
  | zero => exact .excused (enough.resolve_left (Nat.not_lt_zero _))
  | succ turns ih =>
      rw [Executor.consume, StateT.run_bind, Event.drain_eq]
      refine (source child pulled log held).bind_of_eq fun outcome expected delivered taken => ?_
      cases delivered with
      | ended left => exact .ok (.ended left)
      | @row child tuple rest log left =>
          have shorter := Event.length_of_pull taken
          dsimp only
          rw [StateT.run_bind, note_run, bind_assoc]
          exact .rfl_bind _ fun (acc, notes) _ => ih left (enough.imp_left (by omega)) acc _

/-! ## Joining -/

/-- The events of a join with the tuple its outer loop is at. -/
def joinEvents (pass : Tuple Double → Noted Bool) (current : Option (Tuple Double))
    (outer inner restarted : List (RowEvent Double)) : List (RowEvent Double) :=
  (match current with
    | some tuple => Event.bindItems inner (pairEvents pass tuple)
    | none => []) ++
  Event.bindItems outer fun tuple => Event.bindItems restarted (pairEvents pass tuple)

/-- The outcome of the loop of a join, with what it leaves behind as one value. -/
def joinOutcome
    (outcome : (Option (Tuple Double) × Child × Pulled Child Double) × Session PageStore) :
    Pulled (Option (Tuple Double) × Child × Child) Double × Session PageStore :=
  (((outcome.1.1, outcome.1.2.1, outcome.1.2.2.1), outcome.1.2.2.2), outcome.2)

/-- What the children of a join hold, as the events of the join. -/
def JoinHolds (holds holdsInner : Child → List (RowEvent Double) → Prop)
    (pass : Tuple Double → Noted Bool) (restarted : List (RowEvent Double))
    (outerBound innerBound : Nat) (state : Option (Tuple Double) × Child × Child)
    (events : List (RowEvent Double)) : Prop :=
  ∃ outer inner, holds state.2.1 outer ∧ holdsInner state.2.2 inner ∧
    outer.length ≤ outerBound ∧ inner.length ≤ innerBound ∧
    events = joinEvents pass state.1 outer inner restarted

/-- The outer loop of a join. -/
theorem Source.joinNext {holdsInner : Child → List (RowEvent Double) → Prop}
    (outerSource : Source excused store next holds)
    (innerSource : Source excused store next holdsInner)
    {reset : Child → ExecM PageStore Child} {restarted : List (RowEvent Double)}
    (resets : ∀ inner events log, holdsInner inner events →
      ∃ again, (reset inner).run ⟨store, log⟩ = .ok (again, ⟨store, log⟩) ∧
        holdsInner again restarted)
    (pass : Tuple Double → Noted Bool) {outerBound innerBound turns : Nat}
    (restartedBounded : restarted.length ≤ innerBound)
    {current : Option (Tuple Double)} {outer inner : Child} {events : List (RowEvent Double)}
    (held : JoinHolds holds holdsInner pass restarted outerBound innerBound
      (current, outer, inner) events)
    (enough : 2 * outerBound + innerBound + 3 + (if current.isSome then 1 else 0) ≤ turns ∨
      excused .unending) (log : List Int) :
    Lockstep excused
      (fun outcome => Delivers store
        (JoinHolds holds holdsInner pass restarted outerBound innerBound) (joinOutcome outcome))
      ((joinNext next reset pass turns current outer inner).run ⟨store, log⟩)
      (Event.pull events log) := by
  induction turns generalizing current outer inner events outerBound log with
  | zero => exact .excused (enough.resolve_left (by omega))
  | succ turns ih =>
      obtain ⟨outerEvents, innerEvents, heldOuter, heldInner, outerBounded, innerBounded, rfl⟩ :=
        held
      cases current with
      | none =>
          simp only [Option.isSome_none, Bool.false_eq_true, if_false, Nat.add_zero] at enough
          rw [Executor.joinNext, StateT.run_bind, joinEvents, List.nil_append,
            Event.pull_bindItems]
          refine (outerSource outer _ log heldOuter).bind_of_eq
            fun outcome expected delivered taken => ?_
          cases delivered with
          | ended left =>
              exact .ok (.ended ⟨[], innerEvents, left, heldInner, Nat.zero_le _, innerBounded, rfl⟩)
          | @row child tuple rest log left =>
              have shorter := Event.length_of_pull taken
              obtain ⟨again, reset_run, heldAgain⟩ := resets inner innerEvents log heldInner
              have continued : JoinHolds holds holdsInner pass restarted (outerBound - 1) innerBound
                  (some tuple, child, again) (joinEvents pass (some tuple) rest restarted restarted) :=
                ⟨rest, restarted, left, heldAgain, by omega, restartedBounded, rfl⟩
              dsimp only
              rw [StateT.run_bind, reset_run]
              refine (ih continued (enough.imp_left (by simp; omega)) log).mono
                fun outcome => Delivers.mono ?_ _
              rintro state _ ⟨outerEvents, innerEvents, heldOuter, heldInner, bounded, rest⟩
              exact ⟨outerEvents, innerEvents, heldOuter, heldInner, by omega, rest⟩
      | some tuple =>
          simp only [Option.isSome_some, if_true] at enough
          rw [Executor.joinNext, StateT.run_bind, joinEvents, Event.pull_append]
          have inside : innerBound < turns ∨ excused .unending := enough.imp_left (by omega)
          refine ((innerSource.joinInner pass tuple inside) inner _ log
            ⟨innerEvents, heldInner, innerBounded, rfl⟩).bind fun outcome expected delivered => ?_
          cases delivered with
          | @ended child _ log left =>
              obtain ⟨pulled, held, bounded, -⟩ := left
              have continued : JoinHolds holds holdsInner pass restarted outerBound innerBound
                  (none, outer, child) (joinEvents pass none outerEvents pulled restarted) :=
                ⟨outerEvents, pulled, heldOuter, held, outerBounded, bounded, rfl⟩
              exact ih continued (enough.imp_left (by simp)) log
          | row left =>
              obtain ⟨pulled, held, bounded, rfl⟩ := left
              exact .ok (.row ⟨outerEvents, pulled, heldOuter, held, outerBounded, bounded, rfl⟩)

/-! ## Limiting -/

/-- The loop over the offset, and what comes after it. -/
theorem Source.skipRows {β γ : Type} (source : Source excused store next holds)
    {related : β × Session PageStore → γ → Prop}
    {rest : Child × Nat × Bool → ExecM PageStore β}
    {expected : Option (Tuple Double × List (RowEvent Double)) × List Int →
      Except Fault γ} {remaining : Nat}
    (reached : ∀ child events log, holds child events →
      Lockstep excused related ((rest (child, 0, true)).run ⟨store, log⟩)
        (Event.pull events log >>= expected))
    (missing : ∀ child count log, count ≤ remaining → holds child [] →
      Lockstep excused related ((rest (child, count, false)).run ⟨store, log⟩)
        (expected (none, log)))
    {child : Child} {events : List (RowEvent Double)} (held : holds child events)
    (log : List Int) :
    Lockstep excused related ((skipRows next remaining child >>= rest).run ⟨store, log⟩)
      (Event.pull (Event.dropItems remaining events) log >>= expected) := by
  induction remaining generalizing child events log with
  | zero =>
      rw [Executor.skipRows, pure_bind, Event.dropItems]
      exact reached child events log held
  | succ remaining ih =>
      rw [Executor.skipRows, bind_assoc, StateT.run_bind, Event.pull_dropItems_succ, bind_assoc]
      refine (source child events log held).bind fun outcome pulled delivered => ?_
      cases delivered with
      | ended left => exact missing _ _ _ (Nat.le_refl _) left
      | row left =>
          exact ih (fun child count log few => missing child count log (Nat.le_succ_of_le few))
            left _

/-- The outcome of a limit, with what it leaves behind as one value. -/
def limitOutcome (outcome : ((Nat × Nat) × Pulled Child Double) × Session PageStore) :
    Pulled ((Nat × Nat) × Child) Double × Session PageStore :=
  (((outcome.1.1, outcome.1.2.1), outcome.1.2.2), outcome.2)

/-- What the child of a limit holds, as the events of the limit. -/
def LimitHolds (holds : Child → List (RowEvent Double) → Prop) (rows offset : Int32)
    (state : (Nat × Nat) × Child) (events : List (RowEvent Double)) : Prop :=
  ∃ pulled, holds state.2 pulled ∧ events =
    limitEvents rows state.1.1 (Event.dropItems (offset.toInt.toNat - state.1.2) pulled)

theorem limitEvents_nil (rows : Int32) (emitted : Nat) :
    limitEvents rows emitted ([] : List (RowEvent Double)) = [] := by
  unfold limitEvents
  split
  · exact Event.takeItems_nil _
  · rfl

theorem pull_limitEvents {rows : Int32} {emitted : Nat}
    (left : ¬(rows ≥ 0 ∧ emitted ≥ rows.toInt.toNat)) (events : List (RowEvent Double))
    (log : List Int) :
    Event.pull (limitEvents rows emitted events) log =
      (Event.pull events log >>= fun pulled =>
        match pulled with
        | (none, log) => .ok (none, log)
        | (some (tuple, rest), log) =>
            .ok (some (tuple, limitEvents rows (emitted + 1) rest), log)) := by
  unfold limitEvents
  by_cases limited : rows ≥ 0
  · obtain ⟨more, few⟩ : ∃ more, rows.toInt.toNat - emitted = more + 1 :=
      Nat.exists_eq_succ_of_ne_zero (by have := not_and.mp left limited; omega)
    have fewer : rows.toInt.toNat - (emitted + 1) = more := by omega
    simp only [if_pos limited, few, fewer, Event.pull_takeItems_succ]
    cases Event.pull events log with
    | error fault => rfl
    | ok pulled => obtain ⟨_ | _, _⟩ := pulled <;> rfl
  · simp only [if_neg limited]
    cases Event.pull events log with
    | error fault => rfl
    | ok pulled => obtain ⟨_ | _, _⟩ := pulled <;> rfl

/-- A limit. -/
theorem Source.limitNext (source : Source excused store next holds) (rows offset : Int32)
    {emitted skipped : Nat} {child : Child} {events : List (RowEvent Double)}
    (held : LimitHolds holds rows offset ((emitted, skipped), child) events) (log : List Int) :
    Lockstep excused
      (fun outcome => Delivers store (LimitHolds holds rows offset) (limitOutcome outcome))
      ((limitNext next rows offset emitted skipped child).run ⟨store, log⟩)
      (Event.pull events log) := by
  obtain ⟨pulled, held, rfl⟩ := held
  have held : holds child pulled := held
  unfold Executor.limitNext
  by_cases full : rows ≥ 0 ∧ emitted ≥ rows.toInt.toNat
  · have none_left : limitEvents rows emitted
        (Event.dropItems (offset.toInt.toNat - skipped) pulled) = [] := by
      rw [limitEvents, if_pos full.1, Nat.sub_eq_zero_of_le full.2, Event.takeItems]
    rw [if_pos full, none_left]
    exact .ok (.ended ⟨pulled, held, none_left.symm⟩)
  · rw [if_neg full, pull_limitEvents full]
    dsimp only
    refine source.skipRows ?_ ?_ held log
    · intro child events log held
      simp only [Bool.not_true, Bool.false_eq_true, if_false, Nat.sub_zero]
      rw [StateT.run_bind]
      refine (source child events log held).bind fun outcome expected delivered => ?_
      cases delivered with
      | ended left => exact .ok (.ended ⟨[], left, by simp [limitEvents_nil]⟩)
      | @row child tuple rest log left =>
          refine .ok (.row ⟨rest, left, ?_⟩)
          rw [Nat.sub_eq_zero_of_le (Nat.le_max_right _ _), Event.dropItems]
    · intro child count log _ left
      exact .ok (.ended ⟨[], left, by simp [limitEvents_nil]⟩)

end MiniSqlite.Executor
