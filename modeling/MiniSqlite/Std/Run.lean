/-!
# Runs of a deterministic system

A component is a total step function on states and operations. `run` is its
state after a list of operations, `EachStep` says that a property of a state
and the operation taken there holds at every step of a run. An invariant is
proved for one step and carried along a run by `EachStep.run_invariant`;
`eachStep_iff` turns an equivalence proved for one step into an equivalence of
whole runs. `execute` is a run of calls that may fail, and `executeAnswers_refines`
says that one which answers as a model does in every call does so in every run.
-/

namespace MiniSqlite.Std

universe u v
variable {State : Type u} {Op : Type v}

/-- The state reached by taking `ops` in order. -/
def run (step : State → Op → State) (start : State) (ops : List Op) : State :=
  ops.foldl step start

@[simp] theorem run_nil (step : State → Op → State) (start : State) :
    run step start [] = start := rfl

@[simp] theorem run_cons (step : State → Op → State) (start : State) (op : Op)
    (ops : List Op) : run step start (op :: ops) = run step (step start op) ops := rfl

theorem run_append (step : State → Op → State) (start : State) (first second : List Op) :
    run step start (first ++ second) = run step (run step start first) second :=
  List.foldl_append

/-- `holds` is true of every operation of the run, in the state it is taken in. -/
def EachStep (step : State → Op → State) (holds : State → Op → Prop) :
    State → List Op → Prop
  | _, [] => True
  | state, op :: ops => holds state op ∧ EachStep step holds (step state op) ops

@[simp] theorem eachStep_nil (step : State → Op → State) (holds : State → Op → Prop)
    (state : State) : EachStep step holds state [] := trivial

@[simp] theorem eachStep_cons {step : State → Op → State} {holds : State → Op → Prop}
    {state : State} {op : Op} {ops : List Op} :
    EachStep step holds state (op :: ops) ↔
      holds state op ∧ EachStep step holds (step state op) ops := Iff.rfl

theorem eachStep_append {step : State → Op → State} {holds : State → Op → Prop}
    {state : State} {first second : List Op} :
    EachStep step holds state (first ++ second) ↔
      EachStep step holds state first ∧ EachStep step holds (run step state first) second := by
  induction first generalizing state with
  | nil => simp
  | cons op ops ih => simp [ih, and_assoc]

/-- An invariant that every step meeting `guard` preserves holds after a run
whose steps all meet `guard`. -/
theorem EachStep.run_invariant {step : State → Op → State} {guard : State → Op → Prop}
    {invariant : State → Prop}
    (preserved : ∀ state op, invariant state → guard state op → invariant (step state op))
    {start : State} {ops : List Op} (initial : invariant start)
    (guarded : EachStep step guard start ops) : invariant (run step start ops) := by
  induction ops generalizing start with
  | nil => exact initial
  | cons op ops ih => exact ih (preserved start op initial guarded.1) guarded.2

/-- An invariant that every step preserves holds after every run. -/
theorem run_invariant {step : State → Op → State} {invariant : State → Prop}
    (preserved : ∀ state op, invariant state → invariant (step state op))
    {start : State} (ops : List Op) (initial : invariant start) :
    invariant (run step start ops) := by
  induction ops generalizing start with
  | nil => exact initial
  | cons op ops ih => exact ih (preserved start op initial)

/-- A property of single steps holds along every run when it follows from a
preserved invariant. -/
theorem eachStep_of_invariant {step : State → Op → State} {holds : State → Op → Prop}
    {invariant : State → Prop}
    (preserved : ∀ state op, invariant state → invariant (step state op))
    (sound : ∀ state op, invariant state → holds state op)
    {start : State} (ops : List Op) (initial : invariant start) :
    EachStep step holds start ops := by
  induction ops generalizing start with
  | nil => trivial
  | cons op ops ih => exact ⟨sound start op initial, ih (preserved start op initial)⟩

/-- A property of single steps holds along a guarded run when it follows from the
guard in every state that satisfies a preserved invariant. -/
theorem EachStep.of_invariant {step : State → Op → State} {guard holds : State → Op → Prop}
    {invariant : State → Prop}
    (preserved : ∀ state op, invariant state → guard state op → invariant (step state op))
    (sound : ∀ state op, invariant state → guard state op → holds state op)
    {start : State} {ops : List Op} (initial : invariant start)
    (guarded : EachStep step guard start ops) : EachStep step holds start ops := by
  induction ops generalizing start with
  | nil => trivial
  | cons op ops ih =>
      exact ⟨sound start op initial guarded.1,
        ih (preserved start op initial guarded.1) guarded.2⟩

/-- When `holds` and `guard` agree in every state satisfying an invariant that
guarded steps preserve, a run satisfies `holds` throughout exactly when it
satisfies `guard` throughout. Both may rely on what is `assumed` of each step. -/
theorem eachStep_iff_of_assumed {step : State → Op → State}
    {assumed guard holds : State → Op → Prop} {invariant : State → Prop}
    (preserved : ∀ state op, invariant state → assumed state op → guard state op →
      invariant (step state op))
    (exact_ : ∀ state op, invariant state → assumed state op → (holds state op ↔ guard state op))
    {start : State} {ops : List Op} (initial : invariant start)
    (given : EachStep step assumed start ops) :
    EachStep step holds start ops ↔ EachStep step guard start ops := by
  induction ops generalizing start with
  | nil => simp
  | cons op ops ih =>
      rw [eachStep_cons, eachStep_cons, exact_ start op initial given.1]
      constructor
      · rintro ⟨head, tail⟩
        exact ⟨head, (ih (preserved start op initial given.1 head) given.2).mp tail⟩
      · rintro ⟨head, tail⟩
        exact ⟨head, (ih (preserved start op initial given.1 head) given.2).mpr tail⟩

theorem eachStep_true (step : State → Op → State) (start : State) (ops : List Op) :
    EachStep step (fun _ _ => True) start ops := by
  induction ops generalizing start with
  | nil => trivial
  | cons op ops ih => exact ⟨trivial, ih _⟩

/-- The equivalence with nothing assumed. -/
theorem eachStep_iff {step : State → Op → State} {guard holds : State → Op → Prop}
    {invariant : State → Prop}
    (preserved : ∀ state op, invariant state → guard state op → invariant (step state op))
    (exact_ : ∀ state op, invariant state → (holds state op ↔ guard state op))
    {start : State} (ops : List Op) (initial : invariant start) :
    EachStep step holds start ops ↔ EachStep step guard start ops :=
  eachStep_iff_of_assumed (fun state op sound _ => preserved state op sound)
    (fun state op sound _ => exact_ state op sound) initial (eachStep_true step start ops)

/-! ## Runs that may fail -/

section Faults

variable {ε : Type} {call : State → Op → Except ε State}

/-- The state reached by making the calls in order, or the first fault. -/
def execute (call : State → Op → Except ε State) : State → List Op → Except ε State
  | state, [] => .ok state
  | state, op :: ops =>
      match call state op with
      | .ok next => execute call next ops
      | .error fault => .error fault

/-- An invariant that every call keeps holds where a run ends. -/
theorem execute_invariant {invariant : State → Prop}
    (preserved : ∀ state op next, invariant state → call state op = .ok next → invariant next)
    {start final : State} {ops : List Op} (initial : invariant start)
    (ran : execute call start ops = .ok final) : invariant final := by
  induction ops generalizing start with
  | nil => exact Except.ok.inj ran ▸ initial
  | cons op ops ih =>
      unfold execute at ran
      cases called : call start op with
      | error fault => rw [called] at ran; cases ran
      | ok next =>
          rw [called] at ran
          exact ih (preserved start op next initial called) ran

end Faults

/-! ## Runs with answers -/

section Answers

variable {ε : Type} {Answer : Type} {Model : Type u}

/-- The state reached by taking `ops` in order, and the answer at each step. -/
def runAnswers (step : Model → Op → Model × Answer) : Model → List Op → Model × List Answer
  | model, [] => (model, [])
  | model, op :: ops =>
      let (next, answer) := step model op
      let (last, answers) := runAnswers step next ops
      (last, answer :: answers)

/-- The same for calls that may fail, up to the first fault. -/
def executeAnswers (call : State → Op → Except ε (State × Answer)) :
    State → List Op → Except ε (State × List Answer)
  | state, [] => .ok (state, [])
  | state, op :: ops =>
      match call state op with
      | .error fault => .error fault
      | .ok (next, answer) =>
          match executeAnswers call next ops with
          | .error fault => .error fault
          | .ok (last, answers) => .ok (last, answer :: answers)

/-- Calls that answer as a model does, and stay related to it, make a run that ends and
answers as that of the model. -/
theorem executeAnswers_refines {call : State → Op → Except ε (State × Answer)}
    {step : Model → Op → Model × Answer} {related : State → Model → Prop}
    (refines : ∀ state model op, related state model →
      ∃ next, call state op = .ok (next, (step model op).2) ∧ related next (step model op).1)
    {state : State} {model : Model} (start : related state model) (ops : List Op) :
    ∃ last, executeAnswers call state ops = .ok (last, (runAnswers step model ops).2) ∧
      related last (runAnswers step model ops).1 := by
  induction ops generalizing state model with
  | nil => exact ⟨state, rfl, start⟩
  | cons op ops ih =>
      obtain ⟨next, called, still⟩ := refines state model op start
      obtain ⟨last, ran, ends⟩ := ih still
      refine ⟨last, ?_, ends⟩
      rw [executeAnswers, called]
      dsimp only
      rw [ran]
      rfl

/-- The same for calls that fail when they have used up what each takes a share of. -/
theorem executeAnswers_refines_or {call : State → Op → Except ε (State × Answer)}
    {step : Model → Op → Model × Answer} {related : State → Model → Prop} (left : State → Nat)
    {share : Nat} {fault : ε}
    (refines : ∀ state model op, related state model →
      (call state op = .error fault ∧ left state < share) ∨
        ∃ next, call state op = .ok (next, (step model op).2) ∧ related next (step model op).1 ∧
          left state ≤ left next + share)
    {state : State} {model : Model} (start : related state model) (ops : List Op) :
    (executeAnswers call state ops = .error fault ∧ left state < share * ops.length) ∨
      ∃ last, executeAnswers call state ops = .ok (last, (runAnswers step model ops).2) ∧
        related last (runAnswers step model ops).1 := by
  induction ops generalizing state model with
  | nil => exact .inr ⟨state, rfl, start⟩
  | cons op ops ih =>
      rw [executeAnswers, List.length_cons, Nat.mul_succ]
      rcases refines state model op start with ⟨fails, few⟩ | ⟨next, called, still, used⟩
      · rw [fails]
        exact .inl ⟨rfl, by omega⟩
      · rw [called]
        dsimp only
        rcases ih still with ⟨fails, few⟩ | ⟨last, ran, ends⟩
        · rw [fails]
          exact .inl ⟨rfl, by omega⟩
        · rw [ran]
          exact .inr ⟨last, rfl, ends⟩

/-- The same for calls that do not fail. -/
theorem runAnswers_refines {call : State → Op → State × Answer}
    {step : Model → Op → Model × Answer} {related : State → Model → Prop}
    (refines : ∀ state model op, related state model →
      (call state op).2 = (step model op).2 ∧ related (call state op).1 (step model op).1)
    {state : State} {model : Model} (start : related state model) (ops : List Op) :
    (runAnswers call state ops).2 = (runAnswers step model ops).2 ∧
      related (runAnswers call state ops).1 (runAnswers step model ops).1 := by
  induction ops generalizing state model with
  | nil => exact ⟨rfl, start⟩
  | cons op ops ih =>
      obtain ⟨same, still⟩ := refines state model op start
      obtain ⟨others, ends⟩ := ih still
      refine ⟨?_, ends⟩
      rw [runAnswers, runAnswers]
      dsimp only
      rw [same, others]

/-- A state that is only carried along beside a run. -/
theorem runAnswers_beside {Beside : Type u} {step : Model → Op → Model × Answer}
    {carry : Beside → Op → Beside} (beside : Beside) (model : Model) (ops : List Op) :
    runAnswers (fun (pair : Beside × Model) op =>
        ((carry pair.1 op, (step pair.2 op).1), (step pair.2 op).2)) (beside, model) ops =
      ((run carry beside ops, (runAnswers step model ops).1), (runAnswers step model ops).2) := by
  induction ops generalizing beside model with
  | nil => rfl
  | cons op ops ih =>
      rw [runAnswers]
      dsimp only
      rw [ih]
      rfl

end Answers

end MiniSqlite.Std
