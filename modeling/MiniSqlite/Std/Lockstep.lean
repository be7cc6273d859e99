/-!
# Two computations in lockstep

Fallible computations are values of `Except ε`. `Lockstep excused related first
second` says that the first ends as the second does, with related values or with
the same error, unless it ends with an error it is excused for. Proofs about two
programs written alike go through both at once with `Lockstep.bind`;
`Lockstep.answers_eq` carries one call to a run.
-/

namespace MiniSqlite.Std

universe u v
variable {ε α β α' β' : Type u}

theorem ok_bind (value : α) (rest : α → Except ε β) : (Except.ok value >>= rest) = rest value :=
  rfl

/-- The first computation ends as the second does, or with an excused error. -/
inductive Lockstep (excused : ε → Prop) (related : α → β → Prop) :
    Except ε α → Except ε β → Prop where
  | ok {first : α} {second : β} (values : related first second) :
      Lockstep excused related (.ok first) (.ok second)
  | error (fault : ε) : Lockstep excused related (.error fault) (.error fault)
  | excused {fault : ε} {second : Except ε β} (allowed : excused fault) :
      Lockstep excused related (.error fault) second

variable {excused : ε → Prop} {related : α → β → Prop} {related' : α' → β' → Prop}

/-- Sequencing keeps two computations in lockstep; what follows may depend on what the
second has given. -/
theorem Lockstep.bind_of_eq {first : Except ε α} {second : Except ε β}
    {firstRest : α → Except ε α'} {secondRest : β → Except ε β'}
    (start : Lockstep excused related first second)
    (rest : ∀ value other, related value other → second = .ok other →
      Lockstep excused related' (firstRest value) (secondRest other)) :
    Lockstep excused related' (first >>= firstRest) (second >>= secondRest) := by
  cases start with
  | ok values => exact rest _ _ values rfl
  | error fault => exact .error fault
  | excused allowed => exact .excused allowed

/-- Sequencing keeps two computations in lockstep. -/
theorem Lockstep.bind {first : Except ε α} {second : Except ε β}
    {firstRest : α → Except ε α'} {secondRest : β → Except ε β'}
    (start : Lockstep excused related first second)
    (rest : ∀ value other, related value other →
      Lockstep excused related' (firstRest value) (secondRest other)) :
    Lockstep excused related' (first >>= firstRest) (second >>= secondRest) :=
  start.bind_of_eq fun value other values _ => rest value other values

/-- Without excuses, computations in lockstep on equal values are equal. -/
theorem Lockstep.eq {first second : Except ε α}
    (lockstep : Lockstep (fun _ => False) Eq first second) : first = second := by
  cases lockstep with
  | ok values => rw [values]
  | error fault => rfl
  | excused allowed => exact allowed.elim

/-- Only the first of two computations goes on. -/
theorem Lockstep.bind_left {first : Except ε α} {second : Except ε β}
    {firstRest : α → Except ε α'} {related' : α' → β → Prop}
    (start : Lockstep excused related first second)
    (rest : ∀ value other, related value other →
      Lockstep excused related' (firstRest value) (.ok other)) :
    Lockstep excused related' (first >>= firstRest) second := by
  cases start with
  | ok values => exact rest _ _ values
  | error fault => exact .error fault
  | excused allowed => exact .excused allowed

/-- A computation is in lockstep with itself. -/
theorem Lockstep.rfl_bind (call : Except ε α) {firstRest : α → Except ε α'}
    {secondRest : α → Except ε β'}
    (rest : ∀ value, call = .ok value →
      Lockstep excused related' (firstRest value) (secondRest value)) :
    Lockstep excused related' (call >>= firstRest) (call >>= secondRest) := by
  cases call with
  | ok value => exact rest value rfl
  | error fault => exact .error fault

theorem Lockstep.mono {weaker : α → β → Prop} {first : Except ε α} {second : Except ε β}
    (lockstep : Lockstep excused related first second)
    (weaken : ∀ value other, related value other → weaker value other) :
    Lockstep excused weaker first second := by
  cases lockstep with
  | ok values => exact .ok (weaken _ _ values)
  | error fault => exact .error fault
  | excused allowed => exact .excused allowed

/-- What is known of the first computation on its own may be added. -/
theorem Lockstep.ensures {holds : α → Prop} {first : Except ε α} {second : Except ε β}
    (lockstep : Lockstep excused related first second)
    (alone : ∀ value, first = .ok value → holds value) :
    Lockstep excused (fun value other => related value other ∧ holds value) first second := by
  cases lockstep with
  | ok values => exact .ok ⟨values, alone _ rfl⟩
  | error fault => exact .error fault
  | excused allowed => exact .excused allowed

/-! ## Runs of two systems -/

variable {State State' Answer : Type u} {Op : Type v}

/-- What a client sees of a run: the answers, and the error that ended it if one did. -/
def answers (call : State → Op → Except ε (State × Answer)) :
    State → List Op → List Answer × Option ε
  | _, [] => ([], none)
  | state, op :: ops =>
      match call state op with
      | .error fault => ([], some fault)
      | .ok (state, answer) => (answer :: (answers call state ops).1, (answers call state ops).2)

/-- A run only ends with errors that a call can end with. -/
theorem answers_fault {call : State → Op → Except ε (State × Answer)} {allowed : ε → Prop}
    {invariant : State → Prop} {ops : List Op}
    (step : ∀ state, ∀ op ∈ ops, invariant state →
      (∃ fault, call state op = .error fault ∧ allowed fault) ∨
        ∃ after answer, call state op = .ok (after, answer) ∧ invariant after)
    {state : State} (start : invariant state) {fault : ε}
    (ended : (answers call state ops).2 = some fault) : allowed fault := by
  induction ops generalizing state with
  | nil => exact absurd ended (by simp [answers])
  | cons op ops ih =>
      rw [answers] at ended
      rcases step state op List.mem_cons_self start with
        ⟨fault', failed, allow⟩ | ⟨after, answer, called, still⟩
      · rw [failed] at ended
        exact Option.some.inj ended ▸ allow
      · rw [called] at ended
        exact ih (fun state op member => step state op (List.mem_cons_of_mem _ member)) still ended

/-- Two systems whose calls stay in lockstep give the same answers, as long as the first
meets no excused error. -/
theorem Lockstep.answers_eq {call : State → Op → Except ε (State × Answer)}
    {call' : State' → Op → Except ε (State' × Answer)} {matched : State → State' → Prop}
    {ops : List Op}
    (step : ∀ state state', ∀ op ∈ ops, matched state state' →
      Lockstep excused (fun after after' => after.2 = after'.2 ∧ matched after.1 after'.1)
        (call state op) (call' state' op))
    {state : State} {state' : State'} (start : matched state state')
    (honest : ∀ fault, (answers call state ops).2 = some fault → ¬ excused fault) :
    answers call state ops = answers call' state' ops := by
  induction ops generalizing state state' with
  | nil => rfl
  | cons op ops ih =>
      have head := step state state' op List.mem_cons_self start
      rw [answers] at honest
      rw [answers, answers]
      generalize call state op = outcome, call' state' op = outcome' at head honest ⊢
      cases head with
      | ok values =>
          rename_i after after'
          obtain ⟨after, answer⟩ := after
          obtain ⟨after', answer'⟩ := after'
          obtain ⟨rfl, still⟩ := values
          have tail := ih (fun state state' op member =>
            step state state' op (List.mem_cons_of_mem _ member)) still honest
          dsimp only
          rw [tail]
      | error fault => rfl
      | excused allowed => exact absurd allowed (honest _ rfl)

end MiniSqlite.Std
