import Mathlib.Control.Basic

/-!
# Recursive procedures

`Code` is code that may call procedures, and a program gives each of its procedures a
body. `answer` runs a call to a bounded depth of calls; `Returns` is what a call
returns at some depth, and so at every greater one. `Visits` lists the calls that
a call comes to. `Code.Meets` is what code guarantees when the calls it makes answer as
specified, and `answer_correct` is the rule for recursion: if every body meets the
specification of its procedure with calls of smaller size, then so does every run whose
calls are all fine.
-/

namespace MiniSqlite.Std

/-- Code that ends with a value or a fault, or calls a procedure and goes on with its answer. -/
inductive Code (Call : Type → Type) (ε : Type) (α : Type) : Type 1 where
  | done (value : α)
  | fail (fault : ε)
  | call {β : Type} (procedure : Call β) (rest : β → Code Call ε α)

namespace Code

variable {Call : Type → Type} {ε α β γ : Type}

/-- Sequencing. -/
def bind : Code Call ε α → (α → Code Call ε β) → Code Call ε β
  | done value, next => next value
  | fail fault, _ => fail fault
  | call procedure rest, next => call procedure fun answer => (rest answer).bind next

instance : Monad (Code Call ε) where
  pure := done
  bind := bind

/-- The answer of a procedure. -/
def invoke (procedure : Call α) : Code Call ε α := call procedure done

/-- A computation without calls. -/
def ofExcept : Except ε α → Code Call ε α
  | .ok value => done value
  | .error fault => fail fault

instance : MonadLift (Except ε) (Code Call ε) := ⟨ofExcept⟩

@[simp] theorem done_bind (value : α) (next : α → Code Call ε β) :
    done value >>= next = next value := rfl

@[simp] theorem fail_bind (fault : ε) (next : α → Code Call ε β) :
    fail fault >>= next = fail fault := rfl

@[simp] theorem call_bind (procedure : Call γ) (rest : γ → Code Call ε α)
    (next : α → Code Call ε β) :
    call procedure rest >>= next = call procedure fun answer => rest answer >>= next := rfl

theorem pure_eq_done (value : α) : (pure value : Code Call ε α) = done value := rfl

theorem bind_done (code : Code Call ε α) : code.bind done = code := by
  induction code with
  | done value => rfl
  | fail fault => rfl
  | call procedure rest ih => exact congrArg (call procedure) (funext ih)

theorem bind_bind (code : Code Call ε α) (first : α → Code Call ε β) (second : β → Code Call ε γ) :
    (code.bind first).bind second = code.bind fun value => (first value).bind second := by
  induction code with
  | done value => rfl
  | fail fault => rfl
  | call procedure rest ih => exact congrArg (call procedure) (funext ih)

instance : LawfulMonad (Code Call ε) :=
  LawfulMonad.mk' _ bind_done (fun _ _ => rfl) bind_bind

/-- Runs code with a way to answer calls. -/
def run (answers : ∀ {β : Type}, Call β → Except ε β) : Code Call ε α → Except ε α
  | done value => .ok value
  | fail fault => .error fault
  | call procedure rest => answers procedure >>= fun answer => (rest answer).run answers

theorem run_bind (answers : ∀ {β : Type}, Call β → Except ε β) (code : Code Call ε α)
    (next : α → Code Call ε β) :
    (code >>= next).run answers = code.run answers >>= fun value => (next value).run answers := by
  induction code with
  | done value => rfl
  | fail fault => rfl
  | call procedure rest ih =>
      rw [call_bind, run, run, bind_assoc]
      exact congrArg (answers procedure >>= ·) (funext ih)

theorem run_invoke (answers : ∀ {β : Type}, Call β → Except ε β) (procedure : Call α) :
    (invoke procedure : Code Call ε α).run answers = answers procedure :=
  bind_pure (answers procedure)

/-- More answers give no other results. -/
theorem run_mono {answers answers' : ∀ {β : Type}, Call β → Except ε β}
    (more : ∀ {β : Type} (procedure : Call β) (answer : β),
      answers procedure = .ok answer → answers' procedure = .ok answer)
    {code : Code Call ε α} {value : α} (ran : code.run answers = .ok value) :
    code.run answers' = .ok value := by
  induction code with
  | done other => exact ran
  | fail fault => cases ran
  | call procedure rest ih =>
      rw [run] at ran ⊢
      cases answered : answers procedure with
      | error fault =>
          rw [answered] at ran
          cases ran
      | ok answer =>
          rw [answered] at ran
          rw [more procedure answer answered]
          exact ih answer ran

end Code

open Code

variable {Call : Type → Type} {ε : Type} (body : ∀ {β : Type}, Call β → Code Call ε β)
  (exhausted : ε)

/-- Answers a call to a depth of calls, with the fault `exhausted` beyond it. -/
def answer : Nat → ∀ {β : Type}, Call β → Except ε β
  | 0, _, _ => .error exhausted
  | depth + 1, _, procedure => (body procedure).run (answer depth)

theorem answer_mono {β : Type} {procedure : Call β} {value : β} {depth deeper : Nat}
    (le : depth ≤ deeper) (answered : answer body exhausted depth procedure = .ok value) :
    answer body exhausted deeper procedure = .ok value := by
  induction depth generalizing deeper β with
  | zero => cases answered
  | succ depth ih =>
      obtain ⟨deeper, rfl⟩ := Nat.exists_eq_add_one.mpr (Nat.zero_lt_of_lt le)
      exact run_mono (fun _ _ here => ih (Nat.le_of_succ_le_succ le) here) answered

/-- A call returns a value at some depth. -/
def Returns {β : Type} (procedure : Call β) (value : β) : Prop :=
  ∃ depth, answer body exhausted depth procedure = .ok value

/-- Code yields a value when its calls return. -/
inductive Yields {α : Type} : Code Call ε α → α → Prop where
  | done (value : α) : Yields (.done value) value
  | call {β : Type} {procedure : Call β} {rest : β → Code Call ε α} {answer : β} {value : α}
      (returned : Returns body exhausted procedure answer) (more : Yields (rest answer) value) :
      Yields (.call procedure rest) value

/-- The calls that code makes itself. -/
inductive Makes {α γ : Type} (target : Call γ) : Code Call ε α → Prop where
  | here {rest : γ → Code Call ε α} : Makes target (.call target rest)
  | later {β : Type} {procedure : Call β} {rest : β → Code Call ε α} {answer : β}
      (returned : Returns body exhausted procedure answer) (more : Makes target (rest answer)) :
      Makes target (.call procedure rest)

/-- The calls that a call comes to, itself included. -/
inductive Visits {γ : Type} (target : Call γ) : {β : Type} → Call β → Prop where
  | here : Visits target target
  | call {β δ : Type} {procedure : Call β} {next : Call δ}
      (made : Makes body exhausted next (body procedure)) (more : Visits target next) :
      Visits target procedure

variable {body exhausted}

theorem Returns.unique {β : Type} {procedure : Call β} {first second : β}
    (one : Returns body exhausted procedure first)
    (other : Returns body exhausted procedure second) : first = second := by
  obtain ⟨depth, one⟩ := one
  obtain ⟨depth', other⟩ := other
  have same := answer_mono body exhausted (Nat.le_max_left depth depth') one
  rw [answer_mono body exhausted (Nat.le_max_right depth depth') other] at same
  exact (Except.ok.inj same).symm

theorem yields_of_run {α : Type} {depth : Nat} {code : Code Call ε α} {value : α}
    (ran : code.run (answer body exhausted depth) = .ok value) :
    Yields body exhausted code value := by
  induction code with
  | done other =>
      cases ran
      exact .done value
  | fail fault => cases ran
  | call procedure rest ih =>
      rw [run] at ran
      cases answered : answer body exhausted depth procedure with
      | error fault =>
          rw [answered] at ran
          cases ran
      | ok result =>
          rw [answered] at ran
          exact .call ⟨depth, answered⟩ (ih result ran)

theorem Yields.exists_run {α : Type} {code : Code Call ε α} {value : α}
    (yields : Yields body exhausted code value) :
    ∃ depth, code.run (answer body exhausted depth) = .ok value := by
  induction yields with
  | done value => exact ⟨0, rfl⟩
  | @call β procedure rest result value returned more ih =>
      obtain ⟨depth, answered⟩ := returned
      obtain ⟨depth', ran⟩ := ih
      refine ⟨max depth depth', ?_⟩
      rw [run, answer_mono body exhausted (Nat.le_max_left depth depth') answered]
      exact run_mono (fun _ _ here =>
        answer_mono body exhausted (Nat.le_max_right depth depth') here) ran

/-- A call returns what its body yields. -/
theorem returns_iff {β : Type} {procedure : Call β} {value : β} :
    Returns body exhausted procedure value ↔ Yields body exhausted (body procedure) value := by
  constructor
  · rintro ⟨_ | depth, answered⟩
    · cases answered
    · exact yields_of_run answered
  · intro yields
    obtain ⟨depth, ran⟩ := yields.exists_run
    exact ⟨depth + 1, ran⟩

theorem yields_bind {α β : Type} {code : Code Call ε α} {next : α → Code Call ε β} {value : β} :
    Yields body exhausted (code >>= next) value ↔
      ∃ middle, Yields body exhausted code middle ∧ Yields body exhausted (next middle) value := by
  induction code with
  | done other =>
      refine ⟨fun yields => ⟨other, .done other, yields⟩, ?_⟩
      rintro ⟨_, ⟨⟩, more⟩
      exact more
  | fail fault =>
      constructor
      · rintro ⟨⟩
      · rintro ⟨_, ⟨⟩, _⟩
  | call procedure rest ih =>
      constructor
      · rintro (_ | ⟨returned, more⟩)
        obtain ⟨middle, first, second⟩ := (ih _).mp more
        exact ⟨middle, .call returned first, second⟩
      · rintro ⟨middle, _ | ⟨returned, first⟩, second⟩
        exact .call returned ((ih _).mpr ⟨middle, first, second⟩)

/-- Code that yields a value makes only calls that return. -/
theorem Yields.returns_of_makes {α γ : Type} {target : Call γ} {code : Code Call ε α} {value : α}
    (yields : Yields body exhausted code value) (makes : Makes body exhausted target code) :
    ∃ answer, Returns body exhausted target answer := by
  induction makes with
  | here =>
      cases yields with
      | call returned more => exact ⟨_, returned⟩
  | later returned more ih =>
      cases yields with
      | call other yields =>
          cases other.unique returned
          exact ih yields

/-- A call that returns comes only to calls that return. -/
theorem Returns.of_visits {β γ : Type} {procedure : Call β} {target : Call γ} {value : β}
    (returned : Returns body exhausted procedure value)
    (visits : Visits body exhausted target procedure) :
    ∃ answer, Returns body exhausted target answer := by
  induction visits with
  | here => exact ⟨value, returned⟩
  | call made more ih =>
      obtain ⟨answer, inner⟩ := (returns_iff.mp returned).returns_of_makes made
      exact ih inner

/-! ## Specifications -/

/-- Code ends with a value as specified, without a fault, if its calls answer as specified;
it only makes calls that are allowed. -/
def Code.Meets (allowed : ∀ {β : Type}, Call β → Prop) (spec : ∀ {β : Type}, Call β → β → Prop)
    {α : Type} : Code Call ε α → (α → Prop) → Prop
  | .done value, post => post value
  | .fail _, _ => False
  | .call procedure rest, post =>
      allowed procedure ∧ ∀ answer, spec procedure answer → (rest answer).Meets allowed spec post

section Meets

variable {allowed : ∀ {β : Type}, Call β → Prop} {spec : ∀ {β : Type}, Call β → β → Prop}
  {α β : Type}

theorem meets_bind {code : Code Call ε α} {next : α → Code Call ε β} {post : β → Prop} :
    (code >>= next).Meets @allowed @spec post ↔
      code.Meets @allowed @spec fun value => (next value).Meets @allowed @spec post := by
  induction code with
  | done value => exact Iff.rfl
  | fail fault => exact Iff.rfl
  | call procedure rest ih =>
      exact and_congr_right fun _ => forall_congr' fun answer => imp_congr_right fun _ => ih answer

theorem Code.Meets.mono {code : Code Call ε α} {post weaker : α → Prop}
    (meets : code.Meets @allowed @spec post) (weaken : ∀ value, post value → weaker value) :
    code.Meets @allowed @spec weaker := by
  induction code with
  | done value => exact weaken value meets
  | fail fault => exact meets
  | call procedure rest ih =>
      exact ⟨meets.1, fun answer answers => ih answer (meets.2 answer answers)⟩

/-- Sequencing: what the first part guarantees is what the second part may rely on. -/
theorem Code.Meets.bind {code : Code Call ε α} {next : α → Code Call ε β} {middle : α → Prop}
    {post : β → Prop} (first : code.Meets @allowed @spec middle)
    (second : ∀ value, middle value → (next value).Meets @allowed @spec post) :
    (code >>= next).Meets @allowed @spec post :=
  meets_bind.mpr (first.mono second)

theorem Code.Meets.invoke {procedure : Call α} {post : α → Prop} (ready : allowed procedure)
    (returns : ∀ answer, spec procedure answer → post answer) :
    (invoke procedure : Code Call ε α).Meets @allowed @spec post := ⟨ready, returns⟩

/-- A call: what its procedure specifies is what the rest may rely on. -/
theorem Code.Meets.invoke_bind {procedure : Call α} {next : α → Code Call ε β} {post : β → Prop}
    (ready : allowed procedure)
    (rest : ∀ answer, spec procedure answer → (next answer).Meets @allowed @spec post) :
    (Code.invoke procedure >>= next).Meets @allowed @spec post := ⟨ready, rest⟩

/-- A computation without calls that has ended with a value. -/
theorem Code.Meets.lift_bind {computed : Except ε α} {value : α} {next : α → Code Call ε β}
    {post : β → Prop} (ended : computed = .ok value)
    (rest : (next value).Meets @allowed @spec post) :
    ((liftM computed : Code Call ε α) >>= next).Meets @allowed @spec post := by
  subst ended
  exact rest

theorem Code.Meets.lift {computed : Except ε α} {value : α} {post : α → Prop}
    (ended : computed = .ok value) (holds : post value) :
    (liftM computed : Code Call ε α).Meets @allowed @spec post := by
  subst ended
  exact holds

/-- Calls that code makes are allowed. -/
theorem Code.Meets.allowed_of_makes {γ : Type} {target : Call γ} {code : Code Call ε α}
    {post : α → Prop} (meets : code.Meets @allowed @spec post)
    (makes : Makes body exhausted target code)
    (correct : ∀ {β : Type} {procedure : Call β} {answer : β},
      Makes body exhausted procedure code → allowed procedure →
        Returns body exhausted procedure answer → spec procedure answer) : allowed target := by
  induction makes with
  | here => exact meets.1
  | later returned more ih =>
      exact ih (meets.2 _ (correct .here meets.1 returned)) fun made =>
        correct (.later returned made)

end Meets

/-! ## Partial correctness -/

/-- What code guarantees when it ends with a value, if its calls answer as specified. -/
def Code.Ensures (spec : ∀ {β : Type}, Call β → β → Prop) {α : Type} :
    Code Call ε α → (α → Prop) → Prop
  | .done value, post => post value
  | .fail _, _ => True
  | .call procedure rest, post =>
      ∀ answer, spec procedure answer → (rest answer).Ensures spec post

section Ensures

variable {spec : ∀ {β : Type}, Call β → β → Prop} {α β : Type}

theorem ensures_bind {code : Code Call ε α} {next : α → Code Call ε β} {post : β → Prop} :
    (code >>= next).Ensures @spec post ↔
      code.Ensures @spec fun value => (next value).Ensures @spec post := by
  induction code with
  | done value => exact Iff.rfl
  | fail fault => exact Iff.rfl
  | call procedure rest ih => exact forall_congr' fun answer => imp_congr_right fun _ => ih answer

theorem Code.Ensures.mono {code : Code Call ε α} {post weaker : α → Prop}
    (ensures : code.Ensures @spec post) (weaken : ∀ value, post value → weaker value) :
    code.Ensures @spec weaker := by
  induction code with
  | done value => exact weaken value ensures
  | fail fault => exact trivial
  | call procedure rest ih => exact fun answer answers => ih answer (ensures answer answers)

/-- Sequencing: what the first part guarantees is what the second part may rely on. -/
theorem Code.Ensures.bind {code : Code Call ε α} {next : α → Code Call ε β} {middle : α → Prop}
    {post : β → Prop} (first : code.Ensures @spec middle)
    (second : ∀ value, middle value → (next value).Ensures @spec post) :
    (code >>= next).Ensures @spec post :=
  ensures_bind.mpr (first.mono second)

/-- A computation without calls. -/
theorem Code.Ensures.lift_bind {computed : Except ε α} {next : α → Code Call ε β} {post : β → Prop}
    (rest : ∀ value, computed = .ok value → (next value).Ensures @spec post) :
    ((liftM computed : Code Call ε α) >>= next).Ensures @spec post := by
  cases computed with
  | ok value => exact rest value rfl
  | error fault => exact trivial

theorem Code.Ensures.lift {computed : Except ε α} {post : α → Prop}
    (holds : ∀ value, computed = .ok value → post value) :
    (liftM computed : Code Call ε α).Ensures @spec post := by
  cases computed with
  | ok value => exact holds value rfl
  | error fault => exact trivial

/-- The rule for recursion: if each body ensures the specification of its procedure, then so
does every call that returns. -/
theorem Returns.ensures {procedure : Call β} {value : β}
    (returned : Returns body exhausted procedure value)
    (bodies : ∀ {γ : Type} (procedure : Call γ),
      (body procedure).Ensures @spec (spec procedure)) : spec procedure value := by
  obtain ⟨depth, answered⟩ := returned
  induction depth generalizing β with
  | zero => cases answered
  | succ depth ih =>
      have parts : ∀ {α : Type} (code : Code Call ε α) (post : α → Prop) (value : α),
          code.Ensures @spec post → code.run (answer body exhausted depth) = .ok value →
          post value := by
        intro α code post value ensures ran
        induction code with
        | done other =>
            cases ran
            exact ensures
        | fail fault => cases ran
        | call next rest ihCode =>
            rw [run] at ran
            cases result : answer body exhausted depth next with
            | error fault =>
                rw [result] at ran
                cases ran
            | ok answer =>
                rw [result] at ran
                exact ihCode answer (ensures answer (ih result)) ran
      exact parts _ _ _ (bodies procedure) answered

end Ensures

section Recursion

variable {pre fine : ∀ {β : Type}, Call β → Prop} {spec : ∀ {β : Type}, Call β → β → Prop}
  {size : ∀ {β : Type}, Call β → Nat}

/-- The calls that the body of a procedure may make: of smaller size. -/
abbrev Smaller (pre : ∀ {β : Type}, Call β → Prop) (size : ∀ {β : Type}, Call β → Nat) (bound : Nat)
    {β : Type} (next : Call β) : Prop := pre next ∧ size next < bound

/-- What a body may rely on when a call returns. -/
abbrev Answers (body : ∀ {β : Type}, Call β → Code Call ε β) (exhausted : ε)
    (spec : ∀ {β : Type}, Call β → β → Prop) {β : Type} (next : Call β) (value : β) : Prop :=
  spec next value ∧ Returns body exhausted next value

/-- The rule for recursion: if each body meets the specification of its procedure with calls
of smaller size, then a call whose visited calls are all fine returns as specified. -/
theorem answer_correct
    (bodies : ∀ {β : Type} (procedure : Call β), pre procedure → fine procedure →
      (body procedure).Meets (Smaller @pre @size (size procedure)) (Answers @body exhausted @spec)
        (spec procedure))
    {depth : Nat} {β : Type} {procedure : Call β} (enough : size procedure < depth)
    (holds : pre procedure)
    (clear : ∀ {γ : Type} (target : Call γ), Visits body exhausted target procedure → fine target) :
    ∃ value, answer body exhausted depth procedure = .ok value ∧ spec procedure value := by
  induction depth generalizing β with
  | zero => exact absurd enough (Nat.not_lt_zero _)
  | succ depth ih =>
      have parts : ∀ {α : Type} (code : Code Call ε α) (post : α → Prop),
          code.Meets (Smaller @pre @size (size procedure)) (Answers @body exhausted @spec) post →
          (∀ {γ : Type} (next : Call γ), Makes body exhausted next code →
            Makes body exhausted next (body procedure)) →
          ∃ value, code.run (answer body exhausted depth) = .ok value ∧ post value := by
        intro α code post meets inside
        induction code with
        | done value => exact ⟨value, rfl, meets⟩
        | fail fault => exact meets.elim
        | call next rest ihCode =>
            obtain ⟨⟨ready, smaller⟩, more⟩ := meets
            have made := inside next .here
            obtain ⟨result, answered, answers⟩ := ih
              (Nat.lt_of_lt_of_le smaller (Nat.le_of_lt_succ enough)) ready
              fun target visits => clear target (.call made visits)
            obtain ⟨value, ran, holds⟩ := ihCode result (more result ⟨answers, depth, answered⟩)
              fun other makes => inside other (.later ⟨depth, answered⟩ makes)
            refine ⟨value, ?_, holds⟩
            rw [run, answered]
            exact ran
      exact parts (body procedure) (spec procedure) (bodies procedure holds (clear procedure .here))
        fun _ makes => makes

/-- A call whose visited calls are fine only visits calls whose preconditions hold. -/
theorem Visits.ready
    (bodies : ∀ {β : Type} (procedure : Call β), pre procedure → fine procedure →
      (body procedure).Meets (Smaller @pre @size (size procedure)) (Answers @body exhausted @spec)
        (spec procedure))
    {β γ : Type} {procedure : Call β} {target : Call γ}
    (visits : Visits body exhausted target procedure) (holds : pre procedure)
    (clear : ∀ {γ : Type} (target : Call γ), Visits body exhausted target procedure → fine target) :
    pre target := by
  induction visits with
  | here => exact holds
  | call made more ih =>
      have next := (bodies _ holds (clear _ .here)).allowed_of_makes made
        fun {_ other answer} makes allowed returned => by
          obtain ⟨value, answered, answers⟩ := answer_correct bodies (Nat.lt_succ_self _) allowed.1
            fun target visits => clear target (.call makes visits)
          obtain rfl := Returns.unique returned ⟨_, answered⟩
          exact ⟨answers, returned⟩
      exact ih next.1 fun target visits => clear target (.call made visits)

end Recursion

end MiniSqlite.Std
