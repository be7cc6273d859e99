import MiniSqlite.Std.Procedures

/-!
# Procedures that may fail

`answer_correct` asks that all calls a call comes to are fine. Where some calls fail at once
for a reason of their own, there is still enough depth for a call of bounded size: it ends
as specified or for such a reason, and never for want of depth.
-/

namespace MiniSqlite.Std

variable {ε α β : Type} {accepted : ε → Prop} {post : α → Prop}

/-- A computation that ends with a value as required or with an error that is accepted. -/
inductive EndsWith (accepted : ε → Prop) (post : α → Prop) : Except ε α → Prop where
  | ok {value : α} (holds : post value) : EndsWith accepted post (.ok value)
  | error {fault : ε} (allowed : accepted fault) : EndsWith accepted post (.error fault)

theorem EndsWith.mono {call : Except ε α} {weaker : α → Prop} (ends : EndsWith accepted post call)
    (weaken : ∀ value, post value → weaker value) : EndsWith accepted weaker call := by
  cases ends with
  | ok holds => exact .ok (weaken _ holds)
  | error allowed => exact .error allowed

/-- What follows a computation may rely on what is required of its value. -/
theorem EndsWith.bind {call : Except ε α} {rest : α → Except ε β} {later : β → Prop}
    (first : EndsWith accepted post call)
    (second : ∀ value, post value → EndsWith accepted later (rest value)) :
    EndsWith accepted later (call >>= rest) := by
  cases first with
  | ok holds => exact second _ holds
  | error allowed => exact .error allowed

section Recursion

variable {Call : Type → Type} {body : ∀ {β : Type}, Call β → Code Call ε β} {exhausted : ε}
  {pre fine : ∀ {β : Type}, Call β → Prop} {spec : ∀ {β : Type}, Call β → β → Prop}
  {size : ∀ {β : Type}, Call β → Nat}

/-- Code that meets its specification ends with a value or as a call that it makes does. -/
theorem Code.Meets.endsWith {allowed : ∀ {β : Type}, Call β → Prop} {code : Code Call ε α}
    {answers : ∀ {β : Type}, Call β → Except ε β} {given : ∀ {β : Type}, Call β → β → Prop}
    (meets : code.Meets @allowed @given post)
    (calls : ∀ {β : Type} (next : Call β), allowed next →
      EndsWith accepted (given next) (answers next)) :
    EndsWith accepted post (code.run answers) := by
  induction code with
  | done value => exact .ok meets
  | fail fault => exact meets.elim
  | call next rest ih =>
      obtain ⟨ready, more⟩ := meets
      rw [run]
      have here := calls next ready
      generalize answers next = outcome at here
      cases here with
      | ok holds => exact ih _ (more _ holds)
      | error allowed => exact .error allowed

/-- The rule for recursion with calls that fail at once: every body meets its specification
with calls of smaller size, or fails for a reason that is accepted. -/
theorem answer_endsWith
    (bodies : ∀ {β : Type} (procedure : Call β), pre procedure → fine procedure →
      (body procedure).Meets (Smaller @pre @size (size procedure)) (Answers @body exhausted @spec)
        (spec procedure))
    (others : ∀ {β : Type} (procedure : Call β), pre procedure → ¬fine procedure →
      ∃ fault, accepted fault ∧ body procedure = .fail fault)
    {depth : Nat} {procedure : Call β} (enough : size procedure < depth) (holds : pre procedure) :
    EndsWith accepted (spec procedure) (answer body exhausted depth procedure) := by
  induction depth generalizing β with
  | zero => exact absurd enough (Nat.not_lt_zero _)
  | succ depth ih =>
      rw [answer]
      by_cases allowed : fine procedure
      · refine (bodies procedure holds allowed).endsWith fun next ready => ?_
        have ends := ih (Nat.lt_of_lt_of_le ready.2 (Nat.le_of_lt_succ enough)) ready.1
        generalize answered : answer body exhausted depth next = outcome at ends
        cases ends with
        | ok meets => exact .ok ⟨meets, depth, answered⟩
        | error allowed => exact .error allowed
      · obtain ⟨fault, allowed, fails⟩ := others procedure holds allowed
        rw [fails]
        exact .error allowed

end Recursion

end MiniSqlite.Std
