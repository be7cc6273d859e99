import MiniSqlite.Std.Lockstep

/-!
# Programs on two coupled states

A program over an interface runs on any implementation of it. A `Coupling` says which
states of two implementations belong together, and what the second keeps from one
moment to all later ones. `Alike` compares two programs from coupled states; how
their values are related may depend on the second state, as an address does.
-/

namespace MiniSqlite.Std

variable {ε σ τ α β α' β' : Type}

/-- Which states belong together, and which states may follow on one. -/
structure Coupling (σ τ : Type) where
  Same : σ → τ → Prop
  Kept : τ → τ → Prop
  refl : ∀ state, Kept state state
  trans : ∀ {first second third}, Kept first second → Kept second third → Kept first third

/-- Started in states that belong together, the programs stay in lockstep. -/
def Coupling.Alike (coupling : Coupling σ τ) (excused : ε → Prop) (state : τ)
    (related : τ → α → β → Prop) (first : StateT σ (Except ε) α)
    (second : StateT τ (Except ε) β) : Prop :=
  ∀ start, coupling.Same start state → Lockstep excused
    (fun after after' => related after'.2 after.1 after'.1 ∧ coupling.Same after.2 after'.2 ∧
      coupling.Kept state after'.2)
    (first.run start) (second.run state)

namespace Coupling.Alike

variable {coupling : Coupling σ τ} {excused : ε → Prop} {state : τ}
  {related : τ → α → β → Prop} {related' : τ → α' → β' → Prop}
  {first : StateT σ (Except ε) α} {second : StateT τ (Except ε) β}

theorem done {value : α} {other : β} (values : related state value other) :
    coupling.Alike excused state related (pure value : StateT σ (Except ε) α) (pure other) :=
  fun _ same => .ok ⟨values, same, coupling.refl state⟩

theorem fails (fault : ε) :
    coupling.Alike excused state related (throw fault : StateT σ (Except ε) α)
      (throw fault : StateT τ (Except ε) β) :=
  fun _ _ => .error fault

theorem mono {weaker : τ → α → β → Prop} (alike : coupling.Alike excused state related first second)
    (weaken : ∀ later value other, coupling.Kept state later → related later value other →
      weaker later value other) : coupling.Alike excused state weaker first second :=
  fun start same => (alike start same).mono fun _ _ values =>
    ⟨weaken _ _ _ values.2.2 values.1, values.2⟩

/-- Sequencing keeps two programs alike. -/
theorem bind {firstRest : α → StateT σ (Except ε) α'} {secondRest : β → StateT τ (Except ε) β'}
    (alike : coupling.Alike excused state related first second)
    (rest : ∀ later value other, coupling.Kept state later → related later value other →
      coupling.Alike excused later related' (firstRest value) (secondRest other)) :
    coupling.Alike excused state related' (first >>= firstRest) (second >>= secondRest) := by
  intro start same
  rw [StateT.run_bind, StateT.run_bind]
  refine (alike start same).bind ?_
  rintro ⟨value, middle⟩ ⟨other, later⟩ ⟨values, sameLater, kept⟩
  refine (rest later value other kept values middle sameLater).mono ?_
  rintro _ _ ⟨values, sameLast, keptLast⟩
  exact ⟨values, sameLast, coupling.trans kept keptLast⟩

/-- A computation that does not see the state is alike itself. -/
theorem lift (call : Except ε α) :
    coupling.Alike excused state (fun _ value other => value = other ∧ call = .ok value)
      (liftM call : StateT σ (Except ε) α) (liftM call : StateT τ (Except ε) α) := by
  intro start same
  cases call with
  | ok value => exact .ok ⟨⟨rfl, rfl⟩, same, coupling.refl state⟩
  | error fault => exact .error fault

end Coupling.Alike

end MiniSqlite.Std
