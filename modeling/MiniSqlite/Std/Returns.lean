import Mathlib.Control.Basic

/-!
# Computations that return

In a monad of computations that may fail, a sequence returns a value only if all its
parts do. `Returning` is that property. From it come the rules for computations that
have returned: what each step of a loop keeps the loop keeps, and a map has mapped
every item.
-/

namespace MiniSqlite.Std

universe u v w

/-- A sequence that returns has returned in both its parts. -/
class Returning (m : Type u → Type v) [Monad m] : Prop extends LawfulMonad m where
  pure_inj {α : Type u} {value other : α} : (pure value : m α) = pure other → value = other
  returned {α β : Type u} {first : m α} {rest : α → m β} {result : β} :
    first >>= rest = pure result → ∃ value, first = pure value ∧ rest value = pure result

instance {ε : Type u} : Returning (Except.{u, u} ε) where
  pure_inj same := Except.ok.inj same
  returned {_ _ first _ _} ran := by
    cases first with
    | error fault => cases ran
    | ok value => exact ⟨value, rfl, ran⟩

instance {ε : Type u} {m : Type u → Type v} [Monad m] [Returning m] : Returning (ExceptT ε m) where
  pure_inj same := by
    have inner : (pure (Except.ok _) : m (Except ε _)) = pure (Except.ok _) := same
    exact Except.ok.inj (Returning.pure_inj inner)
  returned {α β first rest result} ran := by
    have inner : first.run >>= ExceptT.bindCont rest = pure (Except.ok result) := ran
    obtain ⟨outcome, firstRan, restRan⟩ := Returning.returned inner
    cases outcome with
    | error fault =>
        have same : (pure (Except.error fault) : m (Except ε β)) = pure (Except.ok result) := restRan
        cases Returning.pure_inj same
    | ok value => exact ⟨value, firstRan, restRan⟩

section Loops

variable {m : Type u → Type v} [Monad m] [Returning m] {State : Type u} {α : Type w}

/-- A loop keeps what its steps keep. -/
theorem foldlM_keeps {Keeps : State → Prop} {step : State → α → m State} {items : List α}
    {start finish : State} (ran : items.foldlM step start = pure finish)
    (keeps : ∀ item ∈ items, ∀ before after,
      Keeps before → step before item = pure after → Keeps after)
    (holds : Keeps start) : Keeps finish := by
  induction items generalizing start with
  | nil => exact Returning.pure_inj ran ▸ holds
  | cons item rest ih =>
      rw [List.foldlM_cons] at ran
      obtain ⟨middle, stepped, others⟩ := Returning.returned ran
      have next := keeps item List.mem_cons_self start middle holds stepped
      exact ih others (fun other member => keeps other (List.mem_cons_of_mem _ member)) next

/-- A loop returns what another one returns whose steps return the same. -/
theorem foldlM_returns {first second : State → α → m State} {items : List α}
    {start finish : State} (ran : items.foldlM first start = pure finish)
    (steps : ∀ item ∈ items, ∀ before after,
      first before item = pure after → second before item = pure after) :
    items.foldlM second start = pure finish := by
  induction items generalizing start with
  | nil => exact ran
  | cons item rest ih =>
      rw [List.foldlM_cons] at ran ⊢
      obtain ⟨middle, stepped, others⟩ := Returning.returned ran
      rw [steps item List.mem_cons_self start middle stepped, pure_bind]
      exact ih others fun other member => steps other (List.mem_cons_of_mem _ member)

/-- A loop returns if and only if its steps do, where that does not depend on the state. -/
theorem foldlM_returns_iff {Returns : α → Prop} {step : State → α → m State} {items : List α}
    (steps : ∀ item ∈ items, ∀ before,
      (∃ after, step before item = pure after) ↔ Returns item) (start : State) :
    (∃ finish, items.foldlM step start = pure finish) ↔ ∀ item ∈ items, Returns item := by
  induction items generalizing start with
  | nil => exact iff_of_true ⟨start, rfl⟩ (by simp)
  | cons item rest ih =>
      have others := ih fun other member => steps other (List.mem_cons_of_mem _ member)
      rw [List.foldlM_cons, List.forall_mem_cons]
      constructor
      · rintro ⟨finish, ran⟩
        obtain ⟨middle, stepped, ran⟩ := Returning.returned ran
        exact ⟨(steps item List.mem_cons_self start).mp ⟨middle, stepped⟩,
          (others middle).mp ⟨finish, ran⟩⟩
      · rintro ⟨first, more⟩
        obtain ⟨middle, stepped⟩ := (steps item List.mem_cons_self start).mpr first
        rw [stepped, pure_bind]
        exact (others middle).mpr more

/-- A loop fails in no way in which no step fails. -/
theorem foldlM_avoids {ε : Type u} {State : Type u} {step : State → α → Except ε State}
    {items : List α} {fault : ε}
    (avoids : ∀ item ∈ items, ∀ before, step before item ≠ .error fault) (start : State) :
    items.foldlM step start ≠ .error fault := by
  induction items generalizing start with
  | nil => exact fun ran => by cases ran
  | cons item rest ih =>
      rw [List.foldlM_cons]
      cases stepped : step start item with
      | error other => exact fun ran => avoids item List.mem_cons_self start (stepped.trans ran)
      | ok middle => exact ih (fun other member => avoids other (List.mem_cons_of_mem _ member)) middle

end Loops

section Maps

variable {m : Type u → Type v} [Monad m] [Returning m] {α : Type w} {β : Type u}
  {call : α → m β} {items : List α} {values : List β}

/-- The first item is mapped, and so are the others. -/
theorem mapM_cons_returned {item : α} (ran : (item :: items).mapM call = pure values) :
    ∃ value rest, call item = pure value ∧ items.mapM call = pure rest ∧ values = value :: rest := by
  rw [List.mapM_cons] at ran
  obtain ⟨value, here, ran⟩ := Returning.returned ran
  obtain ⟨rest, others, ran⟩ := Returning.returned ran
  exact ⟨value, rest, here, others, (Returning.pure_inj ran).symm⟩

theorem length_of_mapM (ran : items.mapM call = pure values) : values.length = items.length := by
  induction items generalizing values with
  | nil =>
      rw [List.mapM_nil] at ran
      rw [← Returning.pure_inj ran]
      rfl
  | cons item items ih =>
      obtain ⟨value, rest, -, others, rfl⟩ := mapM_cons_returned ran
      rw [List.length_cons, List.length_cons, ih others]

/-- Each item has been mapped to the value at its place. -/
theorem getElem?_of_mapM (ran : items.mapM call = pure values) {i : Nat} {item : α}
    (here : items[i]? = some item) : ∃ value, call item = pure value ∧ values[i]? = some value := by
  induction items generalizing values i with
  | nil => exact absurd here (by simp)
  | cons first items ih =>
      obtain ⟨value, rest, mapped, others, rfl⟩ := mapM_cons_returned ran
      cases i with
      | zero =>
          rw [List.getElem?_cons_zero, Option.some.injEq] at here
          exact ⟨value, here ▸ mapped, rfl⟩
      | succ i => exact ih others here

/-- All items are mapped if each of them is. -/
theorem mapM_returns (mapped : ∀ item ∈ items, ∃ value, call item = pure value) :
    ∃ values, items.mapM call = pure values := by
  induction items with
  | nil => exact ⟨[], List.mapM_nil⟩
  | cons item items ih =>
      obtain ⟨value, here⟩ := mapped item List.mem_cons_self
      obtain ⟨values, others⟩ := ih fun other member => mapped other (List.mem_cons_of_mem _ member)
      exact ⟨value :: values, by simp [here, others]⟩

end Maps

end MiniSqlite.Std
