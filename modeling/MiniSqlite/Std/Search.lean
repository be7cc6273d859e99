import Mathlib.Data.List.Basic

/-!
# Binary search

The loop that halves an interval until it is empty. When the indices it asks
about answer yes up to some place and no from there on, that place is what it
returns; over a sorted list it is the length of the leading part that answers yes.
-/

namespace MiniSqlite.Std

/-- `while (lo < hi)`: the first index of `[lo, hi)` that is not `before`, or `hi`. Every
turn shortens the interval, so its length bounds the turns. -/
def bisect (before : Nat → Bool) : (turns lo hi : Nat) → Nat
  | 0, lo, _ => lo
  | turns + 1, lo, hi =>
      if lo < hi then
        let mid := lo + (hi - lo) / 2
        if before mid then bisect before turns (mid + 1) hi else bisect before turns lo mid
      else lo

theorem bisect_eq {before : Nat → Bool} {count : Nat} {turns lo hi : Nat}
    (switch : ∀ i, lo ≤ i → i < hi → (before i = true ↔ i < count)) (low : lo ≤ count)
    (high : count ≤ hi) (enough : hi - lo ≤ turns) : bisect before turns lo hi = count := by
  induction turns generalizing lo hi with
  | zero =>
      rw [bisect]
      omega
  | succ turns ih =>
      rw [bisect]
      by_cases nonempty : lo < hi
      · rw [if_pos nonempty]
        have atMid := switch (lo + (hi - lo) / 2) (by omega) (by omega)
        dsimp only
        by_cases left : lo + (hi - lo) / 2 < count
        · rw [if_pos (atMid.mpr left)]
          exact ih (fun i low high => switch i (by omega) high) (by omega) high (by omega)
        · rw [if_neg (fun yes => left (atMid.mp yes))]
          exact ih (fun i low high => switch i low (by omega)) low (by omega) (by omega)
      · rw [if_neg nonempty]
        omega

/-- In a list whose later elements satisfy `p` only if the earlier ones do, those that
satisfy it are the leading part. -/
theorem getElem_iff_lt_takeWhile {α : Type*} {p : α → Bool} {items : List α}
    (sorted : items.Pairwise fun first second => p second = true → p first = true) {i : Nat}
    (bound : i < items.length) : p items[i] = true ↔ i < (items.takeWhile p).length := by
  induction items generalizing i with
  | nil => exact absurd bound (Nat.not_lt_zero _)
  | cons item items ih =>
      obtain ⟨first, rest⟩ := List.pairwise_cons.mp sorted
      by_cases holds : p item = true
      · rw [List.takeWhile_cons_of_pos holds]
        cases i with
        | zero => simp [holds]
        | succ i => simpa using ih rest (Nat.lt_of_succ_lt_succ bound)
      · rw [List.takeWhile_cons_of_neg holds]
        simp only [List.length_nil, Nat.not_lt_zero, iff_false]
        cases i with
        | zero => exact holds
        | succ i => exact fun later => holds (first _ (List.getElem_mem _) later)

/-- The leading part holds all that satisfy it. -/
theorem length_takeWhile_eq_countP {α : Type*} {p : α → Bool} {items : List α}
    (sorted : items.Pairwise fun first second => p second = true → p first = true) :
    (items.takeWhile p).length = items.countP p := by
  induction items with
  | nil => rfl
  | cons item items ih =>
      obtain ⟨first, rest⟩ := List.pairwise_cons.mp sorted
      by_cases holds : p item = true
      · rw [List.takeWhile_cons_of_pos holds, List.countP_cons_of_pos holds, List.length_cons,
          ih rest]
      · rw [List.takeWhile_cons_of_neg holds, List.countP_cons_of_neg holds, List.length_nil]
        refine (List.countP_eq_zero.mpr fun other member later => ?_).symm
        exact holds (first other member later)

/-- Binary search over a sorted list. -/
theorem bisect_list {α : Type*} {p : α → Bool} {items : List α} {before : Nat → Bool}
    (sorted : items.Pairwise fun first second => p second = true → p first = true)
    (asks : ∀ i, (bound : i < items.length) → before i = p items[i]) :
    bisect before items.length 0 items.length = (items.takeWhile p).length := by
  refine bisect_eq ?_ (Nat.zero_le _) (List.takeWhile_sublist p).length_le (Nat.le_refl _)
  intro i _ bound
  rw [asks i bound]
  exact getElem_iff_lt_takeWhile sorted bound

end MiniSqlite.Std
