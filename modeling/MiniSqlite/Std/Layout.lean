import Mathlib.Algebra.Ring.Nat
import Mathlib.Data.List.Basic

/-!
# Items of various widths one behind the other

Where each item of a sequence begins when every item takes its own width, that
the places of different items lie apart, and that the bytes at the place of an
item are the item's.
-/

namespace MiniSqlite.Std

variable {α β : Type} {width : α → Nat} {items : List α} {item other : α} {i j : Nat}

/-- Where the `i`-th item begins. -/
def offsetOf (width : α → Nat) (items : List α) (i : Nat) : Nat := ((items.take i).map width).sum

/-- The width of all items. -/
def totalWidth (width : α → Nat) (items : List α) : Nat := (items.map width).sum

@[simp] theorem offsetOf_zero : offsetOf width items 0 = 0 := by simp [offsetOf]

@[simp] theorem offsetOf_succ :
    offsetOf width (item :: items) (i + 1) = width item + offsetOf width items i := by
  simp [offsetOf]

@[simp] theorem totalWidth_nil : totalWidth width [] = 0 := rfl

@[simp] theorem totalWidth_cons :
    totalWidth width (item :: items) = width item + totalWidth width items := rfl

theorem totalWidth_map {source : List β} (pick : β → α) :
    totalWidth width (source.map pick) = totalWidth (fun entry => width (pick entry)) source := by
  rw [totalWidth, totalWidth, List.map_map]
  rfl

theorem totalWidth_le {more : α → Nat} (wider : ∀ item ∈ items, width item ≤ more item) :
    totalWidth width items ≤ totalWidth more items := by
  induction items with
  | nil => exact Nat.le_refl _
  | cons first rest ih =>
      exact Nat.add_le_add (wider first List.mem_cons_self)
        (ih fun item member => wider item (List.mem_cons_of_mem _ member))

/-- An item ends before any later one begins. -/
theorem offsetOf_add_le (here : items[i]? = some item) (later : i < j) :
    offsetOf width items i + width item ≤ offsetOf width items j := by
  induction items generalizing i j with
  | nil => exact absurd here (by simp)
  | cons first rest ih =>
      obtain _ | j := j
      · omega
      · rw [offsetOf_succ]
        cases i with
        | zero =>
            rw [List.getElem?_cons_zero, Option.some.injEq] at here
            rw [offsetOf_zero, here]
            omega
        | succ i =>
            have tail := ih here (by omega : i < j)
            rw [offsetOf_succ]
            omega

/-- An item lies inside the sequence. -/
theorem offsetOf_inside (here : items[i]? = some item) :
    offsetOf width items i + width item ≤ totalWidth width items := by
  have bound := (List.getElem?_eq_some_iff.mp here).1
  have end_ := @offsetOf_add_le _ width _ _ _ _ here bound
  rwa [offsetOf, offsetOf, List.take_length] at end_

/-- Two items lie apart. -/
theorem offsetOf_apart (here : items[i]? = some item) (there : items[j]? = some other)
    (differ : i ≠ j) :
    offsetOf width items i + width item ≤ offsetOf width items j ∨
      offsetOf width items j + width other ≤ offsetOf width items i := by
  rcases Nat.lt_or_gt_of_ne differ with before | behind
  · exact .inl (offsetOf_add_le here before)
  · exact .inr (offsetOf_add_le there behind)

/-- The bytes at the place of an item are its own. -/
theorem take_drop_flatMap {encode : α → List β} (here : items[i]? = some item)
    (widths : ∀ item ∈ items, (encode item).length = width item) (rest : List β) :
    ((items.flatMap encode ++ rest).drop (offsetOf width items i)).take (width item) =
      encode item := by
  induction items generalizing i with
  | nil => exact absurd here (by simp)
  | cons first others ih =>
      have length := widths first List.mem_cons_self
      rw [List.flatMap_cons, List.append_assoc]
      cases i with
      | zero =>
          rw [List.getElem?_cons_zero, Option.some.injEq] at here
          rw [offsetOf_zero, List.drop_zero, ← here, List.take_left' length]
      | succ i =>
          rw [offsetOf_succ, ← List.drop_drop, List.drop_left' length]
          exact ih here fun item member => widths item (List.mem_cons_of_mem _ member)

end MiniSqlite.Std
