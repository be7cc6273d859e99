import Mathlib.Data.List.Basic
import Mathlib.Data.List.Pairwise
import Mathlib.Data.List.Perm.Basic

/-!
# Arrangements of a list

A relation that is total and transitive on the items of a list arranges them
(`exists_arranged`), and an arrangement of the images of the items is one of the items
themselves, in which those with one image stand in the order of the list (`exists_lifted`).
-/

namespace MiniSqlite.Std

variable {α β : Type}

/-- A relation compares all items of a list, transitively. -/
structure ArrangesAll (le : α → α → Prop) (items : List α) : Prop where
  total : ∀ a ∈ items, ∀ b ∈ items, le a b ∨ le b a
  trans : ∀ a ∈ items, ∀ b ∈ items, ∀ c ∈ items, le a b → le b c → le a c

/-- Merge sort arranges items that a relation compares. -/
theorem ArrangesAll.mergeSort {le : α → α → Prop} [DecidableRel le] {items : List α}
    (arranges : ArrangesAll le items) :
    (items.mergeSort fun a b => decide (le a b)).Pairwise le := by
  let inside : { a // a ∈ items } → { a // a ∈ items } → Bool := fun a b => decide (le a.1 b.1)
  have sorted : (items.attach.mergeSort inside).Pairwise fun a b => inside a b = true := by
    refine List.pairwise_mergeSort (fun a b c first second => ?_) (fun a b => ?_) _
    · exact decide_eq_true (arranges.trans _ a.2 _ b.2 _ c.2 (of_decide_eq_true first)
        (of_decide_eq_true second))
    · simp only [inside, Bool.or_eq_true, decide_eq_true_eq]
      exact arranges.total _ a.2 _ b.2
  have same := @List.map_mergeSort _ _ inside (fun a b => decide (le a b)) Subtype.val items.attach
    fun _ _ _ _ => rfl
  rw [List.attach_map_subtype_val] at same
  rw [← same, List.pairwise_map]
  exact sorted.imp of_decide_eq_true

/-- Items that a relation compares can be arranged. -/
theorem exists_arranged {le : α → α → Prop} {items : List α} (arranges : ArrangesAll le items) :
    ∃ arranged : List α, arranged.Perm items ∧ arranged.Pairwise le := by
  classical
  exact ⟨_, List.mergeSort_perm _ _, arranges.mergeSort⟩

/-- The first item with an image. -/
theorem exists_first {f : α → β} {items : List α} {image : β} (member : image ∈ items.map f) :
    ∃ before item after, items = before ++ item :: after ∧ f item = image ∧
      ∀ other ∈ before, f other ≠ image := by
  induction items with
  | nil => cases member
  | cons first items ih =>
      by_cases here : f first = image
      · exact ⟨[], first, items, rfl, here, fun _ absent => by cases absent⟩
      · rcases List.mem_cons.mp member with same | inside
        · exact absurd same.symm here
        · obtain ⟨before, item, after, rfl, found, others⟩ := ih inside
          exact ⟨first :: before, item, after, rfl, found, List.forall_mem_cons.mpr ⟨here, others⟩⟩

/-- An arrangement of images comes from one of the items. -/
theorem exists_lifted {le : α → α → Prop} {f : α → β} {items : List α} {images : List β}
    (sorted : items.Pairwise fun a b => f a = f b → le a b)
    (perm : images.Perm (items.map f)) :
    ∃ lifted : List α, lifted.Perm items ∧ lifted.map f = images ∧
      lifted.Pairwise fun a b => f a = f b → le a b := by
  induction images generalizing items with
  | nil =>
      have none : items = [] := List.map_eq_nil_iff.mp perm.symm.eq_nil
      exact ⟨[], none ▸ .refl _, rfl, .nil⟩
  | cons image images ih =>
      obtain ⟨before, item, after, rfl, rfl, others⟩ :=
        exists_first (perm.mem_iff.mp List.mem_cons_self)
      have moved : (before ++ item :: after).Perm (item :: (before ++ after)) := List.perm_middle
      have fewer : images.Perm ((before ++ after).map f) :=
        (perm.trans (moved.map f)).cons_inv
      have sortedFewer : (before ++ after).Pairwise fun a b => f a = f b → le a b :=
        sorted.sublist ((List.sublist_cons_self item after).append_left before)
      obtain ⟨lifted, permLifted, images_eq, sortedLifted⟩ := ih sortedFewer fewer
      refine ⟨item :: lifted, (permLifted.cons item).trans moved.symm, by rw [List.map_cons, images_eq],
        List.pairwise_cons.mpr ⟨?_, sortedLifted⟩⟩
      intro other member same
      rcases List.mem_append.mp (permLifted.mem_iff.mp member) with early | late
      · exact absurd same.symm (others other early)
      · exact (List.pairwise_cons.mp (List.pairwise_append.mp sorted).2.1).1 other late same

end MiniSqlite.Std
