import Mathlib.Data.List.Basic
import Mathlib.Data.List.Forall2
import Mathlib.Data.List.Induction
import Mathlib.Data.List.Perm.Basic

/-!
# Sequences of rows

The operations of relational algebra on lists, in the order in which loops over the
rows give them: restriction, products, grouping by a key and the least row. A group has
the key of its first row, and a row belongs to the first group whose key is the same, so
that sameness of keys need not be an equivalence.
-/

namespace MiniSqlite.Std

variable {α κ : Type}

/-- Restriction as a loop. -/
theorem flatMap_guard (pass : α → Bool) (rows : List α) :
    (rows.flatMap fun row => if pass row then [row] else []) = rows.filter pass := by
  induction rows with
  | nil => rfl
  | cons row rows ih =>
      rw [List.flatMap_cons, ih, List.filter_cons]
      split <;> rfl

/-- Related rows, if each row has one. -/
theorem exists_forall₂ {β : Type} {Related : α → β → Prop} {rows : List α}
    (each : ∀ row ∈ rows, ∃ other, Related row other) :
    ∃ others, List.Forall₂ Related rows others := by
  induction rows with
  | nil => exact ⟨[], .nil⟩
  | cons row rows ih =>
      obtain ⟨here, later⟩ := List.forall_mem_cons.mp each
      obtain ⟨other, related⟩ := here
      obtain ⟨others, all⟩ := ih later
      exact ⟨other :: others, .cons related all⟩

/-! ## Products -/

/-- One row of each list, those of the first list outermost. -/
def combinations : List (List α) → List (List α)
  | [] => [[]]
  | rows :: lists => rows.flatMap fun row => (combinations lists).map (row :: ·)

/-- The last list is the innermost. -/
theorem combinations_concat (lists : List (List α)) (rows : List α) :
    combinations (lists ++ [rows]) =
      (combinations lists).flatMap fun combo => rows.map fun row => combo ++ [row] := by
  induction lists with
  | nil => simp [combinations, List.map_eq_flatMap]
  | cons first lists ih =>
      rw [List.cons_append, combinations, combinations, List.flatMap_assoc]
      refine List.flatMap_congr fun row _ => ?_
      rw [ih, List.map_flatMap, List.flatMap_map]
      refine List.flatMap_congr fun combo _ => ?_
      rw [List.map_map]
      rfl

theorem mem_combinations {lists : List (List α)} {combo : List α} :
    combo ∈ combinations lists ↔ List.Forall₂ (· ∈ ·) combo lists := by
  induction lists generalizing combo with
  | nil => simp [combinations]
  | cons rows lists ih =>
      simp only [combinations, List.mem_flatMap, List.mem_map, ih, List.forall₂_cons_right_iff]
      constructor
      · rintro ⟨row, member, rest, others, rfl⟩
        exact ⟨row, rest, member, others, rfl⟩
      · rintro ⟨row, rest, member, others, rfl⟩
        exact ⟨row, member, rest, others, rfl⟩

theorem length_of_mem_combinations {lists : List (List α)} {combo : List α}
    (member : combo ∈ combinations lists) : combo.length = lists.length :=
  (mem_combinations.mp member).length_eq

/-- The first checks pass: each looks at one row more than the one before it, the first at
two. -/
def prefixesPass (check : Nat → List α → Bool) (count : Nat) (combo : List α) : Bool :=
  (List.range count).all fun i => check i (combo.take (i + 2))

theorem prefixesPass_congr {check other : Nat → List α → Bool} {count : Nat} {combo : List α}
    (same : ∀ i < count, check i (combo.take (i + 2)) = other i (combo.take (i + 2))) :
    prefixesPass check count combo = prefixesPass other count combo := by
  rw [prefixesPass, prefixesPass, Bool.eq_iff_iff, List.all_eq_true, List.all_eq_true]
  refine forall₂_congr fun i member => ?_
  rw [same i (List.mem_range.mp member)]

theorem prefixesPass_concat {check : Nat → List α → Bool} {count : Nat} {combo : List α}
    (fits : combo.length = count + 1) (row : α) :
    prefixesPass check (count + 1) (combo ++ [row]) =
      (prefixesPass check count combo && check count (combo ++ [row])) := by
  have whole : (combo ++ [row]).take (count + 2) = combo ++ [row] :=
    List.take_of_length_le (by simp [fits])
  have before : ∀ i < count, (combo ++ [row]).take (i + 2) = combo.take (i + 2) :=
    fun i bound => List.take_append_of_le_length (by omega)
  rw [prefixesPass, List.range_succ, List.all_append, List.all_cons, List.all_nil, Bool.and_true,
    whole, prefixesPass]
  congr 1
  rw [Bool.eq_iff_iff, List.all_eq_true, List.all_eq_true]
  refine forall₂_congr fun i member => ?_
  rw [before i (List.mem_range.mp member)]

/-- Loops inside each other, of which each checks the rows so far, give the product
restricted by the checks. -/
theorem filter_combinations_concat {check : Nat → List α → Bool} {lists : List (List α)}
    {count : Nat} (fits : lists.length = count + 1) (rows : List α) :
    (combinations (lists ++ [rows])).filter (prefixesPass check (count + 1)) =
      ((combinations lists).filter (prefixesPass check count)).flatMap fun combo =>
        (rows.map fun row => combo ++ [row]).filter (check count) := by
  rw [combinations_concat, List.filter_flatMap, ← flatMap_guard, List.flatMap_assoc]
  refine List.flatMap_congr fun combo member => ?_
  have length := (length_of_mem_combinations member).trans fits
  rw [List.filter_map]
  simp only [Function.comp_def, prefixesPass_concat length]
  cases prefixesPass check count combo with
  | false => simp
  | true => simp [List.filter_map, Function.comp_def]

/-! ## Grouping -/

/-- Rows grouped by their keys. -/
structure Grouping (same : κ → κ → Bool) (keyOf : α → κ) (rows : List α) where
  /-- The groups with their keys. -/
  groups : List (κ × List α)
  /-- Every row is in one group. -/
  covers : (groups.flatMap Prod.snd).Perm rows
  /-- Different groups have different keys. -/
  distinct : groups.Pairwise fun first second => same first.1 second.1 = false
  /-- The first row of a group gives the key, and the others have the same. -/
  alike : ∀ group ∈ groups, ∃ first others, group.2 = first :: others ∧ keyOf first = group.1 ∧
    ∀ row ∈ others, same group.1 (keyOf row)

section Grouping

variable (same : κ → κ → Bool) (keyOf : α → κ)

/-- A row put into the first group with its key, or into a group of its own. -/
def addToGroup (row : α) : List (κ × List α) → List (κ × List α)
  | [] => [(keyOf row, [row])]
  | (key, rows) :: groups =>
      if same key (keyOf row) then (key, rows ++ [row]) :: groups
      else (key, rows) :: addToGroup row groups

variable {same keyOf}

theorem addToGroup_covers (row : α) (groups : List (κ × List α)) :
    ((addToGroup same keyOf row groups).flatMap Prod.snd).Perm (groups.flatMap Prod.snd ++ [row]) := by
  induction groups with
  | nil => exact List.Perm.refl _
  | cons group groups ih =>
      obtain ⟨key, rows⟩ := group
      rw [addToGroup]
      split
      · simp only [List.flatMap_cons, List.append_assoc]
        exact List.perm_append_comm.append_left rows
      · simp only [List.flatMap_cons, List.append_assoc]
        exact ih.append_left rows

/-- The key of a group that a row is added to is old or the key of the row. -/
theorem key_of_mem_addToGroup {row : α} {groups : List (κ × List α)} {group : κ × List α}
    (member : group ∈ addToGroup same keyOf row groups) :
    (∃ before ∈ groups, group.1 = before.1) ∨
      group.1 = keyOf row ∧ ∀ before ∈ groups, same before.1 (keyOf row) = false := by
  induction groups with
  | nil =>
      obtain rfl := List.mem_singleton.mp member
      exact .inr ⟨rfl, fun _ absent => absurd absent List.not_mem_nil⟩
  | cons first groups ih =>
      obtain ⟨key, rows⟩ := first
      rw [addToGroup] at member
      split at member
      · rcases List.mem_cons.mp member with rfl | later
        · exact .inl ⟨_, List.mem_cons_self, rfl⟩
        · exact .inl ⟨group, List.mem_cons_of_mem _ later, rfl⟩
      · rename_i differ
        rcases List.mem_cons.mp member with rfl | later
        · exact .inl ⟨_, List.mem_cons_self, rfl⟩
        · rcases ih later with ⟨before, old, equal⟩ | ⟨equal, others⟩
          · exact .inl ⟨before, List.mem_cons_of_mem _ old, equal⟩
          · refine .inr ⟨equal, List.forall_mem_cons.mpr ⟨?_, others⟩⟩
            exact Bool.eq_false_iff.mpr differ

theorem addToGroup_distinct {row : α} {groups : List (κ × List α)}
    (distinct : groups.Pairwise fun first second => same first.1 second.1 = false) :
    (addToGroup same keyOf row groups).Pairwise fun first second => same first.1 second.1 = false := by
  induction groups with
  | nil => exact List.pairwise_singleton _ _
  | cons first groups ih =>
      obtain ⟨key, rows⟩ := first
      obtain ⟨head, tail⟩ := List.pairwise_cons.mp distinct
      rw [addToGroup]
      split
      · exact List.pairwise_cons.mpr ⟨head, tail⟩
      · rename_i differ
        refine List.pairwise_cons.mpr ⟨fun group member => ?_, ih tail⟩
        rcases key_of_mem_addToGroup member with ⟨before, old, equal⟩ | ⟨equal, -⟩
        · rw [equal]
          exact head before old
        · rw [equal]
          exact Bool.eq_false_iff.mpr differ

theorem addToGroup_alike {row : α} {groups : List (κ × List α)}
    (alike : ∀ group ∈ groups, ∃ first others, group.2 = first :: others ∧
      keyOf first = group.1 ∧ ∀ row ∈ others, same group.1 (keyOf row)) :
    ∀ group ∈ addToGroup same keyOf row groups, ∃ first others, group.2 = first :: others ∧
      keyOf first = group.1 ∧ ∀ row ∈ others, same group.1 (keyOf row) := by
  induction groups with
  | nil =>
      intro group member
      obtain rfl := List.mem_singleton.mp member
      exact ⟨row, [], rfl, rfl, fun _ absent => absurd absent List.not_mem_nil⟩
  | cons first groups ih =>
      obtain ⟨key, rows⟩ := first
      obtain ⟨head, tail⟩ := List.forall_mem_cons.mp alike
      rw [addToGroup]
      split
      · rename_i equal
        refine List.forall_mem_cons.mpr ⟨?_, tail⟩
        obtain ⟨leader, others, known, leads, follow⟩ := head
        dsimp only at known leads follow ⊢
        refine ⟨leader, others ++ [row], by rw [known, List.cons_append], leads, fun other member => ?_⟩
        rcases List.mem_append.mp member with old | new
        · exact follow other old
        · exact List.mem_singleton.mp new ▸ equal
      · exact List.forall_mem_cons.mpr ⟨head, ih tail⟩

variable (same keyOf)

/-- Each row added to the groups of the rows before it. -/
def grouping (rows : List α) : Grouping same keyOf rows where
  groups := rows.foldl (fun groups row => addToGroup same keyOf row groups) []
  covers := by
    induction rows using List.reverseRecOn with
    | nil => exact List.Perm.refl _
    | append_singleton rows row ih =>
        rw [List.foldl_concat]
        exact (addToGroup_covers row _).trans (ih.append_right [row])
  distinct := by
    induction rows using List.reverseRecOn with
    | nil => exact List.Pairwise.nil
    | append_singleton rows row ih =>
        rw [List.foldl_concat]
        exact addToGroup_distinct ih
  alike := by
    induction rows using List.reverseRecOn with
    | nil => exact fun _ absent => absurd absent List.not_mem_nil
    | append_singleton rows row ih =>
        rw [List.foldl_concat]
        exact addToGroup_alike ih

theorem grouping_concat (rows : List α) (row : α) :
    (grouping same keyOf (rows ++ [row])).groups =
      addToGroup same keyOf row (grouping same keyOf rows).groups :=
  List.foldl_concat _ _ _ _

/-- Rows whose keys are all the same make one group. -/
theorem grouping_one {first : α} {others : List α}
    (equal : ∀ row ∈ others, same (keyOf first) (keyOf row)) :
    (grouping same keyOf (first :: others)).groups = [(keyOf first, first :: others)] := by
  induction others using List.reverseRecOn with
  | nil => rfl
  | append_singleton others row ih =>
      have inner := ih fun other member => equal other (List.mem_append_left _ member)
      rw [← List.cons_append, grouping_concat, inner, addToGroup,
        if_pos (equal row (List.mem_append_right _ List.mem_cons_self))]

end Grouping

/-! ## The least row -/

/-- The first row that no other is below, if the rows are ordered. -/
def least (below : α → α → Bool) (first : α) (others : List α) : α :=
  others.foldl (fun least row => if below row least then row else least) first

theorem least_concat (below : α → α → Bool) (first : α) (others : List α) (row : α) :
    least below first (others ++ [row]) =
      if below row (least below first others) then row else least below first others :=
  List.foldl_concat _ _ _ _

/-- Where the rows are in a strict order, no row is below the least one. -/
theorem least_spec {below : α → α → Bool} {first : α} {others : List α}
    (irrefl : ∀ row ∈ first :: others, below row row = false)
    (trans : ∀ a ∈ first :: others, ∀ b ∈ first :: others, ∀ c ∈ first :: others,
      below a b → below b c → below a c) :
    least below first others ∈ first :: others ∧
      ∀ row ∈ first :: others, below row (least below first others) = false := by
  induction others using List.reverseRecOn with
  | nil =>
      refine ⟨List.mem_cons_self, fun row member => ?_⟩
      rw [List.mem_singleton.mp member]
      exact irrefl first List.mem_cons_self
  | append_singleton others row ih =>
      rw [← List.cons_append] at irrefl trans ⊢
      have old : ∀ {other}, other ∈ first :: others → other ∈ first :: others ++ [row] :=
        List.mem_append_left _
      have new : row ∈ first :: others ++ [row] := List.mem_append_right _ List.mem_cons_self
      obtain ⟨member, lowest⟩ := ih (fun other inside => irrefl other (old inside))
        fun a inA b inB c inC => trans a (old inA) b (old inB) c (old inC)
      rw [least_concat]
      split
      · rename_i lower
        refine ⟨new, fun other inside => ?_⟩
        rcases List.mem_append.mp inside with before | last
        · refine Bool.eq_false_iff.mpr fun higher => ?_
          have := trans other inside row new _ (old member) higher lower
          exact absurd this (by simp [lowest other before])
        · rw [List.mem_singleton.mp last]
          exact irrefl row new
      · rename_i higher
        refine ⟨old member, fun other inside => ?_⟩
        rcases List.mem_append.mp inside with before | last
        · exact lowest other before
        · rw [List.mem_singleton.mp last]
          exact Bool.eq_false_iff.mpr higher

end MiniSqlite.Std
