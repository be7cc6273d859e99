import Mathlib

/-!
# Maps as sorted association lists

Entries with strictly increasing keys, and what finding, storing and erasing
a key does to them. An operation on one key is local: entries with smaller keys
before and with larger keys behind do not matter to it (`ActsLocally`), which is
how an operation on one leaf becomes an operation on the map of a whole tree.
`position` is where a search for the key ends.
-/

namespace MiniSqlite.Std

variable {κ ν : Type*} [LinearOrder κ]

/-- The keys strictly increase. -/
def SortedKeys (entries : List (κ × ν)) : Prop :=
  entries.Pairwise fun first second => first.1 < second.1

/-- The number of leading entries with smaller keys. -/
def position (key : κ) (entries : List (κ × ν)) : Nat :=
  (entries.takeWhile fun entry => decide (entry.1 < key)).length

/-- Stores a value under a key, replacing the one it had. -/
def upsert (key : κ) (value : ν) : List (κ × ν) → List (κ × ν)
  | [] => [(key, value)]
  | entry :: rest =>
      if entry.1 < key then entry :: upsert key value rest
      else if entry.1 = key then (key, value) :: rest
      else (key, value) :: entry :: rest

/-- Removes a key. -/
def eraseKey (key : κ) : List (κ × ν) → List (κ × ν)
  | [] => []
  | entry :: rest => if entry.1 = key then rest else entry :: eraseKey key rest

theorem lookup_cons_eq (key : κ) (entry : κ × ν) (rest : List (κ × ν)) :
    (entry :: rest).lookup key = if entry.1 = key then some entry.2 else rest.lookup key := by
  obtain ⟨other, value⟩ := entry
  by_cases same : other = key
  · subst same
    simp
  · have differ : (key == other) = false := by simpa using Ne.symm same
    simp [List.lookup_cons, differ, same]

theorem lookup_eq_none_of_ne {key : κ} {entries : List (κ × ν)}
    (differ : ∀ entry ∈ entries, entry.1 ≠ key) : entries.lookup key = none := by
  rw [List.lookup_eq_none_iff]
  intro entry member
  simpa using Ne.symm (differ entry member)

/-! ## Local operations -/

/-- An operation on one key leaves smaller entries in front and larger ones behind alone. -/
def ActsLocally (key : κ) (act : List (κ × ν) → List (κ × ν)) : Prop :=
  ∀ left middle right, (∀ entry ∈ left, entry.1 < key) → (∀ entry ∈ right, key < entry.1) →
    act (left ++ middle ++ right) = left ++ act middle ++ right

theorem upsert_append_right (key : κ) (value : ν) (entries : List (κ × ν))
    {right : List (κ × ν)} (larger : ∀ entry ∈ right, key < entry.1) :
    upsert key value (entries ++ right) = upsert key value entries ++ right := by
  induction entries with
  | nil =>
      cases right with
      | nil => rfl
      | cons entry right =>
          have above := larger entry List.mem_cons_self
          simp only [List.nil_append, upsert]
          rw [if_neg (lt_asymm above), if_neg (ne_of_gt above)]
          rfl
  | cons entry entries ih =>
      simp only [List.cons_append, upsert, ih]
      split
      · rfl
      · split <;> rfl

theorem upsert_append_left (key : κ) (value : ν) {left : List (κ × ν)}
    (entries : List (κ × ν)) (smaller : ∀ entry ∈ left, entry.1 < key) :
    upsert key value (left ++ entries) = left ++ upsert key value entries := by
  induction left with
  | nil => rfl
  | cons entry left ih =>
      rw [List.cons_append, upsert, if_pos (smaller entry List.mem_cons_self),
        ih fun other member => smaller other (List.mem_cons_of_mem _ member)]
      rfl

theorem upsert_local (key : κ) (value : ν) : ActsLocally key (upsert key value) := by
  intro left middle right smaller larger
  rw [upsert_append_right key value _ larger, upsert_append_left key value _ smaller]

theorem eraseKey_of_ne {key : κ} {entries : List (κ × ν)}
    (differ : ∀ entry ∈ entries, entry.1 ≠ key) : eraseKey key entries = entries := by
  induction entries with
  | nil => rfl
  | cons entry entries ih =>
      rw [eraseKey, if_neg (differ entry List.mem_cons_self),
        ih fun other member => differ other (List.mem_cons_of_mem _ member)]

theorem eraseKey_absent {key : κ} {entries : List (κ × ν)} (absent : entries.lookup key = none) :
    eraseKey key entries = entries := by
  apply eraseKey_of_ne
  intro entry member same
  have differs := List.lookup_eq_none_iff.mp absent entry member
  rw [same] at differs
  simp at differs

theorem eraseKey_append_left {key : κ} {left : List (κ × ν)} (entries : List (κ × ν))
    (differ : ∀ entry ∈ left, entry.1 ≠ key) :
    eraseKey key (left ++ entries) = left ++ eraseKey key entries := by
  induction left with
  | nil => rfl
  | cons entry left ih =>
      rw [List.cons_append, eraseKey, if_neg (differ entry List.mem_cons_self),
        ih fun other member => differ other (List.mem_cons_of_mem _ member)]
      rfl

theorem eraseKey_append_right {key : κ} (entries : List (κ × ν)) {right : List (κ × ν)}
    (differ : ∀ entry ∈ right, entry.1 ≠ key) :
    eraseKey key (entries ++ right) = eraseKey key entries ++ right := by
  induction entries with
  | nil => exact eraseKey_of_ne differ
  | cons entry entries ih =>
      simp only [List.cons_append, eraseKey, ih]
      split <;> rfl

theorem eraseKey_local (key : κ) : ActsLocally key (eraseKey (ν := ν) key) := by
  intro left middle right smaller larger
  rw [eraseKey_append_right _ fun entry member => ne_of_gt (larger entry member),
    eraseKey_append_left _ fun entry member => ne_of_lt (smaller entry member)]

theorem lookup_local {key : κ} {left right : List (κ × ν)} (middle : List (κ × ν))
    (smaller : ∀ entry ∈ left, entry.1 < key) (larger : ∀ entry ∈ right, key < entry.1) :
    (left ++ middle ++ right).lookup key = middle.lookup key := by
  rw [List.lookup_append, List.lookup_append,
    lookup_eq_none_of_ne fun entry member => ne_of_lt (smaller entry member),
    lookup_eq_none_of_ne fun entry member => ne_of_gt (larger entry member)]
  simp

/-! ## What the operations do to the map -/

theorem lookup_upsert (key : κ) (value : ν) (entries : List (κ × ν)) (other : κ) :
    (upsert key value entries).lookup other =
      if other = key then some value else entries.lookup other := by
  induction entries with
  | nil =>
      rw [upsert, lookup_cons_eq]
      simp only [eq_comm]
  | cons entry entries ih =>
      rw [upsert]
      split
      · rename_i below
        rw [lookup_cons_eq, lookup_cons_eq, ih]
        by_cases same : entry.1 = other
        · rw [if_pos same, if_pos same, if_neg (same ▸ ne_of_lt below)]
        · rw [if_neg same, if_neg same]
      · split
        · rename_i here
          rw [lookup_cons_eq, lookup_cons_eq, here]
          simp only [eq_comm]
          split <;> simp_all
        · rw [lookup_cons_eq]
          simp only [eq_comm]

theorem mem_upsert {key : κ} {value : ν} {entries : List (κ × ν)} {entry : κ × ν}
    (member : entry ∈ upsert key value entries) : entry = (key, value) ∨ entry ∈ entries := by
  induction entries with
  | nil => exact .inl (List.mem_singleton.mp member)
  | cons first rest ih =>
      rw [upsert] at member
      split at member
      · rcases List.mem_cons.mp member with here | later
        · exact .inr (here ▸ List.mem_cons_self)
        · exact (ih later).imp id (List.mem_cons_of_mem _)
      · split at member
        · exact (List.mem_cons.mp member).imp id (List.mem_cons_of_mem _)
        · exact List.mem_cons.mp member

theorem sortedKeys_upsert {entries : List (κ × ν)} (sorted : SortedKeys entries) (key : κ)
    (value : ν) : SortedKeys (upsert key value entries) := by
  induction entries with
  | nil => exact List.pairwise_singleton _ _
  | cons entry entries ih =>
      obtain ⟨first, rest⟩ := List.pairwise_cons.mp sorted
      rw [upsert]
      split
      · rename_i below
        refine List.pairwise_cons.mpr ⟨fun other member => ?_, ih rest⟩
        rcases mem_upsert member with same | old
        · rw [same]
          exact below
        · exact first other old
      · split
        · rename_i here
          exact List.pairwise_cons.mpr ⟨fun other member => here ▸ first other member, rest⟩
        · rename_i notBelow differ
          have above : key < entry.1 := lt_of_le_of_ne (not_lt.mp notBelow) (Ne.symm differ)
          refine List.pairwise_cons.mpr ⟨fun other member => ?_, sorted⟩
          rcases List.mem_cons.mp member with same | old
          · rw [same]
            exact above
          · exact lt_trans above (first other old)

theorem eraseKey_sublist (key : κ) (entries : List (κ × ν)) :
    (eraseKey key entries).Sublist entries := by
  induction entries with
  | nil => exact List.Sublist.refl _
  | cons entry entries ih =>
      rw [eraseKey]
      split
      · exact List.sublist_cons_self _ _
      · exact ih.cons_cons _

theorem sortedKeys_eraseKey {entries : List (κ × ν)} (sorted : SortedKeys entries) (key : κ) :
    SortedKeys (eraseKey key entries) :=
  sorted.sublist (eraseKey_sublist key entries)

theorem lookup_eraseKey {entries : List (κ × ν)} (sorted : SortedKeys entries) (key other : κ) :
    (eraseKey key entries).lookup other = if other = key then none else entries.lookup other := by
  induction entries with
  | nil => simp [eraseKey]
  | cons entry entries ih =>
      obtain ⟨first, rest⟩ := List.pairwise_cons.mp sorted
      rw [eraseKey]
      split
      · rename_i here
        by_cases same : other = key
        · rw [if_pos same, same]
          exact lookup_eq_none_of_ne fun later member => here ▸ ne_of_gt (first later member)
        · rw [if_neg same, lookup_cons_eq, if_neg (fun isOther => same (isOther.symm.trans here))]
      · rename_i differ
        rw [lookup_cons_eq, lookup_cons_eq, ih rest]
        by_cases same : other = key
        · rw [if_pos same, if_neg (same ▸ differ), if_pos same]
        · rw [if_neg same, if_neg same]

/-! ## Where a key belongs -/

theorem position_le (key : κ) (entries : List (κ × ν)) : position key entries ≤ entries.length :=
  (List.takeWhile_sublist _).length_le

theorem position_cons (key : κ) (entry : κ × ν) (entries : List (κ × ν)) :
    position key (entry :: entries) = if entry.1 < key then position key entries + 1 else 0 := by
  unfold position
  by_cases below : entry.1 < key
  · rw [List.takeWhile_cons_of_pos (by simpa using below), if_pos below, List.length_cons]
  · rw [List.takeWhile_cons_of_neg (by simpa using below), if_neg below, List.length_nil]

/-- A key of a sorted list is found at its position. -/
theorem lookup_eq_position {entries : List (κ × ν)} (sorted : SortedKeys entries) (key : κ) :
    entries.lookup key =
      (entries[position key entries]?.filter fun entry => entry.1 = key).map Prod.snd := by
  induction entries with
  | nil => rfl
  | cons entry entries ih =>
      obtain ⟨first, rest⟩ := List.pairwise_cons.mp sorted
      rw [lookup_cons_eq, position_cons]
      by_cases below : entry.1 < key
      · rw [if_pos below, if_neg (ne_of_lt below), ih rest]
        rfl
      · rw [if_neg below]
        by_cases same : entry.1 = key
        · simp [same, Option.filter]
        · have above : key < entry.1 := lt_of_le_of_ne (not_lt.mp below) (Ne.symm same)
          rw [if_neg same, lookup_eq_none_of_ne fun other member =>
            ne_of_gt (lt_trans above (first other member))]
          simp [same, Option.filter]

/-- Storing a new key puts an entry at its position. -/
theorem upsert_absent {entries : List (κ × ν)} {key : κ} (absent : entries.lookup key = none)
    (value : ν) :
    upsert key value entries = entries.insertIdx (position key entries) (key, value) := by
  induction entries with
  | nil => rfl
  | cons entry entries ih =>
      rw [lookup_cons_eq] at absent
      rw [upsert, position_cons]
      split
      · rename_i below
        rw [if_neg (ne_of_lt below)] at absent
        rw [ih absent, List.insertIdx_succ_cons]
      · split
        · rename_i here
          simp [here] at absent
        · rw [List.insertIdx_zero]

/-- Storing a key that is there exchanges the entry at its position. -/
theorem upsert_present {entries : List (κ × ν)} (sorted : SortedKeys entries) {key : κ}
    (present : (entries.lookup key).isSome = true) (value : ν) :
    upsert key value entries = entries.set (position key entries) (key, value) := by
  induction entries with
  | nil => simp at present
  | cons entry entries ih =>
      obtain ⟨first, rest⟩ := List.pairwise_cons.mp sorted
      rw [lookup_cons_eq] at present
      rw [upsert, position_cons]
      split
      · rename_i below
        rw [if_neg (ne_of_lt below)] at present
        rw [ih rest present, List.set_cons_succ]
      · rename_i notBelow
        split
        · rw [List.set_cons_zero]
        · rename_i differ
          have above : key < entry.1 := lt_of_le_of_ne (not_lt.mp notBelow) (Ne.symm differ)
          rw [if_neg differ, lookup_eq_none_of_ne fun other member =>
            ne_of_gt (lt_trans above (first other member))] at present
          simp at present

/-- Removing a key removes the entry at its position. -/
theorem eraseKey_present {entries : List (κ × ν)} (sorted : SortedKeys entries) {key : κ}
    (present : (entries.lookup key).isSome = true) :
    eraseKey key entries = entries.eraseIdx (position key entries) := by
  induction entries with
  | nil => simp at present
  | cons entry entries ih =>
      obtain ⟨first, rest⟩ := List.pairwise_cons.mp sorted
      rw [lookup_cons_eq] at present
      rw [eraseKey, position_cons]
      split
      · rename_i here
        rw [if_neg (here ▸ lt_irrefl _), List.eraseIdx_cons_zero]
      · rename_i differ
        rw [if_neg differ] at present
        split
        · rw [ih rest present, List.eraseIdx_cons_succ]
        · rename_i notBelow
          have above : key < entry.1 := lt_of_le_of_ne (not_lt.mp notBelow) (Ne.symm differ)
          rw [lookup_eq_none_of_ne fun other member =>
            ne_of_gt (lt_trans above (first other member))] at present
          simp at present

theorem length_upsert_absent {entries : List (κ × ν)} {key : κ}
    (absent : entries.lookup key = none) (value : ν) :
    (upsert key value entries).length = entries.length + 1 := by
  rw [upsert_absent absent, List.length_insertIdx_of_le_length (position_le key entries)]

theorem length_upsert_le (key : κ) (value : ν) (entries : List (κ × ν)) :
    (upsert key value entries).length ≤ entries.length + 1 := by
  induction entries with
  | nil => exact Nat.le_refl 1
  | cons entry entries ih =>
      rw [upsert]
      split
      · exact Nat.succ_le_succ ih
      · split
        · exact Nat.le_succ _
        · exact Nat.le_refl _

theorem length_upsert_present {entries : List (κ × ν)} (sorted : SortedKeys entries) {key : κ}
    (present : (entries.lookup key).isSome = true) (value : ν) :
    (upsert key value entries).length = entries.length := by
  rw [upsert_present sorted present, List.length_set]

end MiniSqlite.Std
