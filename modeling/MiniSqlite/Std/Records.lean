import MiniSqlite.Std.Bytes
import Mathlib.Data.List.Basic

/-!
# Arrays of records in a block

Records of one width lie behind each other from some offset on. The lemmas say
which list of records a block holds after a gap was opened by `memmove` and
filled, after one was closed, after a record was replaced and after the count
was lowered. They ask only what the bytes of each record became.
-/

namespace MiniSqlite.Std

variable {α : Type}

/-- What is loaded depends on the `width` bytes at the offset. -/
def LocalLoad (width : Nat) (load : Block → Nat → α) : Prop :=
  ∀ first second : Block, ∀ offset other : Nat,
    first.read offset width = second.read other width → load first offset = load second other

/-- The `count` records of an array. -/
def records (load : Block → Nat → α) (width : Nat) (block : Block) (base count : Nat) : List α :=
  (List.range count).map fun i => load block (base + i * width)

variable {load : Block → Nat → α} {width base count pos : Nat} {before after : Block}

@[simp] theorem records_length : (records load width before base count).length = count := by
  simp [records]

theorem getElem_records {i : Nat} (bound : i < (records load width before base count).length) :
    (records load width before base count)[i] = load before (base + i * width) := by
  simp [records]

/-- An array is known by its records. -/
theorem records_ext {items : List α} (length : items.length = count)
    (same : ∀ i, (bound : i < items.length) → load after (base + i * width) = items[i]) :
    records load width after base count = items := by
  apply List.ext_getElem
  · rw [records_length, length]
  · intro i left right
    rw [getElem_records, same i right]

theorem records_congr (localLoad : LocalLoad width load)
    (same : ∀ i < count,
      after.read (base + i * width) width = before.read (base + i * width) width) :
    records load width after base count = records load width before base count := by
  refine List.map_congr_left fun i member => localLoad _ _ _ _ (same i ?_)
  exact List.mem_range.mp member

/-- Opening a gap and filling it inserts a record. -/
theorem records_insert (localLoad : LocalLoad width load) (inside : pos ≤ count)
    (head : ∀ i < pos, after.read (base + i * width) width = before.read (base + i * width) width)
    (tail : ∀ i, pos ≤ i → i < count →
      after.read (base + (i + 1) * width) width = before.read (base + i * width) width) :
    records load width after base (count + 1) =
      (records load width before base count).insertIdx pos (load after (base + pos * width)) := by
  refine records_ext ?_ fun i bound => ?_
  · rw [List.length_insertIdx_of_le_length (by simpa using inside), records_length]
  · rw [List.getElem_insertIdx]
    split
    · rename_i low
      rw [getElem_records]
      exact localLoad _ _ _ _ (head i low)
    · split
      · rename_i here
        rw [here]
      · rw [List.length_insertIdx_of_le_length (by simpa using inside), records_length] at bound
        rw [getElem_records]
        have moved := tail (i - 1) (by omega) (by omega)
        rw [Nat.sub_add_cancel (by omega)] at moved
        exact localLoad _ _ _ _ moved

/-- Closing a gap removes a record. -/
theorem records_erase (localLoad : LocalLoad width load) (inside : pos < count)
    (head : ∀ i < pos, after.read (base + i * width) width = before.read (base + i * width) width)
    (tail : ∀ i, pos ≤ i → i + 1 < count →
      after.read (base + i * width) width = before.read (base + (i + 1) * width) width) :
    records load width after base (count - 1) =
      (records load width before base count).eraseIdx pos := by
  refine records_ext ?_ fun i bound => ?_
  · rw [List.length_eraseIdx, records_length, if_pos inside]
  · rw [List.length_eraseIdx, records_length, if_pos inside] at bound
    rw [List.getElem_eraseIdx]
    split
    · rename_i low
      rw [getElem_records]
      exact localLoad _ _ _ _ (head i low)
    · rw [getElem_records]
      exact localLoad _ _ _ _ (tail i (by omega) (by omega))

/-- Overwriting a record. -/
theorem records_set (localLoad : LocalLoad width load)
    (others : ∀ i < count, i ≠ pos →
      after.read (base + i * width) width = before.read (base + i * width) width) :
    records load width after base count =
      (records load width before base count).set pos (load after (base + pos * width)) := by
  refine records_ext (by simp) fun i bound => ?_
  rw [List.length_set, records_length] at bound
  rw [List.getElem_set]
  split
  · rename_i here
    rw [here]
  · rename_i differ
    rw [getElem_records]
    exact localLoad _ _ _ _ (others i bound (Ne.symm differ))

/-- Appending a record. -/
theorem records_append (localLoad : LocalLoad width load)
    (head : ∀ i < count,
      after.read (base + i * width) width = before.read (base + i * width) width) :
    records load width after base (count + 1) =
      records load width before base count ++ [load after (base + count * width)] := by
  unfold records
  rw [List.range_succ, List.map_append]
  refine congrArg (· ++ _) ?_
  exact records_congr localLoad head

/-- The leading records. -/
theorem records_take (fewer : pos ≤ count) :
    records load width before base pos = (records load width before base count).take pos := by
  unfold records
  rw [← List.map_take, List.take_range, Nat.min_eq_left fewer]

end MiniSqlite.Std
