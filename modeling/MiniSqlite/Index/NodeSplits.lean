import MiniSqlite.Index.BPlusTree
import MiniSqlite.Index.NodeLayout

/-!
# The halves of a node

What `split_leaf` and `insert_into_parent` make of the bytes of an over-full node: the front of
its lists stays, the back is copied to a new page, and the key in the middle is promoted. A new
root has two children.
-/

namespace MiniSqlite.Index

open MiniSqlite.Common MiniSqlite.Std MiniSqlite.Storage

/-! ## Leaves -/

section Leaves

variable {page target : Page} {entries : List (Int64 × Rid)} {next : PageId}

theorem bpNodeGetType_set (page : Page) (type : UInt8) :
    bpNodeGetType (bpNodeSetType page type) = type :=
  @Block.write_apply_inside page 24 0 [type] (Nat.lt_succ_self 0)

theorem leafSetNextPage_size (page : Page) (next : PageId) :
    bpNodeGetSize (leafSetNextPage page next) = bpNodeGetSize page := by
  rw [bpNodeGetSize, leafSetNextPage, Scalar.load_store_of_disjoint]
  · rfl
  · exact .inr (Nat.le_refl _)

theorem leafSetNextPage_type (page : Page) (next : PageId) :
    bpNodeGetType (leafSetNextPage page next) = bpNodeGetType page := by
  unfold bpNodeGetType leafSetNextPage Scalar.store
  exact Block.write_apply_outside page (.inl (by decide))

theorem entries_behind (i : Nat) : 33 ≤ bpLeafEntriesOffset + i * bpLeafEntrySize :=
  Nat.le_add_right _ _

/-- Another page follows the leaf. -/
theorem LeafLaid.relink (laid : LeafLaid page entries next) (other : PageId) :
    LeafLaid (leafSetNextPage page other) entries other where
  isLeaf := (leafSetNextPage_type page other).trans laid.isLeaf
  size := by
    rw [leafSetNextPage_size]
    exact laid.size
  entries := by
    rw [← laid.entries]
    rw [records_length]
    exact records_congr loadEntry_local fun i _ =>
      Scalar.read_store_of_disjoint _ _ (.inl (entries_behind i))
  next := Scalar.load_store_same _ _ _ _

/-- Only the front of the entries is left. -/
theorem LeafLaid.cut (laid : LeafLaid page entries next) {count : Nat}
    (fewer : count ≤ entries.length) :
    LeafLaid (bpNodeSetSize page count) (entries.take count) next := by
  have small := laid.length_lt
  have length : (entries.take count).length = count := by
    rw [List.length_take]
    exact Nat.min_eq_left fewer
  have same : Untouched 0 page (bpNodeSetSize page count) := (Untouched.refl page).setSize _
  refine ⟨same.type.trans laid.isLeaf, ?_, ?_, same.link.trans laid.next⟩
  · rw [length]
    exact bpNodeGetSize_set (by omega)
  · rw [length, records_take fewer]
    refine congrArg (List.take count) (Eq.trans ?_ laid.entries)
    exact records_congr loadEntry_local fun i _ =>
      read_setSize _ (Nat.le_trans (by decide) (entries_behind i))

/-- Another RID for the key at a position. -/
theorem LeafLaid.replace (laid : LeafLaid page entries next) {pos : Nat}
    (inside : pos < entries.length) (rid : Rid) :
    LeafLaid (leafSetRid page pos rid) (entries.set pos (entries[pos].1, rid)) next := by
  have same : Untouched (entries.length * 16) page (leafSetRid page pos rid) := by
    unfold leafSetRid
    refine ((Untouched.refl page).store ?_ ?_).store ?_ ?_ <;>
      simp only [Scalar.i32_width, leafRidOffset_eq] <;> omega
  have apart {offset count : Nat}
      (disjoint : offset + count ≤ 33 + pos * 16 + 8 ∨ 33 + pos * 16 + 16 ≤ offset) :
      (leafSetRid page pos rid).read offset count = page.read offset count := by
    unfold leafSetRid
    rw [Scalar.read_store_of_disjoint, Scalar.read_store_of_disjoint] <;>
      simp only [Scalar.i32_width, leafRidOffset_eq] <;> omega
  have here : loadEntry (leafSetRid page pos rid) (33 + pos * 16) = (entries[pos].1, rid) := by
    have keyLoad : Scalar.i64.load (leafSetRid page pos rid) (33 + pos * 16) = entries[pos].1 := by
      rw [← (laid.key_at inside).1]
      exact Scalar.load_congr _ (apart (.inl (by rw [Scalar.i64_width])))
    have pageIdLoad :
        Scalar.i32.load (leafSetRid page pos rid) (33 + pos * 16 + 8) = rid.pageId := by
      unfold leafSetRid
      rw [Scalar.load_store_of_disjoint]
      · exact Scalar.load_store_same _ _ _ _
      · exact .inr (Nat.le_refl _)
    have slotIdLoad :
        Scalar.i32.load (leafSetRid page pos rid) (33 + pos * 16 + 12) = rid.slotId :=
      Scalar.load_store_same _ _ _ _
    rw [loadEntry, keyLoad, pageIdLoad, slotIdLoad]
  refine ⟨same.type.trans laid.isLeaf, ?_, ?_, same.link.trans laid.next⟩
  · rw [List.length_set, ← laid.size]
    refine congrArg Int32.toInt (Scalar.load_congr _ (apart (.inl ?_)))
    rw [Scalar.i32_width]
    show 25 + 4 ≤ _
    omega
  · rw [List.length_set]
    have changed := @records_set _ loadEntry 16 33 entries.length pos page
      (leafSetRid page pos rid) loadEntry_local (fun i _ differ => apart (by omega))
    rw [here] at changed
    exact changed.trans (congrArg (·.set pos (entries[pos].1, rid)) laid.entries)

theorem copyLeafEntries_untouched (source target : Page) (start count : Nat) :
    Untouched (count * 16) target (copyLeafEntries source start count target) := by
  induction count with
  | zero => exact .refl target
  | succ i ih =>
      have wider : Untouched ((i + 1) * 16) target (copyLeafEntries source start i target) :=
        fun other outside => ih other (by omega)
      unfold copyLeafEntries leafSetKey leafSetRid
      refine ((wider.store ?_ ?_).store ?_ ?_).store ?_ ?_ <;>
        simp only [Scalar.i32_width, Scalar.i64_width, leafKeyOffset_eq, leafRidOffset_eq] <;> omega

/-- The entries copied, in order. -/
theorem copyLeafEntries_entry (source target : Page) (start : Nat) {count i : Nat}
    (bound : i < count) :
    loadEntry (copyLeafEntries source start count target) (33 + i * 16) =
      loadEntry source (33 + (start + i) * 16) := by
  induction count with
  | zero => exact absurd bound (Nat.not_lt_zero i)
  | succ count ih =>
      by_cases last : i = count
      · rw [last]
        exact loadEntry_leafWrite
      · rw [← ih (by omega)]
        exact loadEntry_local _ _ _ _ (read_leafWrite (by rw [leafEntrySize_eq]; omega))

/-- A leaf without entries and without a successor. -/
theorem initLeafPage_laid (page : Page) : LeafLaid (initLeafPage page) [] invalidPageId where
  isLeaf := by
    have same : Untouched 0 (bpNodeSetType (page.fill 0 0 pageSize) bpNodeTypeLeaf)
        (bpNodeSetSize (bpNodeSetType (page.fill 0 0 pageSize) bpNodeTypeLeaf) 0) :=
      (Untouched.refl _).setSize _
    refine (leafSetNextPage_type _ _).trans (same.type.trans ?_)
    exact bpNodeGetType_set _ _
  size := by
    rw [initLeafPage, leafSetNextPage_size]
    exact @bpNodeGetSize_set _ 0 (by decide)
  entries := rfl
  next := Scalar.load_store_same _ _ _ _

/-- The sibling that `split_leaf` fills: the entries from a position on. -/
theorem LeafLaid.copied (laid : LeafLaid page entries next) (target : Page) {mid : Nat}
    (inside : mid ≤ entries.length) :
    LeafLaid (leafSetNextPage (bpNodeSetSize
        (copyLeafEntries page mid (entries.length - mid) (initLeafPage target))
        (entries.length - mid : Nat)) next)
      (entries.drop mid) next := by
  have small := laid.length_lt
  let copy := copyLeafEntries page mid (entries.length - mid) (initLeafPage target)
  have same : Untouched ((entries.length - mid) * 16) (initLeafPage target) copy :=
    copyLeafEntries_untouched _ _ _ _
  have filled : LeafLaid (bpNodeSetSize copy (entries.length - mid : Nat)) (entries.drop mid)
      invalidPageId := by
    refine ⟨?_, ?_, ?_, ?_⟩
    · exact (same.setSize _).type.trans (initLeafPage_laid target).isLeaf
    · rw [List.length_drop]
      exact bpNodeGetSize_set (by omega)
    · refine records_ext rfl fun i bound => ?_
      rw [List.length_drop] at bound
      have from_ : loadEntry page (33 + (mid + i) * 16) = entries[mid + i] := by
        rw [← @getElem_records _ loadEntry 16 33 entries.length page (mid + i) (by simp; omega)]
        exact getElem_congr_coll laid.entries
      rw [List.getElem_drop, ← from_, ← copyLeafEntries_entry page (initLeafPage target) mid bound]
      exact loadEntry_local _ _ _ _
        (read_setSize _ (Nat.le_trans (by decide) (entries_behind i)))
    · exact (same.setSize _).link.trans (initLeafPage_laid target).next
  exact filled.relink next

end Leaves

/-! ## Internal nodes -/

section InternalNodes

variable {page target : Page} {first : PageId} {rest : List (Int64 × PageId)}

/-- Only the front of the keys is left. -/
theorem InternalLaid.cut (laid : InternalLaid page first rest) {count : Nat}
    (fewer : count ≤ rest.length) :
    InternalLaid (bpNodeSetSize page count) first (rest.take count) := by
  have small := laid.length_lt
  have length : (rest.take count).length = count := by
    rw [List.length_take]
    exact Nat.min_eq_left fewer
  have same : Untouched 0 page (bpNodeSetSize page count) := (Untouched.refl page).setSize _
  refine ⟨same.type.trans laid.inner, ?_, same.link.trans laid.first, ?_⟩
  · rw [length]
    exact bpNodeGetSize_set (by omega)
  · rw [length, records_take fewer]
    refine congrArg (List.take count) (Eq.trans ?_ laid.rest)
    exact records_congr loadChild_local fun i _ =>
      read_setSize _ (Nat.le_trans (by decide) (Nat.le_add_right 33 _))

theorem copyInternalEntries_untouched (source target : Page) (start count : Nat) :
    Untouched (count * 12) target (copyInternalEntries source start count target) := by
  induction count with
  | zero => exact .refl target
  | succ i ih =>
      have wider : Untouched ((i + 1) * 12) target (copyInternalEntries source start i target) :=
        fun other outside => ih other (by omega)
      unfold copyInternalEntries internalSetKey internalSetChild
      refine (wider.store ?_ ?_).store ?_ ?_ <;>
        simp only [Scalar.i32_width, Scalar.i64_width, internalKeyOffset_eq,
          internalChildOffset_succ] <;> omega

/-- The keys copied, in order, each with the child behind it. -/
theorem copyInternalEntries_entry (source target : Page) (start : Nat) {count i : Nat}
    (bound : i < count) :
    loadChild (copyInternalEntries source start count target) (33 + i * 12) =
      loadChild source (33 + (start + i) * 12) := by
  induction count with
  | zero => exact absurd bound (Nat.not_lt_zero i)
  | succ count ih =>
      by_cases last : i = count
      · rw [last]
        exact loadChild_internalWrite
      · rw [← ih (by omega)]
        refine loadChild_local _ _ _ _ (read_internalWrite (.inl ?_))
        show 33 + i * 12 + 12 ≤ 33 + count * 12
        omega

theorem initInternalPage_type (page : Page) :
    bpNodeGetType (initInternalPage page) = bpNodeTypeInternal := by
  have same : Untouched 0 (bpNodeSetType (page.fill 0 0 pageSize) bpNodeTypeInternal)
      (initInternalPage page) := (Untouched.refl _).setSize _
  exact same.type.trans (bpNodeGetType_set _ _)

/-- The first child lies in front of the entries. -/
theorem internalSetChild_first (page : Page) (child : PageId) :
    bpNodeGetType (internalSetChild page 0 child) = bpNodeGetType page ∧
      internalGetChild (internalSetChild page 0 child) 0 = child :=
  ⟨leafSetNextPage_type page child, Scalar.load_store_same _ _ _ _⟩

/-- The sibling that `insert_into_parent` fills: what stands behind the promoted key. -/
theorem InternalLaid.copied (laid : InternalLaid page first rest) (target : Page) {mid : Nat}
    (inside : mid < rest.length) :
    InternalLaid (bpNodeSetSize
        (copyInternalEntries page (mid + 1) (rest.length - mid - 1)
          (internalSetChild (initInternalPage target) 0 (internalGetChild page (mid + 1))))
        (rest.length - mid - 1 : Nat))
      rest[mid].2 (rest.drop (mid + 1)) := by
  have small := laid.length_lt
  let start := internalSetChild (initInternalPage target) 0 (internalGetChild page (mid + 1))
  let copy := copyInternalEntries page (mid + 1) (rest.length - mid - 1) start
  have same : Untouched ((rest.length - mid - 1) * 12) start copy :=
    copyInternalEntries_untouched _ _ _ _
  obtain ⟨startType, startFirst⟩ :=
    internalSetChild_first (initInternalPage target) (internalGetChild page (mid + 1))
  refine ⟨?_, ?_, ?_, ?_⟩
  · exact (same.setSize _).type.trans (startType.trans (initInternalPage_type target))
  · rw [List.length_drop, Nat.sub_sub]
    exact bpNodeGetSize_set (by omega)
  · rw [← (laid.key_at inside).2]
    exact (same.setSize _).link.trans startFirst
  · refine records_ext rfl fun i bound => ?_
    rw [List.length_drop] at bound
    have from_ : loadChild page (33 + (mid + 1 + i) * 12) = rest[mid + 1 + i] := by
      rw [← @getElem_records _ loadChild 12 33 rest.length page (mid + 1 + i) (by simp; omega)]
      exact getElem_congr_coll laid.rest
    have copied := copyInternalEntries_entry page start (mid + 1)
      (show i < rest.length - mid - 1 by omega)
    rw [List.getElem_drop, ← from_, ← copied]
    exact loadChild_local _ _ _ _
      (read_setSize _ (Nat.le_trans (by decide) (Nat.le_add_right 33 _)))

/-- A root over two nodes. -/
theorem newRoot_laid (page : Page) (left right : PageId) (key : Int64) :
    InternalLaid (newRoot page left key right) left [(key, right)] := by
  obtain ⟨startType, startFirst⟩ := internalSetChild_first (initInternalPage page) left
  have same : Untouched 12 (internalSetChild (initInternalPage page) 0 left)
      (internalWrite (internalSetChild (initInternalPage page) 0 left) 0 key right) := by
    unfold internalWrite internalSetChild internalSetKey
    exact ((Untouched.refl _).store (by decide) (by decide)).store (by decide) (by decide)
  refine ⟨?_, ?_, ?_, ?_⟩
  · exact (same.setSize 1).type.trans (startType.trans (initInternalPage_type page))
  · exact @bpNodeGetSize_set _ 1 (by decide)
  · exact (same.setSize 1).link.trans startFirst
  · refine records_ext rfl fun i bound => ?_
    obtain rfl : i = 0 := Nat.lt_one_iff.mp bound
    refine Eq.trans ?_ (@loadChild_internalWrite
      (internalSetChild (initInternalPage page) 0 left) 0 key right)
    exact loadChild_local _ _ _ _ (read_setSize 1 (by decide))

end InternalNodes

end MiniSqlite.Index
