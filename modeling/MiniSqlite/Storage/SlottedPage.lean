import MiniSqlite.Common.Error
import MiniSqlite.Storage.Page

/-!
# Slotted pages

`storage/slotted_page.c`. The slot array grows up from the header, tuple data
grows down from the end of the page. `Layout` says that the live tuples are
pairwise disjoint and lie between the two; `Layout.replaceSlot` is the one place
where that is re-established after a slot changes. `recordAt` reads a slot's
bytes, and each operation has one lemma that says what it does to the records.

Null arguments are left out, and a `uint16_t` length is the length of the list
of bytes it comes with.
-/

namespace MiniSqlite.Storage

open MiniSqlite.Common MiniSqlite.Std

/-- The bytes of a tuple, as many as a `uint16_t` length can announce. -/
abbrev TupleData := { bytes : List UInt8 // bytes.length < 2 ^ 16 }

/-- `slotted_page_init`. -/
def slottedPageInit (page : Page) (pageId : PageId) : Page := pageHeaderInit page pageId

/-- `slot_array_end`. -/
def slotArrayEnd (page : Page) : Nat := pageHeaderSize + pageHeaderGetNumTuples page * slotSize

/-- `free_space_lower`. -/
def freeSpaceLower (page : Page) : Nat := slotArrayEnd page

/-- The body of the loop in `free_space_upper`. -/
def lowerUpper (page : Page) (upper i : Nat) : Nat :=
  if slotGetSize page i = 0 then upper
  else if slotGetOffset page i < upper then slotGetOffset page i
  else upper

/-- `free_space_upper`: the least offset of a live tuple, or the end of the page. -/
def freeSpaceUpper (page : Page) : Nat :=
  (List.range (pageHeaderGetNumTuples page)).foldl (lowerUpper page) pageSize

/-- `slotted_page_free_space`. -/
def slottedPageFreeSpace (page : Page) : Nat :=
  if freeSpaceUpper page > freeSpaceLower page then freeSpaceUpper page - freeSpaceLower page else 0

/-- `slotted_page_insert`: the new page and the slot id or error code returned. -/
def slottedPageInsert (page : Page) (tuple : List UInt8) : Page × Int :=
  if tuple.length = 0 then (page, ErrorCode.invalidArgument.code)
  else
    let numSlots := pageHeaderGetNumTuples page
    let newSlotArrayEnd := pageHeaderSize + (numSlots + 1) * slotSize
    let upper := freeSpaceUpper page
    let available := if upper > newSlotArrayEnd then upper - newSlotArrayEnd else 0
    if available < tuple.length then (page, ErrorCode.outOfMemory.code)
    else
      let tupleOffset := upper - tuple.length
      let page := page.write tupleOffset tuple
      let page := slotSetOffset page numSlots tupleOffset
      let page := slotSetSize page numSlots tuple.length
      let page := pageHeaderSetNumTuples page (numSlots + 1)
      let page := pageHeaderSetFreeSpace page (slottedPageFreeSpace page)
      (page, numSlots)

/-- The slot a slot id names, when it is not negative. -/
def slotIndex (slotId : SlotId) : Nat := slotId.toInt.toNat

/-- `slot_id < 0 || (uint32_t)slot_id >= num_slots`. -/
def badSlot (page : Page) (slotId : SlotId) : Bool :=
  slotId < 0 || slotIndex slotId ≥ pageHeaderGetNumTuples page

/-- `slotted_page_get`: the bytes that `tuple_data` and `tuple_size` describe. -/
def slottedPageGet (page : Page) (slotId : SlotId) : Except ErrorCode (List UInt8) :=
  if badSlot page slotId then .error .pageNotFound
  else
    let size := slotGetSize page (slotIndex slotId)
    if size = 0 then .error .pageNotFound
    else .ok (page.read (slotGetOffset page (slotIndex slotId)) size)

/-- `slotted_page_delete`. -/
def slottedPageDelete (page : Page) (slotId : SlotId) : Page × ErrorCode :=
  if badSlot page slotId then (page, .pageNotFound)
  else if slotGetSize page (slotIndex slotId) = 0 then (page, .pageNotFound)
  else
    let page := slotSetSize page (slotIndex slotId) 0
    (pageHeaderSetFreeSpace page (slottedPageFreeSpace page), .ok)

/-- `slotted_page_update`: in place if the new data is no longer than the old,
else below all other tuples, leaving the old bytes dead. -/
def slottedPageUpdate (page : Page) (slotId : SlotId) (newData : List UInt8) : Page × ErrorCode :=
  if newData.length = 0 then (page, .invalidArgument)
  else if badSlot page slotId then (page, .pageNotFound)
  else
    let oldSize := slotGetSize page (slotIndex slotId)
    if oldSize = 0 then (page, .pageNotFound)
    else
      let oldOffset := slotGetOffset page (slotIndex slotId)
      if newData.length ≤ oldSize then
        let page := page.write oldOffset newData
        let page := slotSetSize page (slotIndex slotId) newData.length
        (pageHeaderSetFreeSpace page (slottedPageFreeSpace page), .ok)
      else
        let upper := freeSpaceUpper page
        let newSlotArrayEnd := slotArrayEnd page
        let available := if upper > newSlotArrayEnd then upper - newSlotArrayEnd else 0
        if available < newData.length then (page, .outOfMemory)
        else
          let newOffset := upper - newData.length
          let page := page.write newOffset newData
          let page := slotSetOffset page (slotIndex slotId) newOffset
          let page := slotSetSize page (slotIndex slotId) newData.length
          (pageHeaderSetFreeSpace page (slottedPageFreeSpace page), .ok)

/-- Slot ids and error codes are not negative, so callers cannot tell them apart. -/
theorem slottedPageInsert_nonneg (page : Page) (tuple : List UInt8) :
    0 ≤ (slottedPageInsert page tuple).2 := by
  simp only [slottedPageInsert]
  split_ifs
  all_goals first
    | exact ErrorCode.invalidArgument.code_nonneg
    | exact ErrorCode.outOfMemory.code_nonneg
    | exact Int.natCast_nonneg _

/-- A delete that fails leaves the page as it is. -/
theorem slottedPageDelete_failed {page : Page} {slotId : SlotId}
    (failed : (slottedPageDelete page slotId).2 ≠ .ok) :
    (slottedPageDelete page slotId).1 = page := by
  revert failed
  simp only [slottedPageDelete]
  split
  · exact fun _ => rfl
  · split
    · exact fun _ => rfl
    · exact fun failed => absurd rfl failed

/-- An update that fails leaves the page as it is. -/
theorem slottedPageUpdate_failed {page : Page} {slotId : SlotId} {newData : List UInt8}
    (failed : (slottedPageUpdate page slotId newData).2 ≠ .ok) :
    (slottedPageUpdate page slotId newData).1 = page := by
  revert failed
  simp only [slottedPageUpdate]
  split_ifs <;> simp

/-! ## Live slots and the layout -/

/-- Slot `i` exists and is not deleted. -/
def Live (page : Page) (i : Nat) : Prop :=
  i < pageHeaderGetNumTuples page ∧ slotGetSize page i ≠ 0

instance (page : Page) (i : Nat) : Decidable (Live page i) :=
  inferInstanceAs (Decidable (_ ∧ _))

/-- The bytes of slot `i`, if it is live. -/
def recordAt (page : Page) (i : Nat) : Option (List UInt8) :=
  if Live page i then some (page.read (slotGetOffset page i) (slotGetSize page i)) else none

/-- Live tuples lie between the slot array and the end of the page, pairwise disjoint. -/
structure Layout (page : Page) : Prop where
  slots : slotArrayEnd page ≤ pageSize
  inside : ∀ i, Live page i → slotArrayEnd page ≤ slotGetOffset page i ∧
    slotGetOffset page i + slotGetSize page i ≤ pageSize
  disjoint : ∀ i j, Live page i → Live page j → i ≠ j →
    slotGetOffset page i + slotGetSize page i ≤ slotGetOffset page j ∨
      slotGetOffset page j + slotGetSize page j ≤ slotGetOffset page i

/-- A `Layout` whose header records the free space. -/
structure ValidPage (page : Page) : Prop extends Layout page where
  freeSpace : pageHeaderGetFreeSpace page = slottedPageFreeSpace page

theorem Live.congr {first second : Page} {i : Nat}
    (count : pageHeaderGetNumTuples first = pageHeaderGetNumTuples second)
    (size : slotGetSize first i = slotGetSize second i) : Live first i ↔ Live second i := by
  unfold Live
  rw [count, size]

theorem Live.slotPtr_le {page : Page} {i : Nat} (live : Live page i) :
    slotPtr (i + 1) ≤ slotArrayEnd page := by
  have := live.1
  unfold slotPtr slotArrayEnd
  simp
  omega

theorem header_le_slotArrayEnd (page : Page) : pageHeaderSize ≤ slotArrayEnd page :=
  Nat.le_add_right _ _

/-- The loop of `free_space_upper` finds a lower bound of the offsets it has seen. -/
theorem foldl_lowerUpper (page : Page) (slots : List Nat) (upper : Nat) :
    let result := slots.foldl (lowerUpper page) upper
    result ≤ upper ∧
      (∀ i ∈ slots, slotGetSize page i ≠ 0 → result ≤ slotGetOffset page i) ∧
      (result = upper ∨ ∃ i ∈ slots, slotGetSize page i ≠ 0 ∧ result = slotGetOffset page i) := by
  induction slots generalizing upper with
  | nil => simp
  | cons slot slots ih =>
      obtain ⟨below, bound, attained⟩ := ih (lowerUpper page upper slot)
      have turn : lowerUpper page upper slot ≤ upper ∧
          (slotGetSize page slot ≠ 0 → lowerUpper page upper slot ≤ slotGetOffset page slot) ∧
          (lowerUpper page upper slot = upper ∨
            slotGetSize page slot ≠ 0 ∧ lowerUpper page upper slot = slotGetOffset page slot) := by
        unfold lowerUpper
        split
        · simp_all
        · split
          · exact ⟨by omega, fun _ => Nat.le_refl _, Or.inr ⟨by assumption, rfl⟩⟩
          · exact ⟨Nat.le_refl _, fun _ => by omega, Or.inl rfl⟩
      rw [List.foldl_cons]
      refine ⟨below.trans turn.1, ?_, ?_⟩
      · intro i member live
        rcases List.mem_cons.mp member with rfl | inRest
        · exact below.trans (turn.2.1 live)
        · exact bound i inRest live
      · rcases attained with same | ⟨i, member, live, offset⟩
        · rcases turn.2.2 with unchanged | ⟨live, offset⟩
          · exact Or.inl (same.trans unchanged)
          · exact Or.inr ⟨slot, List.mem_cons_self, live, same.trans offset⟩
        · exact Or.inr ⟨i, List.mem_cons_of_mem _ member, live, offset⟩

theorem freeSpaceUpper_le_pageSize (page : Page) : freeSpaceUpper page ≤ pageSize :=
  (foldl_lowerUpper page _ pageSize).1

theorem freeSpaceUpper_le_offset {page : Page} {i : Nat} (live : Live page i) :
    freeSpaceUpper page ≤ slotGetOffset page i :=
  (foldl_lowerUpper page _ pageSize).2.1 i (List.mem_range.mpr live.1) live.2

theorem Layout.lower_le_upper {page : Page} (layout : Layout page) :
    slotArrayEnd page ≤ freeSpaceUpper page := by
  rcases (foldl_lowerUpper page _ pageSize).2.2 with atEnd | ⟨i, member, size, offset⟩
  · exact layout.slots.trans (Nat.le_of_eq atEnd.symm)
  · exact (layout.inside i ⟨List.mem_range.mp member, size⟩).1.trans (Nat.le_of_eq offset.symm)

theorem Layout.freeSpace_eq {page : Page} (layout : Layout page) :
    slottedPageFreeSpace page = freeSpaceUpper page - slotArrayEnd page := by
  have := layout.lower_le_upper
  unfold slottedPageFreeSpace freeSpaceLower
  split <;> omega

theorem freeSpace_congr {first second : Page}
    (count : pageHeaderGetNumTuples first = pageHeaderGetNumTuples second)
    (offset : ∀ i, slotGetOffset first i = slotGetOffset second i)
    (size : ∀ i, slotGetSize first i = slotGetSize second i) :
    slottedPageFreeSpace first = slottedPageFreeSpace second := by
  have turn : lowerUpper first = lowerUpper second := by
    funext upper i
    simp only [lowerUpper, offset, size]
  unfold slottedPageFreeSpace freeSpaceUpper freeSpaceLower slotArrayEnd
  rw [count, turn]

/-- Recording the free space in the header completes a layout to a valid page. -/
theorem Layout.record_freeSpace {page : Page} (layout : Layout page) :
    ValidPage (pageHeaderSetFreeSpace page (slottedPageFreeSpace page)) where
  slots := by simpa [slotArrayEnd] using layout.slots
  inside i live := by
    have := layout.inside i ((Live.congr (by simp) (by simp)).mp live)
    simpa [slotArrayEnd] using this
  disjoint i j liveI liveJ differ := by
    have := layout.disjoint i j ((Live.congr (by simp) (by simp)).mp liveI)
      ((Live.congr (by simp) (by simp)).mp liveJ) differ
    simpa using this
  freeSpace := by
    have same : slottedPageFreeSpace (pageHeaderSetFreeSpace page (slottedPageFreeSpace page)) =
        slottedPageFreeSpace page := freeSpace_congr (by simp) (by simp) (by simp)
    have small : slottedPageFreeSpace page ≤ pageSize := by
      rw [layout.freeSpace_eq]
      exact (Nat.sub_le _ _).trans (freeSpaceUpper_le_pageSize page)
    rw [same, getFreeSpace_setFreeSpace, Nat.mod_eq_of_lt (by simp at small; omega)]

theorem recordAt_eq_some {page : Page} {i : Nat} (live : Live page i) :
    recordAt page i = some (page.read (slotGetOffset page i) (slotGetSize page i)) :=
  if_pos live

theorem recordAt_eq_none {page : Page} {i : Nat} (dead : ¬ Live page i) :
    recordAt page i = none :=
  if_neg dead

theorem Layout.recordAt_setFreeSpace {page : Page} (layout : Layout page) (freeSp i : Nat) :
    recordAt (pageHeaderSetFreeSpace page freeSp) i = recordAt page i := by
  have live : Live (pageHeaderSetFreeSpace page freeSp) i ↔ Live page i :=
    Live.congr (by simp) (by simp)
  by_cases here : Live page i
  · have beyond := (header_le_slotArrayEnd page).trans (layout.inside i here).1
    rw [recordAt_eq_some here, recordAt_eq_some (live.mpr here)]
    simp [read_setFreeSpace page beyond]
  · rw [recordAt_eq_none here, recordAt_eq_none (fun there => here (live.mp there))]

/-- Changing one slot keeps the layout if the slot's new range, when it has one,
avoids the other tuples and the slot array stays below all of them. -/
theorem Layout.replaceSlot {before after : Page} {i : Nat} (layout : Layout before)
    (count : ∀ j, j ≠ i → j < pageHeaderGetNumTuples after → j < pageHeaderGetNumTuples before)
    (slots : slotArrayEnd after ≤ pageSize)
    (others : ∀ j, j ≠ i → j < pageHeaderGetNumTuples before →
      slotGetOffset after j = slotGetOffset before j ∧
        slotGetSize after j = slotGetSize before j)
    (room : slotGetSize after i ≠ 0 → slotArrayEnd after ≤ slotGetOffset after i ∧
      slotGetOffset after i + slotGetSize after i ≤ pageSize ∧
      ∀ j, j ≠ i → Live before j →
        slotGetOffset after i + slotGetSize after i ≤ slotGetOffset before j ∨
          slotGetOffset before j + slotGetSize before j ≤ slotGetOffset after i)
    (above : ∀ j, j ≠ i → Live before j → slotArrayEnd after ≤ slotGetOffset before j) :
    Layout after := by
  have same_ : ∀ j, j ≠ i → Live after j → slotGetOffset after j = slotGetOffset before j ∧
      slotGetSize after j = slotGetSize before j := fun j differ live =>
    others j differ (count j differ live.1)
  have earlier : ∀ j, j ≠ i → Live after j → Live before j := fun j differ live =>
    ⟨count j differ live.1, (same_ j differ live).2 ▸ live.2⟩
  refine ⟨slots, ?_, ?_⟩
  · intro j live
    by_cases same : j = i
    · subst same
      exact ⟨(room live.2).1, (room live.2).2.1⟩
    · have was := earlier j same live
      rw [(same_ j same live).1, (same_ j same live).2]
      exact ⟨above j same was, (layout.inside j was).2⟩
  · intro j k liveJ liveK differ
    by_cases sameJ : j = i
    · subst sameJ
      rw [(same_ k (Ne.symm differ) liveK).1, (same_ k (Ne.symm differ) liveK).2]
      exact (room liveJ.2).2.2 k (Ne.symm differ) (earlier k (Ne.symm differ) liveK)
    · by_cases sameK : k = i
      · subst sameK
        rw [(same_ j differ liveJ).1, (same_ j differ liveJ).2]
        exact ((room liveK.2).2.2 j differ (earlier j differ liveJ)).symm
      · rw [(same_ j sameJ liveJ).1, (same_ j sameJ liveJ).2, (same_ k sameK liveK).1,
          (same_ k sameK liveK).2]
        exact layout.disjoint j k (earlier j sameJ liveJ) (earlier k sameK liveK) differ

/-- A slot that keeps its place keeps its record if its bytes are untouched. -/
theorem recordAt_congr {before after : Page} {i : Nat} (live : Live after i ↔ Live before i)
    (offset : slotGetOffset after i = slotGetOffset before i)
    (size : slotGetSize after i = slotGetSize before i)
    (bytes : Live before i → after.read (slotGetOffset before i) (slotGetSize before i) =
      before.read (slotGetOffset before i) (slotGetSize before i)) :
    recordAt after i = recordAt before i := by
  by_cases here : Live before i
  · rw [recordAt_eq_some here, recordAt_eq_some (live.mpr here), offset, size, bytes here]
  · rw [recordAt_eq_none here, recordAt_eq_none (fun there => here (live.mp there))]

/-! ## Placing a tuple -/

/-- `after` is `before` with `tuple` written at `offset` and slot `i` pointing to it. -/
structure Placed (before after : Page) (i offset : Nat) (tuple : List UInt8) : Prop where
  count : pageHeaderGetNumTuples after = pageHeaderGetNumTuples before
  next : pageHeaderGetNextPage after = pageHeaderGetNextPage before
  offsetHere : slotGetOffset after i = offset
  sizeHere : slotGetSize after i = tuple.length
  slots : ∀ j, j ≠ i → j < pageHeaderGetNumTuples before →
    slotGetOffset after j = slotGetOffset before j ∧ slotGetSize after j = slotGetSize before j
  stored : after.read offset tuple.length = tuple
  elsewhere : ∀ start length, slotPtr (i + 1) ≤ start →
    offset + tuple.length ≤ start ∨ start + length ≤ offset →
      after.read start length = before.read start length

/-- The three writes that insertion and relocation make. -/
theorem placed_write (page : Page) {i offset : Nat} {tuple : List UInt8}
    (length : tuple.length < 2 ^ 16) (small : offset < 2 ^ 16)
    (beyond : slotArrayEnd page ≤ offset) (beyondSlot : slotPtr (i + 1) ≤ offset) :
    Placed page (slotSetSize (slotSetOffset (page.write offset tuple) i offset) i tuple.length)
      i offset tuple := by
  have header : pageHeaderSize ≤ offset := (header_le_slotArrayEnd page).trans beyond
  refine ⟨?_, ?_, ?_, ?_, ?_, ?_, ?_⟩
  · simp [getNumTuples_write page header]
  · simp [getNextPage_write page header]
  · simpa using small
  · simpa using length
  · intro j differ bound
    have before_ : slotPtr (j + 1) ≤ offset := by
      unfold slotPtr slotArrayEnd at *
      simp only [pageHeaderSize, slotSize] at *
      omega
    simp [slotGetOffset_setOffset_ne _ differ, slotGetSize_setSize_ne _ differ,
      slotGetOffset_write page before_, slotGetSize_write page before_]
  · rw [read_slotSetSize _ beyondSlot, read_slotSetOffset _ beyondSlot, Block.read_write_same]
  · intro start count above disjoint
    rw [read_slotSetSize _ above, read_slotSetOffset _ above,
      Block.read_write_of_disjoint _ disjoint]

/-- The two writes of an in-place update. -/
theorem placed_inPlace (page : Page) {i : Nat} {tuple : List UInt8}
    (length : tuple.length < 2 ^ 16) (beyond : slotArrayEnd page ≤ slotGetOffset page i)
    (existing : i < pageHeaderGetNumTuples page) :
    Placed page (slotSetSize (page.write (slotGetOffset page i) tuple) i tuple.length)
      i (slotGetOffset page i) tuple := by
  have header : pageHeaderSize ≤ slotGetOffset page i :=
    (header_le_slotArrayEnd page).trans beyond
  have before_ : ∀ j, j < pageHeaderGetNumTuples page →
      slotPtr (j + 1) ≤ slotGetOffset page i := by
    intro j bound
    unfold slotPtr slotArrayEnd at *
    simp only [pageHeaderSize, slotSize] at *
    omega
  refine ⟨?_, ?_, ?_, ?_, ?_, ?_, ?_⟩
  · simp [getNumTuples_write page header]
  · simp [getNextPage_write page header]
  · simp [slotGetOffset_write page (before_ i existing)]
  · simpa using length
  · intro j differ bound
    simp [slotGetSize_setSize_ne _ differ, slotGetOffset_write page (before_ j bound),
      slotGetSize_write page (before_ j bound)]
  · rw [read_slotSetSize _ (before_ i existing), Block.read_write_same]
  · intro start count above disjoint
    rw [read_slotSetSize _ above, Block.read_write_of_disjoint _ disjoint]

/-- A slot other than the one placed keeps its record: its bytes are elsewhere. -/
theorem Placed.recordAt_other {before after : Page} {i offset : Nat} {tuple : List UInt8}
    (placed : Placed before after i offset tuple)
    (avoids : ∀ j, j ≠ i → Live before j → slotPtr (i + 1) ≤ slotGetOffset before j ∧
      (offset + tuple.length ≤ slotGetOffset before j ∨
        slotGetOffset before j + slotGetSize before j ≤ offset))
    {j : Nat} (differ : j ≠ i) : recordAt after j = recordAt before j := by
  by_cases bound : j < pageHeaderGetNumTuples before
  · obtain ⟨offsetEq, sizeEq⟩ := placed.slots j differ bound
    have live := Live.congr (i := j) placed.count sizeEq
    by_cases here : Live before j
    · rw [recordAt_eq_some here, recordAt_eq_some (live.mpr here), offsetEq, sizeEq,
        placed.elsewhere _ _ (avoids j differ here).1 (avoids j differ here).2]
    · rw [recordAt_eq_none here, recordAt_eq_none (fun there => here (live.mp there))]
  · rw [recordAt_eq_none fun live => bound live.1,
      recordAt_eq_none fun live => bound (placed.count ▸ live.1)]

/-! ## Initialisation -/

theorem validPage_init (page : Page) (pageId : PageId) :
    ValidPage (slottedPageInit page pageId) := by
  have none : ∀ i, ¬ Live (slottedPageInit page pageId) i := by
    intro i live
    have := live.1
    simp [slottedPageInit] at this
  refine ⟨⟨by simp [slotArrayEnd, slottedPageInit], fun i live => absurd live (none i),
    fun i _ live => absurd live (none i)⟩, ?_⟩
  simp [slottedPageInit, slottedPageFreeSpace, freeSpaceUpper, freeSpaceLower, slotArrayEnd]

theorem recordAt_init (page : Page) (pageId : PageId) (i : Nat) :
    recordAt (slottedPageInit page pageId) i = none :=
  recordAt_eq_none fun live => by simpa [slottedPageInit] using live.1

/-! ## Insertion -/

/-- The record, with its new slot, fits into the free space. -/
def Fits (page : Page) (tuple : List UInt8) : Prop :=
  0 < tuple.length ∧ tuple.length + slotSize ≤ slottedPageFreeSpace page

instance (page : Page) (tuple : List UInt8) : Decidable (Fits page tuple) :=
  inferInstanceAs (Decidable (_ ∧ _))

/-- The source's `available`, in terms of the free space. -/
theorem available_lt_iff {page : Page} (layout : Layout page) (extra length : Nat)
    (positive : 0 < length) :
    (if freeSpaceUpper page > slotArrayEnd page + extra then
        freeSpaceUpper page - (slotArrayEnd page + extra) else 0) < length ↔
      slottedPageFreeSpace page < length + extra := by
  rw [layout.freeSpace_eq]
  have lower := layout.lower_le_upper
  split <;> omega

theorem newSlotArrayEnd_eq (page : Page) :
    pageHeaderSize + (pageHeaderGetNumTuples page + 1) * slotSize =
      slotArrayEnd page + slotSize := by
  unfold slotArrayEnd
  simp only [pageHeaderSize, slotSize]
  omega

/-- A record that does not fit is refused and nothing is written. -/
theorem slottedPageInsert_refused {page : Page} (layout : Layout page) {tuple : List UInt8}
    (refused : ¬ Fits page tuple) :
    slottedPageInsert page tuple =
      (page, if tuple.length = 0 then ErrorCode.invalidArgument.code
        else ErrorCode.outOfMemory.code) := by
  unfold slottedPageInsert
  by_cases empty : tuple.length = 0
  · simp only [if_pos empty]
  · have positive := Nat.pos_of_ne_zero empty
    simp only [if_neg empty]
    rw [newSlotArrayEnd_eq, if_pos]
    rw [available_lt_iff layout _ _ positive]
    unfold Fits at refused
    omega

/-- What a successful insertion does. -/
structure Inserted (before after : Page) (tuple : List UInt8) : Prop where
  valid : ValidPage after
  count : pageHeaderGetNumTuples after = pageHeaderGetNumTuples before + 1
  next : pageHeaderGetNextPage after = pageHeaderGetNextPage before
  stored : recordAt after (pageHeaderGetNumTuples before) = some tuple
  others : ∀ i, i ≠ pageHeaderGetNumTuples before → recordAt after i = recordAt before i

/-- Counting the slot just placed behind the array completes an insertion. -/
theorem Placed.inserted {before placed : Page} {offset : Nat} {tuple : List UInt8}
    (layout : Layout before) (positive : 0 < tuple.length)
    (place : Placed before placed (pageHeaderGetNumTuples before) offset tuple)
    (low : slotArrayEnd before + slotSize ≤ offset)
    (high : offset + tuple.length ≤ freeSpaceUpper before) :
    let counted := pageHeaderSetNumTuples placed (pageHeaderGetNumTuples before + 1)
    Inserted before (pageHeaderSetFreeSpace counted (slottedPageFreeSpace counted)) tuple := by
  intro counted
  have upperLe := freeSpaceUpper_le_pageSize before
  have slotEnd : slotPtr (pageHeaderGetNumTuples before + 1) = slotArrayEnd before + slotSize := by
    rw [← newSlotArrayEnd_eq]
    rfl
  have count : pageHeaderGetNumTuples counted = pageHeaderGetNumTuples before + 1 := by
    have bound := layout.slots
    unfold slotArrayEnd at bound
    simp only [pageHeaderSize, slotSize, pageSize] at bound
    rw [getNumTuples_setNumTuples, Nat.mod_eq_of_lt (by omega)]
  have endEq : slotArrayEnd counted = slotArrayEnd before + slotSize := by
    rw [← newSlotArrayEnd_eq, ← count]
    rfl
  have offsetEq : ∀ j, slotGetOffset counted j = slotGetOffset placed j := by simp [counted]
  have sizeEq : ∀ j, slotGetSize counted j = slotGetSize placed j := by simp [counted]
  have above : ∀ j, Live before j → freeSpaceUpper before ≤ slotGetOffset before j :=
    fun j live => freeSpaceUpper_le_offset live
  have layoutCounted : Layout counted := by
    refine layout.replaceSlot (i := pageHeaderGetNumTuples before) ?_ ?_ ?_ ?_ ?_
    · intro j differ bound
      omega
    · rw [endEq]
      omega
    · intro j differ bound
      rw [offsetEq, sizeEq]
      exact place.slots j differ bound
    · intro _
      rw [offsetEq, sizeEq, endEq, place.offsetHere, place.sizeHere]
      exact ⟨low, by omega, fun j _ live => Or.inl (high.trans (above j live))⟩
    · intro j _ live
      rw [endEq]
      have := above j live
      omega
  have recordCounted : ∀ j, j ≠ pageHeaderGetNumTuples before →
      recordAt counted j = recordAt before j := by
    intro j differ
    rw [← place.recordAt_other (fun k _ live => ⟨by
      have := above k live
      omega, Or.inl (high.trans (above k live))⟩) differ]
    by_cases here : Live placed j
    · have there : Live counted j := ⟨by have := here.1; rw [place.count] at this; omega,
        by rw [sizeEq]; exact here.2⟩
      have was : Live before j := ⟨place.count ▸ here.1,
        (place.slots j differ (place.count ▸ here.1)).2 ▸ here.2⟩
      rw [recordAt_eq_some here, recordAt_eq_some there, offsetEq, sizeEq]
      have beyond := (header_le_slotArrayEnd before).trans (layout.inside j was).1
      rw [(place.slots j differ was.1).1]
      simp only [counted, read_setNumTuples placed beyond]
    · have gone : ¬ Live counted j := fun there => here
        ⟨by have := there.1; rw [place.count]; omega, by rw [← sizeEq]; exact there.2⟩
      rw [recordAt_eq_none here, recordAt_eq_none gone]
  have recordNew : recordAt counted (pageHeaderGetNumTuples before) = some tuple := by
    have live : Live counted (pageHeaderGetNumTuples before) :=
      ⟨by omega, by rw [sizeEq, place.sizeHere]; omega⟩
    rw [recordAt_eq_some live, offsetEq, sizeEq, place.offsetHere, place.sizeHere]
    have beyond : pageHeaderSize ≤ offset := by
      have := header_le_slotArrayEnd before
      omega
    simp only [counted, read_setNumTuples placed beyond, place.stored]
  refine ⟨layoutCounted.record_freeSpace, by simpa using count, ?_, ?_, ?_⟩
  · simp [counted, place.next]
  · rw [layoutCounted.recordAt_setFreeSpace, recordNew]
  · intro j differ
    rw [layoutCounted.recordAt_setFreeSpace, recordCounted j differ]

/-- A record that fits gets the next slot id. -/
theorem slottedPageInsert_fits {page : Page} (layout : Layout page) {tuple : List UInt8}
    (length : tuple.length < 2 ^ 16) (fits : Fits page tuple) :
    (slottedPageInsert page tuple).2 = pageHeaderGetNumTuples page ∧
      Inserted page (slottedPageInsert page tuple).1 tuple := by
  obtain ⟨positive, room⟩ := fits
  have upperLe := freeSpaceUpper_le_pageSize page
  have enough : ¬ slottedPageFreeSpace page < tuple.length + slotSize := by omega
  unfold slottedPageInsert
  simp only [if_neg (Nat.ne_of_gt positive)]
  rw [newSlotArrayEnd_eq, if_neg (by rwa [available_lt_iff layout _ _ positive])]
  refine ⟨rfl, ?_⟩
  rw [layout.freeSpace_eq] at room
  have lower := layout.lower_le_upper
  refine Placed.inserted layout positive (placed_write page length ?_ ?_ ?_) ?_ ?_
  · simp only [pageSize] at upperLe
    omega
  · omega
  · change pageHeaderSize + (pageHeaderGetNumTuples page + 1) * slotSize ≤ _
    rw [newSlotArrayEnd_eq]
    omega
  · omega
  · omega

/-! ## Reading, deleting, updating -/

/-- The record a slot id names. -/
def recordOf (page : Page) (slotId : SlotId) : Option (List UInt8) :=
  if slotId < 0 then none else recordAt page (slotIndex slotId)

theorem live_of_recordOf {page : Page} {slotId : SlotId} {bytes : List UInt8}
    (found : recordOf page slotId = some bytes) :
    badSlot page slotId = false ∧ Live page (slotIndex slotId) ∧
      recordAt page (slotIndex slotId) = some bytes := by
  unfold recordOf at found
  split at found
  · exact absurd found (by simp)
  · rename_i nonneg
    have live : Live page (slotIndex slotId) := by
      by_contra dead
      rw [recordAt_eq_none dead] at found
      exact absurd found (by simp)
    refine ⟨?_, live, found⟩
    have := live.1
    simp [badSlot, nonneg]
    omega

theorem dead_of_recordOf {page : Page} {slotId : SlotId} (absent : recordOf page slotId = none) :
    badSlot page slotId = true ∨ slotGetSize page (slotIndex slotId) = 0 := by
  by_contra both
  rw [not_or, Bool.not_eq_true] at both
  obtain ⟨good, size⟩ := both
  unfold badSlot at good
  simp only [ge_iff_le, Bool.or_eq_false_iff, decide_eq_false_iff_not] at good
  have live : Live page (slotIndex slotId) := ⟨by omega, size⟩
  unfold recordOf at absent
  rw [if_neg good.1, recordAt_eq_some live] at absent
  exact absurd absent (by simp)

/-- `slotted_page_get` returns the record of the slot. -/
theorem slottedPageGet_eq (page : Page) (slotId : SlotId) :
    slottedPageGet page slotId =
      match recordOf page slotId with
      | some bytes => .ok bytes
      | none => .error .pageNotFound := by
  unfold slottedPageGet
  cases found : recordOf page slotId with
  | some bytes =>
      obtain ⟨good, live, here⟩ := live_of_recordOf found
      rw [recordAt_eq_some live, Option.some.injEq] at here
      simp [good, live.2, here]
  | none =>
      rcases dead_of_recordOf found with bad | size
      · simp [bad]
      · simp [size]

/-- `after` is `before` with the record of slot `i` changed and nothing else. -/
structure Rewritten (before after : Page) (i : Nat) (record : Option (List UInt8)) : Prop where
  valid : ValidPage after
  count : pageHeaderGetNumTuples after = pageHeaderGetNumTuples before
  next : pageHeaderGetNextPage after = pageHeaderGetNextPage before
  changed : recordAt after i = record
  others : ∀ j, j ≠ i → recordAt after j = recordAt before j

/-- Refreshing the header's free space does not change any record. -/
theorem Rewritten.of_layout {before after : Page} {i : Nat} {record : Option (List UInt8)}
    (layout : Layout after)
    (count : pageHeaderGetNumTuples after = pageHeaderGetNumTuples before)
    (next : pageHeaderGetNextPage after = pageHeaderGetNextPage before)
    (changed : recordAt after i = record)
    (others : ∀ j, j ≠ i → recordAt after j = recordAt before j) :
    Rewritten before (pageHeaderSetFreeSpace after (slottedPageFreeSpace after)) i record where
  valid := layout.record_freeSpace
  count := by simpa using count
  next := by simpa using next
  changed := by rw [layout.recordAt_setFreeSpace, changed]
  others j differ := by rw [layout.recordAt_setFreeSpace, others j differ]

theorem slottedPageDelete_live {page : Page} (layout : Layout page) {slotId : SlotId}
    {bytes : List UInt8} (found : recordOf page slotId = some bytes) :
    (slottedPageDelete page slotId).2 = .ok ∧
      Rewritten page (slottedPageDelete page slotId).1 (slotIndex slotId) none := by
  obtain ⟨good, live, _⟩ := live_of_recordOf found
  unfold slottedPageDelete
  simp only [good, Bool.false_eq_true, if_false, if_neg live.2]
  refine ⟨trivial, ?_⟩
  have dead : slotGetSize (slotSetSize page (slotIndex slotId) 0) (slotIndex slotId) = 0 := by simp
  have other : ∀ j, j ≠ slotIndex slotId → slotGetSize (slotSetSize page (slotIndex slotId) 0) j =
      slotGetSize page j := fun j differ => slotGetSize_setSize_ne page differ 0
  apply Rewritten.of_layout
  · refine layout.replaceSlot (i := slotIndex slotId) ?_ ?_ ?_ ?_ ?_
    · intro j _ bound
      simpa using bound
    · simpa [slotArrayEnd] using layout.slots
    · intro j differ _
      exact ⟨by simp, other j differ⟩
    · exact fun size => absurd dead size
    · intro j _ alive
      simpa [slotArrayEnd] using (layout.inside j alive).1
  · simp
  · simp
  · exact recordAt_eq_none fun alive => alive.2 dead
  · intro j differ
    refine recordAt_congr (Live.congr (by simp) (other j differ)) (by simp) (other j differ) ?_
    intro alive
    apply read_slotSetSize
    exact live.slotPtr_le.trans (layout.inside j alive).1

theorem slottedPageDelete_dead {page : Page} {slotId : SlotId}
    (absent : recordOf page slotId = none) :
    slottedPageDelete page slotId = (page, .pageNotFound) := by
  unfold slottedPageDelete
  rcases dead_of_recordOf absent with bad | size
  · simp [bad]
  · simp [size]

/-- Pointing a live slot to a freshly written range rewrites its record. -/
theorem Placed.rewritten {before after : Page} {i offset : Nat} {tuple : List UInt8}
    (placed : Placed before after i offset tuple) (layout : Layout before) (live : Live before i)
    (positive : 0 < tuple.length) (low : slotArrayEnd before ≤ offset)
    (high : offset + tuple.length ≤ pageSize)
    (avoids : ∀ j, j ≠ i → Live before j →
      offset + tuple.length ≤ slotGetOffset before j ∨
        slotGetOffset before j + slotGetSize before j ≤ offset) :
    Rewritten before (pageHeaderSetFreeSpace after (slottedPageFreeSpace after)) i (some tuple) := by
  have endEq : slotArrayEnd after = slotArrayEnd before := by
    unfold slotArrayEnd
    rw [placed.count]
  apply Rewritten.of_layout
  · refine layout.replaceSlot (i := i) ?_ ?_ placed.slots ?_ ?_
    · intro j _ bound
      rwa [placed.count] at bound
    · rw [endEq]
      exact layout.slots
    · intro _
      rw [placed.offsetHere, placed.sizeHere, endEq]
      exact ⟨low, high, avoids⟩
    · intro j _ alive
      rw [endEq]
      exact (layout.inside j alive).1
  · exact placed.count
  · exact placed.next
  · have alive : Live after i := ⟨by rw [placed.count]; exact live.1, by
      rw [placed.sizeHere]
      omega⟩
    rw [recordAt_eq_some alive, placed.offsetHere, placed.sizeHere, placed.stored]
  · intro j differ
    exact placed.recordAt_other (fun k other alive =>
      ⟨live.slotPtr_le.trans (layout.inside k alive).1, avoids k other alive⟩) differ

/-- The new data fits where the old was or into the free space. -/
def UpdateFits (page : Page) (slotId : SlotId) (newData : List UInt8) : Prop :=
  0 < newData.length ∧
    (newData.length ≤ slotGetSize page (slotIndex slotId) ∨
      newData.length ≤ slottedPageFreeSpace page)

instance (page : Page) (slotId : SlotId) (newData : List UInt8) :
    Decidable (UpdateFits page slotId newData) :=
  inferInstanceAs (Decidable (_ ∧ _))

theorem slottedPageUpdate_live {page : Page} (layout : Layout page) {slotId : SlotId}
    {bytes newData : List UInt8} (found : recordOf page slotId = some bytes)
    (length : newData.length < 2 ^ 16) (fits : UpdateFits page slotId newData) :
    (slottedPageUpdate page slotId newData).2 = .ok ∧
      Rewritten page (slottedPageUpdate page slotId newData).1 (slotIndex slotId)
        (some newData) := by
  obtain ⟨good, live, _⟩ := live_of_recordOf found
  obtain ⟨positive, room⟩ := fits
  have upperLe := freeSpaceUpper_le_pageSize page
  have lower := layout.lower_le_upper
  obtain ⟨low, high⟩ := layout.inside _ live
  unfold slottedPageUpdate
  simp only [if_neg (Nat.ne_of_gt positive), good, Bool.false_eq_true, if_false, if_neg live.2]
  by_cases inPlace : newData.length ≤ slotGetSize page (slotIndex slotId)
  · simp only [if_pos inPlace]
    refine ⟨trivial, (placed_inPlace page length low live.1).rewritten layout live positive low
      (by omega) ?_⟩
    intro j differ alive
    rcases layout.disjoint _ j live alive (Ne.symm differ) with before_ | after_
    · exact Or.inl (by omega)
    · exact Or.inr after_
  · have available := available_lt_iff layout 0 _ positive
    simp only [Nat.add_zero] at available
    have enough : newData.length ≤ slottedPageFreeSpace page := room.resolve_left inPlace
    simp only [if_neg inPlace]
    rw [if_neg (by rw [available]; omega)]
    rw [layout.freeSpace_eq] at enough
    simp only [pageSize] at upperLe
    refine ⟨rfl, (placed_write page length (by omega) (by omega) ?_).rewritten layout live positive
      (by omega) (by simp only [pageSize]; omega) ?_⟩
    · have := live.slotPtr_le
      omega
    · intro j _ alive
      have := freeSpaceUpper_le_offset alive
      exact Or.inl (by omega)

/-- An update that is refused writes nothing. -/
theorem slottedPageUpdate_refused {page : Page} (layout : Layout page) {slotId : SlotId}
    {newData : List UInt8}
    (refused : recordOf page slotId = none ∨ ¬ UpdateFits page slotId newData) :
    (slottedPageUpdate page slotId newData).1 = page ∧
      (slottedPageUpdate page slotId newData).2 ≠ .ok := by
  unfold slottedPageUpdate
  by_cases empty : newData.length = 0
  · simp [empty]
  · have positive := Nat.pos_of_ne_zero empty
    simp only [if_neg empty]
    cases found : recordOf page slotId with
    | none =>
        rcases dead_of_recordOf found with bad | size
        · simp [bad]
        · simp [size]
    | some bytes =>
        obtain ⟨good, live, _⟩ := live_of_recordOf found
        have noRoom := refused.resolve_left (by rw [found]; simp)
        unfold UpdateFits at noRoom
        have available := available_lt_iff layout 0 _ positive
        simp only [Nat.add_zero] at available
        simp only [good, Bool.false_eq_true, if_false, if_neg live.2]
        rw [if_neg (by omega), if_pos (by rw [available]; omega)]
        simp

/-! ## Slot ids -/

/-- A valid page has too few slots for an id to be mistaken for an error code. -/
theorem ValidPage.count_lt {page : Page} (valid : ValidPage page) :
    pageHeaderGetNumTuples page < 1019 := by
  have := valid.slots
  unfold slotArrayEnd at this
  simp only [pageHeaderSize, slotSize, pageSize] at this
  omega

theorem nonneg_of_recordOf {page : Page} {slotId : SlotId} {bytes : List UInt8}
    (found : recordOf page slotId = some bytes) : ¬ slotId < 0 := by
  intro negative
  simp [recordOf, negative] at found

theorem recordOf_of_nonneg {page : Page} {slotId : SlotId} (nonneg : ¬ slotId < 0) :
    recordOf page slotId = recordAt page (slotIndex slotId) := if_neg nonneg

theorem slotIndex_inj {first second : SlotId} (nonnegFirst : ¬ first < 0)
    (nonnegSecond : ¬ second < 0) (same : slotIndex first = slotIndex second) : first = second := by
  rw [Int32.lt_iff_toInt_lt] at nonnegFirst nonnegSecond
  simp only [Int32.toInt_zero, not_lt] at nonnegFirst nonnegSecond
  unfold slotIndex at same
  exact Int32.toInt_inj.mp (by omega)

theorem recordOf_ofNat {page : Page} (valid : ValidPage page) {i : Nat}
    (bound : i < pageHeaderGetNumTuples page) :
    recordOf page (Int32.ofNat i) = recordAt page i := by
  have := valid.count_lt
  have value : (Int32.ofNat i).toInt = i := Int32.toInt_ofNat_of_lt (by omega)
  unfold recordOf slotIndex
  rw [value, if_neg]
  · rfl
  · rw [Int32.lt_iff_toInt_lt, value]
    simp

/-- After an insertion the new slot's id names the tuple. -/
theorem Inserted.recordOf_eq {before after : Page} {tuple : List UInt8} (valid : ValidPage before)
    (inserted : Inserted before after tuple) (slotId : SlotId) :
    recordOf after slotId =
      if slotId = Int32.ofNat (pageHeaderGetNumTuples before) then some tuple
      else recordOf before slotId := by
  have small := valid.count_lt
  have value : (Int32.ofNat (pageHeaderGetNumTuples before)).toInt =
      pageHeaderGetNumTuples before := Int32.toInt_ofNat_of_lt (by omega)
  by_cases negative : slotId < 0
  · have differ : slotId ≠ Int32.ofNat (pageHeaderGetNumTuples before) := by
      rintro rfl
      rw [Int32.lt_iff_toInt_lt, value, Int32.toInt_zero] at negative
      omega
    rw [if_neg differ, recordOf, if_pos negative, recordOf, if_pos negative]
  · rw [recordOf_of_nonneg negative, recordOf_of_nonneg negative]
    by_cases same : slotId = Int32.ofNat (pageHeaderGetNumTuples before)
    · have index : slotIndex slotId = pageHeaderGetNumTuples before := by
        rw [slotIndex, same, value]
        rfl
      rw [if_pos same, index, inserted.stored]
    · rw [if_neg same]
      refine inserted.others _ fun index => same ?_
      rw [Int32.lt_iff_toInt_lt, Int32.toInt_zero] at negative
      refine Int32.toInt_inj.mp ?_
      rw [value, ← index, slotIndex]
      omega

/-- After a delete or an update the slot's id names the new record. -/
theorem Rewritten.recordOf_eq {before after : Page} {slotId : SlotId}
    {record : Option (List UInt8)} (rewritten : Rewritten before after (slotIndex slotId) record)
    (nonneg : ¬ slotId < 0) (other : SlotId) :
    recordOf after other = if other = slotId then record else recordOf before other := by
  by_cases negative : other < 0
  · have differ : other ≠ slotId := fun same => nonneg (same ▸ negative)
    rw [if_neg differ, recordOf, if_pos negative, recordOf, if_pos negative]
  · rw [recordOf_of_nonneg negative, recordOf_of_nonneg negative]
    split
    · rename_i same
      rw [same, rewritten.changed]
    · rename_i differ
      exact rewritten.others _ fun index => differ (slotIndex_inj negative nonneg index)

/-! ## Linking pages -/

/-- Setting the next pointer changes no slot and no record. -/
theorem ValidPage.setNextPage {page : Page} (valid : ValidPage page) (next : PageId) :
    ValidPage (pageHeaderSetNextPage page next) ∧
      ∀ i, recordAt (pageHeaderSetNextPage page next) i = recordAt page i := by
  have live : ∀ i, Live (pageHeaderSetNextPage page next) i ↔ Live page i :=
    fun i => Live.congr (by simp) (by simp)
  refine ⟨⟨⟨?_, ?_, ?_⟩, ?_⟩, ?_⟩
  · simpa [slotArrayEnd] using valid.slots
  · intro i alive
    simpa [slotArrayEnd] using valid.inside i ((live i).mp alive)
  · intro i j aliveI aliveJ differ
    simpa using valid.disjoint i j ((live i).mp aliveI) ((live j).mp aliveJ) differ
  · rw [getFreeSpace_setNextPage, valid.freeSpace]
    exact freeSpace_congr (by simp) (by simp) (by simp)
  · intro i
    by_cases alive : Live page i
    · have beyond := (header_le_slotArrayEnd page).trans (valid.inside i alive).1
      rw [recordAt_eq_some alive, recordAt_eq_some ((live i).mpr alive)]
      simp [read_setNextPage page beyond]
    · rw [recordAt_eq_none alive, recordAt_eq_none fun there => alive ((live i).mp there)]

theorem freeSpace_setNextPage (page : Page) (next : PageId) :
    slottedPageFreeSpace (pageHeaderSetNextPage page next) = slottedPageFreeSpace page :=
  freeSpace_congr (by simp) (by simp) (by simp)

/-- No tuple is longer than an empty page has room for. -/
theorem freeSpace_le (page : Page) : slottedPageFreeSpace page ≤ pageSize - pageHeaderSize := by
  have upper := freeSpaceUpper_le_pageSize page
  have lower := header_le_slotArrayEnd page
  unfold slottedPageFreeSpace freeSpaceLower
  split <;> omega

theorem freeSpace_init (page : Page) (pageId : PageId) :
    slottedPageFreeSpace (slottedPageInit page pageId) = pageSize - pageHeaderSize := by
  rw [← (validPage_init page pageId).freeSpace]
  simp [slottedPageInit]

end MiniSqlite.Storage
