import MiniSqlite.Common.Config
import MiniSqlite.Std.Bytes

/-!
# The page header and the slot array

`storage/page.h`: fields of the 24-byte header and the four-byte slots behind
it, all accessed by `memcpy` at fixed offsets. The lemmas say that a store to
one field or slot is what the next load of it returns and is invisible to every
other; `read_set*` say that the same stores are invisible to reads beyond the
slot array.
-/

namespace MiniSqlite.Storage

open MiniSqlite.Common MiniSqlite.Std

/-- A page buffer. Offsets from `pageSize` on lie outside the page. -/
abbrev Page := Block

/-- A page of zeros. -/
def zeroPage : Page := fun _ => 0

/-! ## Header fields -/

/-- `page_header_get_lsn`. -/
def pageHeaderGetLsn (page : Page) : Int64 :=
  Scalar.i64.load page pageHeaderOffsetPageLsn

/-- `page_header_get_num_tuples`. -/
def pageHeaderGetNumTuples (page : Page) : Nat :=
  (Scalar.u32.load page pageHeaderOffsetNumTuples).toNat

/-- `page_header_get_free_space`. -/
def pageHeaderGetFreeSpace (page : Page) : Nat :=
  (Scalar.u32.load page pageHeaderOffsetFreeSpace).toNat

/-- `page_header_get_next_page`. -/
def pageHeaderGetNextPage (page : Page) : PageId :=
  Scalar.i32.load page pageHeaderOffsetNextPage

/-- `page_header_set_page_id`. -/
def pageHeaderSetPageId (page : Page) (pageId : PageId) : Page :=
  Scalar.i32.store page pageHeaderOffsetPageId pageId

/-- `page_header_set_lsn`. -/
def pageHeaderSetLsn (page : Page) (lsn : Int64) : Page :=
  Scalar.i64.store page pageHeaderOffsetPageLsn lsn

/-- `page_header_set_num_tuples`. -/
def pageHeaderSetNumTuples (page : Page) (num : Nat) : Page :=
  Scalar.u32.store page pageHeaderOffsetNumTuples (UInt32.ofNat num)

/-- `page_header_set_free_space`. -/
def pageHeaderSetFreeSpace (page : Page) (freeSp : Nat) : Page :=
  Scalar.u32.store page pageHeaderOffsetFreeSpace (UInt32.ofNat freeSp)

/-- `page_header_set_next_page`. -/
def pageHeaderSetNextPage (page : Page) (next : PageId) : Page :=
  Scalar.i32.store page pageHeaderOffsetNextPage next

/-- `page_header_init`. -/
def pageHeaderInit (page : Page) (pageId : PageId) : Page :=
  let page := page.fill 0 0 pageHeaderSize
  let page := pageHeaderSetPageId page pageId
  let page := pageHeaderSetLsn page invalidLsn
  let page := pageHeaderSetNumTuples page 0
  let page := pageHeaderSetFreeSpace page (pageSize - pageHeaderSize)
  pageHeaderSetNextPage page invalidPageId

/-! ## Slots -/

/-- Where slot `slotIndex` starts in the page. -/
def slotPtr (slotIndex : Nat) : Nat := pageHeaderSize + slotIndex * slotSize

/-- `slot_get_offset`. -/
def slotGetOffset (page : Page) (slotIndex : Nat) : Nat :=
  (Scalar.u16.load page (slotPtr slotIndex + slotOffsetTupleOffset)).toNat

/-- `slot_get_size`; a deleted slot has size 0. -/
def slotGetSize (page : Page) (slotIndex : Nat) : Nat :=
  (Scalar.u16.load page (slotPtr slotIndex + slotOffsetTupleSize)).toNat

/-- `slot_set_offset`. -/
def slotSetOffset (page : Page) (slotIndex : Nat) (offset : Nat) : Page :=
  Scalar.u16.store page (slotPtr slotIndex + slotOffsetTupleOffset) (UInt16.ofNat offset)

/-- `slot_set_size`. -/
def slotSetSize (page : Page) (slotIndex : Nat) (size : Nat) : Page :=
  Scalar.u16.store page (slotPtr slotIndex + slotOffsetTupleSize) (UInt16.ofNat size)

theorem slotGetOffset_lt (page : Page) (slotIndex : Nat) : slotGetOffset page slotIndex < 65536 :=
  (Scalar.u16.load page (slotPtr slotIndex + slotOffsetTupleOffset)).toNat_lt

theorem slotGetSize_lt (page : Page) (slotIndex : Nat) : slotGetSize page slotIndex < 65536 :=
  (Scalar.u16.load page (slotPtr slotIndex + slotOffsetTupleSize)).toNat_lt

/-! ## What a load sees after a store -/

section Loads

variable (page : Page)

@[simp] theorem getNumTuples_setNumTuples (num : Nat) :
    pageHeaderGetNumTuples (pageHeaderSetNumTuples page num) = num % 2 ^ 32 := by
  simp [pageHeaderGetNumTuples, pageHeaderSetNumTuples]

@[simp] theorem getNumTuples_setFreeSpace (freeSp : Nat) :
    pageHeaderGetNumTuples (pageHeaderSetFreeSpace page freeSp) = pageHeaderGetNumTuples page := by
  unfold pageHeaderGetNumTuples pageHeaderSetFreeSpace
  rw [Scalar.load_store_of_disjoint _ _ _ (by simp)]

@[simp] theorem getNumTuples_setNextPage (next : PageId) :
    pageHeaderGetNumTuples (pageHeaderSetNextPage page next) = pageHeaderGetNumTuples page := by
  unfold pageHeaderGetNumTuples pageHeaderSetNextPage
  rw [Scalar.load_store_of_disjoint _ _ _ (by simp)]

@[simp] theorem getFreeSpace_setFreeSpace (freeSp : Nat) :
    pageHeaderGetFreeSpace (pageHeaderSetFreeSpace page freeSp) = freeSp % 2 ^ 32 := by
  simp [pageHeaderGetFreeSpace, pageHeaderSetFreeSpace]

@[simp] theorem getFreeSpace_setNextPage (next : PageId) :
    pageHeaderGetFreeSpace (pageHeaderSetNextPage page next) = pageHeaderGetFreeSpace page := by
  unfold pageHeaderGetFreeSpace pageHeaderSetNextPage
  rw [Scalar.load_store_of_disjoint _ _ _ (by simp)]

@[simp] theorem getNextPage_setNextPage (next : PageId) :
    pageHeaderGetNextPage (pageHeaderSetNextPage page next) = next := by
  simp [pageHeaderGetNextPage, pageHeaderSetNextPage]

@[simp] theorem getNextPage_setNumTuples (num : Nat) :
    pageHeaderGetNextPage (pageHeaderSetNumTuples page num) = pageHeaderGetNextPage page := by
  unfold pageHeaderGetNextPage pageHeaderSetNumTuples
  rw [Scalar.load_store_of_disjoint _ _ _ (by simp)]

@[simp] theorem getNextPage_setFreeSpace (freeSp : Nat) :
    pageHeaderGetNextPage (pageHeaderSetFreeSpace page freeSp) = pageHeaderGetNextPage page := by
  unfold pageHeaderGetNextPage pageHeaderSetFreeSpace
  rw [Scalar.load_store_of_disjoint _ _ _ (by simp)]

/-- A header field does not see stores to the slot array. -/
theorem load_slotSetOffset_of_header {α : Type} (scalar : Scalar α) {at_ : Nat}
    (inHeader : at_ + scalar.width ≤ pageHeaderSize) (slotIndex offset : Nat) :
    scalar.load (slotSetOffset page slotIndex offset) at_ = scalar.load page at_ := by
  unfold slotSetOffset slotPtr
  exact scalar.load_store_of_disjoint _ _ (Or.inr (by omega))

theorem load_slotSetSize_of_header {α : Type} (scalar : Scalar α) {at_ : Nat}
    (inHeader : at_ + scalar.width ≤ pageHeaderSize) (slotIndex size : Nat) :
    scalar.load (slotSetSize page slotIndex size) at_ = scalar.load page at_ := by
  unfold slotSetSize slotPtr
  exact scalar.load_store_of_disjoint _ _ (Or.inr (by omega))

@[simp] theorem getNumTuples_slotSetOffset (slotIndex offset : Nat) :
    pageHeaderGetNumTuples (slotSetOffset page slotIndex offset) = pageHeaderGetNumTuples page :=
  congrArg UInt32.toNat (load_slotSetOffset_of_header page _ (by simp) _ _)

@[simp] theorem getNumTuples_slotSetSize (slotIndex size : Nat) :
    pageHeaderGetNumTuples (slotSetSize page slotIndex size) = pageHeaderGetNumTuples page :=
  congrArg UInt32.toNat (load_slotSetSize_of_header page _ (by simp) _ _)

@[simp] theorem getNextPage_slotSetOffset (slotIndex offset : Nat) :
    pageHeaderGetNextPage (slotSetOffset page slotIndex offset) = pageHeaderGetNextPage page :=
  load_slotSetOffset_of_header page _ (by simp) _ _

@[simp] theorem getNextPage_slotSetSize (slotIndex size : Nat) :
    pageHeaderGetNextPage (slotSetSize page slotIndex size) = pageHeaderGetNextPage page :=
  load_slotSetSize_of_header page _ (by simp) _ _

@[simp] theorem slotGetOffset_setOffset_same (slotIndex offset : Nat) :
    slotGetOffset (slotSetOffset page slotIndex offset) slotIndex = offset % 2 ^ 16 := by
  simp [slotGetOffset, slotSetOffset]

@[simp] theorem slotGetSize_setSize_same (slotIndex size : Nat) :
    slotGetSize (slotSetSize page slotIndex size) slotIndex = size % 2 ^ 16 := by
  simp [slotGetSize, slotSetSize]

theorem slotGetOffset_setOffset_ne {slotIndex other : Nat} (differ : other ≠ slotIndex)
    (offset : Nat) :
    slotGetOffset (slotSetOffset page slotIndex offset) other = slotGetOffset page other := by
  unfold slotGetOffset slotSetOffset slotPtr
  rw [Scalar.load_store_of_disjoint _ _ _ (by simp; omega)]

theorem slotGetSize_setSize_ne {slotIndex other : Nat} (differ : other ≠ slotIndex) (size : Nat) :
    slotGetSize (slotSetSize page slotIndex size) other = slotGetSize page other := by
  unfold slotGetSize slotSetSize slotPtr
  rw [Scalar.load_store_of_disjoint _ _ _ (by simp; omega)]

@[simp] theorem slotGetOffset_setSize (slotIndex other size : Nat) :
    slotGetOffset (slotSetSize page slotIndex size) other = slotGetOffset page other := by
  unfold slotGetOffset slotSetSize slotPtr
  rw [Scalar.load_store_of_disjoint _ _ _ (by simp; omega)]

@[simp] theorem slotGetSize_setOffset (slotIndex other offset : Nat) :
    slotGetSize (slotSetOffset page slotIndex offset) other = slotGetSize page other := by
  unfold slotGetSize slotSetOffset slotPtr
  rw [Scalar.load_store_of_disjoint _ _ _ (by simp; omega)]

/-- A slot does not see stores to the header. -/
theorem load_store_header {α β : Type} (scalar : Scalar α) (field : Scalar β) {at_ slotIndex : Nat}
    (inHeader : at_ + field.width ≤ pageHeaderSize) (within : Nat) (value : β) :
    scalar.load (field.store page at_ value) (slotPtr slotIndex + within) =
      scalar.load page (slotPtr slotIndex + within) :=
  scalar.load_store_of_disjoint _ _ (Or.inl (by unfold slotPtr; omega))

@[simp] theorem slotGetOffset_setNumTuples (num slotIndex : Nat) :
    slotGetOffset (pageHeaderSetNumTuples page num) slotIndex = slotGetOffset page slotIndex :=
  congrArg UInt16.toNat (load_store_header page _ _ (by simp) _ _)

@[simp] theorem slotGetSize_setNumTuples (num slotIndex : Nat) :
    slotGetSize (pageHeaderSetNumTuples page num) slotIndex = slotGetSize page slotIndex :=
  congrArg UInt16.toNat (load_store_header page _ _ (by simp) _ _)

@[simp] theorem slotGetOffset_setFreeSpace (freeSp slotIndex : Nat) :
    slotGetOffset (pageHeaderSetFreeSpace page freeSp) slotIndex = slotGetOffset page slotIndex :=
  congrArg UInt16.toNat (load_store_header page _ _ (by simp) _ _)

@[simp] theorem slotGetSize_setFreeSpace (freeSp slotIndex : Nat) :
    slotGetSize (pageHeaderSetFreeSpace page freeSp) slotIndex = slotGetSize page slotIndex :=
  congrArg UInt16.toNat (load_store_header page _ _ (by simp) _ _)

@[simp] theorem slotGetOffset_setNextPage (next : PageId) (slotIndex : Nat) :
    slotGetOffset (pageHeaderSetNextPage page next) slotIndex = slotGetOffset page slotIndex :=
  congrArg UInt16.toNat (load_store_header page _ _ (by simp) _ _)

@[simp] theorem slotGetSize_setNextPage (next : PageId) (slotIndex : Nat) :
    slotGetSize (pageHeaderSetNextPage page next) slotIndex = slotGetSize page slotIndex :=
  congrArg UInt16.toNat (load_store_header page _ _ (by simp) _ _)

/-! Bytes beyond the header or the slot written to. -/

theorem read_setNumTuples {offset : Nat} (beyond : pageHeaderSize ≤ offset) (num count : Nat) :
    (pageHeaderSetNumTuples page num).read offset count = page.read offset count :=
  Scalar.read_store_of_disjoint _ _ (Or.inl (by simp at *; omega))

theorem read_setFreeSpace {offset : Nat} (beyond : pageHeaderSize ≤ offset)
    (freeSp count : Nat) :
    (pageHeaderSetFreeSpace page freeSp).read offset count = page.read offset count :=
  Scalar.read_store_of_disjoint _ _ (Or.inl (by simp at *; omega))

theorem read_setNextPage {offset : Nat} (beyond : pageHeaderSize ≤ offset) (next : PageId)
    (count : Nat) :
    (pageHeaderSetNextPage page next).read offset count = page.read offset count :=
  Scalar.read_store_of_disjoint _ _ (Or.inl (by simp at *; omega))

theorem read_slotSetOffset {slotIndex offset : Nat} (beyond : slotPtr (slotIndex + 1) ≤ offset)
    (value count : Nat) :
    (slotSetOffset page slotIndex value).read offset count = page.read offset count :=
  Scalar.read_store_of_disjoint _ _ (Or.inl (by unfold slotPtr at *; simp at *; omega))

theorem read_slotSetSize {slotIndex offset : Nat} (beyond : slotPtr (slotIndex + 1) ≤ offset)
    (value count : Nat) :
    (slotSetSize page slotIndex value).read offset count = page.read offset count :=
  Scalar.read_store_of_disjoint _ _ (Or.inl (by unfold slotPtr at *; simp at *; omega))

/-! Tuple bytes written beyond the slot array. -/

theorem getNumTuples_write {offset : Nat} (beyond : pageHeaderSize ≤ offset)
    (data : List UInt8) :
    pageHeaderGetNumTuples (page.write offset data) = pageHeaderGetNumTuples page :=
  congrArg UInt32.toNat (Scalar.load_write_of_disjoint _ _ (Or.inr (by simp at *; omega)))

theorem getNextPage_write {offset : Nat} (beyond : pageHeaderSize ≤ offset) (data : List UInt8) :
    pageHeaderGetNextPage (page.write offset data) = pageHeaderGetNextPage page :=
  Scalar.load_write_of_disjoint _ _ (Or.inr (by simp at *; omega))

theorem slotGetOffset_write {slotIndex offset : Nat} (beyond : slotPtr (slotIndex + 1) ≤ offset)
    (data : List UInt8) :
    slotGetOffset (page.write offset data) slotIndex = slotGetOffset page slotIndex :=
  congrArg UInt16.toNat
    (Scalar.load_write_of_disjoint _ _ (Or.inr (by unfold slotPtr at *; simp at *; omega)))

theorem slotGetSize_write {slotIndex offset : Nat} (beyond : slotPtr (slotIndex + 1) ≤ offset)
    (data : List UInt8) :
    slotGetSize (page.write offset data) slotIndex = slotGetSize page slotIndex :=
  congrArg UInt16.toNat
    (Scalar.load_write_of_disjoint _ _ (Or.inr (by unfold slotPtr at *; simp at *; omega)))

end Loads

/-! ## A fresh header -/

@[simp] theorem getNumTuples_init (page : Page) (pageId : PageId) :
    pageHeaderGetNumTuples (pageHeaderInit page pageId) = 0 := by
  simp [pageHeaderInit]

@[simp] theorem getNextPage_init (page : Page) (pageId : PageId) :
    pageHeaderGetNextPage (pageHeaderInit page pageId) = invalidPageId := by
  simp [pageHeaderInit]

@[simp] theorem getFreeSpace_init (page : Page) (pageId : PageId) :
    pageHeaderGetFreeSpace (pageHeaderInit page pageId) = pageSize - pageHeaderSize := by
  simp [pageHeaderInit]

end MiniSqlite.Storage
