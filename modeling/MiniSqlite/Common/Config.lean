/-!
# Constants and identifier types

`common/config.h` and `common/types.h`.
-/

namespace MiniSqlite.Common

/-- `PAGE_SIZE`. -/
@[simp] abbrev pageSize : Nat := 4096

/-! Slotted page constants. -/

@[simp] abbrev pageHeaderSize : Nat := 24
@[simp] abbrev slotSize : Nat := 4
@[simp] abbrev slotOffsetTupleOffset : Nat := 0
@[simp] abbrev slotOffsetTupleSize : Nat := 2

/-! Page header field offsets. -/

@[simp] abbrev pageHeaderOffsetPageId : Nat := 0
@[simp] abbrev pageHeaderOffsetPageLsn : Nat := 4
@[simp] abbrev pageHeaderOffsetNumTuples : Nat := 12
@[simp] abbrev pageHeaderOffsetFreeSpace : Nat := 16
@[simp] abbrev pageHeaderOffsetNextPage : Nat := 20

/-! B+ tree node constants. -/

@[simp] abbrev bpTreeNodeTypeOffset : Nat := pageHeaderSize
@[simp] abbrev bpTreeNodeSizeOffset : Nat := pageHeaderSize + 1
@[simp] abbrev bpTreeKeySize : Nat := 8

/-- `page_id_t`. -/
abbrev PageId := Int32

/-- `slot_id_t`. -/
abbrev SlotId := Int32

/-- `INVALID_PAGE_ID`. -/
abbrev invalidPageId : PageId := -1

/-- `INVALID_SLOT_ID`. -/
abbrev invalidSlotId : SlotId := -1

/-- `INVALID_LSN`. -/
abbrev invalidLsn : Int64 := 0

/-- `rid_t`: where a tuple lives in a heap file. -/
structure Rid where
  pageId : PageId
  slotId : SlotId
  deriving DecidableEq, Repr

/-- Bound on the turns of a loop that visits each page at most once: there are
no more page ids. -/
def maxPages : Nat := 4294967296

end MiniSqlite.Common
