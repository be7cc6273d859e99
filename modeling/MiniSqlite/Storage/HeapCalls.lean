import MiniSqlite.Storage.SlottedPage

/-!
# Calls on a heap file

The calls and results that the two heap implementations have in common:
`storage/heap_file.c` and `executor/bpm_heap.c` offer the same five operations,
with a complete scan for the iterator.
-/

namespace MiniSqlite.Storage

open MiniSqlite.Common

/-- A call on a heap file; `scan` is an iterator used from init to the end. -/
inductive HeapOp where
  | insert (tuple : TupleData)
  | delete (rid : Rid)
  | update (rid : Rid) (newData : TupleData)
  | get (rid : Rid)
  | scan

/-- What a call returns: its code, the RID of an insertion, the bytes of a get
and the rows of a scan. -/
structure HeapResult where
  code : Int
  rid : Option Rid := none
  bytes : Option (List UInt8) := none
  rows : List (Rid × List UInt8) := []
  deriving DecidableEq

/-- The RID a call names. -/
def HeapOp.rid? : HeapOp → Option Rid
  | .delete rid | .update rid _ | .get rid => some rid
  | .insert _ | .scan => none

/-- `rid.page_id == INVALID_PAGE_ID || rid.slot_id == INVALID_SLOT_ID`. -/
def badRid (rid : Rid) : Bool := rid.pageId == invalidPageId || rid.slotId == invalidSlotId

/-- The slot loop of the iterators: the first live slot among `remaining` from `slot` on. -/
def nextLiveSlot (page : Page) : (remaining slot : Nat) → Option Nat
  | 0, _ => none
  | remaining + 1, slot =>
      if slotGetSize page slot > 0 then some slot else nextLiveSlot page remaining (slot + 1)

/-- Bound on the rows of a scan: there are no more RIDs. -/
def maxRids : Nat := 2 ^ 64

end MiniSqlite.Storage
