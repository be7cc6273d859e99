import MiniSqlite.Std.Search
import MiniSqlite.Storage.Page

/-!
# B+ tree nodes

`index/b_plus_tree_node.h` and `index/b_plus_tree_node.c`: the fields of a node behind the
24-byte page header, all accessed by `memcpy`, and the changes of a node that has room. A
shift of entries and the new entry are one function, since the tree makes the same change
to a node that is full.
-/

namespace MiniSqlite.Index

open MiniSqlite.Common MiniSqlite.Std MiniSqlite.Storage

/-- `BP_NODE_TYPE_INTERNAL`. -/
def bpNodeTypeInternal : UInt8 := 1

/-- `BP_NODE_TYPE_LEAF`. -/
def bpNodeTypeLeaf : UInt8 := 2

/-- `BP_LEAF_NEXT_PAGE_OFFSET`. -/
@[simp] abbrev bpLeafNextPageOffset : Nat := bpTreeNodeSizeOffset + 4

/-- `BP_LEAF_ENTRIES_OFFSET`. -/
@[simp] abbrev bpLeafEntriesOffset : Nat := bpLeafNextPageOffset + 4

/-- `BP_LEAF_ENTRY_SIZE`. -/
@[simp] abbrev bpLeafEntrySize : Nat := bpTreeKeySize + 8

/-- `BP_INTERNAL_ENTRIES_OFFSET`. -/
@[simp] abbrev bpInternalEntriesOffset : Nat := bpTreeNodeSizeOffset + 4

/-- `BP_INTERNAL_CHILD_SIZE`. -/
@[simp] abbrev bpInternalChildSize : Nat := 4

/-- `BP_INTERNAL_ENTRY_SIZE`. -/
@[simp] abbrev bpInternalEntrySize : Nat := bpTreeKeySize + bpInternalChildSize

/-! ## Fields of all nodes -/

/-- `bp_node_get_type`. -/
def bpNodeGetType (page : Page) : UInt8 := page bpTreeNodeTypeOffset

/-- `bp_node_set_type`. -/
def bpNodeSetType (page : Page) (type : UInt8) : Page := page.write bpTreeNodeTypeOffset [type]

/-- `bp_node_get_size`. -/
def bpNodeGetSize (page : Page) : Int := (Scalar.i32.load page bpTreeNodeSizeOffset).toInt

/-- `bp_node_set_size`. -/
def bpNodeSetSize (page : Page) (size : Int) : Page :=
  Scalar.i32.store page bpTreeNodeSizeOffset (Int32.ofInt size)

/-! ## Internal nodes -/

/-- `internal_child_offset`. -/
def internalChildOffset (index : Nat) : Nat :=
  if index = 0 then bpInternalEntriesOffset
  else bpInternalEntriesOffset + 4 + (index - 1) * bpInternalEntrySize + 8

/-- `internal_key_offset`. -/
def internalKeyOffset (index : Nat) : Nat := bpInternalEntriesOffset + 4 + index * bpInternalEntrySize

/-- `internal_get_key`. -/
def internalGetKey (page : Page) (index : Nat) : Int64 :=
  Scalar.i64.load page (internalKeyOffset index)

/-- `internal_set_key`. -/
def internalSetKey (page : Page) (index : Nat) (key : Int64) : Page :=
  Scalar.i64.store page (internalKeyOffset index) key

/-- `internal_get_child`. -/
def internalGetChild (page : Page) (index : Nat) : PageId :=
  Scalar.i32.load page (internalChildOffset index)

/-- `internal_set_child`. -/
def internalSetChild (page : Page) (index : Nat) (child : PageId) : Page :=
  Scalar.i32.store page (internalChildOffset index) child

/-- `internal_max_keys`. -/
def internalMaxKeys : Nat :=
  (pageSize - bpInternalEntriesOffset - bpInternalChildSize) / bpInternalEntrySize

/-- `internal_find_position`: the child to follow for a key. -/
def internalFindPosition (page : Page) (key : Int64) : Nat :=
  bisect (fun mid => internalGetKey page mid ≤ key) (bpNodeGetSize page).toNat 0
    (bpNodeGetSize page).toNat

/-- Shifts the entries from `pos` on and puts a key with the child behind it there: what
`internal_insert` does to a node with room, and `insert_into_parent` to one without. -/
def internalPlace (page : Page) (pos : Nat) (key : Int64) (child : PageId) : Page :=
  let size := bpNodeGetSize page
  let endOff := internalChildOffset size.toNat + 4
  let page := page.move (internalKeyOffset (pos + 1)) (internalKeyOffset pos)
    (endOff - internalKeyOffset pos)
  let page := internalSetKey page pos key
  let page := internalSetChild page (pos + 1) child
  bpNodeSetSize page (size + 1)

/-- `internal_insert`: the node, and the code. -/
def internalInsert (page : Page) (pos : Nat) (key : Int64) (child : PageId) : Page × Int :=
  if bpNodeGetSize page ≥ internalMaxKeys then (page, -1) else (internalPlace page pos key child, 0)

/-! ## Leaves -/

/-- `leaf_key_offset`. -/
def leafKeyOffset (index : Nat) : Nat := bpLeafEntriesOffset + index * bpLeafEntrySize

/-- `leaf_rid_offset`. -/
def leafRidOffset (index : Nat) : Nat :=
  bpLeafEntriesOffset + index * bpLeafEntrySize + bpTreeKeySize

/-- `leaf_get_key`. -/
def leafGetKey (page : Page) (index : Nat) : Int64 := Scalar.i64.load page (leafKeyOffset index)

/-- `leaf_set_key`. -/
def leafSetKey (page : Page) (index : Nat) (key : Int64) : Page :=
  Scalar.i64.store page (leafKeyOffset index) key

/-- `leaf_get_rid`. -/
def leafGetRid (page : Page) (index : Nat) : Rid :=
  ⟨Scalar.i32.load page (leafRidOffset index), Scalar.i32.load page (leafRidOffset index + 4)⟩

/-- `leaf_set_rid`. -/
def leafSetRid (page : Page) (index : Nat) (rid : Rid) : Page :=
  Scalar.i32.store (Scalar.i32.store page (leafRidOffset index) rid.pageId)
    (leafRidOffset index + 4) rid.slotId

/-- `leaf_get_next_page`. -/
def leafGetNextPage (page : Page) : PageId := Scalar.i32.load page bpLeafNextPageOffset

/-- `leaf_set_next_page`. -/
def leafSetNextPage (page : Page) (next : PageId) : Page :=
  Scalar.i32.store page bpLeafNextPageOffset next

/-- `leaf_max_keys`. -/
def leafMaxKeys : Nat := (pageSize - bpLeafEntriesOffset) / bpLeafEntrySize

/-- `leaf_find_position`: the first entry whose key is not less. -/
def leafFindPosition (page : Page) (key : Int64) : Nat :=
  bisect (fun mid => leafGetKey page mid < key) (bpNodeGetSize page).toNat 0
    (bpNodeGetSize page).toNat

/-- Shifts the entries from `pos` on and puts an entry there: what `leaf_insert` does to a leaf
with room, and `bpt_insert` to one without. -/
def leafPlace (page : Page) (pos : Nat) (key : Int64) (rid : Rid) : Page :=
  let size := bpNodeGetSize page
  let page := if pos < size then
      page.move (leafKeyOffset (pos + 1)) (leafKeyOffset pos) ((size.toNat - pos) * bpLeafEntrySize)
    else page
  let page := leafSetKey page pos key
  let page := leafSetRid page pos rid
  bpNodeSetSize page (size + 1)

/-- `leaf_insert`: the leaf, and the code. -/
def leafInsert (page : Page) (pos : Nat) (key : Int64) (rid : Rid) : Page × Int :=
  if bpNodeGetSize page ≥ leafMaxKeys then (page, -1) else (leafPlace page pos key rid, 0)

/-- `leaf_remove`: the leaf, and the code. -/
def leafRemove (page : Page) (pos : Nat) : Page × Int :=
  let size := bpNodeGetSize page
  if pos ≥ size then (page, -1)
  else
    let page := if pos < size - 1 then
        page.move (leafKeyOffset pos) (leafKeyOffset (pos + 1))
          ((size.toNat - pos - 1) * bpLeafEntrySize)
      else page
    (bpNodeSetSize page (size - 1), 0)

end MiniSqlite.Index
