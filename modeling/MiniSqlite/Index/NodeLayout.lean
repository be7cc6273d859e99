import Mathlib.Data.List.InsertIdx
import MiniSqlite.Index.BPlusTreeNode
import MiniSqlite.Std.Integers
import MiniSqlite.Std.Records

/-!
# What the bytes of a node stand for

A leaf is a list of entries and the page of the next leaf, an internal node its first child
and a list of keys, each with the child behind it. One lemma for each change of a node says
which lists it holds afterwards and which bytes it leaves. A node may hold more than fits
into a page, as it does before it is split.
-/

namespace MiniSqlite.Index

open MiniSqlite.Common MiniSqlite.Std MiniSqlite.Storage

/-- The key and the RID of an entry at an offset. -/
def loadEntry (block : Block) (offset : Nat) : Int64 × Rid :=
  (Scalar.i64.load block offset,
    ⟨Scalar.i32.load block (offset + 8), Scalar.i32.load block (offset + 12)⟩)

/-- The key at an offset, and the child behind it. -/
def loadChild (block : Block) (offset : Nat) : Int64 × PageId :=
  (Scalar.i64.load block offset, Scalar.i32.load block (offset + 8))

/-- A scalar inside bytes that are the same. -/
theorem load_part {α : Type} (scalar : Scalar α) {first second : Block} {offset other count : Nat}
    (same : first.read offset count = second.read other count) (start : Nat)
    (inside : start + scalar.width ≤ count) :
    scalar.load first (offset + start) = scalar.load second (other + start) := by
  refine scalar.load_congr (Block.read_congr fun i bound => ?_)
  have at_ := congrArg (fun bytes => bytes[start + i]?) same
  simpa [Block.read, show start + i < count by omega, Nat.add_assoc] using at_

theorem loadEntry_local : LocalLoad bpLeafEntrySize loadEntry := by
  intro first second offset other same
  have key : Scalar.i64.load first offset = Scalar.i64.load second other :=
    load_part _ same 0 (by decide)
  have pageId := load_part Scalar.i32 same 8 (by decide)
  have slotId := load_part Scalar.i32 same 12 (by decide)
  rw [loadEntry, loadEntry, key, pageId, slotId]

theorem loadChild_local : LocalLoad bpInternalEntrySize loadChild := by
  intro first second offset other same
  have key : Scalar.i64.load first offset = Scalar.i64.load second other :=
    load_part _ same 0 (by decide)
  have child := load_part Scalar.i32 same 8 (by decide)
  rw [loadChild, loadChild, key, child]

/-- The page is a leaf with these entries, followed by the leaf `next`. -/
structure LeafLaid (page : Page) (entries : List (Int64 × Rid)) (next : PageId) : Prop where
  isLeaf : bpNodeGetType page = bpNodeTypeLeaf
  size : bpNodeGetSize page = entries.length
  entries : records loadEntry bpLeafEntrySize page bpLeafEntriesOffset entries.length = entries
  next : leafGetNextPage page = next

/-- The page is an internal node with these children. -/
structure InternalLaid (page : Page) (first : PageId) (rest : List (Int64 × PageId)) : Prop where
  inner : bpNodeGetType page = bpNodeTypeInternal
  size : bpNodeGetSize page = rest.length
  first : internalGetChild page 0 = first
  rest : records loadChild bpInternalEntrySize page bpLeafEntriesOffset rest.length = rest

/-! ## Headers -/

/-- The bytes that a change of `count` bytes of entries leaves: the page header, the type and
the link behind the size, and what lies behind the entries. -/
def Untouched (count : Nat) (before after : Page) : Prop :=
  ∀ i, i < 25 ∨ 29 ≤ i ∧ i < 33 ∨ 33 + count ≤ i → after i = before i

section Headers

variable {page before after : Page} {size count offset : Nat}

theorem toInt_ofInt_small (small : size < 2147483648) : (Int32.ofInt size).toInt = size := by
  rw [Int32.toInt_ofInt, show Int32.size = 4294967296 from rfl, Int.bmod_eq_of_le] <;> omega

theorem bpNodeGetSize_set (small : size < 2147483648) :
    bpNodeGetSize (bpNodeSetSize page size) = size := by
  have stored : Scalar.i32.load (Scalar.i32.store page bpTreeNodeSizeOffset (Int32.ofInt size))
      bpTreeNodeSizeOffset = Int32.ofInt size := Scalar.load_store_same _ _ _ _
  rw [bpNodeGetSize, bpNodeSetSize, stored, toInt_ofInt_small small]

/-- Setting the size leaves everything else. -/
theorem bpNodeSetSize_apply (size : Int) {i : Nat} (outside : i < 25 ∨ 29 ≤ i) :
    bpNodeSetSize page size i = page i := by
  apply Block.write_apply_outside
  rw [littleEndian_length]
  exact outside

theorem Untouched.type (same : Untouched count before after) :
    bpNodeGetType after = bpNodeGetType before := same 24 (.inl (by decide))

/-- The link behind the size: the next leaf, or the first child. -/
theorem Untouched.link (same : Untouched count before after) :
    Scalar.i32.load after 29 = Scalar.i32.load before 29 := by
  apply Scalar.load_congr
  apply Block.read_congr
  intro i bound
  rw [Scalar.i32_width] at bound
  exact same _ (by omega)

theorem Untouched.setSize (same : Untouched count before after) (size : Int) :
    Untouched count before (bpNodeSetSize after size) := by
  intro i outside
  rw [bpNodeSetSize_apply size (by omega)]
  exact same i outside

theorem Untouched.refl (page : Page) : Untouched count page page := fun _ _ => rfl

/-- A write among the entries. -/
theorem Untouched.write (same : Untouched count before after) {data : List UInt8}
    (low : 33 ≤ offset) (high : offset + data.length ≤ 33 + count) :
    Untouched count before (after.write offset data) := by
  intro i outside
  rw [Block.write_apply_outside after (by omega)]
  exact same i outside

theorem Untouched.store (same : Untouched count before after) {α : Type} {scalar : Scalar α}
    {value : α} (low : 33 ≤ offset) (high : offset + scalar.width ≤ 33 + count) :
    Untouched count before (scalar.store after offset value) := by
  apply same.write low
  rwa [littleEndian_length]

theorem Untouched.move (same : Untouched count before after) {source length : Nat}
    (low : 33 ≤ offset) (high : offset + length ≤ 33 + count) :
    Untouched count before (after.move offset source length) := by
  apply same.write low
  rwa [Block.read_length]

end Headers

/-! ## Leaves -/

section Leaves

variable {page : Page} {entries : List (Int64 × Rid)} {next : PageId}
variable {pos offset count : Nat} {key : Int64} {rid : Rid}

/-- The entry of a leaf at a position, written. -/
def leafWrite (page : Page) (pos : Nat) (key : Int64) (rid : Rid) : Page :=
  leafSetRid (leafSetKey page pos key) pos rid

theorem leafKeyOffset_eq (pos : Nat) : leafKeyOffset pos = 33 + pos * 16 := rfl

theorem leafEntrySize_eq : bpLeafEntrySize = 16 := rfl

theorem leafRidOffset_eq (pos : Nat) : leafRidOffset pos = 33 + pos * 16 + 8 := rfl

theorem read_setSize (size : Int) (beyond : 29 ≤ offset) :
    (bpNodeSetSize page size).read offset count = page.read offset count :=
  Scalar.read_store_of_disjoint _ _ (.inl beyond)

theorem read_leafWrite (apart : offset + count ≤ 33 + pos * 16 ∨ 33 + pos * 16 + 16 ≤ offset) :
    (leafWrite page pos key rid).read offset count = page.read offset count := by
  unfold leafWrite leafSetRid leafSetKey
  rw [Scalar.read_store_of_disjoint, Scalar.read_store_of_disjoint, Scalar.read_store_of_disjoint] <;>
    simp only [Scalar.i32_width, Scalar.i64_width, leafKeyOffset_eq, leafRidOffset_eq] <;> omega

theorem loadEntry_leafWrite :
    loadEntry (leafWrite page pos key rid) (33 + pos * 16) = (key, rid) := by
  have keyLoad : Scalar.i64.load (leafWrite page pos key rid) (33 + pos * 16) = key := by
    unfold leafWrite leafSetRid
    rw [Scalar.load_store_of_disjoint, Scalar.load_store_of_disjoint]
    · exact Scalar.load_store_same _ _ _ _
    · exact .inr (Nat.le_refl _)
    · exact .inr (by simp only [Scalar.i64_width, leafRidOffset_eq]; omega)
  have pageIdLoad : Scalar.i32.load (leafWrite page pos key rid) (33 + pos * 16 + 8) = rid.pageId := by
    unfold leafWrite leafSetRid
    rw [Scalar.load_store_of_disjoint]
    · exact Scalar.load_store_same _ _ _ _
    · exact .inr (Nat.le_refl _)
  have slotIdLoad : Scalar.i32.load (leafWrite page pos key rid) (33 + pos * 16 + 12) = rid.slotId :=
    Scalar.load_store_same _ _ _ _
  rw [loadEntry, keyLoad, pageIdLoad, slotIdLoad]

/-- The leaf with a gap opened at a position. -/
def leafShift (page : Page) (pos : Nat) : Page :=
  if pos < bpNodeGetSize page then
    page.move (leafKeyOffset (pos + 1)) (leafKeyOffset pos)
      (((bpNodeGetSize page).toNat - pos) * bpLeafEntrySize)
  else page

theorem leafPlace_eq (page : Page) (pos : Nat) (key : Int64) (rid : Rid) :
    leafPlace page pos key rid =
      bpNodeSetSize (leafWrite (leafShift page pos) pos key rid) (bpNodeGetSize page + 1) := rfl

theorem read_leafShift (size : bpNodeGetSize page = count) {i : Nat} (low : pos ≤ i)
    (high : i < count) :
    (leafShift page pos).read (33 + (i + 1) * 16) 16 = page.read (33 + i * 16) 16 := by
  rw [leafShift, size, if_pos (by omega), Block.read_move_inside]
  · congr 1
    rw [leafKeyOffset_eq, leafKeyOffset_eq]
    omega
  · rw [leafKeyOffset_eq]
    omega
  · rw [leafKeyOffset_eq, leafEntrySize_eq]
    omega

theorem read_leafShift_before (below : offset + count ≤ 33 + (pos + 1) * 16) :
    (leafShift page pos).read offset count = page.read offset count := by
  unfold leafShift
  split
  · exact Block.read_move_of_disjoint page (.inr below)
  · rfl

/-- An entry put at a position of a leaf is inserted into its list. -/
theorem LeafLaid.place (laid : LeafLaid page entries next) (inside : pos ≤ entries.length)
    (fits : entries.length + 1 < 2147483648) (key : Int64) (rid : Rid) :
    LeafLaid (leafPlace page pos key rid) (entries.insertIdx pos (key, rid)) next ∧
      Untouched ((entries.length + 1) * 16) page (leafPlace page pos key rid) := by
  have shifted : Untouched ((entries.length + 1) * 16) page (leafShift page pos) := by
    unfold leafShift
    rw [laid.size]
    split
    · apply (Untouched.refl page).move
      · rw [leafKeyOffset_eq]
        omega
      · rw [leafKeyOffset_eq, leafEntrySize_eq]
        omega
    · exact .refl page
  have written : Untouched ((entries.length + 1) * 16) page
      (leafWrite (leafShift page pos) pos key rid) := by
    unfold leafWrite leafSetRid leafSetKey
    refine ((shifted.store ?_ ?_).store ?_ ?_).store ?_ ?_ <;>
      simp only [Scalar.i32_width, Scalar.i64_width, leafKeyOffset_eq, leafRidOffset_eq] <;> omega
  have same := written.setSize (bpNodeGetSize page + 1)
  rw [← leafPlace_eq] at same
  have length : (entries.insertIdx pos (key, rid)).length = entries.length + 1 :=
    List.length_insertIdx_of_le_length inside _
  have inserted := @records_insert _ loadEntry 16 33 entries.length pos page
    (leafPlace page pos key rid) loadEntry_local inside
    (fun i before => by
      rw [leafPlace_eq, read_setSize _ (by omega), read_leafWrite (by omega),
        read_leafShift_before (by omega)])
    (fun i low high => by
      rw [leafPlace_eq, read_setSize _ (by omega), read_leafWrite (by omega),
        read_leafShift laid.size low high])
  have here : loadEntry (leafPlace page pos key rid) (33 + pos * 16) = (key, rid) := by
    rw [leafPlace_eq, ← @loadEntry_leafWrite (leafShift page pos) pos key rid]
    exact loadEntry_local _ _ _ _ (read_setSize _ (by omega))
  refine ⟨⟨same.type.trans laid.isLeaf, ?_, ?_, same.link.trans laid.next⟩, same⟩
  · rw [leafPlace_eq, laid.size, length]
    exact bpNodeGetSize_set fits
  · rw [length]
    refine inserted.trans ?_
    rw [here]
    exact congrArg (·.insertIdx pos (key, rid)) laid.entries

/-- An entry taken out of a leaf is erased from its list. -/
theorem LeafLaid.remove (laid : LeafLaid page entries next) (inside : pos < entries.length)
    (fits : entries.length < 2147483648) :
    (leafRemove page pos).2 = 0 ∧
      LeafLaid (leafRemove page pos).1 (entries.eraseIdx pos) next ∧
      Untouched (entries.length * 16) page (leafRemove page pos).1 := by
  let closed : Page := if pos < bpNodeGetSize page - 1 then
      page.move (leafKeyOffset pos) (leafKeyOffset (pos + 1))
        (((bpNodeGetSize page).toNat - pos - 1) * bpLeafEntrySize)
    else page
  have removed : leafRemove page pos = (bpNodeSetSize closed (bpNodeGetSize page - 1), 0) := by
    rw [leafRemove]
    dsimp only
    rw [if_neg (by rw [laid.size]; omega)]
  have kept : Untouched (entries.length * 16) page closed := by
    show Untouched _ page (if _ then _ else _)
    rw [laid.size]
    split
    · apply (Untouched.refl page).move
      · rw [leafKeyOffset_eq]
        omega
      · rw [leafKeyOffset_eq, leafEntrySize_eq]
        omega
    · exact .refl page
  have same := kept.setSize (bpNodeGetSize page - 1)
  have length : (entries.eraseIdx pos).length = entries.length - 1 := by
    rw [List.length_eraseIdx, if_pos inside]
  have before (i : Nat) (low : i < pos) :
      closed.read (33 + i * 16) 16 = page.read (33 + i * 16) 16 := by
    show (if _ then _ else _ : Page).read _ _ = _
    split
    · rw [Block.read_move_of_disjoint]
      rw [leafKeyOffset_eq]
      omega
    · rfl
  have behind (i : Nat) (low : pos ≤ i) (high : i + 1 < entries.length) :
      closed.read (33 + i * 16) 16 = page.read (33 + (i + 1) * 16) 16 := by
    show (if _ then _ else _ : Page).read _ _ = _
    rw [laid.size, if_pos (by omega), Block.read_move_inside]
    · congr 1
      rw [leafKeyOffset_eq, leafKeyOffset_eq]
      omega
    · rw [leafKeyOffset_eq]
      omega
    · rw [leafKeyOffset_eq, leafEntrySize_eq]
      omega
  have erased := @records_erase _ loadEntry 16 33 entries.length pos page
    (bpNodeSetSize closed (bpNodeGetSize page - 1)) loadEntry_local inside
    (fun i low => by rw [read_setSize _ (by omega), before i low])
    (fun i low high => by rw [read_setSize _ (by omega), behind i low high])
  rw [removed]
  refine ⟨rfl, ⟨same.type.trans laid.isLeaf, ?_, ?_, same.link.trans laid.next⟩, same⟩
  · rw [laid.size, length, show (entries.length : Int) - 1 = (entries.length - 1 : Nat) by omega]
    exact bpNodeGetSize_set (by omega)
  · rw [length]
    refine erased.trans ?_
    exact congrArg (·.eraseIdx pos) laid.entries

theorem LeafLaid.key_at (laid : LeafLaid page entries next) {i : Nat}
    (bound : i < entries.length) :
    leafGetKey page i = entries[i].1 ∧ leafGetRid page i = entries[i].2 := by
  have loaded : loadEntry page (33 + i * 16) = entries[i] := by
    rw [← @getElem_records _ loadEntry 16 33 entries.length page i (by simpa using bound)]
    exact getElem_congr_coll laid.entries
  exact ⟨congrArg Prod.fst loaded, congrArg Prod.snd loaded⟩

theorem LeafLaid.length_lt (laid : LeafLaid page entries next) : entries.length < 2147483648 := by
  have bound := (Scalar.i32.load page bpTreeNodeSizeOffset).toInt_lt
  have size := laid.size
  rw [bpNodeGetSize] at size
  omega

/-- The position found is the number of smaller keys. -/
theorem LeafLaid.findPosition (laid : LeafLaid page entries next)
    (sorted : entries.Pairwise fun first second => first.1 ≤ second.1) (key : Int64) :
    leafFindPosition page key = (entries.takeWhile fun entry => entry.1 < key).length := by
  rw [leafFindPosition, laid.size, Int.toNat_natCast]
  apply bisect_list
  · apply sorted.imp
    intro first second ordered less
    rw [decide_eq_true_eq] at less ⊢
    exact Int64.lt_of_le_of_lt ordered less
  · intro i bound
    rw [(laid.key_at bound).1]

end Leaves

/-! ## Internal nodes -/

section InternalNodes

variable {page : Page} {first : PageId} {rest : List (Int64 × PageId)}
variable {pos offset count : Nat} {key : Int64} {child : PageId}

theorem internalKeyOffset_eq (pos : Nat) : internalKeyOffset pos = 33 + pos * 12 := rfl

theorem internalChildOffset_succ (pos : Nat) :
    internalChildOffset (pos + 1) = 33 + pos * 12 + 8 := rfl

/-- The last child ends where the next key would begin. -/
theorem internalChildOffset_end (size : Nat) : internalChildOffset size + 4 = 33 + size * 12 := by
  cases size with
  | zero => rfl
  | succ size =>
      rw [internalChildOffset_succ]
      omega

/-- A key and the child behind it, written. -/
def internalWrite (page : Page) (pos : Nat) (key : Int64) (child : PageId) : Page :=
  internalSetChild (internalSetKey page pos key) (pos + 1) child

/-- The node with a gap opened at a position. -/
def internalShift (page : Page) (pos : Nat) : Page :=
  page.move (internalKeyOffset (pos + 1)) (internalKeyOffset pos)
    (internalChildOffset (bpNodeGetSize page).toNat + 4 - internalKeyOffset pos)

theorem internalPlace_eq (page : Page) (pos : Nat) (key : Int64) (child : PageId) :
    internalPlace page pos key child = bpNodeSetSize
      (internalWrite (internalShift page pos) pos key child) (bpNodeGetSize page + 1) := rfl

theorem read_internalWrite
    (apart : offset + count ≤ 33 + pos * 12 ∨ 33 + pos * 12 + 12 ≤ offset) :
    (internalWrite page pos key child).read offset count = page.read offset count := by
  unfold internalWrite internalSetChild internalSetKey
  rw [Scalar.read_store_of_disjoint, Scalar.read_store_of_disjoint] <;>
    simp only [Scalar.i32_width, Scalar.i64_width, internalKeyOffset_eq,
      internalChildOffset_succ] <;> omega

theorem loadChild_internalWrite :
    loadChild (internalWrite page pos key child) (33 + pos * 12) = (key, child) := by
  have keyLoad : Scalar.i64.load (internalWrite page pos key child) (33 + pos * 12) = key := by
    unfold internalWrite internalSetChild
    rw [Scalar.load_store_of_disjoint]
    · exact Scalar.load_store_same _ _ _ _
    · exact .inr (Nat.le_refl _)
  have childLoad : Scalar.i32.load (internalWrite page pos key child) (33 + pos * 12 + 8) = child :=
    Scalar.load_store_same _ _ _ _
  rw [loadChild, keyLoad, childLoad]

/-- A key put at a position of an internal node, with a child behind it, is inserted into its
list. -/
theorem InternalLaid.place (laid : InternalLaid page first rest) (inside : pos ≤ rest.length)
    (fits : rest.length + 1 < 2147483648) (key : Int64) (child : PageId) :
    InternalLaid (internalPlace page pos key child) first (rest.insertIdx pos (key, child)) ∧
      Untouched ((rest.length + 1) * 12) page (internalPlace page pos key child) := by
  have moved : internalChildOffset (bpNodeGetSize page).toNat + 4 - internalKeyOffset pos =
      (rest.length - pos) * 12 := by
    rw [internalChildOffset_end, internalKeyOffset_eq, laid.size, Int.toNat_natCast]
    omega
  have written : Untouched ((rest.length + 1) * 12) page
      (internalWrite (internalShift page pos) pos key child) := by
    unfold internalWrite internalSetChild internalSetKey internalShift
    rw [moved]
    refine (((Untouched.refl page).move ?_ ?_).store ?_ ?_).store ?_ ?_ <;>
      simp only [Scalar.i32_width, Scalar.i64_width, internalKeyOffset_eq,
        internalChildOffset_succ] <;> omega
  have same := written.setSize (bpNodeGetSize page + 1)
  rw [← internalPlace_eq] at same
  have length : (rest.insertIdx pos (key, child)).length = rest.length + 1 :=
    List.length_insertIdx_of_le_length inside _
  have inserted := @records_insert _ loadChild 12 33 rest.length pos page
    (internalPlace page pos key child) loadChild_local inside
    (fun i before => by
      rw [internalPlace_eq, read_setSize _ (by omega), read_internalWrite (by omega), internalShift,
        Block.read_move_of_disjoint]
      rw [internalKeyOffset_eq]
      omega)
    (fun i low high => by
      rw [internalPlace_eq, read_setSize _ (by omega), read_internalWrite (by omega), internalShift,
        moved, Block.read_move_inside]
      · congr 1
        rw [internalKeyOffset_eq, internalKeyOffset_eq]
        omega
      · rw [internalKeyOffset_eq]
        omega
      · rw [internalKeyOffset_eq]
        omega)
  have here : loadChild (internalPlace page pos key child) (33 + pos * 12) = (key, child) := by
    rw [internalPlace_eq, ← @loadChild_internalWrite (internalShift page pos) pos key child]
    exact loadChild_local _ _ _ _ (read_setSize _ (by omega))
  refine ⟨⟨same.type.trans laid.inner, ?_, same.link.trans laid.first, ?_⟩, same⟩
  · rw [internalPlace_eq, laid.size, length]
    exact bpNodeGetSize_set fits
  · rw [length]
    refine inserted.trans ?_
    rw [here]
    exact congrArg (·.insertIdx pos (key, child)) laid.rest

theorem InternalLaid.key_at (laid : InternalLaid page first rest) {i : Nat}
    (bound : i < rest.length) :
    internalGetKey page i = rest[i].1 ∧ internalGetChild page (i + 1) = rest[i].2 := by
  have loaded : loadChild page (33 + i * 12) = rest[i] := by
    rw [← @getElem_records _ loadChild 12 33 rest.length page i (by simpa using bound)]
    exact getElem_congr_coll laid.rest
  exact ⟨congrArg Prod.fst loaded, congrArg Prod.snd loaded⟩

theorem InternalLaid.length_lt (laid : InternalLaid page first rest) :
    rest.length < 2147483648 := by
  have bound := (Scalar.i32.load page bpTreeNodeSizeOffset).toInt_lt
  have size := laid.size
  rw [bpNodeGetSize] at size
  omega

/-- The position found is the number of keys that are not larger. -/
theorem InternalLaid.findPosition (laid : InternalLaid page first rest)
    (sorted : rest.Pairwise fun first second => first.1 ≤ second.1) (key : Int64) :
    internalFindPosition page key = (rest.takeWhile fun entry => entry.1 ≤ key).length := by
  rw [internalFindPosition, laid.size, Int.toNat_natCast]
  apply bisect_list
  · apply sorted.imp
    intro first second ordered less
    rw [decide_eq_true_eq] at less ⊢
    exact Int64.le_trans ordered less
  · intro i bound
    rw [(laid.key_at bound).1]

end InternalNodes

/-! ## Nodes as lists -/

/-- The page is an internal node with these keys, and with one child more. -/
def InternalImage (page : Page) (keys : List Int64) (children : List PageId) : Prop :=
  ∃ first rest, InternalLaid page first rest ∧ keys = rest.map Prod.fst ∧
    children = first :: rest.map Prod.snd

theorem leafInsert_image {page : Page} {entries : List (Int64 × Rid)} {next : PageId}
    (laid : LeafLaid page entries next) {pos : Nat} (inside : pos ≤ entries.length)
    (room : entries.length < leafMaxKeys) (key : Int64) (rid : Rid) :
    ∃ after, leafInsert page pos key rid = (after, 0) ∧
      LeafLaid after (entries.insertIdx pos (key, rid)) next ∧
      Untouched ((entries.length + 1) * bpLeafEntrySize) page after := by
  have below : ¬bpNodeGetSize page ≥ leafMaxKeys := by
    rw [laid.size]
    omega
  have fits : entries.length < 253 := room
  obtain ⟨placed, same⟩ := laid.place inside (by omega) key rid
  exact ⟨_, if_neg below, placed, same⟩

theorem internalInsert_image {page : Page} {keys : List Int64} {children : List PageId}
    (image : InternalImage page keys children) {pos : Nat} (inside : pos ≤ keys.length)
    (room : keys.length < internalMaxKeys) (key : Int64) (child : PageId) :
    ∃ after, internalInsert page pos key child = (after, 0) ∧
      InternalImage after (keys.insertIdx pos key) (children.insertIdx (pos + 1) child) ∧
      Untouched ((keys.length + 1) * bpInternalEntrySize) page after := by
  obtain ⟨first, rest, laid, rfl, rfl⟩ := image
  rw [List.length_map] at inside room ⊢
  have below : ¬bpNodeGetSize page ≥ internalMaxKeys := by
    rw [laid.size]
    omega
  have fits : rest.length < 338 := room
  obtain ⟨placed, same⟩ := laid.place inside (by omega) key child
  refine ⟨_, if_neg below, ⟨first, _, placed, ?_, ?_⟩, same⟩
  · rw [List.map_insertIdx]
  · rw [List.insertIdx_succ_cons, List.map_insertIdx]

/-- The changes of a leaf with room are those of its list of entries, and the changes of an
internal node with room those of its lists of keys and children; they leave every other byte
but the size. The searches count keys. -/
theorem nodes_refine_lists :
    (∀ page entries next, LeafLaid page entries next →
      (∀ pos key rid, pos ≤ entries.length → entries.length < leafMaxKeys →
        ∃ after, leafInsert page pos key rid = (after, 0) ∧
          LeafLaid after (entries.insertIdx pos (key, rid)) next ∧
          Untouched ((entries.length + 1) * bpLeafEntrySize) page after) ∧
      (∀ pos < entries.length, ∃ after, leafRemove page pos = (after, 0) ∧
        LeafLaid after (entries.eraseIdx pos) next ∧
        Untouched (entries.length * bpLeafEntrySize) page after) ∧
      ((entries.Pairwise fun first second => first.1 ≤ second.1) → ∀ key,
        leafFindPosition page key = entries.countP fun entry => entry.1 < key)) ∧
    ∀ page keys children, InternalImage page keys children →
      (∀ pos key child, pos ≤ keys.length → keys.length < internalMaxKeys →
        ∃ after, internalInsert page pos key child = (after, 0) ∧
          InternalImage after (keys.insertIdx pos key) (children.insertIdx (pos + 1) child) ∧
          Untouched ((keys.length + 1) * bpInternalEntrySize) page after) ∧
      (keys.Pairwise (· ≤ ·) → ∀ key,
        internalFindPosition page key = keys.countP fun stored => stored ≤ key) := by
  refine ⟨fun page entries next laid => ⟨?_, ?_, ?_⟩, fun page keys children image => ⟨?_, ?_⟩⟩
  · intro pos key rid inside room
    exact leafInsert_image laid inside room key rid
  · intro pos inside
    obtain ⟨code, removed, same⟩ := laid.remove inside laid.length_lt
    exact ⟨_, Prod.ext rfl code, removed, same⟩
  · intro sorted key
    rw [laid.findPosition sorted, length_takeWhile_eq_countP]
    apply sorted.imp
    intro first second ordered less
    rw [decide_eq_true_eq] at less ⊢
    exact Int64.lt_of_le_of_lt ordered less
  · intro pos key child inside room
    exact internalInsert_image image inside room key child
  · intro sorted key
    obtain ⟨first, rest, laid, rfl, rfl⟩ := image
    rw [List.pairwise_map] at sorted
    rw [laid.findPosition sorted, length_takeWhile_eq_countP, List.countP_map]
    · rfl
    · apply sorted.imp
      intro first second ordered less
      rw [decide_eq_true_eq] at less ⊢
      exact Int64.le_trans ordered less

/-- A leaf and an internal node without keys. -/
def emptyNode (type : UInt8) : Page := bpNodeSetType zeroPage type

theorem emptyLeaf_laid : LeafLaid (emptyNode bpNodeTypeLeaf) [] 0 :=
  ⟨by decide +kernel, by decide +kernel, rfl, by decide +kernel⟩

theorem emptyInternal_image : InternalImage (emptyNode bpNodeTypeInternal) [] [0] :=
  ⟨0, [], ⟨by decide +kernel, by decide +kernel, by decide +kernel, rfl⟩, rfl, rfl⟩

/-- The first entry of a leaf, and the first key of an internal node. -/
theorem nodes_refine_lists_first :
    (∃ after, leafInsert (emptyNode bpNodeTypeLeaf) 0 5 ⟨1, 2⟩ = (after, 0) ∧
      LeafLaid after [(5, ⟨1, 2⟩)] 0) ∧
    ∃ after, internalInsert (emptyNode bpNodeTypeInternal) 0 5 7 = (after, 0) ∧
      InternalImage after [5] [0, 7] := by
  obtain ⟨leaves, internals⟩ := nodes_refine_lists
  obtain ⟨leaf, leafInserted, laid, _⟩ :=
    (leaves _ _ _ emptyLeaf_laid).1 0 5 ⟨1, 2⟩ (by decide) (by decide)
  obtain ⟨node, inserted, image, _⟩ :=
    (internals _ _ _ emptyInternal_image).1 0 5 7 (by decide) (by decide)
  exact ⟨⟨leaf, leafInserted, laid⟩, node, inserted, image⟩

end MiniSqlite.Index
