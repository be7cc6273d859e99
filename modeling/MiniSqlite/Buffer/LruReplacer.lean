import MiniSqlite.Common.Hashmap
import MiniSqlite.Common.List

/-!
# The LRU-2 replacer

`buffer/lru_replacer.c`. Entries are allocated cells whose embedded nodes are
linked in the cold or the hot list; `frame_map` finds the entry of a frame.
`LruHolds replacer cold hot` relates a replacer to the frames of the two lists,
most recent first, and each operation has one lemma in those terms.
-/

namespace MiniSqlite.Buffer

open MiniSqlite.Common MiniSqlite.Std

/-- `frame_id_t`, an index into the pool's frames. -/
abbrev FrameId := Nat

/-- `int_hash`. -/
def intHash (v : UInt64) : Nat :=
  let v := ((v >>> 16) ^^^ v) * 0x45d9f3b
  let v := ((v >>> 16) ^^^ v) * 0x45d9f3b
  ((v >>> 16) ^^^ v).toNat

/-- `int_hash` and `int_equal` on frame ids. -/
def frameKeys : HashKey FrameId := .ofEq fun frame => intHash (UInt64.ofNat frame)

/-- A `list_node_t` of the replacer: a sentinel or the node of an entry, which is
named by its address. -/
inductive LruNode where
  | cold
  | hot
  | entry (address : Nat)
  deriving DecidableEq

/-- `lru_replacer_entry_t`, without its node. -/
structure LruEntry where
  frameId : FrameId
  accessCount : Nat
  inHot : Bool

/-- `lru_replacer_t` with the memory its entries live in. -/
structure LruReplacer where
  coldList : ListT LruNode
  hotList : ListT LruNode
  capacity : Nat
  size : Nat
  frameMap : Hashmap frameKeys Nat
  links : Links LruNode
  /-- Allocated entries by address. -/
  entries : Nat → Option LruEntry
  /-- The next address `db_malloc` returns. -/
  unused : Nat

/-- `lru_replacer_init`. -/
def lruReplacerInit (capacity : Nat) : LruReplacer :=
  let cold := listInit .unlinked LruNode.cold
  let hot := listInit cold.1 LruNode.hot
  { coldList := cold.2, hotList := hot.2, capacity := capacity, size := 0
    frameMap := .hashmapInit frameKeys Nat 64
    links := hot.1, entries := fun _ => none, unused := 0 }

/-- The entry at an address. -/
def LruReplacer.entryAt (replacer : LruReplacer) (address : Nat) : Except Fault LruEntry :=
  match replacer.entries address with
  | some entry => .ok entry
  | none => .error .nullPointer

/-- Stores or frees an entry. -/
def LruReplacer.setEntry (replacer : LruReplacer) (address : Nat) (entry : Option LruEntry) :
    LruReplacer :=
  { replacer with
    entries := fun other => if other = address then entry else replacer.entries other }

/-- Removes the node of an entry from whichever list it is in. -/
def LruReplacer.unlinkEntry (replacer : LruReplacer) (address : Nat) (inHot : Bool) :
    Except Fault LruReplacer :=
  if inHot then do
    let (links, hotList) ← listRemoveFrom replacer.links replacer.hotList (.entry address)
    return { replacer with links := links, hotList := hotList }
  else do
    let (links, coldList) ← listRemoveFrom replacer.links replacer.coldList (.entry address)
    return { replacer with links := links, coldList := coldList }

/-- Takes the last node of the cold list, or else of the hot list. -/
def LruReplacer.popVictim (replacer : LruReplacer) :
    Except Fault (LruReplacer × Option LruNode) := do
  let (links, coldList, node) ← listPopBack replacer.links replacer.coldList
  let replacer := { replacer with links := links, coldList := coldList }
  match node with
  | some node => return (replacer, some node)
  | none =>
      let (links, hotList, node) ← listPopBack replacer.links replacer.hotList
      return ({ replacer with links := links, hotList := hotList }, node)

/-- `lru_replacer_victim`, with `none` for -1. -/
def lruReplacerVictim (replacer : LruReplacer) :
    Except Fault (LruReplacer × Option FrameId) := do
  match ← replacer.popVictim with
  | (replacer, none) => return (replacer, none)
  | (replacer, some (.entry address)) =>
      let entry ← replacer.entryAt address
      let replacer := { replacer with frameMap := replacer.frameMap.hashmapRemove entry.frameId }
      let replacer := replacer.setEntry address none
      return ({ replacer with size := replacer.size - 1 }, some entry.frameId)
  | (_, some _) => throw .nullPointer

/-- `lru_replacer_pin`. -/
def lruReplacerPin (replacer : LruReplacer) (frameId : FrameId) : Except Fault LruReplacer :=
  match replacer.frameMap.hashmapGet frameId with
  | none => .ok replacer
  | some address => do
      let entry ← replacer.entryAt address
      let replacer ← replacer.unlinkEntry address entry.inHot
      let replacer := { replacer with frameMap := replacer.frameMap.hashmapRemove frameId }
      let replacer := replacer.setEntry address none
      return { replacer with size := replacer.size - 1 }

/-- `lru_replacer_unpin`. -/
def lruReplacerUnpin (replacer : LruReplacer) (frameId : FrameId) : Except Fault LruReplacer :=
  match replacer.frameMap.hashmapGet frameId with
  | some address => do
      let entry ← replacer.entryAt address
      let replacer ← replacer.unlinkEntry address entry.inHot
      let replacer := replacer.setEntry address
        (some { entry with accessCount := entry.accessCount + 1, inHot := true })
      let (links, hotList) ← listPushFront replacer.links replacer.hotList (.entry address)
      return { replacer with links := links, hotList := hotList }
  | none => do
      let address := replacer.unused
      let replacer := { replacer with unused := address + 1 }
      let replacer := replacer.setEntry address (some ⟨frameId, 1, false⟩)
      let replacer := { replacer with frameMap := replacer.frameMap.hashmapPut frameId address }
      let (links, coldList) ← listPushFront replacer.links replacer.coldList (.entry address)
      return { replacer with links := links, coldList := coldList, size := replacer.size + 1 }

/-! ## The two queues -/

/-- The nodes of the entries of some frames. -/
def nodesOf (address : FrameId → Nat) (frames : List FrameId) : List LruNode :=
  frames.map fun frame => .entry (address frame)

/-- The replacer holds the frames `cold` and `hot`, whose entries are at `address`. -/
structure LruHoldsAt (replacer : LruReplacer) (address : FrameId → Nat)
    (cold hot : List FrameId) : Prop where
  coldSentinel : replacer.coldList.sentinel = .cold
  hotSentinel : replacer.hotList.sentinel = .hot
  coldList : ListHolds replacer.links replacer.coldList (nodesOf address cold)
  hotList : ListHolds replacer.links replacer.hotList (nodesOf address hot)
  mapped : ∀ frame, replacer.frameMap.hashmapGet frame =
    if frame ∈ cold ++ hot then some (address frame) else none
  coldEntry : ∀ frame ∈ cold, ∃ count, replacer.entries (address frame) = some ⟨frame, count, false⟩
  hotEntry : ∀ frame ∈ hot, ∃ count, replacer.entries (address frame) = some ⟨frame, count, true⟩
  allocated : ∀ frame ∈ cold ++ hot, address frame < replacer.unused
  nodup : (cold ++ hot).Nodup
  size : replacer.size = cold.length + hot.length

/-- The replacer holds the frames `cold` and `hot`, most recent first. -/
def LruHolds (replacer : LruReplacer) (cold hot : List FrameId) : Prop :=
  ∃ address, LruHoldsAt replacer address cold hot

theorem mem_nodesOf {address : FrameId → Nat} {frames : List FrameId} {node : LruNode} :
    node ∈ nodesOf address frames ↔ ∃ frame ∈ frames, .entry (address frame) = node := List.mem_map

theorem lruReplacerInit_holds (capacity : Nat) : LruHolds (lruReplacerInit capacity) [] [] := by
  refine ⟨fun _ => 0, rfl, rfl, ?_, listInit_holds _ _, ?_, by simp, by simp, by simp, by simp, rfl⟩
  · refine (listInit_holds _ _).frame (listInit_sameOutside _ _) ?_
    simp [listInit]
  · intro frame
    simp [lruReplacerInit]

/-- Two frames with entries at one address are the same frame, in the same list. -/
theorem LruHoldsAt.address_inj {replacer : LruReplacer} {address : FrameId → Nat}
    {cold hot : List FrameId} (holds : LruHoldsAt replacer address cold hot)
    {first second : FrameId} (firstMem : first ∈ cold ++ hot) (secondMem : second ∈ cold ++ hot)
    (same : address first = address second) : first = second := by
  have entry : ∀ frame ∈ cold ++ hot,
      ∃ count inHot, replacer.entries (address frame) = some ⟨frame, count, inHot⟩ := by
    intro frame member
    rcases List.mem_append.mp member with inCold | inHot
    · obtain ⟨count, found⟩ := holds.coldEntry frame inCold
      exact ⟨count, _, found⟩
    · obtain ⟨count, found⟩ := holds.hotEntry frame inHot
      exact ⟨count, _, found⟩
  obtain ⟨_, _, firstEntry⟩ := entry first firstMem
  obtain ⟨_, _, secondEntry⟩ := entry second secondMem
  rw [same, secondEntry] at firstEntry
  simp only [Option.some.injEq, LruEntry.mk.injEq] at firstEntry
  exact firstEntry.1.symm

/-- The nodes and the sentinel of the cold list are not those of the hot list. -/
theorem LruHoldsAt.disjoint {replacer : LruReplacer} {address : FrameId → Nat}
    {cold hot : List FrameId} (holds : LruHoldsAt replacer address cold hot) :
    ∀ node ∈ replacer.coldList.sentinel :: nodesOf address cold,
      node ∉ replacer.hotList.sentinel :: nodesOf address hot := by
  intro node inCold inHot
  rw [holds.coldSentinel] at inCold
  rw [holds.hotSentinel] at inHot
  rcases List.mem_cons.mp inCold with rfl | inCold
  · simp [mem_nodesOf] at inHot
  · obtain ⟨first, firstMem, rfl⟩ := mem_nodesOf.mp inCold
    rcases List.mem_cons.mp inHot with same | inHot
    · simp at same
    · obtain ⟨second, secondMem, same⟩ := mem_nodesOf.mp inHot
      have equal := holds.address_inj (List.mem_append_right _ secondMem)
        (List.mem_append_left _ firstMem) (LruNode.entry.inj same)
      subst equal
      exact (List.nodup_append.mp holds.nodup).2.2 second firstMem second secondMem rfl

/-- The lists after the entry of `frame` has been unlinked. -/
structure Unlinked (before after : LruReplacer) (address : FrameId → Nat)
    (cold hot : List FrameId) (frame : FrameId) : Prop where
  coldSentinel : after.coldList.sentinel = .cold
  hotSentinel : after.hotList.sentinel = .hot
  coldList : ListHolds after.links after.coldList (nodesOf address (cold.erase frame))
  hotList : ListHolds after.links after.hotList (nodesOf address (hot.erase frame))
  frameMap : after.frameMap = before.frameMap
  entries : after.entries = before.entries
  unused : after.unused = before.unused
  size : after.size = before.size

/-- Removing the node of a frame from a list of entries. -/
theorem removeFrom_nodesOf {links : Links LruNode} {list : ListT LruNode}
    {address : FrameId → Nat} {frames : List FrameId}
    (holds : ListHolds links list (nodesOf address frames)) (nodup : frames.Nodup)
    {frame : FrameId} (member : frame ∈ frames) :
    ∃ after, listRemoveFrom links list (.entry (address frame)) =
        .ok (after, ⟨list.sentinel, list.size - 1⟩) ∧
      ListHolds after ⟨list.sentinel, list.size - 1⟩ (nodesOf address (frames.erase frame)) ∧
      SameOutside (list.sentinel :: nodesOf address frames) links after := by
  obtain ⟨before, rest, rfl⟩ := List.append_of_mem member
  have notBefore : frame ∉ before := by
    intro inBefore
    rw [List.nodup_append] at nodup
    exact nodup.2.2 frame inBefore frame List.mem_cons_self rfl
  rw [List.erase_append_right _ notBefore, List.erase_cons_head]
  simp only [nodesOf, List.map_append, List.map_cons] at holds ⊢
  exact holds.removeFrom

/-- Removing the node of a frame's entry removes the frame from its list. -/
theorem LruHoldsAt.unlink {replacer : LruReplacer} {address : FrameId → Nat}
    {cold hot : List FrameId} (holds : LruHoldsAt replacer address cold hot) {frame : FrameId}
    (member : frame ∈ cold ++ hot) :
    ∃ count inHot after, replacer.entryAt (address frame) = .ok ⟨frame, count, inHot⟩ ∧
      replacer.unlinkEntry (address frame) inHot = .ok after ∧
      Unlinked replacer after address cold hot frame := by
  obtain ⟨nodupCold, nodupHot, separate⟩ := List.nodup_append.mp holds.nodup
  rcases List.mem_append.mp member with inCold | inHot
  · obtain ⟨count, found⟩ := holds.coldEntry frame inCold
    have notHot : frame ∉ hot := fun inHot => separate frame inCold frame inHot rfl
    obtain ⟨links, removed, rest, same⟩ := removeFrom_nodesOf holds.coldList nodupCold inCold
    refine ⟨count, false, { replacer with
      links := links, coldList := ⟨replacer.coldList.sentinel, replacer.coldList.size - 1⟩ }, ?_, ?_,
      holds.coldSentinel, holds.hotSentinel, rest, ?_, rfl, rfl, rfl, rfl⟩
    · simp only [LruReplacer.entryAt, found]
    · simp only [LruReplacer.unlinkEntry, removed, bind, Except.bind, pure, Except.pure,
        Bool.false_eq_true, if_false]
    · rw [List.erase_of_not_mem notHot]
      exact holds.hotList.frame same fun node inHot inCold => holds.disjoint node inCold inHot
  · obtain ⟨count, found⟩ := holds.hotEntry frame inHot
    have notCold : frame ∉ cold := fun inCold => separate frame inCold frame inHot rfl
    obtain ⟨links, removed, rest, same⟩ := removeFrom_nodesOf holds.hotList nodupHot inHot
    refine ⟨count, true, { replacer with
      links := links, hotList := ⟨replacer.hotList.sentinel, replacer.hotList.size - 1⟩ }, ?_, ?_,
      holds.coldSentinel, holds.hotSentinel, ?_, rest, rfl, rfl, rfl, rfl⟩
    · simp only [LruReplacer.entryAt, found]
    · simp only [LruReplacer.unlinkEntry, removed, bind, Except.bind, pure, Except.pure, if_true]
    · rw [List.erase_of_not_mem notCold]
      exact holds.coldList.frame same holds.disjoint

/-- Erasing a frame from both lists of a replacer. -/
theorem mem_erase_both {cold hot : List FrameId} (nodup : (cold ++ hot).Nodup) {frame : FrameId} :
    ∀ other, other ∈ cold.erase frame ++ hot.erase frame ↔ other ∈ cold ++ hot ∧ other ≠ frame := by
  obtain ⟨nodupCold, nodupHot, _⟩ := List.nodup_append.mp nodup
  intro other
  rw [List.mem_append, nodupCold.mem_erase_iff, nodupHot.mem_erase_iff, List.mem_append]
  tauto

theorem length_erase_both {cold hot : List FrameId} (nodup : (cold ++ hot).Nodup)
    {frame : FrameId} (member : frame ∈ cold ++ hot) :
    (cold ++ hot).length - 1 = (cold.erase frame ++ hot.erase frame).length := by
  obtain ⟨_, _, separate⟩ := List.nodup_append.mp nodup
  rw [List.length_append, List.length_append]
  rcases List.mem_append.mp member with inCold | inHot
  · have notHot : frame ∉ hot := fun inHot => separate frame inCold frame inHot rfl
    have := List.length_pos_of_mem inCold
    rw [List.erase_of_not_mem notHot, List.length_erase_of_mem inCold]
    omega
  · have notCold : frame ∉ cold := fun inCold => separate frame inCold frame inHot rfl
    have := List.length_pos_of_mem inHot
    rw [List.erase_of_not_mem notCold, List.length_erase_of_mem inHot]
    omega

/-- The replacer after the entry at an address, already unlinked, has been freed. -/
def LruReplacer.freeEntry (replacer : LruReplacer) (address : Nat) (frame : FrameId) :
    LruReplacer :=
  let replacer := { replacer with frameMap := replacer.frameMap.hashmapRemove frame }
  let replacer := replacer.setEntry address none
  { replacer with size := replacer.size - 1 }

/-- Freeing the unlinked entry of a frame leaves the replacer without the frame. -/
theorem LruHoldsAt.freed {replacer after : LruReplacer} {address : FrameId → Nat}
    {cold hot : List FrameId} (holds : LruHoldsAt replacer address cold hot) {frame : FrameId}
    (member : frame ∈ cold ++ hot) (lists : Unlinked replacer after address cold hot frame) :
    LruHoldsAt (after.freeEntry (address frame) frame) address (cold.erase frame)
      (hot.erase frame) := by
  have others : ∀ other ∈ cold ++ hot, other ≠ frame → address other ≠ address frame :=
    fun other otherMem differ same => differ (holds.address_inj otherMem member same)
  have both := @mem_erase_both cold hot holds.nodup frame
  have entries : ∀ other ∈ cold ++ hot, other ≠ frame →
      (after.freeEntry (address frame) frame).entries (address other) =
        replacer.entries (address other) := by
    intro other inLists differ
    rw [← lists.entries]
    exact if_neg (others other inLists differ)
  refine ⟨lists.coldSentinel, lists.hotSentinel, lists.coldList, lists.hotList, ?_, ?_, ?_, ?_,
    holds.nodup.sublist (List.Sublist.append List.erase_sublist List.erase_sublist), ?_⟩
  · intro other
    show (after.frameMap.hashmapRemove frame).hashmapGet other = _
    rw [lists.frameMap, Hashmap.hashmapGet_remove, holds.mapped]
    by_cases same : frame = other
    · subst same
      simp [frameKeys, both]
    · simp [frameKeys, same, both, Ne.symm same]
  · intro other inCold
    obtain ⟨inLists, differ⟩ := (both other).mp (List.mem_append_left _ inCold)
    rw [entries other inLists differ]
    exact holds.coldEntry other (List.mem_of_mem_erase inCold)
  · intro other inHot
    obtain ⟨inLists, differ⟩ := (both other).mp (List.mem_append_right _ inHot)
    rw [entries other inLists differ]
    exact holds.hotEntry other (List.mem_of_mem_erase inHot)
  · intro other inLists
    show address other < after.unused
    rw [lists.unused]
    exact holds.allocated other ((both other).mp inLists).1
  · show after.size - 1 = _
    rw [lists.size, holds.size, ← List.length_append, ← List.length_append,
      length_erase_both holds.nodup member]

/-- `lru_replacer_pin` takes the frame out of its list. -/
theorem lruReplacerPin_holds {replacer : LruReplacer} {cold hot : List FrameId}
    (holds : LruHolds replacer cold hot) (frame : FrameId) :
    ∃ after, lruReplacerPin replacer frame = .ok after ∧
      LruHolds after (cold.erase frame) (hot.erase frame) := by
  obtain ⟨address, holds⟩ := holds
  have mapped := holds.mapped frame
  unfold lruReplacerPin
  by_cases member : frame ∈ cold ++ hot
  · obtain ⟨count, inHot, after, entry, unlinked, lists⟩ := holds.unlink member
    rw [mapped, if_pos member]
    exact ⟨after.freeEntry (address frame) frame, by
      simp only [entry, unlinked, bind, Except.bind, pure, Except.pure, LruReplacer.freeEntry],
      address, holds.freed member lists⟩
  · rw [mapped, if_neg member]
    rw [List.mem_append, not_or] at member
    rw [List.erase_of_not_mem member.1, List.erase_of_not_mem member.2]
    exact ⟨replacer, rfl, address, holds⟩

/-- A second `lru_replacer_unpin` moves the frame to the front of the hot list. -/
theorem lruReplacerUnpin_again {replacer : LruReplacer} {cold hot : List FrameId}
    (holds : LruHolds replacer cold hot) {frame : FrameId} (member : frame ∈ cold ++ hot) :
    ∃ after, lruReplacerUnpin replacer frame = .ok after ∧
      LruHolds after (cold.erase frame) (frame :: hot.erase frame) := by
  obtain ⟨address, holds⟩ := holds
  have mapped := holds.mapped frame
  obtain ⟨count, inHot, middle, entry, unlinked, lists⟩ := holds.unlink member
  have both := @mem_erase_both cold hot holds.nodup frame
  have others : ∀ other ∈ cold ++ hot, other ≠ frame → address other ≠ address frame :=
    fun other otherMem differ same => differ (holds.address_inj otherMem member same)
  have all : ∀ other, other ∈ cold.erase frame ++ frame :: hot.erase frame ↔
      other ∈ cold ++ hot := by
    intro other
    rw [List.mem_append, List.mem_cons, or_left_comm, ← List.mem_append, both]
    by_cases same : other = frame
    · simp [same, List.mem_append.mp member]
    · simp [same]
  have absent : .entry (address frame) ∉
      middle.hotList.sentinel :: nodesOf address (hot.erase frame) := by
    rw [lists.hotSentinel, List.mem_cons, not_or, mem_nodesOf]
    refine ⟨by simp, ?_⟩
    rintro ⟨other, inHot', same⟩
    obtain ⟨inLists, differ⟩ := (both other).mp (List.mem_append_right _ inHot')
    exact others other inLists differ (LruNode.entry.inj same)
  obtain ⟨links, pushed, hotHolds, same⟩ := lists.hotList.pushFront absent
  have entries : ∀ other ∈ cold ++ hot, other ≠ frame →
      (middle.setEntry (address frame) (some ⟨frame, count + 1, true⟩)).entries (address other) =
        replacer.entries (address other) := by
    intro other inLists differ
    rw [← lists.entries]
    exact if_neg (others other inLists differ)
  refine ⟨{ middle.setEntry (address frame) (some ⟨frame, count + 1, true⟩) with
    links := links, hotList := ⟨middle.hotList.sentinel, middle.hotList.size + 1⟩ }, ?_, address,
    lists.coldSentinel, lists.hotSentinel, ?_, hotHolds, ?_, ?_, ?_, ?_, ?_, ?_⟩
  · unfold lruReplacerUnpin
    rw [mapped, if_pos member]
    simp only [entry, unlinked, bind, Except.bind, pure, Except.pure, LruReplacer.setEntry, pushed]
  · refine lists.coldList.frame same ?_
    rw [lists.coldSentinel, lists.hotSentinel]
    intro node inCold inHot'
    rcases List.mem_cons.mp inCold with rfl | inCold
    · simp [mem_nodesOf] at inHot'
    · obtain ⟨first, firstMem, rfl⟩ := mem_nodesOf.mp inCold
      obtain ⟨inLists, differ⟩ := (both first).mp (List.mem_append_left _ firstMem)
      simp only [List.mem_cons, LruNode.entry.injEq, reduceCtorEq, false_or, mem_nodesOf] at inHot'
      rcases inHot' with atFrame | ⟨second, secondMem, same⟩
      · exact others first inLists differ atFrame
      · obtain ⟨inLists', _⟩ := (both second).mp (List.mem_append_right _ secondMem)
        have equal := holds.address_inj inLists' inLists same
        subst equal
        exact (List.nodup_append.mp holds.nodup).2.2 second (List.mem_of_mem_erase firstMem) second
          (List.mem_of_mem_erase secondMem) rfl
  · intro other
    show middle.frameMap.hashmapGet other = _
    rw [lists.frameMap, holds.mapped]
    simp only [all]
  · intro other inCold
    obtain ⟨inLists, differ⟩ := (both other).mp (List.mem_append_left _ inCold)
    obtain ⟨accesses, found⟩ := holds.coldEntry other (List.mem_of_mem_erase inCold)
    exact ⟨accesses, (entries other inLists differ).trans found⟩
  · intro other inHot'
    rcases List.mem_cons.mp inHot' with rfl | inHot'
    · exact ⟨count + 1, if_pos rfl⟩
    · obtain ⟨inLists, differ⟩ := (both other).mp (List.mem_append_right _ inHot')
      obtain ⟨accesses, found⟩ := holds.hotEntry other (List.mem_of_mem_erase inHot')
      exact ⟨accesses, (entries other inLists differ).trans found⟩
  · intro other inLists
    show address other < middle.unused
    rw [lists.unused]
    exact holds.allocated other ((all other).mp inLists)
  · refine List.nodup_middle.mpr (List.nodup_cons.mpr ⟨?_, ?_⟩)
    · rw [both]
      exact fun inLists => inLists.2 rfl
    · exact holds.nodup.sublist (List.Sublist.append List.erase_sublist List.erase_sublist)
  · show middle.size = _
    have length := length_erase_both holds.nodup member
    have := List.length_pos_of_mem member
    rw [List.length_append, List.length_append] at length
    rw [List.length_append] at this
    rw [lists.size, holds.size, List.length_cons]
    omega

/-- The first `lru_replacer_unpin` of a frame puts it at the front of the cold list. -/
theorem lruReplacerUnpin_first {replacer : LruReplacer} {cold hot : List FrameId}
    (holds : LruHolds replacer cold hot) {frame : FrameId} (absent : frame ∉ cold ++ hot) :
    ∃ after, lruReplacerUnpin replacer frame = .ok after ∧ LruHolds after (frame :: cold) hot := by
  obtain ⟨old, holds⟩ := holds
  have mapped := holds.mapped frame
  let address := fun other => if other = frame then replacer.unused else old other
  have here : address frame = replacer.unused := if_pos rfl
  have kept : ∀ other ∈ cold ++ hot, address other = old other := by
    intro other member
    have differ : other ≠ frame := fun same => absent (same ▸ member)
    exact if_neg differ
  have coldNodes : nodesOf address cold = nodesOf old cold :=
    List.map_congr_left fun other member => by rw [kept other (List.mem_append_left _ member)]
  have hotNodes : nodesOf address hot = nodesOf old hot :=
    List.map_congr_left fun other member => by rw [kept other (List.mem_append_right _ member)]
  have later : ∀ other ∈ cold ++ hot, old other ≠ replacer.unused :=
    fun other member => Nat.ne_of_lt (holds.allocated other member)
  have unusedNode : ∀ frames, (∀ other ∈ frames, other ∈ cold ++ hot) →
      LruNode.entry replacer.unused ∉ nodesOf old frames := by
    intro frames inside member
    obtain ⟨other, otherMem, same⟩ := mem_nodesOf.mp member
    exact later other (inside other otherMem) (LruNode.entry.inj same)
  have notCold : LruNode.entry replacer.unused ∉
      replacer.coldList.sentinel :: nodesOf old cold := by
    rw [holds.coldSentinel, List.mem_cons, not_or]
    exact ⟨by simp, unusedNode cold fun _ member => List.mem_append_left _ member⟩
  obtain ⟨links, pushed, coldHolds, same⟩ := holds.coldList.pushFront notCold
  have entries : ∀ other ∈ cold ++ hot,
      (replacer.setEntry replacer.unused (some ⟨frame, 1, false⟩)).entries (address other) =
        replacer.entries (old other) := by
    intro other member
    rw [kept other member]
    exact if_neg (later other member)
  refine ⟨{ replacer.setEntry replacer.unused (some ⟨frame, 1, false⟩) with
    unused := replacer.unused + 1
    frameMap := replacer.frameMap.hashmapPut frame replacer.unused
    links := links
    coldList := ⟨replacer.coldList.sentinel, replacer.coldList.size + 1⟩
    size := replacer.size + 1 }, ?_, address, holds.coldSentinel, holds.hotSentinel, ?_, ?_, ?_, ?_,
    ?_, ?_, ?_, ?_⟩
  · unfold lruReplacerUnpin
    rw [mapped, if_neg absent]
    simp only [LruReplacer.setEntry, pushed, bind, Except.bind, pure, Except.pure]
  · rw [nodesOf, List.map_cons, here]
    rw [← coldNodes] at coldHolds
    exact coldHolds
  · rw [hotNodes]
    refine holds.hotList.frame same fun node inHot inChanged => ?_
    rcases List.mem_cons.mp inChanged with rfl | inCold
    · rw [holds.hotSentinel, List.mem_cons] at inHot
      exact unusedNode hot (fun _ member => List.mem_append_right _ member)
        (inHot.resolve_left (by simp))
    · exact holds.disjoint node inCold inHot
  · intro other
    show (replacer.frameMap.hashmapPut frame replacer.unused).hashmapGet other = _
    rw [Hashmap.hashmapGet_put, holds.mapped]
    by_cases isFrame : frame = other
    · subst isFrame
      simp [frameKeys, here]
    · by_cases member : other ∈ cold ++ hot
      · simp [frameKeys, isFrame, kept other member, List.mem_append.mp member]
      · rw [if_neg member]
        rw [List.mem_append, not_or] at member
        simp [frameKeys, isFrame, Ne.symm isFrame, member.1, member.2]
  · intro other member
    rcases List.mem_cons.mp member with rfl | inCold
    · exact ⟨1, by rw [here]; exact if_pos rfl⟩
    · obtain ⟨accesses, found⟩ := holds.coldEntry other inCold
      exact ⟨accesses, (entries other (List.mem_append_left _ inCold)).trans found⟩
  · intro other inHot
    obtain ⟨accesses, found⟩ := holds.hotEntry other inHot
    exact ⟨accesses, (entries other (List.mem_append_right _ inHot)).trans found⟩
  · intro other member
    show address other < replacer.unused + 1
    rw [List.cons_append] at member
    rcases List.mem_cons.mp member with rfl | inLists
    · rw [here]
      exact Nat.lt_succ_self _
    · rw [kept other inLists]
      exact Nat.lt_succ_of_lt (holds.allocated other inLists)
  · exact List.nodup_cons.mpr ⟨absent, holds.nodup⟩
  · show replacer.size + 1 = _
    rw [holds.size, List.length_cons]
    omega

/-- The frame that will be evicted: the oldest of the cold list, else of the hot list. -/
def lruVictim (cold hot : List FrameId) : Option FrameId :=
  match cold.getLast? with
  | some frame => some frame
  | none => hot.getLast?

theorem lruVictim_mem {cold hot : List FrameId} {frame : FrameId}
    (victim : lruVictim cold hot = some frame) : frame ∈ cold ++ hot := by
  unfold lruVictim at victim
  split at victim
  · rename_i last found
    rw [Option.some.inj victim] at found
    exact List.mem_append_left _ (List.mem_of_getLast? found)
  · exact List.mem_append_right _ (List.mem_of_getLast? victim)

theorem lruVictim_eq_none {cold hot : List FrameId} (victim : lruVictim cold hot = none) :
    cold ++ hot = [] := by
  unfold lruVictim at victim
  split at victim
  · exact absurd victim (by simp)
  · rename_i empty
    rw [List.getLast?_eq_none_iff] at empty victim
    rw [empty, victim]
    rfl

/-- Popping the back of a list of entries takes its last frame. -/
theorem popBack_nodesOf {links : Links LruNode} {list : ListT LruNode}
    {address : FrameId → Nat} {frames : List FrameId}
    (holds : ListHolds links list (nodesOf address frames)) (nodup : frames.Nodup)
    {frame : FrameId} (last : frames.getLast? = some frame) :
    ∃ after, listPopBack links list =
        .ok (after, ⟨list.sentinel, list.size - 1⟩, some (.entry (address frame))) ∧
      ListHolds after ⟨list.sentinel, list.size - 1⟩ (nodesOf address (frames.erase frame)) ∧
      SameOutside (list.sentinel :: nodesOf address frames) links after := by
  obtain ⟨before, rfl⟩ := List.getLast?_eq_some_iff.mp last
  have notBefore : frame ∉ before := by
    intro inBefore
    rw [List.nodup_append] at nodup
    exact nodup.2.2 frame inBefore frame List.mem_cons_self rfl
  rw [List.erase_append_right _ notBefore, List.erase_cons_head, List.append_nil]
  simp only [nodesOf, List.map_append, List.map_cons, List.map_nil] at holds ⊢
  exact holds.popBack

/-- The node taken for eviction is that of the frame to evict. -/
theorem LruHoldsAt.popVictim {replacer : LruReplacer} {address : FrameId → Nat}
    {cold hot : List FrameId} (holds : LruHoldsAt replacer address cold hot) :
    ∃ after, replacer.popVictim =
        .ok (after, (lruVictim cold hot).map fun frame => .entry (address frame)) ∧
      (∀ frame, lruVictim cold hot = some frame →
        Unlinked replacer after address cold hot frame) ∧
      (lruVictim cold hot = none → after = replacer) := by
  obtain ⟨nodupCold, nodupHot, separate⟩ := List.nodup_append.mp holds.nodup
  unfold LruReplacer.popVictim lruVictim
  cases coldLast : cold.getLast? with
  | some frame =>
      have inCold := List.mem_of_getLast? coldLast
      have notHot : frame ∉ hot := fun inHot => separate frame inCold frame inHot rfl
      obtain ⟨links, popped, rest, same⟩ := popBack_nodesOf holds.coldList nodupCold coldLast
      refine ⟨{ replacer with
        links := links, coldList := ⟨replacer.coldList.sentinel, replacer.coldList.size - 1⟩ }, ?_, ?_⟩
      · simp only [popped, bind, Except.bind, pure, Except.pure, Option.map_some]
      · refine ⟨?_, by simp⟩
        rintro other ⟨⟩
        refine ⟨holds.coldSentinel, holds.hotSentinel, rest, ?_, rfl, rfl, rfl, rfl⟩
        rw [List.erase_of_not_mem notHot]
        exact holds.hotList.frame same fun node inHot inCold => holds.disjoint node inCold inHot
  | none =>
      rw [List.getLast?_eq_none_iff] at coldLast
      subst coldLast
      have coldEmpty := holds.coldList.popBack_nil
      cases hotLast : hot.getLast? with
      | some frame =>
          obtain ⟨links, popped, rest, same⟩ := popBack_nodesOf holds.hotList nodupHot hotLast
          refine ⟨{ replacer with
            links := links, hotList := ⟨replacer.hotList.sentinel, replacer.hotList.size - 1⟩ },
            ?_, ?_⟩
          · simp only [coldEmpty, popped, bind, Except.bind, pure, Except.pure, Option.map_some]
          · refine ⟨?_, by simp⟩
            rintro other ⟨⟩
            exact ⟨holds.coldSentinel, holds.hotSentinel, holds.coldList.frame same holds.disjoint,
              rest, rfl, rfl, rfl, rfl⟩
      | none =>
          rw [List.getLast?_eq_none_iff] at hotLast
          subst hotLast
          refine ⟨replacer, ?_, by simp, fun _ => rfl⟩
          simp only [coldEmpty, holds.hotList.popBack_nil, bind, Except.bind, pure, Except.pure,
            Option.map_none]

/-- `lru_replacer_victim` takes out the frame to evict, if there is any. -/
theorem lruReplacerVictim_holds {replacer : LruReplacer} {cold hot : List FrameId}
    (holds : LruHolds replacer cold hot) :
    ∃ after, lruReplacerVictim replacer = .ok (after, lruVictim cold hot) ∧
      (∀ frame, lruVictim cold hot = some frame →
        LruHolds after (cold.erase frame) (hot.erase frame)) ∧
      (lruVictim cold hot = none → after = replacer) := by
  obtain ⟨address, holds⟩ := holds
  obtain ⟨middle, popped, lists, same⟩ := holds.popVictim
  unfold lruReplacerVictim
  rw [popped]
  cases victim : lruVictim cold hot with
  | none => exact ⟨middle, rfl, by simp, fun _ => same victim⟩
  | some frame =>
      have unlinked := lists frame victim
      have member := lruVictim_mem victim
      obtain ⟨count, inHot, _, entry, _, _⟩ := holds.unlink member
      have entry' : middle.entryAt (address frame) = .ok ⟨frame, count, inHot⟩ := by
        unfold LruReplacer.entryAt at entry ⊢
        rwa [unlinked.entries]
      refine ⟨middle.freeEntry (address frame) frame, ?_, ?_⟩
      · simp only [Option.map_some, entry', bind, Except.bind, pure, Except.pure,
          LruReplacer.freeEntry]
      · refine ⟨?_, by simp⟩
        rintro other ⟨⟩
        exact ⟨address, holds.freed member unlinked⟩

end MiniSqlite.Buffer
