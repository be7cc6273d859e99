import MiniSqlite.Index.IndexIterator
import MiniSqlite.Index.TreeRuns
import MiniSqlite.Std.ChunkScan

/-!
# Range scans of a tree

`bpt_find_range` and the index iterator walk along the linked leaves, the one leaf by leaf, the
other entry by entry. The entries of a search tree are sorted and its leaves are chunks of them,
so the former reads the range, and the latter the part of it in front of the first gap: removals
leave empty leaves in the chain, and `index_iterator_next` takes an empty leaf for the end.
-/

namespace MiniSqlite.Index

open MiniSqlite.Common MiniSqlite.Std MiniSqlite.Storage MiniSqlite.Buffer

/-- The entries of leaves. -/
abbrev chunksOf (leaves : List (PageId × List (Int64 × Rid))) : List (List (Int64 × Rid)) :=
  leaves.map Prod.snd

/-- The page of the first of the leaves, or the end of the chain. -/
def headPage (leaves : List (PageId × List (Int64 × Rid))) : PageId :=
  (leaves.head?.map Prod.fst).getD invalidPageId

section Leaves

variable {page : Page} {entries : List (Int64 × Rid)} {next : PageId} {high : Int64}

/-- The inner loop of `bpt_find_range` reads up to a larger key. -/
theorem LeafLaid.leafRange (laid : LeafLaid page entries next) (high : Int64) (start : Nat) :
    leafRange page high (entries.length - start) start =
      ((upTo high (entries.drop start)).map Prod.snd,
        decide (Exceeds high (entries.drop start))) := by
  induction remaining : entries.length - start generalizing start with
  | zero =>
      rw [List.drop_eq_nil_of_le (by omega)]
      simp [Index.leafRange, upTo, Exceeds]
  | succ count ih =>
      have inside : start < entries.length := by omega
      obtain ⟨keyAt, ridAt⟩ := laid.key_at inside
      rw [Index.leafRange, keyAt, ridAt, List.drop_eq_getElem_cons inside]
      by_cases larger : high < entries[start].1
      · rw [if_pos larger, upTo_cons_past larger, decide_eq_true (exceeds_cons.mpr (.inl larger))]
        rfl
      · rw [if_neg larger, ih (start + 1) (by omega), upTo_cons (not_lt.mp larger)]
        simp only [exceeds_cons, larger, false_or, List.map_cons]

end Leaves

section Scans

variable {store : PageStore} {low high : Int64}
variable {leaves : List (PageId × List (Int64 × Rid))}

theorem headPage_cons (leaf : PageId × List (Int64 × Rid)) : headPage (leaf :: leaves) = leaf.1 :=
  rfl

/-- The outer loop of `bpt_find_range`, behind the first leaf. -/
theorem rangeFrom_linked {leafPid : PageId} (linked : Linked store.pages leaves invalidPageId)
    (apart : ∀ leaf ∈ leaves, leaf.1 ≠ leafPid) {turns : Nat} (enough : leaves.length < turns) :
    rangeFrom leafPid low high turns store (headPage leaves) =
      .ok (store, (readChunks high (chunksOf leaves)).map Prod.snd) := by
  induction leaves generalizing turns with
  | nil =>
      obtain ⟨turns, rfl⟩ := Nat.exists_eq_add_one_of_ne_zero (by omega : turns ≠ 0)
      rfl
  | cons leaf rest ih =>
      obtain ⟨turns, rfl⟩ := Nat.exists_eq_add_one_of_ne_zero (by omega : turns ≠ 0)
      obtain ⟨⟨page, present, laid⟩, linkedRest⟩ := linked
      obtain ⟨fetched, shown⟩ := fetchPage_present present
      have later := ih linkedRest (fun other member => apart other (List.mem_cons_of_mem _ member))
        (Nat.lt_of_succ_lt_succ enough)
      have read := laid.leafRange high 0
      rw [List.drop_zero, Nat.sub_zero] at read
      rw [headPage_cons, rangeFrom, if_neg (PageStore.ne_invalid present), fetched, ok_bind]
      dsimp only
      rw [shown, if_neg (apart leaf List.mem_cons_self), laid.size, Int.toNat_natCast, Nat.sub_zero,
        read, laid.next]
      dsimp only
      rw [unpinPage_store, ok_bind, chunksOf, List.map_cons, readChunks]
      by_cases exceeds : Exceeds high leaf.2
      · rw [if_pos exceeds, if_pos (decide_eq_true exceeds)]
        rfl
      · rw [if_neg exceeds, if_neg (by simpa using exceeds), ← headPage, later, ok_bind,
          upTo_of_not_exceeds exceeds, List.map_append]
        rfl

/-! ## The iterator -/

/-- What an iterator is still to return. -/
def Reads (store : PageStore) (it : IndexIterator) (entries : List (Int64 × Rid)) : Prop :=
  (it.exhausted = true ∧ entries = []) ∨
    (it.exhausted = false ∧ ∃ leaf behind, it.currentPageId = leaf.1 ∧
      Linked store.pages (leaf :: behind) invalidPageId ∧
      entries = scanChunks it.highKey (leaf.2.drop it.currentIndex) (chunksOf behind))

/-- The end of `index_iterator_next` on a leaf. -/
theorem currentEntry_linked {it : IndexIterator} (open_ : it.exhausted = false)
    {leaf : PageId × List (Int64 × Rid)} (here : it.currentPageId = leaf.1)
    (linked : Linked store.pages (leaf :: leaves) invalidPageId)
    {entries : List (Int64 × Rid)}
    (reads : entries = if leaf.2.drop it.currentIndex = [] then [] else
      scanChunks it.highKey (leaf.2.drop it.currentIndex) (chunksOf leaves)) :
    ∃ after, currentEntry it store leaf.1 = .ok (store, after, entries.head?) ∧
      Reads store after entries.tail := by
  have whole := linked
  obtain ⟨⟨page, present, laid⟩, -⟩ := linked
  obtain ⟨_, shown⟩ := fetchPage_present present
  rw [currentEntry, shown, unpinPage_store, ok_bind, laid.size]
  by_cases inside : it.currentIndex < leaf.2.length
  · obtain ⟨keyAt, ridAt⟩ := laid.key_at inside
    rw [if_neg (by omega), keyAt, ridAt]
    rw [List.drop_eq_getElem_cons inside, if_neg (List.cons_ne_nil _ _)] at reads
    by_cases larger : it.highKey < leaf.2[it.currentIndex].1
    · rw [scanChunks_cons_past larger] at reads
      rw [if_pos larger, reads]
      exact ⟨_, rfl, .inl ⟨rfl, rfl⟩⟩
    · rw [scanChunks_cons (not_lt.mp larger)] at reads
      rw [if_neg larger, reads]
      exact ⟨_, rfl, .inr ⟨open_, leaf, leaves, here, whole, rfl⟩⟩
  · rw [if_pos (by omega)]
    rw [if_pos (List.drop_eq_nil_of_le (by omega))] at reads
    rw [reads]
    exact ⟨_, rfl, .inl ⟨rfl, rfl⟩⟩

/-- `index_iterator_next` returns the first of the entries that the iterator is to return. -/
theorem Reads.next {it : IndexIterator} {entries : List (Int64 × Rid)}
    (reads : Reads store it entries) :
    ∃ after, indexIteratorNext it store = .ok (store, after, entries.head?) ∧
      Reads store after entries.tail := by
  rcases reads with ⟨ended, rfl⟩ | ⟨goes, leaf, behind, here, linked, shape⟩
  · rw [indexIteratorNext, if_pos ended]
    exact ⟨it, rfl, .inl ⟨ended, rfl⟩⟩
  · have whole := linked
    obtain ⟨⟨page, present, laid⟩, rest⟩ := linked
    obtain ⟨fetched, shown⟩ := fetchPage_present present
    rw [indexIteratorNext, if_neg (by rw [goes]; decide), here, fetched, ok_bind]
    dsimp only
    rw [shown, laid.size, laid.next]
    by_cases inside : it.currentIndex < leaf.2.length
    · rw [if_neg (by omega)]
      refine currentEntry_linked goes here whole ?_
      rw [if_neg (by simpa using inside)]
      exact shape
    · rw [if_pos (by omega), unpinPage_store, ok_bind]
      rw [List.drop_eq_nil_of_le (by omega)] at shape
      cases behind with
      | nil =>
          rw [shape]
          exact ⟨_, rfl, .inl ⟨rfl, rfl⟩⟩
      | cons following behind =>
          obtain ⟨nextPage, nextPresent, _⟩ := rest.1
          rw [show ((List.head? (following :: behind)).map Prod.fst).getD invalidPageId =
            following.1 from rfl, if_neg (PageStore.ne_invalid nextPresent)]
          rw [(fetchPage_present nextPresent).1, ok_bind]
          refine @currentEntry_linked store behind
            { it with currentPageId := following.1, currentIndex := 0 } goes following rfl rest _ ?_
          rw [shape, chunksOf, List.map_cons, scanChunks_nil_cons, List.drop_zero]

/-- Advanced to its end, the iterator returns all of them. -/
theorem Reads.entriesFrom {it : IndexIterator} {entries : List (Int64 × Rid)}
    (reads : Reads store it entries) {turns : Nat} (enough : entries.length < turns) :
    ∃ after, entriesFrom turns it store = .ok (store, after, entries) := by
  induction entries generalizing it turns with
  | nil =>
      obtain ⟨turns, rfl⟩ := Nat.exists_eq_add_one_of_ne_zero (by omega : turns ≠ 0)
      obtain ⟨after, ran, _⟩ := reads.next
      refine ⟨after, ?_⟩
      rw [Index.entriesFrom, ran]
      rfl
  | cons entry rest ih =>
      obtain ⟨turns, rfl⟩ := Nat.exists_eq_add_one_of_ne_zero (by omega : turns ≠ 0)
      obtain ⟨after, ran, later⟩ := reads.next
      obtain ⟨last, ended⟩ := ih later (Nat.lt_of_succ_lt_succ enough)
      refine ⟨last, ?_⟩
      rw [Index.entriesFrom, ran, ok_bind]
      simp only [List.head?_cons]
      rw [ended]
      rfl

end Scans

section Trees

variable {store : PageStore} {height : Nat} {next : PageId}
variable {tree : PageTree height} {low high : Bound Int64} {key : Int64}

/-- `find_leaf_page` ends at the leaf where the key leads. -/
theorem Holds.findLeafPage (holds : Holds store.pages next tree) (ordered : tree.Ordered low high)
    (above : low ≤ bound key) (below : bound key < high) {turns : Nat} (enough : height < turns) :
    findLeafPage key turns store tree.label = .ok (store, some (tree.leafOf key).1) := by
  induction height generalizing next low high turns with
  | zero =>
      obtain ⟨turns, rfl⟩ := Nat.exists_eq_add_one_of_ne_zero (by omega : turns ≠ 0)
      obtain ⟨label, entries⟩ := tree
      obtain ⟨page, present, laid⟩ := holds
      obtain ⟨fetched, shown⟩ := fetchPage_present present
      show Index.findLeafPage key (turns + 1) store label = _
      rw [Index.findLeafPage, fetched, ok_bind]
      dsimp only
      rw [shown, if_pos laid.isLeaf]
      rfl
  | succ height ih =>
      obtain ⟨turns, rfl⟩ := Nat.exists_eq_add_one_of_ne_zero (by omega : turns ≠ 0)
      obtain ⟨label, fan⟩ := tree
      obtain ⟨⟨page, present, laid⟩, chained⟩ := holds
      obtain ⟨fetched, shown⟩ := fetchPage_present present
      obtain ⟨first, second, child, aboveChild, belowChild, _, _, _⟩ :=
        SearchTree.ordered_locate ordered above below
      obtain ⟨_, following, childHolds⟩ := chained.of_mem _ (fan.locate_child_mem key)
      obtain ⟨position, stands⟩ := laid.locate (SearchTree.ordered_keys ordered).1 key
      have walk := ih childHolds child aboveChild belowChild (Nat.lt_of_succ_lt_succ enough)
      show Index.findLeafPage key (turns + 1) store label = _
      rw [Index.findLeafPage, fetched, ok_bind]
      dsimp only
      rw [shown, if_neg (by rw [laid.inner]; decide), position, stands, unpinPage_store, ok_bind]
      exact walk

end Trees

/-! ## Ranges of a tree -/

section Represented

variable {tree : BPlusTree PageStore} {height : Nat} {shape : PageTree height}

/-- Where a range begins in the chain of leaves: in the leaf to which its low key leads, between
leaves with smaller keys and leaves with larger ones. -/
structure RangeStart (shape : PageTree height) (low : Int64)
    (leaf : PageId × List (Int64 × Rid)) (behind : List (PageId × List (Int64 × Rid))) : Prop where
  stands : leaf = shape.leafOf low
  split : ∃ front, shape.leaves = front ++ leaf :: behind ∧
    ∀ entry ∈ front.flatMap Prod.snd, entry.1 < low
  larger : ∀ entry ∈ (chunksOf behind).flatten, low < entry.1

/-- The entries of a leaf from the low key on. -/
def restOf (low : Int64) (leaf : PageId × List (Int64 × Rid)) : List (Int64 × Rid) :=
  leaf.2.drop (position low leaf.2)

theorem Represents.rangeStart (represents : Represents tree shape) (low : Int64) :
    ∃ leaf behind, RangeStart shape low leaf behind := by
  obtain ⟨front, behind, split, smaller, larger⟩ :=
    represents.ordered.leaves_around (bound_inside low).1 (bound_inside low).2
  refine ⟨_, behind, rfl, ⟨front, split, smaller⟩, ?_⟩
  rwa [chunksOf, ← List.flatMap_def]

variable {low : Int64} {leaf : PageId × List (Int64 × Rid)}
variable {behind : List (PageId × List (Int64 × Rid))}

/-- The chain of leaves from there on has sorted entries, and the range is read from them. -/
theorem RangeStart.chain (start : RangeStart shape low leaf behind)
    (represents : Represents tree shape) :
    Linked tree.bpm.pages (leaf :: behind) invalidPageId ∧
      SortedKeys (leaf.2 ++ (chunksOf behind).flatten) ∧
      ∀ high, within low high shape.entries =
        upTo high (restOf low leaf ++ (chunksOf behind).flatten) := by
  obtain ⟨front, split, smaller⟩ := start.split
  have linked := represents.holds.linked
  have sorted := represents.ordered.entries.1
  have entries : shape.entries =
      front.flatMap Prod.snd ++ (leaf.2 ++ (chunksOf behind).flatten) := by
    rw [SearchTree.entries, split, List.flatMap_append, List.flatMap_cons, chunksOf,
      ← List.flatMap_def]
  rw [split] at linked
  rw [entries] at sorted
  have sortedBehind := (List.pairwise_append.mp sorted).2.1
  refine ⟨(linked_append.mp linked).2, sortedBehind, fun high => ?_⟩
  rw [entries, within_append smaller, within_eq_upTo_drop sortedBehind start.larger, restOf]

/-- The search in the leaf where a range begins. -/
theorem RangeStart.position (start : RangeStart shape low leaf behind)
    (represents : Represents tree shape) {page : Page} {next : PageId}
    (laid : LeafLaid page leaf.2 next) :
    leafFindPosition page low = Std.position low leaf.2 := by
  have sorted := (List.pairwise_append.mp (start.chain represents).2.1).1
  exact laid.findPosition (sorted.imp Int64.le_of_lt) low

/-- `bpt_find_range` returns the RIDs of the entries in the range. -/
theorem Represents.bptFindRange (represents : Represents tree shape) (low high : Int64)
    {turns : Nat} (enough : shape.leaves.length < turns) :
    bptFindRange turns tree low high =
      .ok (tree, (within low high shape.entries).map Prod.snd) := by
  obtain ⟨leaf, behind, start⟩ := represents.rangeStart low
  obtain ⟨linked, -, range⟩ := start.chain represents
  obtain ⟨⟨page, present, laid⟩, rest⟩ := linked
  obtain ⟨front, split, -⟩ := start.split
  have few : behind.length < turns - 1 := by
    rw [split, List.length_append, List.length_cons] at enough
    omega
  have apart : ∀ other ∈ behind, other.1 ≠ leaf.1 := by
    have ids := (SearchTree.leaves_labels shape).nodup represents.nodup
    rw [split, List.map_append, List.map_cons] at ids
    have behindIds := (List.nodup_cons.mp (List.nodup_append.mp ids).2.1).1
    intro other member same
    exact behindIds (List.mem_map.mpr ⟨other, member, same⟩)
  obtain ⟨turns, rfl⟩ := Nat.exists_eq_add_one_of_ne_zero (by omega : turns ≠ 0)
  obtain ⟨fetched, shown⟩ := fetchPage_present present
  have later := @rangeFrom_linked tree.bpm low high behind leaf.1 rest apart turns few
  have read := laid.leafRange high (Std.position low leaf.2)
  rw [Index.bptFindRange, represents.findLeaf low, ok_bind, ← start.stands]
  dsimp only
  rw [rangeFrom, if_neg (PageStore.ne_invalid present), fetched, ok_bind]
  dsimp only
  rw [shown, if_pos rfl, start.position represents laid, laid.size, Int.toNat_natCast, read,
    laid.next, range, ← List.flatten_cons, ← readChunks_eq, readChunks, unpinPage_store, restOf]
  dsimp only
  rw [ok_bind]
  by_cases exceeds : Exceeds high (leaf.2.drop (Std.position low leaf.2))
  · rw [if_pos exceeds, if_pos (decide_eq_true exceeds)]
    rfl
  · rw [if_neg exceeds, if_neg (by simpa using exceeds), ← headPage, later, ok_bind,
      upTo_of_not_exceeds exceeds, List.map_append]
    rfl

/-- `index_iterator_init` places the iterator on the leaf where the range begins, or on the
following one if there is no key left. -/
theorem RangeStart.indexIteratorInit (start : RangeStart shape low leaf behind)
    (represents : Represents tree shape) (high : Int64) {turns : Nat} (enough : height < turns) :
    ∃ it, indexIteratorInit turns tree.bpm tree.rootPageId low high = .ok (tree.bpm, it) ∧
      Reads tree.bpm it (scanFrom high (restOf low leaf) (chunksOf behind)) := by
  have linked := (start.chain represents).1
  have whole := linked
  obtain ⟨⟨page, present, laid⟩, rest⟩ := linked
  obtain ⟨fetched, shown⟩ := fetchPage_present present
  have walk := represents.holds.findLeafPage represents.ordered (bound_inside low).1
    (bound_inside low).2 enough
  rw [← represents.root, ← start.stands] at walk
  rw [Index.indexIteratorInit, walk, ok_bind]
  dsimp only
  rw [fetched, ok_bind]
  dsimp only
  rw [shown, start.position represents laid, unpinPage_store, ok_bind, laid.size, laid.next]
  by_cases inside : Std.position low leaf.2 < leaf.2.length
  · rw [if_neg (by omega)]
    refine ⟨_, rfl, .inr ⟨rfl, leaf, behind, rfl, whole, ?_⟩⟩
    have some : restOf low leaf ≠ [] := by
      rw [restOf, List.drop_eq_getElem_cons inside]
      exact List.cons_ne_nil _ _
    cases behind with
    | nil => rfl
    | cons following behind =>
        rw [chunksOf, List.map_cons, scanFrom, if_neg some]
        rfl
  · have none : restOf low leaf = [] := List.drop_eq_nil_of_le (by omega)
    rw [if_pos (by omega), none]
    cases behind with
    | nil => exact ⟨_, rfl, .inl ⟨rfl, rfl⟩⟩
    | cons following behind =>
        obtain ⟨nextPage, nextPresent, _⟩ := rest.1
        have valid := PageStore.ne_invalid nextPresent
        refine ⟨_, if_neg valid, .inr ⟨rfl, following, behind, rfl, rest, ?_⟩⟩
        rw [chunksOf, List.map_cons, scanFrom, if_pos rfl]
        rfl

/-- The entries that an iterator returns. -/
theorem RangeStart.iterateRange (start : RangeStart shape low leaf behind)
    (represents : Represents tree shape) (high : Int64) :
    ∃ enough, ∀ turns ≥ enough, iterateRange turns tree.bpm tree.rootPageId low high =
      .ok (tree.bpm, scanFrom high (restOf low leaf) (chunksOf behind)) := by
  refine ⟨height + (scanFrom high (restOf low leaf) (chunksOf behind)).length + 1,
    fun turns enough => ?_⟩
  obtain ⟨it, made, reads⟩ := start.indexIteratorInit represents high
    (show height < turns by omega)
  obtain ⟨last, ran⟩ := reads.entriesFrom
    (show (scanFrom high (restOf low leaf) (chunksOf behind)).length < turns by omega)
  rw [Index.iterateRange, made, ok_bind]
  dsimp only
  rw [ran]
  rfl

end Represented

/-! ## Ranges after a run -/

section Runs

variable {tree last : BPlusTree PageStore} {calls : List TreeCall} {answers : List TreeAnswer}

theorem treeCalls_represents (empty : StartsEmpty tree)
    (ran : executeAnswers TreeCall.run tree calls = .ok (last, answers)) :
    Represents last (shapeAfter tree calls).tree ∧
      ∀ key, (shapeAfter tree calls).tree.entries.lookup key =
        (mapAfter tree.isUnique calls).1 key := by
  rcases treeCalls_refine empty calls with ⟨fails, _⟩ | ⟨other, same, represents, _, content⟩
  · rw [fails] at ran
    cases ran
  · obtain ⟨rfl, _⟩ := Prod.mk.inj (Except.ok.inj (same.symm.trans ran))
    exact ⟨represents, content⟩

/-- After every run of calls, `bpt_find_range` returns the RIDs of the map's entries in the range,
in the order of their keys. -/
theorem findRange_refines_map (empty : StartsEmpty tree)
    (ran : executeAnswers TreeCall.run tree calls = .ok (last, answers)) :
    ∃ entries : List (Int64 × Rid), SortedKeys entries ∧
      (∀ key, entries.lookup key = (mapAfter tree.isUnique calls).1 key) ∧
      ∃ enough, ∀ turns ≥ enough, ∀ low high, bptFindRange turns last low high =
        .ok (last, (within low high entries).map Prod.snd) := by
  obtain ⟨represents, content⟩ := treeCalls_represents empty ran
  refine ⟨_, represents.ordered.entries.1, content,
    (shapeAfter tree calls).tree.leaves.length + 1, fun turns enough low high => ?_⟩
  exact represents.bptFindRange low high (Nat.lt_of_succ_le enough)

/-- The one key of a tree is in a range around it. -/
theorem findRange_refines_map_oneKey : ∃ last answers rids enough,
    executeAnswers TreeCall.run emptyTree [.insert 5 ⟨1, 2⟩] = .ok (last, answers) ∧
      (∀ turns ≥ enough, bptFindRange turns last 1 9 = .ok (last, rids)) ∧ ⟨1, 2⟩ ∈ rids := by
  rcases treeCalls_refine emptyTree_startsEmpty [.insert 5 ⟨1, 2⟩] with
    ⟨_, few⟩ | ⟨last, ran, _⟩
  · exact absurd few (by decide)
  · obtain ⟨entries, _, content, enough, reads⟩ :=
      findRange_refines_map emptyTree_startsEmpty ran
    refine ⟨last, _, _, enough, ran, fun turns many => reads turns many 1 9, ?_⟩
    obtain ⟨front, back, split, _⟩ := List.lookup_eq_some_iff.mp ((content 5).trans rfl)
    refine List.mem_map.mpr ⟨(5, ⟨1, 2⟩), List.mem_filter.mpr ⟨?_, by decide⟩, rfl⟩
    rw [split]
    exact List.mem_append_right _ List.mem_cons_self

end Runs

end MiniSqlite.Index
