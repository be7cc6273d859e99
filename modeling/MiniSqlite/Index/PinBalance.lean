import MiniSqlite.Buffer.PinCounts
import MiniSqlite.Index.IndexIterator
import MiniSqlite.Std.Returns
import MiniSqlite.Std.Run

/-!
# The pins that index calls leave behind

`find_leaf` returns with its leaf pinned, and each caller fetches the leaf again but gives
up one of the two pins. So a call that reaches a leaf leaves one pin more on it, except
for an insertion that replaces the RID of a key: there the leaf is unpinned twice.
-/

namespace MiniSqlite.Index

open MiniSqlite.Common MiniSqlite.Std MiniSqlite.Storage MiniSqlite.Buffer MiniSqlite.Catalog

open PagePool (fetchPage newPage unpinPage data setData)

/-- The walk that `find_leaf` makes from a page, over the pages as a fetch would show them. -/
inductive Leads (shown : PageId → Option Page) (key : Int64) : PageId → PageId → Prop
  | leaf {pid : PageId} {node : Page} (present : shown pid = some node)
      (isLeaf : bpNodeGetType node = bpNodeTypeLeaf) : Leads shown key pid pid
  | child {pid leaf : PageId} {node : Page} (present : shown pid = some node)
      (inner : bpNodeGetType node ≠ bpNodeTypeLeaf)
      (rest : Leads shown key (internalGetChild node (internalFindPosition node key)) leaf) :
      Leads shown key pid leaf

/-- The leaf has an entry for the key. -/
def LeafHas (shown : PageId → Option Page) (leaf : PageId) (key : Int64) : Prop :=
  ∃ node, shown leaf = some node ∧ leafFindPosition node key < bpNodeGetSize node ∧
    leafGetKey node (leafFindPosition node key) = key

/-! ## The calls -/

/-- A call on an index: one of the tree, or the complete use of an iterator. -/
inductive IndexCall where
  | init (rootPageId : PageId) (unique : Bool)
  | insert (key : Int64) (rid : Rid)
  | remove (key : Int64)
  | find (key : Int64)
  | findRange (low high : Int64)
  | iterate (low high : Int64)

variable {Pool Frame : Type} [PagePool Pool Frame]

/-- The tree after a call, with its pool. -/
def IndexCall.run (turns : Nat) (tree : BPlusTree Pool) :
    IndexCall → Except Fault (BPlusTree Pool)
  | .init rootPageId unique => do
      match ← bptInit tree.indexId rootPageId tree.bpm unique with
      | (_, .ok made) => return made
      | (bpm, .error _) => return { tree with bpm := bpm }
  | .insert key rid => do
      let (tree, _) ← bptInsert tree key rid
      return tree
  | .remove key => do
      let (tree, _) ← bptRemove tree key
      return tree
  | .find key => do
      let (tree, _) ← bptFind tree key
      return tree
  | .findRange low high => do
      let (tree, _) ← bptFindRange turns tree low high
      return tree
  | .iterate low high => do
      let (bpm, _) ← iterateRange turns tree.bpm tree.rootPageId low high
      return { tree with bpm := bpm }

/-- The call reaches no leaf, or it replaces the RID of a key. -/
def PinsBalance (shown : PageId → Option Page) (tree : BPlusTree Pool) : IndexCall → Prop
  | .init _ _ => True
  | .insert key _ => ∀ leaf, Leads shown key tree.rootPageId leaf →
      tree.isUnique = false ∧ LeafHas shown leaf key
  | .remove key | .find key | .findRange key _ | .iterate key _ =>
      ∀ leaf, ¬Leads shown key tree.rootPageId leaf

/-! ## Walks -/

section Walks

variable {shown : PageId → Option Page} {key : Int64} {pid leaf : PageId} {node : Page}

theorem Leads.present (leads : Leads shown key pid leaf) : ∃ node, shown leaf = some node := by
  induction leads with
  | leaf present _ => exact ⟨_, present⟩
  | child _ _ _ ih => exact ih

theorem not_leads (absent : shown pid = none) : ¬Leads shown key pid leaf := by
  intro leads
  cases leads with
  | leaf present _ | child present _ _ =>
      rw [absent] at present
      cases present

theorem leads_leaf (present : shown pid = some node)
    (isLeaf : bpNodeGetType node = bpNodeTypeLeaf) (leads : Leads shown key pid leaf) :
    leaf = pid := by
  cases leads with
  | leaf _ _ => rfl
  | child present' inner _ =>
      rw [present] at present'
      exact absurd (Option.some.inj present' ▸ isLeaf) inner

theorem leads_child (present : shown pid = some node)
    (inner : bpNodeGetType node ≠ bpNodeTypeLeaf) : Leads shown key pid leaf ↔
      Leads shown key (internalGetChild node (internalFindPosition node key)) leaf := by
  refine ⟨fun leads => ?_, .child present inner⟩
  cases leads with
  | leaf present' isLeaf =>
      rw [present] at present'
      exact absurd (Option.some.inj present' ▸ isLeaf) inner
  | child present' _ rest =>
      rw [present] at present'
      exact Option.some.inj present' ▸ rest

end Walks

variable (counting : PinCounting Pool Frame)

/-- A walk that returned: the leaf it reached is pinned, and no other page. -/
def WalkCounted (key : Int64) (before after : Pool) (current : PageId) (found : Option PageId) :
    Prop :=
  counting.Sound after ∧ counting.shown after = counting.shown before ∧
    match found with
    | none => counting.pins after = counting.pins before ∧
        ∀ leaf, ¬Leads (counting.shown before) key current leaf
    | some leaf => counting.pins after = pinned (counting.pins before) leaf ∧
        ∀ other, Leads (counting.shown before) key current other ↔ other = leaf

variable {counting} {key : Int64} {bpm middle after : Pool} {current : PageId}
variable {tree next : BPlusTree Pool}

theorem WalkCounted.absent (sound : counting.Sound bpm)
    (fetched : fetchPage bpm current = .ok (after, none)) :
    WalkCounted counting key bpm after current none := by
  obtain ⟨sound, shown, pins, absent⟩ := counting.fetch_none sound fetched
  exact ⟨sound, shown, pins, fun leaf => not_leads absent⟩

theorem WalkCounted.leaf {page : Frame} (sound : counting.Sound bpm)
    (fetched : fetchPage bpm current = .ok (after, some page))
    (isLeaf : bpNodeGetType (data after page) = bpNodeTypeLeaf) :
    WalkCounted counting key bpm after current (some current) := by
  obtain ⟨sound, shown, pins, present⟩ := counting.fetch_some sound fetched
  refine ⟨sound, shown, pins, fun other => ⟨leads_leaf present isLeaf, ?_⟩⟩
  rintro rfl
  exact .leaf present isLeaf

theorem WalkCounted.child {page : Frame} {bpm' : Pool} {found : Option PageId}
    (sound : counting.Sound bpm) (fetched : fetchPage bpm current = .ok (middle, some page))
    (inner : bpNodeGetType (data middle page) ≠ bpNodeTypeLeaf)
    (unpins : unpinPage middle current false = .ok bpm')
    (rest : counting.Sound bpm' → WalkCounted counting key bpm' after
      (internalGetChild (data middle page) (internalFindPosition (data middle page) key)) found) :
    WalkCounted counting key bpm after current found := by
  obtain ⟨sound, shown, pins, present⟩ := counting.fetch_some sound fetched
  obtain ⟨sound, shown', pins'⟩ := counting.unpin sound unpins
  obtain ⟨soundAfter, shownAfter, walked⟩ := rest sound
  rw [pins, unpinned_pinned] at pins'
  rw [shown', shown, pins'] at walked
  refine ⟨soundAfter, shownAfter.trans (shown'.trans shown), ?_⟩
  cases found with
  | none => exact ⟨walked.1, fun leaf leads => walked.2 leaf ((leads_child present inner).mp leads)⟩
  | some leaf => exact ⟨walked.1, fun other => (leads_child present inner).trans (walked.2 other)⟩

theorem findLeafFrom_counted {room : Nat} {path : List PathEntry}
    {found : Option (PageId × List PathEntry)} (sound : counting.Sound bpm)
    (ran : findLeafFrom key room bpm current path = .ok (after, found)) :
    WalkCounted counting key bpm after current (found.map Prod.fst) := by
  induction room using Nat.strong_induction_on generalizing bpm current path with
  | _ room ih =>
      unfold findLeafFrom at ran
      obtain ⟨⟨middle, page⟩, fetched, ran⟩ := Returning.returned ran
      cases page with
      | none =>
          obtain ⟨rfl, rfl⟩ := Prod.mk.inj (Except.ok.inj ran)
          exact .absent sound fetched
      | some page =>
          by_cases isLeaf : bpNodeGetType (data middle page) = bpNodeTypeLeaf
          · simp only [isLeaf, if_true] at ran
            obtain ⟨rfl, rfl⟩ := Prod.mk.inj (Except.ok.inj ran)
            exact .leaf sound fetched isLeaf
          · simp only [isLeaf, if_false] at ran
            cases room with
            | zero => cases ran
            | succ room =>
                obtain ⟨bpm', unpins, ran⟩ := Returning.returned ran
                exact .child sound fetched isLeaf unpins fun sound => ih room (by omega) sound ran

theorem findLeaf_counted {found : Option (PageId × List PathEntry)}
    (sound : counting.Sound tree.bpm) (ran : findLeaf tree key = .ok (next, found)) :
    next = { tree with bpm := next.bpm } ∧
      WalkCounted counting key tree.bpm next.bpm tree.rootPageId (found.map Prod.fst) := by
  obtain ⟨⟨bpm, walked⟩, walks, returned⟩ := Returning.returned ran
  obtain ⟨rfl, rfl⟩ := Prod.mk.inj (Except.ok.inj returned)
  exact ⟨rfl, findLeafFrom_counted sound walks⟩

theorem findLeafPage_counted {turns : Nat} {found : Option PageId} (sound : counting.Sound bpm)
    (ran : findLeafPage key turns bpm current = .ok (after, found)) :
    WalkCounted counting key bpm after current found := by
  induction turns generalizing bpm current with
  | zero => cases ran
  | succ turns ih =>
      obtain ⟨⟨middle, page⟩, fetched, ran⟩ := Returning.returned ran
      cases page with
      | none =>
          obtain ⟨rfl, rfl⟩ := Prod.mk.inj (Except.ok.inj ran)
          exact .absent sound fetched
      | some page =>
          by_cases isLeaf : bpNodeGetType (data middle page) = bpNodeTypeLeaf
          · simp only [isLeaf, if_true] at ran
            obtain ⟨rfl, rfl⟩ := Prod.mk.inj (Except.ok.inj ran)
            exact .leaf sound fetched isLeaf
          · simp only [isLeaf, if_false] at ran
            obtain ⟨bpm', unpins, ran⟩ := Returning.returned ran
            exact .child sound fetched isLeaf unpins fun sound => ih sound ran

/-- A leaf that a walk has reached is there when it is fetched again. -/
theorem WalkCounted.again {leaf : PageId} {page : Option Frame}
    (walked : WalkCounted counting key bpm middle current (some leaf))
    (fetched : fetchPage middle leaf = .ok (after, page)) :
    ∃ frame, page = some frame ∧ counting.Sound after ∧
      counting.shown bpm leaf = some (data after frame) ∧
      counting.pins after = pinned (pinned (counting.pins bpm) leaf) leaf := by
  obtain ⟨sound, shown, pins, leads⟩ := walked
  cases page with
  | none =>
      obtain ⟨_, _, _, absent⟩ := counting.fetch_none sound fetched
      obtain ⟨node, present⟩ := ((leads leaf).mpr rfl).present
      rw [shown, present] at absent
      cases absent
  | some frame =>
      obtain ⟨sound, shown', pins', present⟩ := counting.fetch_some sound fetched
      rw [shown] at present
      rw [pins] at pins'
      exact ⟨frame, rfl, sound, present, pins'⟩

/-! ## What the calls leave pinned -/

variable (counting)

/-- A stretch of a call that leaves every page with the pins it had. -/
def PinsKept (before after : Pool) : Prop :=
  counting.Sound after ∧ counting.pins after = counting.pins before

variable {counting}

theorem PinsKept.trans (first : PinsKept counting bpm middle)
    (second : PinsKept counting middle after) : PinsKept counting bpm after :=
  ⟨second.1, second.2.trans first.2⟩

/-- A page fetched and given up again. -/
theorem PinsKept.fetched {page : Frame} {isDirty : Bool} (sound : counting.Sound bpm)
    (fetched : fetchPage bpm current = .ok (middle, some page))
    (unpins : unpinPage middle current isDirty = .ok after) : PinsKept counting bpm after := by
  obtain ⟨sound, _, pins, _⟩ := counting.fetch_some sound fetched
  obtain ⟨sound, _, pins'⟩ := counting.unpin sound unpins
  rw [pins, unpinned_pinned] at pins'
  exact ⟨sound, pins'⟩

/-- A page fetched, changed and given up again. -/
theorem PinsKept.changed {page : Frame} {isDirty : Bool} {bytes : Page}
    (sound : counting.Sound bpm) (fetched : fetchPage bpm current = .ok (middle, some page))
    (unpins : unpinPage (setData middle page bytes) current isDirty = .ok after) :
    PinsKept counting bpm after := by
  obtain ⟨sound, _, pins, _⟩ := counting.fetch_some sound fetched
  obtain ⟨sound, same⟩ := counting.setData page bytes sound
  obtain ⟨sound, _, pins'⟩ := counting.unpin sound unpins
  rw [same, pins, unpinned_pinned] at pins'
  exact ⟨sound, pins'⟩

/-- A page and a new one beside it, both written and given up. -/
theorem PinsKept.beside {pid newPid : PageId} {page newPage : Frame} {bytes newBytes : Page}
    {last : Pool} (sound : counting.Sound middle)
    (pins : counting.pins middle = pinned (counting.pins bpm) pid)
    (created : PagePool.newPage middle = .ok (after, some (newPid, newPage)))
    {first : Pool}
    (unpins : unpinPage (setData (setData after newPage newBytes) page bytes) pid true = .ok first)
    (unpinsNew : unpinPage first newPid true = .ok last) : PinsKept counting bpm last := by
  obtain ⟨sound, _, pinsNew⟩ := counting.new_some sound created
  obtain ⟨sound, same⟩ := counting.setData newPage newBytes sound
  obtain ⟨sound, same'⟩ := counting.setData page bytes sound
  obtain ⟨sound, _, pinsFirst⟩ := counting.unpin sound unpins
  obtain ⟨sound, _, pinsLast⟩ := counting.unpin sound unpinsNew
  rw [same', same, pinsNew, pins, unpinned_pinned_comm] at pinsFirst
  rw [pinsFirst, unpinned_pinned] at pinsLast
  exact ⟨sound, pinsLast⟩

theorem splitLeaf_pinsKept {leafPid siblingPid : PageId} {promotedKey : Int64}
    (sound : counting.Sound tree.bpm)
    (ran : splitLeaf tree leafPid = .ok (next, promotedKey, siblingPid)) :
    PinsKept counting tree.bpm next.bpm := by
  obtain ⟨⟨bpm, leaf⟩, fetched, ran⟩ := Returning.returned ran
  cases leaf with
  | none => cases ran
  | some leaf =>
      obtain ⟨⟨bpm', created⟩, creates, ran⟩ := Returning.returned ran
      cases created with
      | none => cases ran
      | some created =>
          obtain ⟨newPid, newLeaf⟩ := created
          obtain ⟨first, unpins, ran⟩ := Returning.returned ran
          obtain ⟨last, unpinsNew, returned⟩ := Returning.returned ran
          obtain ⟨rfl, -⟩ := Prod.mk.inj (Except.ok.inj returned)
          obtain ⟨sound, _, pins, _⟩ := counting.fetch_some sound fetched
          exact .beside sound pins creates unpins unpinsNew

theorem insertIntoParent_pinsKept {path : List PathEntry} {leftPid rightPid : PageId}
    {rc : ErrorCode} (sound : counting.Sound tree.bpm)
    (ran : insertIntoParent tree path leftPid key rightPid = .ok (next, rc)) :
    PinsKept counting tree.bpm next.bpm := by
  induction path generalizing tree leftPid key rightPid with
  | nil =>
      obtain ⟨⟨bpm, created⟩, creates, ran⟩ := Returning.returned ran
      cases created with
      | none =>
          obtain ⟨rfl, -⟩ := Prod.mk.inj (Except.ok.inj ran)
          exact counting.new_none sound creates
      | some created =>
          obtain ⟨newRootPid, page⟩ := created
          obtain ⟨last, unpins, returned⟩ := Returning.returned ran
          obtain ⟨rfl, -⟩ := Prod.mk.inj (Except.ok.inj returned)
          obtain ⟨sound, _, pins⟩ := counting.new_some sound creates
          obtain ⟨sound, same⟩ := counting.setData page _ sound
          obtain ⟨sound, _, pinsLast⟩ := counting.unpin sound unpins
          rw [same, pins, unpinned_pinned] at pinsLast
          exact ⟨sound, pinsLast⟩
  | cons entry path ih =>
      obtain ⟨parentPid, insertPos⟩ := entry
      obtain ⟨⟨bpm, parent⟩, fetched, ran⟩ := Returning.returned ran
      cases parent with
      | none => cases ran
      | some parent =>
          by_cases roomy : bpNodeGetSize (data bpm parent) < internalMaxKeys
          · simp only [roomy, if_true] at ran
            obtain ⟨last, unpins, returned⟩ := Returning.returned ran
            obtain ⟨rfl, -⟩ := Prod.mk.inj (Except.ok.inj returned)
            exact .changed sound fetched unpins
          · simp only [roomy, if_false] at ran
            obtain ⟨⟨bpm', created⟩, creates, ran⟩ := Returning.returned ran
            cases created with
            | none => cases ran
            | some created =>
                obtain ⟨newPid, newNode⟩ := created
                obtain ⟨first, unpins, ran⟩ := Returning.returned ran
                obtain ⟨last, unpinsNew, ran⟩ := Returning.returned ran
                obtain ⟨soundFetched, _, pins, _⟩ := counting.fetch_some sound fetched
                obtain ⟨soundPlaced, same⟩ := counting.setData parent
                  (internalPlace (data bpm parent) insertPos key rightPid) soundFetched
                have kept : PinsKept counting tree.bpm last :=
                  .beside soundPlaced (same.trans pins) creates unpins unpinsNew
                exact kept.trans (ih kept.1 ran)

variable (counting)

/-- A call that leaves one pin more on the leaf its walk reaches, if there is one. -/
def LeafLeft (key : Int64) (before after : Pool) (root : PageId) : Prop :=
  counting.Sound after ∧
    ((∀ leaf, ¬Leads (counting.shown before) key root leaf) ∧
        counting.pins after = counting.pins before ∨
      ∃ leaf, Leads (counting.shown before) key root leaf ∧
        counting.pins after = pinned (counting.pins before) leaf)

variable {counting}

theorem WalkCounted.left {found : Option PageId}
    (walked : WalkCounted counting key bpm middle current found)
    (kept : PinsKept counting middle after) : LeafLeft counting key bpm after current := by
  obtain ⟨_, _, walked⟩ := walked
  refine ⟨kept.1, ?_⟩
  cases found with
  | none => exact .inl ⟨walked.2, kept.2.trans walked.1⟩
  | some leaf => exact .inr ⟨leaf, (walked.2 leaf).mpr rfl, kept.2.trans walked.1⟩

theorem WalkCounted.kept {found : Option PageId}
    (walked : WalkCounted counting key bpm middle current found) :
    PinsKept counting middle middle :=
  ⟨walked.1, rfl⟩

theorem bptFind_counted {result : Except ErrorCode Rid} (sound : counting.Sound tree.bpm)
    (ran : bptFind tree key = .ok (next, result)) :
    LeafLeft counting key tree.bpm next.bpm tree.rootPageId := by
  obtain ⟨⟨walkedTree, found⟩, walks, ran⟩ := Returning.returned ran
  obtain ⟨-, walked⟩ := findLeaf_counted sound walks
  cases found with
  | none =>
      obtain ⟨rfl, -⟩ := Prod.mk.inj (Except.ok.inj ran)
      exact walked.left walked.kept
  | some found =>
      obtain ⟨⟨bpm, page⟩, fetched, ran⟩ := Returning.returned ran
      obtain ⟨page, rfl, -⟩ := walked.again fetched
      obtain ⟨last, unpins, ran⟩ := Returning.returned ran
      have kept := PinsKept.fetched walked.1 fetched unpins
      split at ran <;>
        · obtain ⟨rfl, -⟩ := Prod.mk.inj (Except.ok.inj ran)
          exact walked.left kept

theorem bptRemove_counted {rc : ErrorCode} (sound : counting.Sound tree.bpm)
    (ran : bptRemove tree key = .ok (next, rc)) :
    LeafLeft counting key tree.bpm next.bpm tree.rootPageId := by
  obtain ⟨⟨walkedTree, found⟩, walks, ran⟩ := Returning.returned ran
  obtain ⟨-, walked⟩ := findLeaf_counted sound walks
  cases found with
  | none =>
      obtain ⟨rfl, -⟩ := Prod.mk.inj (Except.ok.inj ran)
      exact walked.left walked.kept
  | some found =>
      obtain ⟨⟨bpm, page⟩, fetched, ran⟩ := Returning.returned ran
      obtain ⟨page, rfl, -⟩ := walked.again fetched
      dsimp only at ran
      split at ran
      · obtain ⟨last, unpins, returned⟩ := Returning.returned ran
        obtain ⟨rfl, -⟩ := Prod.mk.inj (Except.ok.inj returned)
        exact walked.left (.fetched walked.1 fetched unpins)
      · obtain ⟨last, unpins, returned⟩ := Returning.returned ran
        obtain ⟨rfl, -⟩ := Prod.mk.inj (Except.ok.inj returned)
        exact walked.left (.changed walked.1 fetched unpins)

theorem rangeFrom_pinsKept {leafPid : PageId} {low high : Int64} {turns : Nat} {rids : List Rid}
    (sound : counting.Sound bpm)
    (ran : rangeFrom leafPid low high turns bpm current = .ok (after, rids)) :
    PinsKept counting bpm after := by
  induction turns generalizing bpm current rids with
  | zero => cases ran
  | succ turns ih =>
      unfold rangeFrom at ran
      split at ran
      · obtain ⟨rfl, -⟩ := Prod.mk.inj (Except.ok.inj ran)
        exact ⟨sound, rfl⟩
      · obtain ⟨⟨middle, page⟩, fetched, ran⟩ := Returning.returned ran
        cases page with
        | none =>
            obtain ⟨rfl, -⟩ := Prod.mk.inj (Except.ok.inj ran)
            obtain ⟨sound, _, pins, _⟩ := counting.fetch_none sound fetched
            exact ⟨sound, pins⟩
        | some page =>
            dsimp only at ran
            generalize (if current = leafPid then leafFindPosition (data middle page) low else 0) =
              startPos at ran
            generalize leafRange (data middle page) high
              ((bpNodeGetSize (data middle page)).toNat - startPos) startPos = ranged at ran
            obtain ⟨rids, past⟩ := ranged
            obtain ⟨bpm', unpins, ran⟩ := Returning.returned ran
            have kept := PinsKept.fetched sound fetched unpins
            cases past with
            | true =>
                obtain ⟨rfl, -⟩ := Prod.mk.inj (Except.ok.inj ran)
                exact kept
            | false =>
                obtain ⟨⟨last, more⟩, rest, returned⟩ := Returning.returned ran
                obtain ⟨rfl, -⟩ := Prod.mk.inj (Except.ok.inj returned)
                exact kept.trans (ih kept.1 rest)

theorem bptFindRange_counted {turns : Nat} {high : Int64} {rids : List Rid}
    (sound : counting.Sound tree.bpm) (ran : bptFindRange turns tree key high = .ok (next, rids)) :
    LeafLeft counting key tree.bpm next.bpm tree.rootPageId := by
  obtain ⟨⟨walkedTree, found⟩, walks, ran⟩ := Returning.returned ran
  obtain ⟨-, walked⟩ := findLeaf_counted sound walks
  cases found with
  | none =>
      obtain ⟨rfl, -⟩ := Prod.mk.inj (Except.ok.inj ran)
      exact walked.left walked.kept
  | some found =>
      obtain ⟨⟨last, found⟩, ranges, returned⟩ := Returning.returned ran
      obtain ⟨rfl, -⟩ := Prod.mk.inj (Except.ok.inj returned)
      exact walked.left (rangeFrom_pinsKept walked.1 ranges)

/-! ## Iterators -/

theorem indexIteratorInit_counted {turns : Nat} {high : Int64} {it : IndexIterator}
    (sound : counting.Sound bpm)
    (ran : indexIteratorInit turns bpm current key high = .ok (after, it)) :
    LeafLeft counting key bpm after current := by
  obtain ⟨⟨middle, found⟩, walks, ran⟩ := Returning.returned ran
  have walked := findLeafPage_counted sound walks
  cases found with
  | none =>
      obtain ⟨rfl, -⟩ := Prod.mk.inj (Except.ok.inj ran)
      exact walked.left walked.kept
  | some leaf =>
      obtain ⟨⟨bpm', page⟩, fetched, ran⟩ := Returning.returned ran
      obtain ⟨page, rfl, -⟩ := walked.again fetched
      obtain ⟨last, unpins, ran⟩ := Returning.returned ran
      have kept := PinsKept.fetched walked.1 fetched unpins
      have same : after = last := by
        dsimp only at ran
        split at ran
        · split at ran <;> exact (Prod.mk.inj (Except.ok.inj ran)).1.symm
        · exact (Prod.mk.inj (Except.ok.inj ran)).1.symm
      exact same ▸ walked.left kept

theorem currentEntry_unpins {it it' : IndexIterator} {page : Frame} {entry : Option (Int64 × Rid)}
    (ran : currentEntry it bpm page = .ok (after, it', entry)) :
    unpinPage bpm it.currentPageId false = .ok after := by
  obtain ⟨last, unpins, ran⟩ := Returning.returned ran
  have same : last = after := by
    split at ran
    · exact (Prod.mk.inj (Except.ok.inj ran)).1
    · dsimp only at ran
      split at ran <;> exact (Prod.mk.inj (Except.ok.inj ran)).1
  exact same ▸ unpins

theorem indexIteratorNext_pinsKept {it it' : IndexIterator} {entry : Option (Int64 × Rid)}
    (sound : counting.Sound bpm) (ran : indexIteratorNext it bpm = .ok (after, it', entry)) :
    PinsKept counting bpm after := by
  unfold indexIteratorNext at ran
  split at ran
  · obtain ⟨rfl, -⟩ := Prod.mk.inj (Except.ok.inj ran)
    exact ⟨sound, rfl⟩
  · obtain ⟨⟨middle, page⟩, fetched, ran⟩ := Returning.returned ran
    cases page with
    | none =>
        obtain ⟨rfl, -⟩ := Prod.mk.inj (Except.ok.inj ran)
        obtain ⟨sound, _, pins, _⟩ := counting.fetch_none sound fetched
        exact ⟨sound, pins⟩
    | some page =>
        dsimp only at ran
        split at ran
        · obtain ⟨bpm', unpins, ran⟩ := Returning.returned ran
          have kept := PinsKept.fetched sound fetched unpins
          split at ran
          · obtain ⟨rfl, -⟩ := Prod.mk.inj (Except.ok.inj ran)
            exact kept
          · obtain ⟨⟨other, following⟩, fetchedNext, ran⟩ := Returning.returned ran
            cases following with
            | none =>
                obtain ⟨rfl, -⟩ := Prod.mk.inj (Except.ok.inj ran)
                obtain ⟨sound, _, pins, _⟩ := counting.fetch_none kept.1 fetchedNext
                exact kept.trans ⟨sound, pins⟩
            | some following =>
                exact kept.trans (.fetched kept.1 fetchedNext (currentEntry_unpins ran))
        · exact .fetched sound fetched (currentEntry_unpins ran)

theorem entriesFrom_pinsKept {turns : Nat} {it it' : IndexIterator}
    {entries : List (Int64 × Rid)} (sound : counting.Sound bpm)
    (ran : entriesFrom turns it bpm = .ok (after, it', entries)) :
    PinsKept counting bpm after := by
  induction turns generalizing it it' bpm entries with
  | zero => cases ran
  | succ turns ih =>
      obtain ⟨⟨middle, it₁, entry⟩, advances, ran⟩ := Returning.returned ran
      have kept := indexIteratorNext_pinsKept sound advances
      cases entry with
      | none =>
          obtain ⟨rfl, -⟩ := Prod.mk.inj (Except.ok.inj ran)
          exact kept
      | some entry =>
          obtain ⟨⟨last, it₂, more⟩, rest, returned⟩ := Returning.returned ran
          obtain ⟨rfl, -⟩ := Prod.mk.inj (Except.ok.inj returned)
          exact kept.trans (ih kept.1 rest)

theorem iterateRange_counted {turns : Nat} {high : Int64} {entries : List (Int64 × Rid)}
    (sound : counting.Sound bpm)
    (ran : iterateRange turns bpm current key high = .ok (after, entries)) :
    LeafLeft counting key bpm after current := by
  obtain ⟨⟨middle, it⟩, made, ran⟩ := Returning.returned ran
  obtain ⟨⟨last, it', entries'⟩, scans, returned⟩ := Returning.returned ran
  obtain ⟨rfl, -⟩ := Prod.mk.inj (Except.ok.inj returned)
  obtain ⟨soundMiddle, outcome⟩ := indexIteratorInit_counted sound made
  obtain ⟨soundLast, same⟩ := entriesFrom_pinsKept soundMiddle scans
  exact ⟨soundLast, same ▸ outcome⟩

/-! ## Insertions -/

/-- An insertion into a non-unique tree that finds the key leaves all pins as they were. Any
other leaves one on the leaf, if there is one. -/
theorem bptInsert_counted {rid : Rid} {rc : ErrorCode} (sound : counting.Sound tree.bpm)
    (ran : bptInsert tree key rid = .ok (next, rc)) :
    PinsKept counting tree.bpm next.bpm ∧
        (∀ leaf, Leads (counting.shown tree.bpm) key tree.rootPageId leaf →
          tree.isUnique = false ∧ LeafHas (counting.shown tree.bpm) leaf key) ∨
      LeafLeft counting key tree.bpm next.bpm tree.rootPageId ∧
        ∀ leaf, Leads (counting.shown tree.bpm) key tree.rootPageId leaf →
          ¬(tree.isUnique = false ∧ LeafHas (counting.shown tree.bpm) leaf key) := by
  obtain ⟨⟨walkedTree, found⟩, walks, ran⟩ := Returning.returned ran
  obtain ⟨shape, walked⟩ := findLeaf_counted sound walks
  have unique : walkedTree.isUnique = tree.isUnique := by rw [shape]
  cases found with
  | none =>
      obtain ⟨rfl, -⟩ := Prod.mk.inj (Except.ok.inj ran)
      obtain ⟨sound, _, pins, nowhere⟩ := walked
      exact .inl ⟨⟨sound, pins⟩, fun leaf leads => absurd leads (nowhere leaf)⟩
  | some found =>
      obtain ⟨leafPid, path⟩ := found
      obtain ⟨⟨bpm, page⟩, fetched, ran⟩ := Returning.returned ran
      obtain ⟨leaf, rfl, soundAgain, present, pins⟩ := walked.again fetched
      have only := walked.2.2.2
      dsimp only at ran
      by_cases has : leafFindPosition (data bpm leaf) key < bpNodeGetSize (data bpm leaf) ∧
          leafGetKey (data bpm leaf) (leafFindPosition (data bpm leaf) key) = key
      · simp only [has, and_self, if_true] at ran
        obtain ⟨bpm', unpins, ran⟩ := Returning.returned ran
        obtain ⟨soundFirst, _, pinsFirst⟩ := counting.unpin soundAgain unpins
        cases isUnique : walkedTree.isUnique with
        | true =>
            simp only [isUnique, if_true] at ran
            obtain ⟨rfl, -⟩ := Prod.mk.inj (Except.ok.inj ran)
            refine .inr ⟨walked.left (.fetched walked.1 fetched unpins), fun _ _ replaces => ?_⟩
            rw [← unique, isUnique] at replaces
            cases replaces.1
        | false =>
            simp only [isUnique] at ran
            obtain ⟨last, unpinsLast, returned⟩ := Returning.returned ran
            obtain ⟨rfl, -⟩ := Prod.mk.inj (Except.ok.inj returned)
            obtain ⟨soundSet, same⟩ := counting.setData leaf _ soundFirst
            obtain ⟨soundLast, _, pinsLast⟩ := counting.unpin soundSet unpinsLast
            rw [same, pinsFirst, pins, unpinned_pinned, unpinned_pinned] at pinsLast
            refine .inl ⟨⟨soundLast, pinsLast⟩, fun other leads => ?_⟩
            rw [(only other).mp leads]
            exact ⟨unique.symm.trans isUnique, _, present, has⟩
      · have lacks : ∀ other, Leads (counting.shown tree.bpm) key tree.rootPageId other →
            ¬(tree.isUnique = false ∧ LeafHas (counting.shown tree.bpm) other key) := by
          rintro other leads ⟨_, node, shown, finds⟩
          rw [(only other).mp leads, present] at shown
          exact has (Option.some.inj shown ▸ finds)
        refine .inr ⟨?_, lacks⟩
        simp only [has, if_false] at ran
        split at ran
        · obtain ⟨last, unpins, returned⟩ := Returning.returned ran
          obtain ⟨rfl, -⟩ := Prod.mk.inj (Except.ok.inj returned)
          exact walked.left (.changed walked.1 fetched unpins)
        · obtain ⟨bpm', unpins, ran⟩ := Returning.returned ran
          obtain ⟨⟨split, promotedKey, siblingPid⟩, splits, inserts⟩ := Returning.returned ran
          have kept := PinsKept.changed walked.1 fetched unpins
          have halved := splitLeaf_pinsKept kept.1 splits
          have linked := insertIntoParent_pinsKept halved.1 inserts
          exact walked.left (kept.trans (halved.trans linked))

/-! ## Balance -/

theorem bptInit_pinsKept {indexId : IndexId} {unique : Bool}
    {made : Except ErrorCode (BPlusTree Pool)} (sound : counting.Sound bpm)
    (ran : bptInit indexId current bpm unique = .ok (after, made)) :
    PinsKept counting bpm after ∧ ∀ tree, made = .ok tree → tree.bpm = after := by
  unfold bptInit at ran
  split at ran
  · obtain ⟨⟨middle, created⟩, creates, ran⟩ := Returning.returned ran
    cases created with
    | none =>
        obtain ⟨rfl, rfl⟩ := Prod.mk.inj (Except.ok.inj ran)
        exact ⟨counting.new_none sound creates, by rintro tree ⟨⟩⟩
    | some created =>
        obtain ⟨newPid, page⟩ := created
        obtain ⟨last, unpins, returned⟩ := Returning.returned ran
        obtain ⟨rfl, rfl⟩ := Prod.mk.inj (Except.ok.inj returned)
        obtain ⟨sound, _, pins⟩ := counting.new_some sound creates
        obtain ⟨sound, same⟩ := counting.setData page _ sound
        obtain ⟨sound, _, pinsLast⟩ := counting.unpin sound unpins
        rw [same, pins, unpinned_pinned] at pinsLast
        exact ⟨⟨sound, pinsLast⟩, by rintro tree ⟨⟩; rfl⟩
  · obtain ⟨rfl, rfl⟩ := Prod.mk.inj (Except.ok.inj ran)
    exact ⟨⟨sound, rfl⟩, by rintro tree ⟨⟩; rfl⟩

/-- A call either keeps all pins or leaves one more on the leaf it reaches. -/
def CallCounted (counting : PinCounting Pool Frame) (tree next : BPlusTree Pool) (key : Int64)
    (call : IndexCall) : Prop :=
  PinsKept counting tree.bpm next.bpm ∧ PinsBalance (counting.shown tree.bpm) tree call ∨
    counting.Sound next.bpm ∧ ¬PinsBalance (counting.shown tree.bpm) tree call ∧
      ∃ leaf, Leads (counting.shown tree.bpm) key tree.rootPageId leaf ∧
        counting.pins next.bpm = pinned (counting.pins tree.bpm) leaf

theorem LeafLeft.counted {call : IndexCall}
    (left : LeafLeft counting key tree.bpm next.bpm tree.rootPageId)
    (balances : PinsBalance (counting.shown tree.bpm) tree call ↔
      ∀ leaf, ¬Leads (counting.shown tree.bpm) key tree.rootPageId leaf) :
    CallCounted counting tree next key call := by
  obtain ⟨sound, ⟨nowhere, pins⟩ | ⟨leaf, leads, pins⟩⟩ := left
  · exact .inl ⟨⟨sound, pins⟩, balances.mpr nowhere⟩
  · exact .inr ⟨sound, fun balanced => balances.mp balanced leaf leads, leaf, leads, pins⟩

theorem IndexCall.counted {turns : Nat} {call : IndexCall} (sound : counting.Sound tree.bpm)
    (ran : call.run turns tree = .ok next) : ∃ key, CallCounted counting tree next key call := by
  cases call with
  | init rootPageId unique =>
      obtain ⟨⟨bpm, made⟩, inits, returned⟩ := Returning.returned ran
      obtain ⟨kept, pool⟩ := bptInit_pinsKept sound inits
      refine ⟨0, .inl ⟨?_, trivial⟩⟩
      cases made with
      | error rc =>
          obtain rfl := Except.ok.inj returned
          exact kept
      | ok made =>
          obtain rfl := Except.ok.inj returned
          exact pool _ rfl ▸ kept
  | insert key rid =>
      obtain ⟨⟨made, rc⟩, inserts, returned⟩ := Returning.returned ran
      obtain rfl := Except.ok.inj returned
      rcases bptInsert_counted sound inserts with ⟨kept, balanced⟩ | ⟨left, lacks⟩
      · exact ⟨key, .inl ⟨kept, balanced⟩⟩
      · refine ⟨key, left.counted ⟨fun balanced leaf leads => ?_, fun nowhere leaf leads => ?_⟩⟩
        · exact lacks leaf leads (balanced leaf leads)
        · exact absurd leads (nowhere leaf)
  | remove key =>
      obtain ⟨⟨made, rc⟩, removes, returned⟩ := Returning.returned ran
      obtain rfl := Except.ok.inj returned
      exact ⟨key, (bptRemove_counted sound removes).counted Iff.rfl⟩
  | find key =>
      obtain ⟨⟨made, rid⟩, finds, returned⟩ := Returning.returned ran
      obtain rfl := Except.ok.inj returned
      exact ⟨key, (bptFind_counted sound finds).counted Iff.rfl⟩
  | findRange low high =>
      obtain ⟨⟨made, rids⟩, ranges, returned⟩ := Returning.returned ran
      obtain rfl := Except.ok.inj returned
      exact ⟨low, (bptFindRange_counted sound ranges).counted Iff.rfl⟩
  | iterate low high =>
      obtain ⟨⟨bpm, entries⟩, iterates, returned⟩ := Returning.returned ran
      obtain rfl := Except.ok.inj returned
      have left : LeafLeft counting low tree.bpm ({ tree with bpm := bpm } : BPlusTree Pool).bpm
          tree.rootPageId := iterateRange_counted sound iterates
      exact ⟨low, left.counted Iff.rfl⟩

/-- A call keeps the pins of all pages if and only if it reaches no leaf, or replaces the RID
of a key. -/
theorem IndexCall.pinsKept_iff {turns : Nat} {call : IndexCall} (sound : counting.Sound tree.bpm)
    (ran : call.run turns tree = .ok next) :
    (∀ pid, counting.pins next.bpm pid = counting.pins tree.bpm pid) ↔
      PinsBalance (counting.shown tree.bpm) tree call := by
  obtain ⟨key, ⟨kept, balanced⟩ | ⟨_, unbalanced, leaf, _, pins⟩⟩ := call.counted sound ran
  · exact iff_of_true (congrFun kept.2) balanced
  · refine iff_of_false (fun same => ?_) unbalanced
    exact pinned_ne (counting.pins tree.bpm) leaf (pins.symm.trans (funext same))

/-! ## Runs on the real pool -/

/-- The tree after a call, or as it was if the call crashes. -/
def indexStep (turns : Nat) (tree : BPlusTree SteadyPool) (call : IndexCall) :
    BPlusTree SteadyPool :=
  match call.run turns tree with
  | .ok next => next
  | .error _ => tree

/-- The call returns, without evicting a page. -/
def CallReturns (turns : Nat) (tree : BPlusTree SteadyPool) (call : IndexCall) : Prop :=
  (call.run turns tree).isOk = true

/-- Every page of the pool has as many pins after the call as before. -/
def KeepsPins (turns : Nat) (tree : BPlusTree SteadyPool) (call : IndexCall) : Prop :=
  ∀ pid, (indexStep turns tree call).bpm.bpm.pinCount pid = tree.bpm.bpm.pinCount pid

/-- The call balances its pins on the pool as it is. -/
def CallBalances (tree : BPlusTree SteadyPool) (call : IndexCall) : Prop :=
  PinsBalance tree.bpm.bpm.shown tree call

theorem CallReturns.ran {turns : Nat} {tree : BPlusTree SteadyPool} {call : IndexCall}
    (returns : CallReturns turns tree call) :
    call.run turns tree = .ok (indexStep turns tree call) := by
  unfold CallReturns at returns
  unfold indexStep
  cases ran : call.run turns tree with
  | ok next => rfl
  | error fault =>
      rw [ran] at returns
      cases returns

theorem indexStep_sound {turns : Nat} {tree : BPlusTree SteadyPool} (sound : tree.bpm.Sound)
    (call : IndexCall) : (indexStep turns tree call).bpm.Sound := by
  unfold indexStep
  split
  · rename_i next ran
    obtain ⟨key, ⟨kept, _⟩ | ⟨soundAfter, _⟩⟩ :=
      @IndexCall.counted _ _ _ steadyPins _ _ _ _ sound ran
    · exact kept.1
    · exact soundAfter
  · exact sound

/-- In a run of calls that return, each keeps the pins of all pages if and only if each
balances them. -/
theorem keepsPins_iff {turns : Nat} {tree : BPlusTree SteadyPool} (sound : tree.bpm.Sound)
    {calls : List IndexCall}
    (returns : EachStep (indexStep turns) (CallReturns turns) tree calls) :
    EachStep (indexStep turns) (KeepsPins turns) tree calls ↔
      EachStep (indexStep turns) (fun tree call => CallBalances tree call) tree calls := by
  refine @eachStep_iff_of_assumed _ _ (indexStep turns) (CallReturns turns) _ (KeepsPins turns)
    (fun tree => tree.bpm.Sound) ?_ ?_ tree calls sound returns
  · exact fun tree call sound _ _ => indexStep_sound sound call
  · intro tree call sound returns
    exact @IndexCall.pinsKept_iff _ _ _ steadyPins _ _ _ _ sound returns.ran

/-- A pool over a new database file is sound. -/
theorem steadyPool_init {poolSize : Nat} {bpm : BufferPoolManager}
    (created : bpmInit poolSize diskManagerCreate = .ok bpm) : (SteadyPool.mk bpm).Sound := by
  refine ⟨?_, bpmInit_freedKept diskManagerCreate_healthy created⟩
  obtain ⟨fresh, created', sound, _, _, pages⟩ := bpmInit_sound poolSize diskManagerCreate
  obtain rfl := Except.ok.inj (created.symm.trans created')
  exact ⟨_, _, _, sound, fun frame _ => by rw [pages]⟩

/-- A tree made in a pool of two frames, and a key looked up in it. -/
theorem keepsPins_iff_find : ∃ bpm, bpmInit 2 diskManagerCreate = .ok bpm ∧
    (EachStep (indexStep 2) (KeepsPins 2) ⟨0, invalidPageId, ⟨bpm⟩, true⟩
        [.init invalidPageId true, .find 7] ↔
      EachStep (indexStep 2) (fun tree call => CallBalances tree call)
        ⟨0, invalidPageId, ⟨bpm⟩, true⟩ [.init invalidPageId true, .find 7]) :=
  ⟨_, rfl, keepsPins_iff (@steadyPool_init 2 _ rfl)
    ⟨by unfold CallReturns; decide +kernel, by unfold CallReturns; decide +kernel, trivial⟩⟩

/-- A key looked up in an empty tree leaves the root pinned. -/
theorem find_leaves_pin : ∃ bpm, bpmInit 2 diskManagerCreate = .ok bpm ∧
    ¬EachStep (indexStep 2) (KeepsPins 2) ⟨0, invalidPageId, ⟨bpm⟩, true⟩
      [.init invalidPageId true, .find 7] := by
  refine ⟨_, rfl, fun keeps => ?_⟩
  have same := keeps.2.1 1
  revert same
  decide +kernel

end MiniSqlite.Index
