import MiniSqlite.Executor.BpmHeap
import MiniSqlite.Std.Run
import MiniSqlite.Std.Integers

/-!
# The heap file over an ideal pool

What each function of `bpm_heap.c` does when the pool is a `PageStore`. The
pages of a heap form a chain without repetitions of valid slotted pages
(`HeapSound`); every loop follows that chain to its end. `heapContents` is the
map from RIDs to bytes that the chain stores.
-/

namespace MiniSqlite.Executor

open MiniSqlite.Common MiniSqlite.Std MiniSqlite.Storage MiniSqlite.Buffer

/-- A heap over the ideal pool. -/
abbrev StoreHeap := BpmHeap PageStore

/-! ## The page chain -/

/-- `chain` lists the pages met from `first` on along the next pointers. -/
def Chained (pages : PageId → Option Page) : PageId → List PageId → Prop
  | first, [] => first = invalidPageId
  | first, pid :: rest =>
      first = pid ∧ ∃ page, pages pid = some page ∧
        Chained pages (pageHeaderGetNextPage page) rest

/-- Follows the next pointers for at most `turns` pages. -/
def chainFrom (pages : PageId → Option Page) : Nat → PageId → List PageId
  | 0, _ => []
  | turns + 1, first =>
      match pages first with
      | none => []
      | some page => first :: chainFrom pages turns (pageHeaderGetNextPage page)

/-- The pages of a heap. -/
def heapPages (hf : StoreHeap) : List PageId :=
  chainFrom hf.bpm.pages maxPages hf.firstPageId

/-- The tuples of a heap. -/
def heapContents (hf : StoreHeap) (rid : Rid) : Option (List UInt8) :=
  if rid.pageId ∈ heapPages hf then
    (hf.bpm.pages rid.pageId).bind fun page => recordOf page rid.slotId
  else none

/-- The pages of the heap are a chain without repetitions of valid slotted pages. -/
structure HeapSound (hf : StoreHeap) (chain : List PageId) : Prop where
  chained : Chained hf.bpm.pages hf.firstPageId chain
  nodup : chain.Nodup
  valid : ∀ pid ∈ chain, ∀ page, hf.bpm.pages pid = some page → ValidPage page

theorem Chained.used {pages : PageId → Option Page} {first : PageId} {chain : List PageId}
    (chained : Chained pages first chain) {pid : PageId} (member : pid ∈ chain) :
    ∃ page, pages pid = some page := by
  induction chain generalizing first with
  | nil => exact absurd member List.not_mem_nil
  | cons head rest ih =>
      obtain ⟨_, page, used, next⟩ := chained
      rcases List.mem_cons.mp member with rfl | inRest
      · exact ⟨page, used⟩
      · exact ih next inRest

theorem HeapSound.length_lt {hf : StoreHeap} {chain : List PageId}
    (sound : HeapSound hf chain) : chain.length < maxPages := by
  refine length_lt_of_missing invalidPageId sound.nodup fun member => ?_
  obtain ⟨page, used⟩ := sound.chained.used member
  exact PageStore.ne_invalid used rfl

theorem chainFrom_eq {store : PageStore} {first : PageId} {chain : List PageId}
    (chained : Chained store.pages first chain) {turns : Nat} (enough : chain.length < turns) :
    chainFrom store.pages turns first = chain := by
  induction chain generalizing first turns with
  | nil =>
      cases turns with
      | zero => rfl
      | succ turns =>
          rw [show first = invalidPageId from chained]
          simp [chainFrom, store.invalid_unused.2]
  | cons head rest ih =>
      obtain ⟨rfl, page, used, next⟩ := chained
      cases turns with
      | zero => exact absurd enough (Nat.not_lt_zero _)
      | succ turns =>
          simp only [chainFrom, used]
          rw [ih next (Nat.lt_of_succ_lt_succ enough)]

theorem HeapSound.heapPages_eq {hf : StoreHeap} {chain : List PageId}
    (sound : HeapSound hf chain) : heapPages hf = chain :=
  chainFrom_eq sound.chained sound.length_lt

/-- A chain only depends on the next pointers of its own pages. -/
theorem Chained.congr {pages pages' : PageId → Option Page} {first : PageId}
    {chain : List PageId} (chained : Chained pages first chain)
    (same : ∀ pid ∈ chain, ∀ page, pages pid = some page →
      ∃ page', pages' pid = some page' ∧
        pageHeaderGetNextPage page' = pageHeaderGetNextPage page) :
    Chained pages' first chain := by
  induction chain generalizing first with
  | nil => exact chained
  | cons head rest ih =>
      obtain ⟨rfl, page, used, next⟩ := chained
      obtain ⟨page', used', nextEq⟩ := same _ List.mem_cons_self page used
      refine ⟨rfl, page', used', ?_⟩
      rw [nextEq]
      exact ih next fun pid member => same pid (List.mem_cons_of_mem _ member)

/-! ## Finding a page -/

/-- The page has room for a tuple and its slot. -/
def hasRoom (store : PageStore) (tupleSize : Nat) (pid : PageId) : Bool :=
  slottedPageFreeSpace (PagePool.data store pid) ≥ tupleSize + slotSize

theorem data_of_used {store : PageStore} {pid : PageId} {page : Page}
    (used : store.pages pid = some page) : PagePool.data store pid = page := by
  show (store.pages pid).getD zeroPage = page
  rw [used]
  rfl

theorem fetch_of_used {store : PageStore} {pid : PageId} {page : Page}
    (used : store.pages pid = some page) :
    PagePool.fetchPage store pid = .ok (store, some pid) := by
  show Except.ok (store, (store.pages pid).map fun _ => pid) = _
  rw [used]
  rfl

theorem fetch_of_unused {store : PageStore} {pid : PageId} (unused : store.pages pid = none) :
    PagePool.fetchPage store pid = .ok (store, none) := by
  show Except.ok (store, (store.pages pid).map fun _ => pid) = _
  rw [unused]
  rfl

@[simp] theorem unpinPage_store (store : PageStore) (pid : PageId) (isDirty : Bool) :
    PagePool.unpinPage store pid isDirty = .ok store := rfl

@[simp] theorem setData_store (store : PageStore) (pid : PageId) (page : Page) :
    PagePool.setData store pid page = store.set pid page := rfl

theorem newPage_store {store : PageStore} {pid : PageId} {rest : List PageId}
    (supply : store.fresh = pid :: rest) :
    ∃ after : PageStore, PagePool.newPage store = .ok (after, some (pid, pid)) ∧
      after.fresh = rest ∧
      ∀ other, after.pages other = if other = pid then some zeroPage else store.pages other := by
  obtain ⟨after, allocated, fresh, pages⟩ := PageStore.allocate_cons supply
  refine ⟨after, ?_, fresh, pages⟩
  show (store.allocate >>= _) = _
  rw [allocated]
  rfl

theorem newPage_exhausted {store : PageStore} (exhausted : store.fresh = []) :
    PagePool.newPage store = .error .overflow := by
  show (store.allocate >>= _) = _
  rw [PageStore.allocate_nil exhausted]
  rfl

/-- The search loop finds the first page of the chain that has room. -/
theorem searchPages_chain {store : PageStore} {current : PageId} {chain : List PageId}
    (chained : Chained store.pages current chain) (tupleSize : Nat) {turns : Nat}
    (enough : chain.length < turns) :
    searchPages tupleSize turns store current =
      .ok (store, .ok ((chain.find? (hasRoom store tupleSize)).map fun pid => (pid, pid))) := by
  induction chain generalizing current turns with
  | nil =>
      obtain ⟨turns, rfl⟩ := Nat.exists_eq_succ_of_ne_zero (Nat.ne_of_gt enough)
      rw [show current = invalidPageId from chained]
      simp [searchPages]
  | cons head rest ih =>
      obtain ⟨turns, rfl⟩ := Nat.exists_eq_succ_of_ne_zero (Nat.ne_of_gt (Nat.zero_lt_of_lt enough))
      obtain ⟨rfl, page, used, next⟩ := chained
      have tail := ih next (Nat.lt_of_succ_lt_succ enough)
      rw [searchPages, if_neg (PageStore.ne_invalid used), fetch_of_used used]
      simp only [bind, Except.bind, data_of_used used]
      by_cases room : slottedPageFreeSpace page ≥ tupleSize + slotSize
      · have found : hasRoom store tupleSize current = true := by
          simp only [hasRoom, data_of_used used, room, decide_true]
        simp only [if_pos room, List.find?_cons, found]
        rfl
      · have skipped : hasRoom store tupleSize current = false := by
          simp only [hasRoom, data_of_used used, room, decide_false]
        simp only [if_neg room, List.find?_cons, skipped, unpinPage_store]
        exact tail

/-- The linking loop sets the next pointer of the last page of the chain. -/
theorem linkLast_chain {store : PageStore} {last : PageId} {chain : List PageId}
    (chained : Chained store.pages last chain) (nonempty : chain ≠ []) (newPid : PageId)
    {turns : Nat} (enough : chain.length ≤ turns) :
    ∃ page, store.pages (chain.getLast nonempty) = some page ∧
      linkLast newPid turns store last =
        .ok (store.set (chain.getLast nonempty) (pageHeaderSetNextPage page newPid), .ok) := by
  induction chain generalizing last turns with
  | nil => exact absurd rfl nonempty
  | cons head rest ih =>
      obtain ⟨turns, rfl⟩ := Nat.exists_eq_succ_of_ne_zero (Nat.ne_of_gt (Nat.zero_lt_of_lt enough))
      obtain ⟨rfl, page, used, next⟩ := chained
      rw [linkLast, fetch_of_used used]
      simp only [bind, Except.bind, data_of_used used]
      cases rest with
      | nil =>
          refine ⟨page, used, ?_⟩
          rw [if_pos (show pageHeaderGetNextPage page = invalidPageId from next)]
          rfl
      | cons second rest =>
          have continues : pageHeaderGetNextPage page ≠ invalidPageId := by
            obtain ⟨same, _, secondUsed, _⟩ := next
            rw [same]
            exact PageStore.ne_invalid secondUsed
          simp only [if_neg continues, unpinPage_store]
          exact ih next (by simp) (Nat.le_of_succ_le_succ enough)

/-! ## Growing the chain -/

/-- `after` has its first page where `before` has, and has changed no page of others. -/
structure HeapMoved (before after : StoreHeap) (old new : List PageId) : Prop where
  first : before.firstPageId ≠ invalidPageId → after.firstPageId = before.firstPageId
  elsewhere : ∀ pid ∉ old, ∀ page, before.bpm.pages pid = some page →
    after.bpm.pages pid = some page
  unused : ∀ pid ∈ new, pid ∉ old → before.bpm.pages pid = none

theorem HeapMoved.refl (hf : StoreHeap) (chain : List PageId) : HeapMoved hf hf chain chain where
  first _ := rfl
  elsewhere _ _ _ used := used
  unused _ member absent := absurd member absent

theorem HeapMoved.trans {first second third : StoreHeap} {a b c : List PageId}
    (start : HeapMoved first second a b) (rest : HeapMoved second third b c) :
    HeapMoved first third a c where
  first valid := by
    have same := start.first valid
    rw [rest.first (by rw [same]; exact valid), same]
  elsewhere pid absent page used := by
    have absent' : pid ∉ b := by
      intro member
      rw [start.unused pid member absent] at used
      exact absurd used (by simp)
    exact rest.elsewhere pid absent' page (start.elsewhere pid absent page used)
  unused pid member absent := by
    by_cases inMiddle : pid ∈ b
    · exact start.unused pid inMiddle absent
    · have unusedLater := rest.unused pid member inMiddle
      cases used : first.bpm.pages pid with
      | none => rfl
      | some page =>
          rw [start.elsewhere pid absent page used] at unusedLater
          exact absurd unusedLater (by simp)

/-- `after` has the pages of `before` with their tuples, and possibly empty pages more. -/
structure HeapGrown (before after : StoreHeap) (old new : List PageId) : Prop
    extends HeapMoved before after old new where
  sound : HeapSound after new
  subset : ∀ pid ∈ old, pid ∈ new
  kept : ∀ pid ∈ old, ∀ page, before.bpm.pages pid = some page →
    ∃ page', after.bpm.pages pid = some page' ∧
      pageHeaderGetNumTuples page' = pageHeaderGetNumTuples page ∧
      ∀ i, recordAt page' i = recordAt page i
  added : ∀ pid ∈ new, pid ∉ old →
    ∃ page, after.bpm.pages pid = some page ∧ pageHeaderGetNumTuples page = 0

theorem HeapGrown.refl {hf : StoreHeap} {chain : List PageId} (sound : HeapSound hf chain) :
    HeapGrown hf hf chain chain where
  toHeapMoved := .refl hf chain
  sound := sound
  subset _ member := member
  kept _ _ page used := ⟨page, used, rfl, fun _ => rfl⟩
  added _ member absent := absurd member absent

theorem HeapGrown.trans {first second third : StoreHeap} {a b c : List PageId}
    (start : HeapGrown first second a b) (rest : HeapGrown second third b c) :
    HeapGrown first third a c where
  toHeapMoved := start.toHeapMoved.trans rest.toHeapMoved
  sound := rest.sound
  subset pid member := rest.subset pid (start.subset pid member)
  kept pid member page used := by
    obtain ⟨page', used', count', records'⟩ := start.kept pid member page used
    obtain ⟨page'', used'', count'', records''⟩ := rest.kept pid (start.subset pid member) page' used'
    exact ⟨page'', used'', count''.trans count', fun i => (records'' i).trans (records' i)⟩
  added pid member absent := by
    by_cases inMiddle : pid ∈ b
    · obtain ⟨page, used, count⟩ := start.added pid inMiddle absent
      obtain ⟨page', used', count', _⟩ := rest.kept pid inMiddle page used
      exact ⟨page', used', count'.trans count⟩
    · exact rest.added pid member inMiddle

/-- Appending a page to a chain: the last page points to it and it points nowhere. -/
theorem Chained.append {pages pages' : PageId → Option Page} {first : PageId}
    {chain : List PageId} (chained : Chained pages first chain) (nonempty : chain ≠ [])
    (nodup : chain.Nodup) {newPid : PageId} {newPg lastPg : Page}
    (newUsed : pages' newPid = some newPg) (newLast : pageHeaderGetNextPage newPg = invalidPageId)
    (lastUsed : pages' (chain.getLast nonempty) = some lastPg)
    (lastNext : pageHeaderGetNextPage lastPg = newPid)
    (others : ∀ pid ∈ chain, pid ≠ chain.getLast nonempty → pages' pid = pages pid) :
    Chained pages' first (chain ++ [newPid]) := by
  induction chain generalizing first with
  | nil => exact absurd rfl nonempty
  | cons head rest ih =>
      obtain ⟨rfl, page, used, next⟩ := chained
      cases rest with
      | nil => exact ⟨rfl, lastPg, lastUsed, lastNext, newPg, newUsed, newLast⟩
      | cons second rest =>
          obtain ⟨distinct, nodupRest⟩ := List.nodup_cons.mp nodup
          have inner : first ≠ (first :: second :: rest).getLast nonempty := by
            intro same
            rw [List.getLast_cons (by simp)] at same
            exact distinct (same ▸ List.getLast_mem _)
          refine ⟨rfl, page, ?_, ih next (by simp) nodupRest ?_ ?_⟩
          · rw [others _ List.mem_cons_self inner, used]
          · rwa [List.getLast_cons (by simp)] at lastUsed
          · intro pid member differ
            refine others pid (List.mem_cons_of_mem _ member) ?_
            rwa [List.getLast_cons (by simp)]

/-- `ensure_first_page` gives an empty heap its first page, if there is one to give. -/
theorem ensureFirstPage_store {hf : StoreHeap} {chain : List PageId}
    (sound : HeapSound hf chain) :
    (ensureFirstPage hf = .error .overflow ∧ hf.bpm.fresh.length = 0) ∨
      ∃ after chain', ensureFirstPage hf = .ok (after, .ok) ∧
        HeapGrown hf after chain chain' ∧ chain' ≠ [] ∧
        hf.bpm.fresh.length ≤ after.bpm.fresh.length + 1 := by
  cases chain with
  | cons head tail =>
      obtain ⟨first, page, used, _⟩ := sound.chained
      have present : hf.firstPageId ≠ invalidPageId := by
        rw [first]
        exact PageStore.ne_invalid used
      exact .inr ⟨hf, head :: tail, if_pos present, .refl sound, by simp, Nat.le_succ _⟩
  | nil =>
      have empty : ¬ hf.firstPageId ≠ invalidPageId := not_not.mpr sound.chained
      cases supply : hf.bpm.fresh with
      | nil =>
          refine .inl ⟨?_, rfl⟩
          rw [ensureFirstPage, if_neg empty, newPage_exhausted supply]
          rfl
      | cons pid rest =>
          obtain ⟨store, allocated, fresh, pages⟩ := newPage_store supply
          have zeroed : store.pages pid = some zeroPage := by rw [pages, if_pos rfl]
          have written := PageStore.set_pages zeroed (slottedPageInit zeroPage pid)
          have used : (store.set pid (slottedPageInit zeroPage pid)).pages pid =
              some (slottedPageInit zeroPage pid) := by rw [written, if_pos rfl]
          refine .inr ⟨⟨store.set pid (slottedPageInit zeroPage pid), pid⟩, [pid], ?_, ?_, by simp,
            by simp [fresh]⟩
          · simp only [ensureFirstPage, if_neg empty, bind, Except.bind, pure, Except.pure,
              allocated, data_of_used zeroed, setData_store, unpinPage_store]
          · have fresh := hf.bpm.fresh_unused pid (by simp [supply])
            refine ⟨⟨fun present => absurd present empty, fun other _ page there => ?_,
              fun other member _ => List.mem_singleton.mp member ▸ fresh⟩,
              ⟨⟨rfl, _, used, ?_⟩, by simp, ?_⟩, by simp, by simp, ?_⟩
            · have differ : other ≠ pid := by
                rintro rfl
                rw [fresh] at there
                exact absurd there (by simp)
              dsimp only
              rw [written, if_neg differ, pages, if_neg differ, there]
            · exact getNextPage_init _ _
            · intro other member page there
              rw [List.mem_singleton.mp member, used, Option.some.injEq] at there
              exact there ▸ validPage_init _ _
            · intro other member _
              rw [List.mem_singleton.mp member]
              exact ⟨_, used, getNumTuples_init _ _⟩

/-- The page `find_page_with_space` returns has room for the tuple or is empty. -/
structure PageFound (before after : StoreHeap) (chain chain' : List PageId) (tupleSize : Nat)
    (pid : PageId) (page : Page) : Prop where
  grown : HeapGrown before after chain chain'
  member : pid ∈ chain'
  used : after.bpm.pages pid = some page
  room : tupleSize + slotSize ≤ slottedPageFreeSpace page ∨
    slottedPageFreeSpace page = pageSize - pageHeaderSize

/-- Appending a freshly initialised page. -/
theorem appendPage {hf : StoreHeap} {chain : List PageId} (sound : HeapSound hf chain)
    (nonempty : chain ≠ []) {store : PageStore} {newPid : PageId} {lastPg : Page}
    (unused : hf.bpm.pages newPid = none)
    (lastUsed : hf.bpm.pages (chain.getLast nonempty) = some lastPg)
    (pages : ∀ other, store.pages other =
      if other = chain.getLast nonempty then some (pageHeaderSetNextPage lastPg newPid)
      else if other = newPid then some (slottedPageInit zeroPage newPid)
      else hf.bpm.pages other) :
    HeapGrown hf ⟨store, hf.firstPageId⟩ chain (chain ++ [newPid]) := by
  have lastMember : chain.getLast nonempty ∈ chain := List.getLast_mem nonempty
  have fresh : newPid ∉ chain := by
    intro member
    obtain ⟨page, used⟩ := sound.chained.used member
    rw [unused] at used
    exact absurd used (by simp)
  have differ : newPid ≠ chain.getLast nonempty := fun same => fresh (same ▸ lastMember)
  have newUsed : store.pages newPid = some (slottedPageInit zeroPage newPid) := by
    rw [pages, if_neg differ, if_pos rfl]
  have lastNow : store.pages (chain.getLast nonempty) =
      some (pageHeaderSetNextPage lastPg newPid) := by rw [pages, if_pos rfl]
  have others : ∀ pid ∈ chain, pid ≠ chain.getLast nonempty →
      store.pages pid = hf.bpm.pages pid := by
    intro pid member inner
    have old : pid ≠ newPid := fun same => fresh (same ▸ member)
    rw [pages, if_neg inner, if_neg old]
  have relinked := (sound.valid _ lastMember lastPg lastUsed).setNextPage newPid
  refine ⟨⟨fun _ => rfl, fun pid absent page used => ?_, fun pid member absent => ?_⟩, ⟨?_, ?_, ?_⟩,
    fun pid member => List.mem_append_left _ member, ?_, ?_⟩
  · have inner : pid ≠ chain.getLast nonempty := fun same => absent (same ▸ lastMember)
    have old : pid ≠ newPid := by
      rintro rfl
      rw [unused] at used
      exact absurd used (by simp)
    dsimp only
    rw [pages, if_neg inner, if_neg old, used]
  · rw [List.mem_singleton.mp ((List.mem_append.mp member).resolve_left absent), unused]
  · exact sound.chained.append nonempty sound.nodup newUsed (getNextPage_init _ _) lastNow
      (getNextPage_setNextPage _ _) others
  · exact List.nodup_append.mpr ⟨sound.nodup, by simp, by
      intro pid member other isNew same
      rw [List.mem_singleton.mp isNew] at same
      exact fresh (same ▸ member)⟩
  · intro pid member page used
    rcases List.mem_append.mp member with old | isNew
    · by_cases last : pid = chain.getLast nonempty
      · rw [last, lastNow, Option.some.injEq] at used
        exact used ▸ relinked.1
      · rw [others pid old last] at used
        exact sound.valid pid old page used
    · rw [List.mem_singleton.mp isNew, newUsed, Option.some.injEq] at used
      exact used ▸ validPage_init _ _
  · intro pid member page used
    by_cases last : pid = chain.getLast nonempty
    · rw [last, lastUsed, Option.some.injEq] at used
      subst used
      exact ⟨_, last ▸ lastNow, getNumTuples_setNextPage _ _, relinked.2⟩
    · exact ⟨page, (others pid member last).trans used, rfl, fun _ => rfl⟩
  · intro pid member absent
    rw [List.mem_singleton.mp ((List.mem_append.mp member).resolve_left absent)]
    exact ⟨_, newUsed, getNumTuples_init _ _⟩

/-- `find_page_with_space` finds a page or has no page id left for a new one. -/
theorem findPageWithSpace_ends {hf : StoreHeap} {chain : List PageId}
    (sound : HeapSound hf chain) (tupleSize : Nat) :
    (findPageWithSpace hf tupleSize = .error .overflow ∧ hf.bpm.fresh.length < 2) ∨
      ∃ after chain' pid page, findPageWithSpace hf tupleSize = .ok (after, .ok (pid, pid)) ∧
        PageFound hf after chain chain' tupleSize pid page := by
  unfold findPageWithSpace
  rcases ensureFirstPage_store sound with
    ⟨overflow, exhausted⟩ | ⟨started, chain₁, ensured, grown, nonempty, used⟩
  · refine .inl ⟨?_, by omega⟩
    rw [overflow]
    rfl
  have searched := searchPages_chain grown.sound.chained tupleSize grown.sound.length_lt
  rw [ensured]
  simp only [bind, Except.bind, pure, Except.pure, ne_eq, not_true_eq_false, if_false, searched]
  cases found : chain₁.find? (hasRoom started.bpm tupleSize) with
  | some pid =>
      obtain ⟨page, used⟩ := grown.sound.chained.used (List.mem_of_find?_eq_some found)
      have room := List.find?_some found
      rw [hasRoom, data_of_used used] at room
      exact .inr ⟨started, chain₁, pid, page, rfl, grown, List.mem_of_find?_eq_some found, used,
        Or.inl (of_decide_eq_true room)⟩
  | none =>
      cases left : started.bpm.fresh with
      | nil =>
          refine .inl ⟨?_, ?_⟩
          · simp only [Option.map_none, newPage_exhausted left]
          · rw [left, List.length_nil] at used
            omega
      | cons newPid rest =>
          obtain ⟨store, allocated, _, pages⟩ := newPage_store left
          have unused := started.bpm.fresh_unused newPid (by simp [left])
          have zeroed : store.pages newPid = some zeroPage := by rw [pages, if_pos rfl]
          have written := PageStore.set_pages zeroed (slottedPageInit zeroPage newPid)
          have oldPages : ∀ other ∈ chain₁, ∀ page, started.bpm.pages other = some page →
              (store.set newPid (slottedPageInit zeroPage newPid)).pages other = some page := by
            intro other _ page used
            have differ : other ≠ newPid := by
              rintro rfl
              rw [unused] at used
              exact absurd used (by simp)
            rw [written, if_neg differ, pages, if_neg differ, used]
          have rechained := grown.sound.chained.congr fun other member page used =>
            ⟨page, oldPages other member page used, rfl⟩
          obtain ⟨lastPg, lastUsed, linked⟩ :=
            linkLast_chain rechained nonempty newPid (Nat.le_of_lt grown.sound.length_lt)
          have lastBefore : started.bpm.pages (chain₁.getLast nonempty) = some lastPg := by
            obtain ⟨page, used⟩ := grown.sound.chained.used (List.getLast_mem nonempty)
            have := oldPages _ (List.getLast_mem nonempty) page used
            rw [lastUsed] at this
            rw [used, this]
          have final := PageStore.set_pages lastUsed (pageHeaderSetNextPage lastPg newPid)
          refine .inr ⟨⟨(store.set newPid (slottedPageInit zeroPage newPid)).set
              (chain₁.getLast nonempty) (pageHeaderSetNextPage lastPg newPid),
              started.firstPageId⟩,
            chain₁ ++ [newPid], newPid, slottedPageInit zeroPage newPid, ?_,
            grown.trans (appendPage grown.sound nonempty unused lastBefore fun other => ?_),
            by simp, ?_, Or.inr (freeSpace_init _ _)⟩
          · simp only [Option.map_none, allocated, data_of_used zeroed, setData_store, linked,
              not_true_eq_false, if_false]
          · rw [final, written, pages]
            split
            · rfl
            · split <;> rfl
          · have differ : newPid ≠ chain₁.getLast nonempty := by
              rintro same
              rw [← same, unused] at lastBefore
              exact absurd lastBefore (by simp)
            rw [final, if_neg differ, written, if_pos rfl]

/-- `find_page_with_space` succeeds as long as the pool has two pages left. -/
theorem findPageWithSpace_store {hf : StoreHeap} {chain : List PageId}
    (sound : HeapSound hf chain) (supply : 2 ≤ hf.bpm.fresh.length) (tupleSize : Nat) :
    ∃ after chain' pid page, findPageWithSpace hf tupleSize = .ok (after, .ok (pid, pid)) ∧
      PageFound hf after chain chain' tupleSize pid page :=
  (findPageWithSpace_ends sound tupleSize).resolve_left
    fun exhausted => Nat.not_lt.mpr supply exhausted.2

end MiniSqlite.Executor
