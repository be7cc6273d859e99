import MiniSqlite.Executor.BpmHeapOperations
import Mathlib.Data.Fintype.Prod

/-!
# Complete scans

An iterator over an ideal pool has `pendingRows` still to deliver; each
`bpm_heap_iter_next` delivers the first of them. A complete scan therefore lists
`chainRows` of the heap, which are its contents, each RID once.
-/

namespace MiniSqlite.Executor

open MiniSqlite.Common MiniSqlite.Std MiniSqlite.Storage MiniSqlite.Buffer

/-- The row a live slot gives. -/
def rowAt (pid : PageId) (page : Page) (slot : Nat) : Rid × List UInt8 :=
  (⟨pid, Int32.ofNat slot⟩, page.read (slotGetOffset page slot) (slotGetSize page slot))

/-- The rows of the live slots among `remaining` from `slot` on. -/
def pageRows (pid : PageId) (page : Page) : (remaining slot : Nat) → List (Rid × List UInt8)
  | 0, _ => []
  | remaining + 1, slot =>
      if slotGetSize page slot > 0 then rowAt pid page slot :: pageRows pid page remaining (slot + 1)
      else pageRows pid page remaining (slot + 1)

/-- The rows of the pages of a chain. -/
def chainRows (store : PageStore) (chain : List PageId) : List (Rid × List UInt8) :=
  chain.flatMap fun pid =>
    pageRows pid (PagePool.data store pid) (pageHeaderGetNumTuples (PagePool.data store pid)) 0

/-- The slot loop stops at the slot of the first row. -/
theorem nextLiveSlot_rows (pid : PageId) (page : Page) (remaining slot : Nat) :
    match nextLiveSlot page remaining slot with
    | none => pageRows pid page remaining slot = []
    | some found => pageRows pid page remaining slot =
        rowAt pid page found :: pageRows pid page (slot + remaining - (found + 1)) (found + 1) := by
  induction remaining generalizing slot with
  | zero => rfl
  | succ remaining ih =>
      simp only [nextLiveSlot, pageRows]
      by_cases live : slotGetSize page slot > 0
      · simp only [if_pos live]
        rw [Nat.add_sub_add_left slot (remaining + 1) 1]
        rfl
      · simp only [if_neg live]
        have next := ih (slot + 1)
        rw [show slot + 1 + remaining = slot + (remaining + 1) by omega] at next
        exact next

/-! ## The iterator -/

/-- The slot the iterator looks at next in its current page. -/
def startSlot (it : BpmHeapIter PageId) : Nat :=
  match it.currentPage with
  | some _ => it.currentSlot
  | none => 0

/-- `chain` lists the pages the iterator has still to finish. -/
structure IterAt (store : PageStore) (it : BpmHeapIter PageId) (chain : List PageId) : Prop where
  chained : Chained store.pages it.currentPageId chain
  pinned : ∀ page, it.currentPage = some page → page = it.currentPageId ∧ chain ≠ []

/-- The rows the iterator has still to deliver. -/
def pendingRows (store : PageStore) (it : BpmHeapIter PageId) :
    List PageId → List (Rid × List UInt8)
  | [] => []
  | pid :: rest =>
      pageRows pid (PagePool.data store pid)
        (pageHeaderGetNumTuples (PagePool.data store pid) - startSlot it) (startSlot it) ++
        chainRows store rest

theorem pinCurrent_store {store : PageStore} {it : BpmHeapIter PageId} {pid : PageId}
    {rest : List PageId} (iter : IterAt store it (pid :: rest)) :
    pinCurrent store it = .ok (store, some (pid, startSlot it)) := by
  obtain ⟨rfl, page, used, _⟩ := iter.chained
  unfold pinCurrent startSlot
  cases pinned : it.currentPage with
  | none =>
      dsimp only
      rw [fetch_of_used used]
      rfl
  | some frame =>
      rw [(iter.pinned frame pinned).1]

/-- What a call of `bpm_heap_iter_next` delivers. -/
inductive Delivered (store : PageStore) (chain : List PageId) :
    List (Rid × List UInt8) →
    Except Fault (PageStore × BpmHeapIter PageId × Except ErrorCode (Rid × List UInt8)) → Prop
  | finished (it : BpmHeapIter PageId) (unpinned : it.currentPage = none)
      (ended : it.currentPageId = invalidPageId) :
      Delivered store chain [] (.ok (store, it, .error .pageNotFound))
  | row {row : Rid × List UInt8} {more : List (Rid × List UInt8)} (it : BpmHeapIter PageId)
      (chain' : List PageId) (shorter : chain'.length ≤ chain.length)
      (iter : IterAt store it chain') (pending : pendingRows store it chain' = more) :
      Delivered store chain (row :: more) (.ok (store, it, .ok row))

theorem Delivered.of_shorter {store : PageStore} {chain longer : List PageId}
    {rows : List (Rid × List UInt8)}
    {outcome : Except Fault (PageStore × BpmHeapIter PageId × Except ErrorCode (Rid × List UInt8))}
    (delivered : Delivered store chain rows outcome) (length : chain.length ≤ longer.length) :
    Delivered store longer rows outcome := by
  cases delivered with
  | finished it unpinned ended => exact .finished it unpinned ended
  | row it chain' shorter iter pending => exact .row it chain' (shorter.trans length) iter pending

/-- `bpm_heap_iter_next` delivers the first pending row, or ends the iteration. -/
theorem bpmHeapIterNext_store {store : PageStore} {it : BpmHeapIter PageId}
    {chain : List PageId} (iter : IterAt store it chain) {turns : Nat}
    (enough : chain.length < turns) :
    Delivered store chain (pendingRows store it chain) (bpmHeapIterNext turns store it) := by
  induction chain generalizing it turns with
  | nil =>
      obtain ⟨turns, rfl⟩ := Nat.exists_eq_succ_of_ne_zero (Nat.ne_of_gt enough)
      have ended : it.currentPageId = invalidPageId := iter.chained
      have unpinned : it.currentPage = none := by
        cases pinned : it.currentPage with
        | none => rfl
        | some page => exact absurd rfl (iter.pinned page pinned).2
      rw [bpmHeapIterNext, if_pos ended]
      exact .finished it unpinned ended
  | cons pid rest ih =>
      obtain ⟨turns, rfl⟩ := Nat.exists_eq_succ_of_ne_zero (Nat.ne_of_gt (Nat.zero_lt_of_lt enough))
      have pin := pinCurrent_store iter
      obtain ⟨here, page, used, next⟩ := iter.chained
      rw [bpmHeapIterNext, if_neg (by rw [here]; exact PageStore.ne_invalid used), pin]
      simp only [bind, Except.bind, pure, Except.pure, pendingRows, data_of_used used]
      have rows := nextLiveSlot_rows pid page (pageHeaderGetNumTuples page - startSlot it)
        (startSlot it)
      cases found : nextLiveSlot page (pageHeaderGetNumTuples page - startSlot it)
          (startSlot it) with
      | none =>
          rw [found] at rows
          simp only [unpinPage_store]
          have tail : IterAt store
              ⟨pageHeaderGetNextPage page, max (startSlot it) (pageHeaderGetNumTuples page), none⟩
              rest := ⟨next, by simp⟩
          have delivered := ih tail (Nat.lt_of_succ_lt_succ enough)
          have same : pendingRows store
              ⟨pageHeaderGetNextPage page, max (startSlot it) (pageHeaderGetNumTuples page), none⟩
              rest = chainRows store rest := by
            cases rest <;> rfl
          rw [rows, List.nil_append, ← same]
          exact delivered.of_shorter (Nat.le_succ _)
      | some slot =>
          rw [found] at rows
          dsimp only at rows ⊢
          rw [rows, List.cons_append]
          have inside : startSlot it ≤ pageHeaderGetNumTuples page := by
            by_contra beyond
            rw [Nat.sub_eq_zero_of_le (Nat.le_of_not_le beyond)] at found
            exact absurd found (by simp [nextLiveSlot])
          rw [Nat.add_sub_cancel' inside, rowAt, ← here]
          have continued : IterAt store ⟨it.currentPageId, slot + 1, some pid⟩ (pid :: rest) :=
            ⟨⟨here, page, used, next⟩, fun frame same => ⟨by simp_all, by simp⟩⟩
          rw [← here] at continued
          exact .row _ _ (by simp) continued (by
            rw [here]
            simp only [pendingRows, startSlot, data_of_used used])

/-- A client that calls `bpm_heap_iter_next` to the end gets all pending rows. -/
theorem iterRows_store {store : PageStore} {it : BpmHeapIter PageId} {chain : List PageId}
    (iter : IterAt store it chain) (pages : chain.length < maxPages) {turns : Nat}
    (enough : (pendingRows store it chain).length < turns) :
    ∃ it', iterRows turns store it = .ok (store, it', pendingRows store it chain, .pageNotFound) ∧
      it'.currentPage = none := by
  induction turns generalizing it chain with
  | zero => exact absurd enough (Nat.not_lt_zero _)
  | succ turns ih =>
      have delivered := bpmHeapIterNext_store iter pages
      rw [iterRows]
      generalize pendingRows store it chain = rows at delivered enough ⊢
      generalize bpmHeapIterNext maxPages store it = outcome at delivered ⊢
      cases delivered with
      | finished it' unpinned ended => exact ⟨it', rfl, unpinned⟩
      | row it' chain' shorter iter' pending =>
          obtain ⟨last, rest, unpinned⟩ := ih iter' (Nat.lt_of_le_of_lt shorter pages)
            (by rw [pending]; exact Nat.lt_of_succ_lt_succ enough)
          refine ⟨last, ?_, unpinned⟩
          simp only [bind, Except.bind, pure, Except.pure, rest, pending]

/-! ## The rows of a heap -/

theorem mem_pageRows {pid : PageId} {page : Page} {row : Rid × List UInt8} (remaining slot : Nat) :
    row ∈ pageRows pid page remaining slot ↔
      ∃ i, slot ≤ i ∧ i < slot + remaining ∧ slotGetSize page i > 0 ∧ row = rowAt pid page i := by
  induction remaining generalizing slot with
  | zero =>
      simp only [pageRows, List.not_mem_nil, false_iff, not_exists, not_and]
      intro i low high
      omega
  | succ remaining ih =>
      have tail := ih (slot + 1)
      have split : (∃ i, slot ≤ i ∧ i < slot + (remaining + 1) ∧ slotGetSize page i > 0 ∧
            row = rowAt pid page i) ↔
          (slotGetSize page slot > 0 ∧ row = rowAt pid page slot) ∨
            row ∈ pageRows pid page remaining (slot + 1) := by
        rw [tail]
        constructor
        · rintro ⟨i, low, high, live, same⟩
          rcases Nat.eq_or_lt_of_le low with rfl | later
          · exact Or.inl ⟨live, same⟩
          · exact Or.inr ⟨i, later, by omega, live, same⟩
        · rintro (⟨live, same⟩ | ⟨i, low, high, live, same⟩)
          · exact ⟨slot, Nat.le_refl _, by omega, live, same⟩
          · exact ⟨i, by omega, by omega, live, same⟩
      rw [split, pageRows]
      by_cases live : slotGetSize page slot > 0
      · simp [live]
      · simp [live]

/-- The rows of a valid page are its records. -/
theorem validPage_mem_pageRows {page : Page} (valid : ValidPage page) {pid : PageId} {rid : Rid}
    {bytes : List UInt8} :
    (rid, bytes) ∈ pageRows pid page (pageHeaderGetNumTuples page) 0 ↔
      rid.pageId = pid ∧ recordOf page rid.slotId = some bytes := by
  rw [mem_pageRows]
  constructor
  · rintro ⟨i, _, bound, live, same⟩
    rw [Nat.zero_add] at bound
    obtain ⟨rfl, rfl⟩ := Prod.mk.inj same
    refine ⟨rfl, ?_⟩
    rw [recordOf_ofNat valid bound, recordAt_eq_some ⟨bound, Nat.ne_of_gt live⟩]
  · rintro ⟨same, found⟩
    have nonneg := nonneg_of_recordOf found
    obtain ⟨_, live, here⟩ := live_of_recordOf found
    refine ⟨slotIndex rid.slotId, Nat.zero_le _, by rw [Nat.zero_add]; exact live.1,
      Nat.pos_of_ne_zero live.2, ?_⟩
    rw [recordAt_eq_some live, Option.some.injEq] at here
    rw [rowAt, here, ← same]
    have slot : Int32.ofNat (slotIndex rid.slotId) = rid.slotId := by
      rw [Int32.lt_iff_toInt_lt, Int32.toInt_zero] at nonneg
      have := valid.count_lt
      have := live.1
      refine Int32.toInt_inj.mp ?_
      rw [Int32.toInt_ofNat_of_lt (by omega), slotIndex]
      omega
    rw [slot]

theorem pageRows_nodup (pid : PageId) (page : Page) {remaining slot : Nat}
    (small : slot + remaining < 2 ^ 31) :
    ((pageRows pid page remaining slot).map Prod.fst).Nodup := by
  induction remaining generalizing slot with
  | zero => exact List.nodup_nil
  | succ remaining ih =>
      have tail := @ih (slot + 1) (by omega)
      rw [pageRows]
      split
      · rw [List.map_cons, List.nodup_cons]
        refine ⟨?_, tail⟩
        intro member
        obtain ⟨row, inRows, same⟩ := List.mem_map.mp member
        obtain ⟨i, low, high, _, rfl⟩ := (mem_pageRows _ _).mp inRows
        have slots := congrArg (fun rid => (Rid.slotId rid).toInt) same
        simp only [rowAt] at slots
        rw [Int32.toInt_ofNat_of_lt (by omega), Int32.toInt_ofNat_of_lt (by omega)] at slots
        omega
      · exact tail

/-- The rows of the chain are the contents of the heap, each RID once. -/
theorem HeapSound.rows_spec {hf : StoreHeap} {chain : List PageId} (sound : HeapSound hf chain) :
    ((chainRows hf.bpm chain).map Prod.fst).Nodup ∧
      ∀ rid bytes, (rid, bytes) ∈ chainRows hf.bpm chain ↔ heapContents hf rid = some bytes := by
  have page : ∀ pid ∈ chain, ∃ page, hf.bpm.pages pid = some page ∧
      PagePool.data hf.bpm pid = page ∧ ValidPage page := by
    intro pid member
    obtain ⟨page, used⟩ := sound.chained.used member
    exact ⟨page, used, data_of_used used, sound.valid pid member page used⟩
  constructor
  · rw [chainRows, List.map_flatMap, List.nodup_flatMap]
    refine ⟨fun pid member => ?_, sound.nodup.imp_of_mem ?_⟩
    · obtain ⟨page, _, data, valid⟩ := page pid member
      have := valid.count_lt
      rw [data]
      exact pageRows_nodup pid page (by omega)
    · intro first second _ _ differ rid inFirst inSecond
      obtain ⟨row, inRows, rfl⟩ := List.mem_map.mp inFirst
      obtain ⟨other, inOther, same⟩ := List.mem_map.mp inSecond
      obtain ⟨i, _, _, _, rfl⟩ := (mem_pageRows _ _).mp inRows
      obtain ⟨j, _, _, _, rfl⟩ := (mem_pageRows _ _).mp inOther
      exact differ (congrArg Rid.pageId same).symm
  · intro rid bytes
    rw [sound.contents_eq, chainRows, List.mem_flatMap]
    constructor
    · rintro ⟨pid, member, inRows⟩
      obtain ⟨page, used, data, valid⟩ := page pid member
      rw [data, validPage_mem_pageRows valid] at inRows
      obtain ⟨rfl, found⟩ := inRows
      rw [if_pos member, used]
      exact found
    · intro found
      split at found
      · rename_i member
        obtain ⟨page, used, data, valid⟩ := page _ member
        refine ⟨rid.pageId, member, ?_⟩
        rw [used] at found
        rw [data, validPage_mem_pageRows valid]
        exact ⟨rfl, found⟩
      · exact absurd found (by simp)

/-- A list of distinct RIDs that leaves one out is shorter than the number of RIDs. -/
theorem length_lt_maxRids {rids : List Rid} (nodup : rids.Nodup) {left : Rid}
    (absent : left ∉ rids) : rids.length < maxRids := by
  have distinct : ((left :: rids).map fun rid =>
      (rid.pageId.toBitVec.toFin, rid.slotId.toBitVec.toFin)).Nodup := by
    refine (List.nodup_cons.mpr ⟨absent, nodup⟩).map ?_
    rintro ⟨firstPage, firstSlot⟩ ⟨secondPage, secondSlot⟩ same
    obtain ⟨pages, slots⟩ := Prod.mk.inj same
    rw [Rid.mk.injEq]
    exact ⟨Int32.toBitVec.inj (BitVec.toFin_inj.mp pages),
      Int32.toBitVec.inj (BitVec.toFin_inj.mp slots)⟩
  have := distinct.length_le_card
  rw [List.length_map, List.length_cons, Fintype.card_prod, Fintype.card_fin] at this
  exact this

/-- A scan returns fewer rows than there are RIDs. -/
theorem HeapSound.rows_lt {hf : StoreHeap} {chain : List PageId} (sound : HeapSound hf chain) :
    (chainRows hf.bpm chain).length < maxRids := by
  obtain ⟨nodup, rows⟩ := sound.rows_spec
  rw [← List.length_map]
  refine length_lt_maxRids nodup fun (member : (⟨invalidPageId, invalidSlotId⟩ : Rid) ∈ _) => ?_
  obtain ⟨⟨rid, bytes⟩, inRows, same⟩ := List.mem_map.mp member
  rw [rows, show rid = ⟨invalidPageId, invalidSlotId⟩ from same,
    contents_of_badRid sound (by decide)] at inRows
  exact absurd inRows (by simp)

/-- A complete scan lists the contents of the heap and leaves the pool as it was. -/
theorem bpmHeapScan_store {hf : StoreHeap} {chain : List PageId} (sound : HeapSound hf chain) :
    bpmHeapScan hf = .ok (hf,
      { code := ErrorCode.pageNotFound.code, rows := chainRows hf.bpm chain }) := by
  have iter : IterAt hf.bpm (bpmHeapIterInit hf) chain := ⟨sound.chained, by simp [bpmHeapIterInit]⟩
  have pending : pendingRows hf.bpm (bpmHeapIterInit hf) chain =
      chainRows hf.bpm chain := by
    cases chain <;> rfl
  obtain ⟨it, rows, unpinned⟩ := iterRows_store iter sound.length_lt (by
    rw [pending]
    exact sound.rows_lt)
  rw [pending] at rows
  simp only [bpmHeapScan, rows, bind, Except.bind, pure, Except.pure, bpmHeapIterDestroy, unpinned]

end MiniSqlite.Executor
