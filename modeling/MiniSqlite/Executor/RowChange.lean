import MiniSqlite.Executor.BpmHeapScan

/-!
# Changing rows under a scan

A delete or an update of a row rewrites one slot of one page in place. An
iterator that has already passed the row does not notice: `RowChanged.steady`.
-/

namespace MiniSqlite.Executor

open MiniSqlite.Common MiniSqlite.Std MiniSqlite.Storage MiniSqlite.Buffer

/-! ## The rows of a page -/

/-- The rows of a page only depend on its records. -/
theorem pageRows_congr {pid : PageId} {before after : Page}
    (count : pageHeaderGetNumTuples after = pageHeaderGetNumTuples before)
    {remaining slot : Nat} (inside : slot + remaining ≤ pageHeaderGetNumTuples before)
    (same : ∀ i, slot ≤ i → i < slot + remaining → recordAt after i = recordAt before i) :
    pageRows pid after remaining slot = pageRows pid before remaining slot := by
  induction remaining generalizing slot with
  | zero => rfl
  | succ remaining ih =>
      have tail := ih (by omega : slot + 1 + remaining ≤ _) fun i low high =>
        same i (by omega) (by omega)
      have here := same slot (Nat.le_refl _) (by omega)
      rw [pageRows, pageRows, tail]
      by_cases live : Live before slot
      · have live' : Live after slot := by
          by_contra dead
          rw [recordAt_eq_none dead, recordAt_eq_some live] at here
          exact absurd here (by simp)
        rw [recordAt_eq_some live, recordAt_eq_some live', Option.some.injEq] at here
        rw [if_pos (Nat.pos_of_ne_zero live.2), if_pos (Nat.pos_of_ne_zero live'.2), rowAt, rowAt,
          here]
      · have dead' : ¬Live after slot := by
          intro live'
          rw [recordAt_eq_none live, recordAt_eq_some live'] at here
          exact absurd here (by simp)
        have emptyBefore : ¬slotGetSize before slot > 0 := fun size =>
          live ⟨by omega, Nat.ne_of_gt size⟩
        have emptyAfter : ¬slotGetSize after slot > 0 := fun size =>
          dead' ⟨by omega, Nat.ne_of_gt size⟩
        rw [if_neg emptyBefore, if_neg emptyAfter]

/-- Rewriting a record that is not among the rows leaves the rows as they are. -/
theorem pageRows_rewritten {rid : Rid} {before after : Page} {bytes : List UInt8}
    {record : Option (List UInt8)}
    (rewritten : Rewritten before after (slotIndex rid.slotId) record)
    (valid : ValidPage before) (found : recordOf before rid.slotId = some bytes)
    {remaining slot : Nat} (inside : slot + remaining ≤ pageHeaderGetNumTuples before)
    (absent : rid ∉ (pageRows rid.pageId before remaining slot).map Prod.fst) :
    pageRows rid.pageId after remaining slot = pageRows rid.pageId before remaining slot := by
  refine pageRows_congr rewritten.count inside fun i low high => rewritten.others i ?_
  rintro rfl
  obtain ⟨-, live, -⟩ := live_of_recordOf found
  refine absent (List.mem_map.mpr ⟨rowAt rid.pageId before (slotIndex rid.slotId), ?_, ?_⟩)
  · exact (mem_pageRows _ _).mpr ⟨_, low, high, Nat.pos_of_ne_zero live.2, rfl⟩
  · have nonneg := nonneg_of_recordOf found
    rw [Int32.lt_iff_toInt_lt, Int32.toInt_zero] at nonneg
    have := valid.count_lt
    have := live.1
    have slotId : Int32.ofNat (slotIndex rid.slotId) = rid.slotId := by
      refine Int32.toInt_inj.mp ?_
      rw [Int32.toInt_ofNat_of_lt (by omega), slotIndex]
      omega
    rw [rowAt, slotId]

/-! ## The rows of a heap -/

/-- A change of one row that an iterator behind it does not notice. -/
structure RowChanged (firstPageId : PageId) (chain : List PageId) (rid : Rid)
    (before after : PageStore) : Prop where
  sound : HeapSound ⟨after, firstPageId⟩ chain
  others : ∀ other, other ≠ rid →
    heapContents ⟨after, firstPageId⟩ other = heapContents ⟨before, firstPageId⟩ other
  steady : ∀ iter left, IterAt before iter left →
    rid ∉ (pendingRows before iter left).map Prod.fst →
    IterAt after iter left ∧ pendingRows after iter left = pendingRows before iter left
  elsewhere : ∀ pid ∉ chain, after.pages pid = before.pages pid
  fresh : after.fresh = before.fresh

theorem RowChanged.refl {firstPageId : PageId} {chain : List PageId} {store : PageStore}
    (sound : HeapSound ⟨store, firstPageId⟩ chain) (rid : Rid) :
    RowChanged firstPageId chain rid store store :=
  ⟨sound, fun _ _ => rfl, fun _ _ at_ _ => ⟨at_, rfl⟩, fun _ _ => rfl, rfl⟩

section Rewrite

variable {store : PageStore} {rid : Rid} {page page' : Page} {bytes : List UInt8}
  {record : Option (List UInt8)}
variable (used : store.pages rid.pageId = some page) (valid : ValidPage page)
  (found : recordOf page rid.slotId = some bytes)
  (rewritten : Rewritten page page' (slotIndex rid.slotId) record)

include used

theorem data_set (pid : PageId) :
    PagePool.data (store.set rid.pageId page') pid =
      if pid = rid.pageId then page' else PagePool.data store pid := by
  show ((store.set rid.pageId page').pages pid).getD zeroPage = _
  rw [PageStore.set_pages used]
  split
  · rfl
  · rfl

include valid found rewritten

/-- The rows of a page from some slot on, with the record of another row rewritten. -/
theorem pageRows_set {pid : PageId} {slot : Nat}
    (absent : rid ∉ (pageRows pid (PagePool.data store pid)
      (pageHeaderGetNumTuples (PagePool.data store pid) - slot) slot).map Prod.fst) :
    pageRows pid (PagePool.data (store.set rid.pageId page') pid)
        (pageHeaderGetNumTuples (PagePool.data (store.set rid.pageId page') pid) - slot) slot =
      pageRows pid (PagePool.data store pid)
        (pageHeaderGetNumTuples (PagePool.data store pid) - slot) slot := by
  rw [data_set used]
  by_cases here : pid = rid.pageId
  · subst here
    rw [data_of_used used] at absent ⊢
    rw [if_pos rfl, rewritten.count]
    by_cases inside : slot ≤ pageHeaderGetNumTuples page
    · exact pageRows_rewritten rewritten valid found (by omega) absent
    · rw [Nat.sub_eq_zero_of_le (by omega)]
      rfl
  · rw [if_neg here]

theorem chainRows_set {chain : List PageId}
    (absent : rid ∉ (chainRows store chain).map Prod.fst) :
    chainRows (store.set rid.pageId page') chain = chainRows store chain := by
  induction chain with
  | nil => rfl
  | cons pid rest ih =>
      rw [chainRows, List.flatMap_cons, List.map_append, List.mem_append, not_or] at absent
      have here := @pageRows_set store rid page page' bytes record used valid found rewritten pid 0
      simp only [Nat.sub_zero] at here
      rw [chainRows, chainRows, List.flatMap_cons, List.flatMap_cons, here absent.1]
      exact congrArg _ (ih absent.2)

theorem pendingRows_set {iter : BpmHeapIter PageId} {left : List PageId}
    (absent : rid ∉ (pendingRows store iter left).map Prod.fst) :
    pendingRows (store.set rid.pageId page') iter left = pendingRows store iter left := by
  cases left with
  | nil => rfl
  | cons pid rest =>
      rw [pendingRows, List.map_append, List.mem_append, not_or] at absent
      rw [pendingRows, pendingRows, pageRows_set used valid found rewritten absent.1,
        chainRows_set used valid found rewritten absent.2]

/-- Rewriting one record of a heap is a change of its row. -/
theorem rowChanged_set {firstPageId : PageId} {chain : List PageId}
    (sound : HeapSound ⟨store, firstPageId⟩ chain) (member : rid.pageId ∈ chain) :
    RowChanged firstPageId chain rid store (store.set rid.pageId page') ∧
      heapContents ⟨store.set rid.pageId page', firstPageId⟩ rid = record := by
  have nonneg := nonneg_of_recordOf found
  obtain ⟨kept, contents⟩ := rewritePage sound member used rewritten.valid rewritten.next
    (Nat.le_of_eq rewritten.count.symm)
  have written := PageStore.set_pages used page'
  refine ⟨⟨kept.sound, fun other differ => ?_, fun iter left at_ absent => ⟨⟨?_, at_.pinned⟩, ?_⟩,
    fun pid absent => ?_, PageStore.set_fresh _ _ _⟩, ?_⟩
  · rw [contents, rewritten.recordOf_eq nonneg]
    by_cases here : other.pageId = rid.pageId
    · have slot : other.slotId ≠ rid.slotId := by
        intro same
        exact differ (by cases other; cases rid; simp_all)
      rw [if_pos here, if_neg slot, sound.contents_eq, here, if_pos member, used]
      rfl
    · rw [if_neg here]
  · refine at_.chained.congr fun pid _ other usedOther => ?_
    rw [written]
    split
    · rename_i same
      rw [same, used, Option.some.injEq] at usedOther
      exact ⟨page', rfl, usedOther ▸ rewritten.next⟩
    · exact ⟨other, usedOther, rfl⟩
  · exact pendingRows_set used valid found rewritten absent
  · have differ : pid ≠ rid.pageId := by
      rintro rfl
      exact absent member
    rw [written, if_neg differ]
  · rw [contents, if_pos rfl, rewritten.recordOf_eq nonneg, if_pos rfl]

end Rewrite

end MiniSqlite.Executor
