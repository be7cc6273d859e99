import MiniSqlite.Buffer.PoolMirrors
import MiniSqlite.Executor.HeapsRuns

/-!
# The heap over a real pool

The functions of `bpm_heap.c` on a real pool go through the same motions as on the
ideal store it mirrors. Each has one lemma; the store may run out of pages where the
pool might not, which is what `Exhausted` excuses.
-/

namespace MiniSqlite.Executor

open MiniSqlite.Common MiniSqlite.Std MiniSqlite.Storage MiniSqlite.Buffer

open PagePool (fetchPage newPage unpinPage data setData)

variable {store : PageStore} {bpm : BufferPoolManager} {region : Set PageId}
  {pid firstPageId : PageId}

/-- The store has no page left to give. -/
def Exhausted (fault : Fault) : Prop := fault = .overflow

/-! ## Pages that lead to each other -/

/-- The pages of a region are sound and lead nowhere else. -/
def Closed (store : PageStore) (region : Set PageId) : Prop :=
  ∀ pid ∈ region, ∃ page, store.pages pid = some page ∧ ValidPage page ∧
    (pageHeaderGetNextPage page = invalidPageId ∨ pageHeaderGetNextPage page ∈ region)

theorem Closed.valid (closed : Closed store region) (member : pid ∈ region) :
    pid ≠ invalidPageId := by
  obtain ⟨page, used, -⟩ := closed pid member
  exact PageStore.ne_invalid used

theorem Chained.closed {pages : PageId → Option Page} {chain : List PageId}
    (chained : Chained pages firstPageId chain) :
    (firstPageId = invalidPageId ∨ firstPageId ∈ chain) ∧ ∀ pid ∈ chain, ∃ page,
      pages pid = some page ∧
        (pageHeaderGetNextPage page = invalidPageId ∨ pageHeaderGetNextPage page ∈ chain) := by
  induction chain generalizing firstPageId with
  | nil => exact ⟨.inl chained, by simp⟩
  | cons head rest ih =>
      obtain ⟨rfl, page, used, next⟩ := chained
      obtain ⟨start, others⟩ := ih next
      refine ⟨.inr List.mem_cons_self, fun pid member => ?_⟩
      rcases List.mem_cons.mp member with rfl | later
      · exact ⟨page, used, start.imp_right (List.mem_cons_of_mem _)⟩
      · obtain ⟨other, usedOther, leads⟩ := others pid later
        exact ⟨other, usedOther, leads.imp_right (List.mem_cons_of_mem _)⟩

/-- The pages of a sound heap lead to each other. -/
theorem HeapSound.closed {hf : StoreHeap} {chain : List PageId} (sound : HeapSound hf chain) :
    Closed hf.bpm {pid | pid ∈ chain} := by
  intro pid member
  obtain ⟨page, used, leads⟩ := (Chained.closed sound.chained).2 pid member
  exact ⟨page, used, sound.valid pid member page used, leads⟩

/-- A page that still leads where it did before may be exchanged. -/
theorem Closed.set {page bytes : Page} (closed : Closed store region)
    (used : store.pages pid = some page) (valid : ValidPage bytes)
    (next : pageHeaderGetNextPage bytes = pageHeaderGetNextPage page) :
    Closed (store.set pid bytes) region := by
  intro other member
  obtain ⟨old, usedOld, validOld, leads⟩ := closed other member
  rw [PageStore.set_pages used]
  by_cases same : other = pid
  · subst same
    rw [usedOld, Option.some.injEq] at used
    exact ⟨bytes, if_pos rfl, valid, by rw [next, ← used]; exact leads⟩
  · exact ⟨old, by rw [if_neg same, usedOld], validOld, leads⟩

/-! ## Changing a tuple -/

/-- Both iterators stand at the same slot, the pinned page of one in a frame of the other. -/
structure SameScan (region : Set PageId) (bpm : BufferPoolManager) (it : BpmHeapIter PageId)
    (it' : BpmHeapIter FrameId) : Prop where
  pageId : it.currentPageId = it'.currentPageId
  slot : it.currentSlot = it'.currentSlot
  located : it.currentPageId = invalidPageId ∨ it.currentPageId ∈ region
  pinned : it.currentPage = none ∧ it'.currentPage = none ∨
    ∃ frame, it.currentPage = some it.currentPageId ∧ it'.currentPage = some frame ∧
      bpm.pageTable.hashmapGet it.currentPageId = some frame

theorem SameScan.kept {after : BufferPoolManager} {it : BpmHeapIter PageId}
    {it' : BpmHeapIter FrameId} (same : SameScan region bpm it it')
    (kept : FramesKept bpm after) : SameScan region after it it' :=
  { same with
    pinned := same.pinned.imp_right fun ⟨frame, here, there, found⟩ =>
      ⟨frame, here, there, kept.frames _ frame found⟩ }

theorem sameScan_start (located : firstPageId = invalidPageId ∨ firstPageId ∈ region) (slot : Nat) :
    SameScan region bpm ⟨firstPageId, slot, none⟩ ⟨firstPageId, slot, none⟩ :=
  ⟨rfl, rfl, located, .inl ⟨rfl, rfl⟩⟩

theorem bpmHeapIterDestroy_mirrored {it : BpmHeapIter PageId} {it' : BpmHeapIter FrameId}
    (mirrors : Mirrors [] store bpm) (same : SameScan region bpm it it') :
    ∃ after, bpmHeapIterDestroy store it = .ok store ∧ bpmHeapIterDestroy bpm it' = .ok after ∧
      Mirrors [] store after ∧ FramesKept bpm after := by
  unfold bpmHeapIterDestroy
  rcases same.pinned with ⟨here, there⟩ | ⟨frame, here, there, -⟩
  · rw [here, there]
    exact ⟨bpm, rfl, rfl, mirrors, .refl bpm⟩
  · obtain ⟨after, unpinned, still, kept, -⟩ := mirrors.unpin it.currentPageId false
    rw [here, there, ← same.pageId]
    exact ⟨after, rfl, unpinned, still, kept⟩

/-! ## Inserting -/

end MiniSqlite.Executor
