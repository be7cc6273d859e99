import MiniSqlite.Common.Error
import MiniSqlite.Storage.Page

/-!
# The buffer pool as its clients see it

Heap files and indexes reach pages through three calls of
`buffer/buffer_pool_manager.h` and through the `page_t*` these return.
`PagePool` is that interface: client code is written once over it. `PageStore`
is the pool that always grants pages and never fails, a map from page ids to
bytes with a supply of ids not yet in use.
-/

namespace MiniSqlite.Buffer

open MiniSqlite.Common MiniSqlite.Std MiniSqlite.Storage

/-- The calls on a `buffer_pool_manager_t`, and the fields of the `page_t` a
`Frame` points to. -/
class PagePool (Pool : Type) (Frame : outParam Type) where
  /-- `bpm_fetch_page`, with `none` for `NULL`. -/
  fetchPage : Pool → PageId → Except Fault (Pool × Option Frame)
  /-- `bpm_new_page`, with the id it stores through `page_id`. -/
  newPage : Pool → Except Fault (Pool × Option (PageId × Frame))
  /-- `bpm_unpin_page`; clients ignore what it returns. -/
  unpinPage : Pool → PageId → (isDirty : Bool) → Except Fault Pool
  /-- `page->data`. -/
  data : Pool → Frame → Page
  /-- Stores into `page->data`. -/
  setData : Pool → Frame → Page → Pool
  /-- `page->page_id`. -/
  pageId : Pool → Frame → PageId

/-! ## The ideal pool -/

/-- Pages by id, and the ids that new pages will get. -/
structure PageStore where
  pages : PageId → Option Page
  fresh : List PageId
  fresh_nodup : fresh.Nodup
  fresh_unused : ∀ pageId ∈ fresh, pages pageId = none
  invalid_unused : invalidPageId ∉ fresh ∧ pages invalidPageId = none

namespace PageStore

/-- The store with the bytes of a page it has exchanged. -/
def set (store : PageStore) (pageId : PageId) (page : Page) : PageStore :=
  if used : (store.pages pageId).isSome then
    { store with
      pages := fun other => if other = pageId then some page else store.pages other
      fresh_unused := by
        intro other member
        have unused := store.fresh_unused other member
        split
        · rename_i same
          rw [same] at unused
          simp [unused] at used
        · exact unused
      invalid_unused := by
        refine ⟨store.invalid_unused.1, ?_⟩
        split
        · rename_i same
          rw [← same, store.invalid_unused.2] at used
          simp at used
        · exact store.invalid_unused.2 }
  else store

/-- The store with its next fresh page, all zeros. -/
def allocate (store : PageStore) : Except Fault (PageStore × PageId) :=
  match shape : store.fresh with
  | [] => .error .overflow
  | pageId :: rest =>
      .ok ({
        pages := fun other => if other = pageId then some zeroPage else store.pages other
        fresh := rest
        fresh_nodup := (List.nodup_cons.mp (shape ▸ store.fresh_nodup)).2
        fresh_unused := by
          intro other member
          have distinct := (List.nodup_cons.mp (shape ▸ store.fresh_nodup)).1
          have differ : other ≠ pageId := fun same => distinct (same ▸ member)
          rw [if_neg differ]
          exact store.fresh_unused other (shape ▸ List.mem_cons_of_mem _ member)
        invalid_unused := by
          have unused := store.invalid_unused
          rw [shape] at unused
          refine ⟨fun member => unused.1 (List.mem_cons_of_mem _ member), ?_⟩
          have differ : invalidPageId ≠ pageId := fun same => unused.1 (by simp [← same])
          rw [if_neg differ]
          exact unused.2 }, pageId)

@[simp] theorem set_fresh (store : PageStore) (pageId : PageId) (page : Page) :
    (store.set pageId page).fresh = store.fresh := by
  unfold set
  split <;> rfl

theorem set_pages {store : PageStore} {pageId : PageId} {old : Page}
    (used : store.pages pageId = some old) (page : Page) (other : PageId) :
    (store.set pageId page).pages other =
      if other = pageId then some page else store.pages other := by
  unfold set
  rw [dif_pos (by simp [used])]

theorem allocate_cons {store : PageStore} {pageId : PageId} {rest : List PageId}
    (shape : store.fresh = pageId :: rest) :
    ∃ after : PageStore, store.allocate = .ok (after, pageId) ∧ after.fresh = rest ∧
      ∀ other, after.pages other = if other = pageId then some zeroPage else store.pages other := by
  obtain ⟨pages, fresh, nodup, unused, invalid⟩ := store
  dsimp only at shape
  subst shape
  exact ⟨_, rfl, rfl, fun _ => rfl⟩

theorem allocate_nil {store : PageStore} (shape : store.fresh = []) :
    store.allocate = .error .overflow := by
  obtain ⟨pages, fresh, nodup, unused, invalid⟩ := store
  dsimp only at shape
  subst shape
  rfl

theorem ne_invalid {store : PageStore} {pageId : PageId} {page : Page}
    (used : store.pages pageId = some page) : pageId ≠ invalidPageId := by
  rintro rfl
  rw [store.invalid_unused.2] at used
  exact absurd used (by simp)

end PageStore

/-- Clients of the store hold a page by its id; pins and dirty marks have no effect. -/
instance : PagePool PageStore PageId where
  fetchPage store pageId := .ok (store, (store.pages pageId).map fun _ => pageId)
  newPage store := do
    let (store, pageId) ← store.allocate
    return (store, some (pageId, pageId))
  unpinPage store _ _ := .ok store
  data store pageId := (store.pages pageId).getD zeroPage
  setData store pageId page := store.set pageId page
  pageId _ pageId := pageId

end MiniSqlite.Buffer
