import MiniSqlite.Executor.BpmHeapRuns
import MiniSqlite.Executor.HeapsAgree

/-!
# Runs of the two heap implementations

The heap file over a fresh disk manager, and the heap over a fresh pool that
never evicts, return the same from call to call. That a call ends at all is
taken from the heap over the ideal pool, with which the heap file also keeps in
lockstep.
-/

namespace MiniSqlite.Executor

open MiniSqlite.Common MiniSqlite.Std MiniSqlite.Storage MiniSqlite.Buffer

/-! ## Calls over the ideal pool end -/

/-- A call ended well or for want of a page id, and the heap is sound. -/
def EndsSound (outcome : Except Fault (StoreHeap × HeapResult)) : Prop :=
  outcome = .error .overflow ∨ ∃ after result chain, outcome = .ok (after, result) ∧
    HeapSound after chain

/-- Changes to a page outside the heap do not matter. -/
theorem HeapSound.set_other {hf : StoreHeap} {chain : List PageId} (sound : HeapSound hf chain)
    {pid : PageId} (outside : pid ∉ chain) {old : Page} (used : hf.bpm.pages pid = some old)
    (page : Page) : HeapSound ⟨hf.bpm.set pid page, hf.firstPageId⟩ chain := by
  have pages := PageStore.set_pages used page
  have others : ∀ other ∈ chain, (hf.bpm.set pid page).pages other = hf.bpm.pages other := by
    intro other member
    have differ : other ≠ pid := fun same => outside (same ▸ member)
    rw [pages, if_neg differ]
  refine ⟨?_, sound.nodup, ?_⟩
  · exact sound.chained.congr fun other member page there =>
      ⟨page, (others other member).trans there, rfl⟩
  · intro other member page there
    exact sound.valid other member page ((others other member).symm.trans there)

/-- Inserting into a page of the heap keeps it sound, whether the page takes the tuple or not. -/
theorem HeapSound.insertInto {hf : StoreHeap} {chain : List PageId} (sound : HeapSound hf chain)
    {pid : PageId} {page : Page} (member : pid ∈ chain) (used : hf.bpm.pages pid = some page)
    (tuple : List UInt8) :
    HeapSound ⟨hf.bpm.set pid (slottedPageInsert page tuple).1, hf.firstPageId⟩ chain := by
  have valid := sound.valid pid member page used
  by_cases fits : Fits page tuple
  · have small : tuple.length < 2 ^ 16 := by
      have := fits.2
      have := freeSpace_le page
      simp only [pageSize, pageHeaderSize, slotSize] at *
      omega
    obtain ⟨_, inserted⟩ := slottedPageInsert_fits valid.toLayout small fits
    exact (rewritePage sound member used inserted.valid inserted.next
      (by rw [inserted.count]; exact Nat.le_succ _)).1.sound
  · rw [slottedPageInsert_refused valid.toLayout fits]
    exact (rewritePage sound member used valid rfl (Nat.le_refl _)).1.sound

theorem bpmHeapInsert_ends {hf : StoreHeap} {chain : List PageId} (sound : HeapSound hf chain)
    (tuple : List UInt8) : EndsSound (bpmHeapInsert hf tuple) := by
  by_cases empty : tuple.length = 0
  · exact .inr ⟨hf, _, chain, if_pos empty, sound⟩
  · rcases findPageWithSpace_ends sound tuple.length with
      ⟨overflow, _⟩ | ⟨found, chain', pid, page, foundEq, grown, member, used, _⟩
    · refine .inl ?_
      unfold bpmHeapInsert
      rw [if_neg empty, overflow]
      rfl
    · have stored := bpmHeapInsert_found (Nat.pos_of_ne_zero empty) foundEq used
        (slottedPageInsert_nonneg page tuple)
      exact .inr ⟨_, _, chain', stored, grown.sound.insertInto member used tuple⟩

/-- A RID of a page outside the heap changes nothing in it. -/
theorem changeTuple_outside {hf : StoreHeap} {chain : List PageId} (sound : HeapSound hf chain)
    {rid : Rid} (foreign : ¬ OwnRid hf rid) (change : Page → Page × ErrorCode) :
    EndsSound (changeTuple hf rid change) := by
  unfold OwnRid at foreign
  rw [sound.heapPages_eq] at foreign
  push Not at foreign
  obtain ⟨isUsed, outside⟩ := foreign
  obtain ⟨page, used⟩ := Option.isSome_iff_exists.mp isUsed
  unfold changeTuple
  by_cases bad : badRid rid = true
  · exact .inr ⟨hf, _, chain, if_pos bad, sound⟩
  · rw [if_neg bad, fetch_of_used used]
    exact .inr ⟨_, _, chain, rfl, sound.set_other outside used _⟩

theorem bpmHeapGet_ends {hf : StoreHeap} {chain : List PageId} (sound : HeapSound hf chain)
    (rid : Rid) : EndsSound (bpmHeapCall hf (.get rid)) := by
  simp only [bpmHeapCall, bpmHeapGet]
  by_cases bad : badRid rid = true
  · rw [if_pos bad]
    exact .inr ⟨hf, _, chain, rfl, sound⟩
  · rw [if_neg bad]
    cases used : hf.bpm.pages rid.pageId with
    | none =>
        rw [fetch_of_unused used]
        exact .inr ⟨hf, _, chain, rfl, sound⟩
    | some page =>
        rw [fetch_of_used used]
        simp only [bind, Except.bind, data_of_used used]
        cases slottedPageGet page rid.slotId with
        | error rc => exact .inr ⟨hf, _, chain, rfl, sound⟩
        | ok bytes => exact .inr ⟨hf, _, chain, rfl, sound⟩

/-- Every call on a sound heap ends, whatever RID it names. -/
theorem bpmHeapCall_ends {hf : StoreHeap} {chain : List PageId} (sound : HeapSound hf chain)
    (op : HeapOp) : EndsSound (bpmHeapCall hf op) := by
  cases op with
  | insert tuple => exact bpmHeapInsert_ends sound tuple.1
  | delete rid =>
      by_cases own : OwnRid hf rid
      · obtain ⟨after, result, call, changed⟩ := bpmHeapDelete_store sound own
        exact .inr ⟨after, result, chain, call, changed.kept.sound⟩
      · exact changeTuple_outside sound own fun page => slottedPageDelete page rid.slotId
  | update rid newData =>
      by_cases own : OwnRid hf rid
      · obtain ⟨after, result, call, changed⟩ := bpmHeapUpdate_store sound own newData
        exact .inr ⟨after, result, chain, call, changed.kept.sound⟩
      · show EndsSound (bpmHeapUpdate hf rid newData.1)
        unfold bpmHeapUpdate
        by_cases empty : newData.1.length = 0
        · exact .inr ⟨hf, _, chain, if_pos empty, sound⟩
        · rw [if_neg empty]
          exact changeTuple_outside sound own _
  | get rid => exact bpmHeapGet_ends sound rid
  | scan => exact .inr ⟨hf, _, chain, bpmHeapScan_store sound, sound⟩

/-! ## Sound heap files -/

/-- A heap over the ideal pool with the same pages is sound. -/
def FileSound (hf : HeapFile) : Prop :=
  ∃ model chain, Agree storeServing model hf ∧ HeapSound model chain

theorem FileSound.chained {hf : HeapFile} (sound : FileSound hf) :
    ∃ chain, Chained hf.dm.pageAt hf.firstPageId chain := by
  obtain ⟨model, chain, agree, soundModel⟩ := sound
  have pages : model.bpm.pages = hf.dm.pageAt := funext (StoreServes.pages agree.serves)
  exact ⟨chain, agree.first ▸ pages ▸ soundModel.chained⟩

/-- A call on a sound heap file ends and leaves it sound. -/
theorem FileSound.call {hf : HeapFile} (sound : FileSound hf) {op : HeapOp}
    (notHeader : ∀ rid, op.rid? = some rid → rid.pageId ≠ 0) :
    heapFileCall hf op = .error .overflow ∨
      ∃ after result, heapFileCall hf op = .ok (after, result) ∧ FileSound after := by
  obtain ⟨_, chained⟩ := sound.chained
  obtain ⟨model, chain, agree, soundModel⟩ := sound
  have lockstep := heapCalls_lockstep agree chained notHeader
  rcases bpmHeapCall_ends soundModel op with overflow | ⟨after, result, chain', call, soundAfter⟩
  · rw [overflow] at lockstep
    generalize heapFileCall hf op = outcome at lockstep ⊢
    cases lockstep with
    | error => exact .inl rfl
    | excused allowed => exact absurd allowed (by simp [Evicts])
  · rw [call] at lockstep
    generalize heapFileCall hf op = outcome at lockstep ⊢
    cases lockstep with
    | ok same => exact .inr ⟨_, _, rfl, after, chain', same.2, soundAfter⟩

/-! ## Runs -/

/-- The ids a fresh file has to give away are distinct and valid. -/
theorem freshIds_valid {pageCount : Int32} (positive : 0 < pageCount) :
    (freshIds pageCount).Nodup ∧ invalidPageId ∉ freshIds pageCount := by
  have zero : (0 : Int32).toInt = 0 := by decide
  rw [Int32.lt_iff_toInt_lt, zero] at positive
  have value : ∀ id ∈ List.range' pageCount.toInt.toNat (2 ^ 31 - 1 - pageCount.toInt.toNat),
      (Int32.ofNat id).toInt = id := by
    intro id member
    have := List.mem_range'_1.mp member
    exact Int32.toInt_ofNat_of_lt (by omega)
  constructor
  · refine List.Nodup.map_on ?_ List.nodup_range'
    intro first inFirst second inSecond same
    have := congrArg Int32.toInt same
    rw [value _ inFirst, value _ inSecond] at this
    exact Int.ofNat_inj.mp this
  · intro member
    obtain ⟨id, inside, same⟩ := List.mem_map.mp member
    have := congrArg Int32.toInt same
    rw [value _ inside, show invalidPageId.toInt = -1 by decide] at this
    omega

/-- A pool without pages that will give away the ids of a fresh file. -/
def freshStore : PageStore where
  pages _ := none
  fresh := freshIds diskManagerCreate.pageCount
  fresh_nodup := (freshIds_valid (by decide)).1
  fresh_unused _ _ := rfl
  invalid_unused := ⟨(freshIds_valid (by decide)).2, rfl⟩

theorem pageAt_create (pid : PageId) : diskManagerCreate.pageAt pid = none := by
  refine DiskManager.pageAt_outside ?_
  rintro ⟨positive, below⟩
  rw [Int32.lt_iff_toInt_lt] at positive below
  rw [show (0 : Int32).toInt = 0 by decide] at positive
  rw [show diskManagerCreate.pageCount.toInt = 1 by decide] at below
  omega

theorem heapFileInit_sound : FileSound (heapFileInit diskManagerCreate invalidPageId) := by
  refine ⟨bpmHeapInit freshStore invalidPageId, [], ⟨?_, rfl⟩, rfl, List.nodup_nil, by simp⟩
  exact StoreServes.mk diskManagerCreate_healthy (fun pid => (pageAt_create pid).symm) rfl

theorem steadyServes_init {poolSize : Nat} {bpm : BufferPoolManager}
    (created : bpmInit poolSize diskManagerCreate = .ok bpm) :
    SteadyServes ⟨bpm⟩ diskManagerCreate := by
  obtain ⟨fresh, created', sound, _, disk, pages⟩ := bpmInit_sound poolSize diskManagerCreate
  rw [created, Except.ok.injEq] at created'
  subst created'
  refine ⟨⟨_, _, _, sound, ?_⟩, diskManagerCreate_healthy, ?_, ?_, ?_, ?_⟩
  · exact fun frame _ => by rw [pages]
  · rw [disk]
    exact diskManagerCreate_healthy
  · rw [disk]
  · intro frame _ held
    rw [pages] at held
    exact absurd rfl held
  · intro pid _
    rw [disk]

/-- A call keeps the two heaps in lockstep and the heap file sound. -/
theorem FileSound.lockstep {Pool Frame : Type} [PagePool Pool Frame]
    {serving : Serving Pool Frame} {bh : BpmHeap Pool} {hf : HeapFile}
    (agree : Agree serving bh hf) (sound : FileSound hf) {op : HeapOp}
    (notHeader : ∀ rid, op.rid? = some rid → rid.pageId ≠ 0) :
    Lockstep Evicts
      (fun after after' => after.2 = after'.2 ∧ Agree serving after.1 after'.1 ∧ FileSound after'.1)
      (bpmHeapCall bh op) (heapFileCall hf op) := by
  obtain ⟨chain, chained⟩ := sound.chained
  have lockstep := heapCalls_lockstep agree chained notHeader
  rcases sound.call notHeader with overflow | ⟨after, result, call, soundAfter⟩
  · rw [overflow] at lockstep ⊢
    generalize bpmHeapCall bh op = outcome at lockstep ⊢
    cases lockstep with
    | error => exact .error _
    | excused allowed => exact .excused allowed
  · rw [call] at lockstep ⊢
    generalize bpmHeapCall bh op = outcome at lockstep ⊢
    cases lockstep with
    | ok same => exact .ok ⟨same.1, same.2, soundAfter⟩
    | excused allowed => exact .excused allowed

/-- The heap over a pool that never evicts and the heap file, each on a fresh disk
manager, answer alike, and no call runs for ever. -/
theorem heaps_answer_alike {poolSize : Nat} {bpm : BufferPoolManager}
    (created : bpmInit poolSize diskManagerCreate = .ok bpm) {ops : List HeapOp}
    (notHeader : ∀ op ∈ ops, ∀ rid, op.rid? = some rid → rid.pageId ≠ 0)
    (neverEvicts : (answers bpmHeapCall (bpmHeapInit (SteadyPool.mk bpm) invalidPageId) ops).2 ≠
      some .eviction) :
    answers bpmHeapCall (bpmHeapInit (SteadyPool.mk bpm) invalidPageId) ops =
        answers heapFileCall (heapFileInit diskManagerCreate invalidPageId) ops ∧
      ∀ fault,
        (answers heapFileCall (heapFileInit diskManagerCreate invalidPageId) ops).2 = some fault →
          fault = .overflow := by
  constructor
  · let matched (bh : BpmHeap SteadyPool) (hf : HeapFile) : Prop :=
      Agree steadyServing bh hf ∧ FileSound hf
    have step : ∀ bh hf, ∀ op ∈ ops, matched bh hf → Lockstep Evicts
        (fun after after' => after.2 = after'.2 ∧ matched after.1 after'.1)
        (bpmHeapCall bh op) (heapFileCall hf op) :=
      fun bh hf op member ⟨agree, sound⟩ => sound.lockstep agree (notHeader op member)
    refine Lockstep.answers_eq step ⟨⟨steadyServes_init created, rfl⟩, heapFileInit_sound⟩ ?_
    rintro fault isFault rfl
    exact neverEvicts isFault
  · have step : ∀ hf, ∀ op ∈ ops, FileSound hf →
        (∃ fault, heapFileCall hf op = .error fault ∧ fault = .overflow) ∨
          ∃ after result, heapFileCall hf op = .ok (after, result) ∧ FileSound after := by
      intro hf op member sound
      rcases sound.call (notHeader op member) with overflow | ended
      · exact .inl ⟨_, overflow, rfl⟩
      · exact .inr ended
    exact fun fault ended => answers_fault step heapFileInit_sound ended

theorem heaps_answer_alike_once : ∃ bpm, bpmInit 1 diskManagerCreate = .ok bpm ∧
    answers bpmHeapCall (bpmHeapInit (SteadyPool.mk bpm) invalidPageId)
        [.insert ⟨[7], by decide⟩, .get ⟨1, 0⟩] =
      answers heapFileCall (heapFileInit diskManagerCreate invalidPageId)
        [.insert ⟨[7], by decide⟩, .get ⟨1, 0⟩] := by
  refine ⟨_, rfl, (@heaps_answer_alike 1 _ rfl [.insert ⟨[7], by decide⟩, .get ⟨1, 0⟩] ?_ ?_).1⟩
  · simp [HeapOp.rid?]
  · decide

end MiniSqlite.Executor
