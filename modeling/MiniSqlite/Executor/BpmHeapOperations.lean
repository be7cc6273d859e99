import MiniSqlite.Executor.BpmHeapStore

/-!
# The operations of the heap on its contents

Over an ideal pool: an insertion of a tuple that a page can hold adds it under a
new RID, deletes and updates change the tuple of their RID, a scan lists the
tuples. `HeapKept` is what every operation preserves of the pages.
-/

namespace MiniSqlite.Executor

open MiniSqlite.Common MiniSqlite.Std MiniSqlite.Storage MiniSqlite.Buffer

/-- `after` still has the pages of `before`, with at least as many slots. -/
structure HeapKept (before after : StoreHeap) (old new : List PageId) : Prop where
  sound : HeapSound after new
  subset : ∀ pid ∈ old, pid ∈ new
  counts : ∀ pid ∈ old, ∀ page, before.bpm.pages pid = some page →
    ∃ page', after.bpm.pages pid = some page' ∧
      pageHeaderGetNumTuples page ≤ pageHeaderGetNumTuples page'

theorem HeapKept.refl {hf : StoreHeap} {chain : List PageId} (sound : HeapSound hf chain) :
    HeapKept hf hf chain chain :=
  ⟨sound, fun _ member => member, fun _ _ page used => ⟨page, used, Nat.le_refl _⟩⟩

theorem HeapKept.trans {first second third : StoreHeap} {a b c : List PageId}
    (start : HeapKept first second a b) (rest : HeapKept second third b c) :
    HeapKept first third a c where
  sound := rest.sound
  subset pid member := rest.subset pid (start.subset pid member)
  counts pid member page used := by
    obtain ⟨page', used', count'⟩ := start.counts pid member page used
    obtain ⟨page'', used'', count''⟩ := rest.counts pid (start.subset pid member) page' used'
    exact ⟨page'', used'', count'.trans count''⟩

theorem HeapGrown.toKept {before after : StoreHeap} {old new : List PageId}
    (grown : HeapGrown before after old new) : HeapKept before after old new where
  sound := grown.sound
  subset := grown.subset
  counts pid member page used := by
    obtain ⟨page', used', count, _⟩ := grown.kept pid member page used
    exact ⟨page', used', Nat.le_of_eq count.symm⟩

theorem HeapSound.contents_eq {hf : StoreHeap} {chain : List PageId} (sound : HeapSound hf chain)
    (rid : Rid) :
    heapContents hf rid =
      if rid.pageId ∈ chain then
        (hf.bpm.pages rid.pageId).bind fun page => recordOf page rid.slotId
      else none := by
  unfold heapContents
  rw [sound.heapPages_eq]

/-- Growing the chain by empty pages changes no tuple. -/
theorem HeapGrown.contents {before after : StoreHeap} {old new : List PageId}
    (sound : HeapSound before old) (grown : HeapGrown before after old new) :
    heapContents after = heapContents before := by
  funext rid
  rw [sound.contents_eq, grown.sound.contents_eq]
  by_cases member : rid.pageId ∈ old
  · obtain ⟨page, used⟩ := sound.chained.used member
    obtain ⟨page', used', _, records⟩ := grown.kept _ member page used
    rw [if_pos member, if_pos (grown.subset _ member), used, used']
    simp only [Option.bind_some, recordOf, records]
  · rw [if_neg member]
    split
    · rename_i isNew
      obtain ⟨page, used, count⟩ := grown.added _ isNew member
      have dead : ∀ i, recordAt page i = none := fun i =>
        recordAt_eq_none fun live => absurd live.1 (by omega)
      rw [used]
      simp only [Option.bind_some, recordOf, dead, ite_self]
    · rfl

/-- Rewriting one page of the chain. -/
theorem rewritePage {hf : StoreHeap} {chain : List PageId} (sound : HeapSound hf chain)
    {pid : PageId} {page page' : Page} (member : pid ∈ chain)
    (used : hf.bpm.pages pid = some page) (valid : ValidPage page')
    (next : pageHeaderGetNextPage page' = pageHeaderGetNextPage page)
    (count : pageHeaderGetNumTuples page ≤ pageHeaderGetNumTuples page') :
    HeapKept hf ⟨hf.bpm.set pid page', hf.firstPageId⟩ chain chain ∧
      ∀ rid, heapContents ⟨hf.bpm.set pid page', hf.firstPageId⟩ rid =
        if rid.pageId = pid then recordOf page' rid.slotId else heapContents hf rid := by
  have written := PageStore.set_pages used page'
  have soundAfter : HeapSound ⟨hf.bpm.set pid page', hf.firstPageId⟩ chain := by
    refine ⟨sound.chained.congr fun other _ there usedThere => ?_, sound.nodup, ?_⟩
    · dsimp only
      rw [written]
      split
      · rename_i same
        rw [same, used, Option.some.injEq] at usedThere
        exact ⟨page', rfl, usedThere ▸ next⟩
      · exact ⟨there, usedThere, rfl⟩
    · intro other otherMember there usedThere
      dsimp only at usedThere
      rw [written] at usedThere
      split at usedThere
      · exact Option.some.inj usedThere ▸ valid
      · exact sound.valid other otherMember there usedThere
  refine ⟨⟨soundAfter, fun _ there => there, fun other _ there usedThere => ?_⟩, fun rid => ?_⟩
  · dsimp only
    rw [written]
    split
    · rename_i same
      rw [same, used, Option.some.injEq] at usedThere
      exact ⟨page', rfl, usedThere ▸ count⟩
    · exact ⟨there, usedThere, Nat.le_refl _⟩
  · rw [soundAfter.contents_eq, sound.contents_eq, written]
    by_cases same : rid.pageId = pid
    · rw [if_pos (same ▸ member), if_pos same, if_pos same]
      rfl
    · rw [if_neg same, if_neg same]

/-! ## RIDs handed out -/

/-- The RID names a slot of a page of the heap, live or deleted. -/
def Issued (hf : StoreHeap) (rid : Rid) : Prop :=
  rid.pageId ∈ heapPages hf ∧ ¬ rid.slotId < 0 ∧
    ∃ page, hf.bpm.pages rid.pageId = some page ∧
      slotIndex rid.slotId < pageHeaderGetNumTuples page

theorem Issued.kept {before after : StoreHeap} {old new : List PageId}
    (sound : HeapSound before old) (kept : HeapKept before after old new) {rid : Rid}
    (issued : Issued before rid) : Issued after rid := by
  obtain ⟨member, nonneg, page, used, bound⟩ := issued
  rw [sound.heapPages_eq] at member
  obtain ⟨page', used', count⟩ := kept.counts _ member page used
  refine ⟨?_, nonneg, page', used', bound.trans_le count⟩
  rw [kept.sound.heapPages_eq]
  exact kept.subset _ member

/-! ## Insertion -/

/-- The longest tuple that an empty page can hold. -/
def maxTuple : Nat := pageSize - pageHeaderSize - slotSize

/-- What an insertion does that stores its tuple. -/
structure HeapInserted (before after : StoreHeap) (chain chain' : List PageId) (rid : Rid)
    (tuple : List UInt8) : Prop where
  kept : HeapKept before after chain chain'
  fresh : ¬ Issued before rid
  issued : Issued after rid
  contents : ∀ other, heapContents after other =
    if other = rid then some tuple else heapContents before other

/-- Whatever `slotted_page_insert` returns is not negative, and taken for a slot id. -/
theorem bpmHeapInsert_found {hf found : StoreHeap} {tuple : List UInt8} {pid : PageId}
    {page : Page} (positive : 0 < tuple.length)
    (foundEq : findPageWithSpace hf tuple.length = .ok (found, .ok (pid, pid)))
    (used : found.bpm.pages pid = some page) (nonneg : 0 ≤ (slottedPageInsert page tuple).2) :
    bpmHeapInsert hf tuple =
      .ok (⟨found.bpm.set pid (slottedPageInsert page tuple).1, found.firstPageId⟩,
        { code := ErrorCode.ok.code
          rid := some ⟨pid, Int32.ofInt (slottedPageInsert page tuple).2⟩ }) := by
  unfold bpmHeapInsert
  rw [if_neg (Nat.ne_of_gt positive), foundEq]
  simp only [bind, Except.bind, pure, Except.pure, data_of_used used, setData_store,
    unpinPage_store, if_neg (Int.not_lt.mpr nonneg)]

/-- A tuple that a page can hold is stored under a RID never handed out before. -/
theorem bpmHeapInsert_fits {hf : StoreHeap} {chain : List PageId} (sound : HeapSound hf chain)
    (supply : 2 ≤ hf.bpm.fresh.length) {tuple : List UInt8} (positive : 0 < tuple.length)
    (fits : tuple.length ≤ maxTuple) :
    ∃ after chain' rid, bpmHeapInsert hf tuple =
        .ok (after, { code := ErrorCode.ok.code, rid := some rid }) ∧
      HeapInserted hf after chain chain' rid tuple := by
  obtain ⟨found, chain', pid, page, foundEq, ⟨grown, member, used, room⟩⟩ :=
    findPageWithSpace_store sound supply tuple.length
  have valid := grown.sound.valid pid member page used
  have fitsPage : Fits page tuple := by
    unfold maxTuple at fits
    simp only [pageSize, pageHeaderSize, slotSize] at fits room
    exact ⟨positive, by simp only [slotSize]; omega⟩
  have small : tuple.length < 2 ^ 16 := by
    unfold maxTuple at fits
    simp only [pageSize, pageHeaderSize, slotSize] at fits
    omega
  obtain ⟨code, inserted⟩ := slottedPageInsert_fits valid.toLayout small fitsPage
  obtain ⟨kept, contents⟩ := rewritePage grown.sound member used inserted.valid inserted.next
    (by rw [inserted.count]; exact Nat.le_succ _)
  have slot : Int32.ofInt (slottedPageInsert page tuple).2 =
      Int32.ofNat (pageHeaderGetNumTuples page) := by
    rw [code]
    exact Int32.ofInt_eq_ofNat
  have value : slotIndex (Int32.ofNat (pageHeaderGetNumTuples page)) =
      pageHeaderGetNumTuples page := by
    have := valid.count_lt
    rw [slotIndex, Int32.toInt_ofNat_of_lt (by omega)]
    rfl
  refine ⟨_, chain', ⟨pid, Int32.ofNat (pageHeaderGetNumTuples page)⟩, ?_,
    grown.toKept.trans kept, ?_, ?_, ?_⟩
  · rw [bpmHeapInsert_found positive foundEq used (by omega), slot]
  · rintro ⟨old, _, before, usedBefore, bound⟩
    rw [sound.heapPages_eq] at old
    obtain ⟨page', used', count, _⟩ := grown.kept _ old before usedBefore
    rw [used, Option.some.injEq] at used'
    subst used'
    rw [value] at bound
    omega
  · refine ⟨by rw [kept.sound.heapPages_eq]; exact member, ?_,
      (slottedPageInsert page tuple).1, ?_, ?_⟩
    · have := valid.count_lt
      rw [Int32.lt_iff_toInt_lt, Int32.toInt_ofNat_of_lt (by omega), Int32.toInt_zero]
      omega
    · rw [PageStore.set_pages used, if_pos rfl]
    · rw [value, inserted.count]
      exact Nat.lt_succ_self _
  · intro other
    rw [contents, ← grown.contents sound]
    obtain ⟨otherPid, otherSlot⟩ := other
    by_cases same : otherPid = pid
    · subst same
      rw [if_pos rfl, inserted.recordOf_eq valid, grown.sound.contents_eq, if_pos member, used]
      simp
    · simp [same]

/-! ## Reading and changing a tuple -/

/-- A call names a page of the heap, or no page at all. -/
def OwnRid (hf : StoreHeap) (rid : Rid) : Prop :=
  (hf.bpm.pages rid.pageId).isSome → rid.pageId ∈ heapPages hf

theorem contents_of_badRid {hf : StoreHeap} {chain : List PageId} (sound : HeapSound hf chain)
    {rid : Rid} (bad : badRid rid = true) : heapContents hf rid = none := by
  rw [sound.contents_eq]
  rcases Bool.or_eq_true_iff.mp bad with page | slot
  · rw [eq_of_beq page, hf.bpm.invalid_unused.2]
    simp
  · have negative : rid.slotId < 0 := by
      rw [eq_of_beq slot]
      decide
    split
    · simp only [recordOf, if_pos negative]
      cases hf.bpm.pages rid.pageId <;> rfl
    · rfl

/-- Where a RID leads: nowhere, or to a page of the heap. -/
theorem HeapSound.lookup {hf : StoreHeap} {chain : List PageId} (sound : HeapSound hf chain)
    {rid : Rid} (own : OwnRid hf rid) :
    (hf.bpm.pages rid.pageId = none ∧ heapContents hf rid = none) ∨
      ∃ page, hf.bpm.pages rid.pageId = some page ∧ rid.pageId ∈ chain ∧ ValidPage page ∧
        heapContents hf rid = recordOf page rid.slotId := by
  rw [sound.contents_eq]
  cases used : hf.bpm.pages rid.pageId with
  | none => simp
  | some page =>
      have member := own (by simp [used])
      rw [sound.heapPages_eq] at member
      exact Or.inr ⟨page, rfl, member, sound.valid _ member page used, by simp [member]⟩

/-- The answer `bpm_heap_get` owes for a RID. -/
def getResult (rid : Rid) (content : Option (List UInt8)) : HeapResult :=
  match content with
  | some bytes => { code := ErrorCode.ok.code, bytes := some bytes }
  | none => { code := if badRid rid then ErrorCode.invalidArgument.code
      else ErrorCode.pageNotFound.code }

/-- `bpm_heap_get` returns the tuple of the RID, and the release undoes its pin. -/
theorem bpmHeapGet_store {hf : StoreHeap} {chain : List PageId} (sound : HeapSound hf chain)
    {rid : Rid} (own : OwnRid hf rid) :
    bpmHeapCall hf (.get rid) = .ok (hf, getResult rid (heapContents hf rid)) := by
  by_cases bad : badRid rid = true
  · rw [contents_of_badRid sound bad]
    simp only [bpmHeapCall, bpmHeapGet, if_pos bad, getResult]
    rfl
  · simp only [bpmHeapCall, bpmHeapGet, if_neg bad]
    rcases sound.lookup own with ⟨unused, absent⟩ | ⟨page, used, _, _, content⟩
    · rw [fetch_of_unused unused, absent]
      simp only [getResult, if_neg bad]
      rfl
    · rw [fetch_of_used used, content]
      simp only [bind, Except.bind, pure, Except.pure, data_of_used used, slottedPageGet_eq]
      cases recordOf page rid.slotId with
      | none => simp only [getResult, if_neg bad, unpinPage_store]
      | some bytes => simp only [getResult, bpmHeapReleaseGet, bind, Except.bind, pure,
          Except.pure, unpinPage_store]

/-- What a delete or update does: change the tuple of its RID, or nothing. -/
structure HeapChanged (before after : StoreHeap) (chain : List PageId) (rid : Rid)
    (record : Option (List UInt8)) (result : HeapResult) : Prop where
  kept : HeapKept before after chain chain
  noRid : result.rid = none
  contents : ∀ other, heapContents after other =
    if result.code = ErrorCode.ok.code ∧ other = rid then record else heapContents before other

theorem changeTuple_store {hf : StoreHeap} {chain : List PageId} (sound : HeapSound hf chain)
    {rid : Rid} (own : OwnRid hf rid) {change : Page → Page × ErrorCode}
    {record : Option (List UInt8)}
    (outcome : ∀ page, ValidPage page →
      (¬ rid.slotId < 0 ∧ (change page).2 = .ok ∧
          Rewritten page (change page).1 (slotIndex rid.slotId) record) ∨
        (change page).2 ≠ .ok ∧ (change page).1 = page) :
    ∃ after result, changeTuple hf rid change = .ok (after, result) ∧
      HeapChanged hf after chain rid record result := by
  have refused : ∀ error : ErrorCode, error ≠ .ok →
      HeapChanged hf hf chain rid record { code := error.code } := by
    intro error failed
    refine ⟨.refl sound, rfl, fun other => ?_⟩
    rw [if_neg]
    rintro ⟨code, _⟩
    exact failed (ErrorCode.code_injective code)
  unfold changeTuple
  by_cases bad : badRid rid = true
  · exact ⟨hf, _, if_pos bad, refused .invalidArgument (by decide)⟩
  · rw [if_neg bad]
    rcases sound.lookup own with ⟨unused, _⟩ | ⟨page, used, member, valid, content⟩
    · rw [fetch_of_unused unused]
      exact ⟨hf, _, rfl, refused .pageNotFound (by decide)⟩
    · rw [fetch_of_used used]
      refine ⟨⟨hf.bpm.set rid.pageId (change page).1, hf.firstPageId⟩,
        { code := (change page).2.code }, by
          simp only [bind, Except.bind, pure, Except.pure, data_of_used used, setData_store,
            unpinPage_store], ?_⟩
      rcases outcome page valid with ⟨nonneg, ok, rewritten⟩ | ⟨failed, same⟩
      · obtain ⟨kept, contents⟩ := rewritePage sound member used rewritten.valid rewritten.next
          (Nat.le_of_eq rewritten.count.symm)
        refine ⟨kept, rfl, fun other => ?_⟩
        rw [contents, rewritten.recordOf_eq nonneg, ok]
        obtain ⟨otherPid, otherSlot⟩ := other
        by_cases here : otherPid = rid.pageId
        · subst here
          rw [if_pos rfl]
          by_cases slot : otherSlot = rid.slotId
          · subst slot
            simp
          · have differ : (⟨rid.pageId, otherSlot⟩ : Rid) ≠ rid := by
              rintro same
              exact slot (congrArg Rid.slotId same)
            rw [if_neg slot, if_neg (by simp [differ]), sound.contents_eq, if_pos member, used]
            rfl
        · have differ : (⟨otherPid, otherSlot⟩ : Rid) ≠ rid := by
            rintro same
            exact here (congrArg Rid.pageId same)
          rw [if_neg here, if_neg (by simp [differ])]
      · obtain ⟨kept, contents⟩ := rewritePage sound member used valid rfl (Nat.le_refl _)
        rw [same]
        refine ⟨kept, rfl, fun other => ?_⟩
        have unchanged : ¬ ((change page).2.code = ErrorCode.ok.code ∧ other = rid) :=
          fun both => failed (ErrorCode.code_injective both.1)
        rw [contents, if_neg unchanged]
        by_cases here : other.pageId = rid.pageId
        · rw [if_pos here, sound.contents_eq, here, if_pos member, used]
          rfl
        · rw [if_neg here]

theorem bpmHeapDelete_store {hf : StoreHeap} {chain : List PageId} (sound : HeapSound hf chain)
    {rid : Rid} (own : OwnRid hf rid) :
    ∃ after result, bpmHeapDelete hf rid = .ok (after, result) ∧
      HeapChanged hf after chain rid none result := by
  refine changeTuple_store sound own fun page valid => ?_
  cases found : recordOf page rid.slotId with
  | none =>
      right
      rw [slottedPageDelete_dead found]
      exact ⟨by simp, rfl⟩
  | some bytes => exact Or.inl ⟨nonneg_of_recordOf found, slottedPageDelete_live valid.toLayout found⟩

theorem bpmHeapUpdate_store {hf : StoreHeap} {chain : List PageId} (sound : HeapSound hf chain)
    {rid : Rid} (own : OwnRid hf rid) (newData : TupleData) :
    ∃ after result, bpmHeapUpdate hf rid newData.1 = .ok (after, result) ∧
      HeapChanged hf after chain rid (some newData.1) result := by
  unfold bpmHeapUpdate
  by_cases empty : newData.1.length = 0
  · refine ⟨hf, _, if_pos empty, .refl sound, rfl, fun other => ?_⟩
    rw [if_neg]
    rintro ⟨code, _⟩
    simp [ErrorCode.code] at code
  · rw [if_neg empty]
    refine changeTuple_store sound own fun page valid => ?_
    by_cases fits : (recordOf page rid.slotId).isSome ∧ UpdateFits page rid.slotId newData.1
    · obtain ⟨bytes, found⟩ := Option.isSome_iff_exists.mp fits.1
      exact Or.inl ⟨nonneg_of_recordOf found,
        slottedPageUpdate_live valid.toLayout found newData.2 fits.2⟩
    · have refused : recordOf page rid.slotId = none ∨ ¬ UpdateFits page rid.slotId newData.1 := by
        rwa [not_and_or, Option.not_isSome_iff_eq_none] at fits
      exact Or.inr (slottedPageUpdate_refused valid.toLayout refused).symm

/-- The error code taken for a slot id names no slot. -/
theorem recordOf_outOfMemory {page : Page} (valid : ValidPage page) :
    recordOf page (Int32.ofInt ErrorCode.outOfMemory.code) = none := by
  have := valid.count_lt
  have index : slotIndex (Int32.ofInt ErrorCode.outOfMemory.code) = 4001 := by decide
  rw [recordOf_of_nonneg (by decide), index]
  exact recordAt_eq_none fun live => absurd live.1 (by omega)

/-- A longer tuple is reported as stored, under a RID that names nothing. -/
theorem bpmHeapInsert_oversize {hf : StoreHeap} {chain : List PageId} (sound : HeapSound hf chain)
    (supply : 2 ≤ hf.bpm.fresh.length) {tuple : List UInt8} (oversize : maxTuple < tuple.length) :
    ∃ after rid, bpmHeapInsert hf tuple =
        .ok (after, { code := ErrorCode.ok.code, rid := some rid }) ∧
      bpmHeapCall after (.get rid) = .ok (after, { code := ErrorCode.pageNotFound.code }) := by
  obtain ⟨found, chain', pid, page, foundEq, ⟨grown, member, used, room⟩⟩ :=
    findPageWithSpace_store sound supply tuple.length
  have valid := grown.sound.valid pid member page used
  have refused : ¬ Fits page tuple := by
    intro fits
    have := fits.2
    have := freeSpace_le page
    unfold maxTuple at oversize
    simp only [pageSize, pageHeaderSize, slotSize] at *
    omega
  have positive : 0 < tuple.length := Nat.zero_lt_of_lt oversize
  have inserted := slottedPageInsert_refused valid.toLayout refused
  rw [if_neg (Nat.ne_of_gt positive)] at inserted
  have unchanged := PageStore.set_pages used page
  refine ⟨_, _, bpmHeapInsert_found positive foundEq used (by rw [inserted]; exact ErrorCode.outOfMemory.code_nonneg), ?_⟩
  rw [inserted]
  obtain ⟨kept, contents⟩ := rewritePage grown.sound member used valid rfl (Nat.le_refl _)
  have lost := recordOf_outOfMemory valid
  have own : OwnRid ⟨found.bpm.set pid page, found.firstPageId⟩
      ⟨pid, Int32.ofInt ErrorCode.outOfMemory.code⟩ := by
    intro _
    rwa [kept.sound.heapPages_eq]
  rw [bpmHeapGet_store kept.sound own, contents, if_pos rfl, lost]
  have good : badRid ⟨pid, Int32.ofInt ErrorCode.outOfMemory.code⟩ = false := by
    have := PageStore.ne_invalid used
    simp [badRid, this]
    decide
  simp only [getResult, good]
  rfl

/-- What is found under the RID an insertion has handed out is its tuple. -/
theorem bpmHeapInsert_contents {hf after : StoreHeap} {chain : List PageId}
    (sound : HeapSound hf chain) {tuple bytes : List UInt8} (small : tuple.length < 2 ^ 16)
    {result : HeapResult} {rid : Rid} (inserted : bpmHeapInsert hf tuple = .ok (after, result))
    (handed : result.rid = some rid) (stored : heapContents after rid = some bytes) :
    bytes = tuple := by
  by_cases empty : tuple.length = 0
  · rw [bpmHeapInsert, if_pos empty] at inserted
    obtain ⟨-, rfl⟩ := Prod.mk.inj (Except.ok.inj inserted)
    cases handed
  · have positive := Nat.pos_of_ne_zero empty
    rcases findPageWithSpace_ends sound tuple.length with
      ⟨overflow, -⟩ | ⟨found, chain', pid, page, foundEq, grown, member, used, -⟩
    · rw [bpmHeapInsert, if_neg empty, overflow] at inserted
      cases inserted
    · have valid := grown.sound.valid pid member page used
      rw [bpmHeapInsert_found positive foundEq used (slottedPageInsert_nonneg page tuple)] at inserted
      obtain ⟨rfl, rfl⟩ := Prod.mk.inj (Except.ok.inj inserted)
      obtain rfl := Option.some.inj handed
      by_cases fits : Fits page tuple
      · obtain ⟨code, placed⟩ := slottedPageInsert_fits valid.toLayout small fits
        obtain ⟨-, contents⟩ := rewritePage grown.sound member used placed.valid placed.next
          (by rw [placed.count]; exact Nat.le_succ _)
        rw [contents, if_pos rfl, placed.recordOf_eq valid, code, Int32.ofInt_eq_ofNat, if_pos rfl,
          Option.some.injEq] at stored
        exact stored.symm
      · have refused := slottedPageInsert_refused valid.toLayout fits
        rw [if_neg empty] at refused
        obtain ⟨-, contents⟩ := rewritePage grown.sound member used valid rfl (Nat.le_refl _)
        rw [refused, contents, if_pos rfl, recordOf_outOfMemory valid] at stored
        cases stored

end MiniSqlite.Executor
