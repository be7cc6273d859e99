import Mathlib.Order.Bounds.Defs
import MiniSqlite.Buffer.PinCounts
import MiniSqlite.Transaction.RecoveryTables

/-!
# Redo and its repetition

What `recovery_redo` leaves on the pages after analysis of a log that `wal_append`
wrote: each page has the highest LSN of the records to be redone on it, or its own,
and every pin is given back. So recovery finds nothing to do the second time.
-/

namespace MiniSqlite.Transaction

open MiniSqlite.Common MiniSqlite.Std MiniSqlite.Storage MiniSqlite.Buffer

open PagePool (fetchPage unpinPage data setData)

/-! ## Logs that are written -/

/-- A log that has been written from its start, and the records in it. -/
inductive Written : WalManager → List WalRecord → Prop where
  | init (existing : List UInt8) : Written (walManagerInit existing) []
  | append {wm next : WalManager} {log : List WalRecord} {record : WalRecord} {lsn : Lsn}
      (prior : Written wm log) (appended : walAppend wm record = .ok (next, lsn)) :
      Written next (log ++ [{ record with lsn := lsn }])
  | flush {wm : WalManager} {log : List WalRecord} (prior : Written wm log) (upToLsn : Lsn) :
      Written (walFlush wm upToLsn) log

/-- The records have positive LSNs, each higher than those before. -/
structure Ascending (log : List WalRecord) : Prop where
  positive : ∀ record ∈ log, 0 < record.lsn
  increasing : log.Pairwise fun earlier later => earlier.lsn < later.lsn

/-- What is written is the encoding of the records, with LSNs below the next one. -/
structure WrittenBelow (wm : WalManager) (log : List WalRecord) : Prop extends Ascending log where
  bytes : wm.logFile = ⟨encodeLog log, []⟩
  below : ∀ record ∈ log, record.lsn < wm.currentLsn
  next : 0 < wm.currentLsn

theorem Written.writtenBelow {wm : WalManager} {log : List WalRecord} (written : Written wm log) :
    WrittenBelow wm log := by
  induction written with
  | init existing =>
      exact ⟨⟨by simp, List.Pairwise.nil⟩, rfl, by simp, (by decide : (0 : Int32) < 1)⟩
  | flush prior upToLsn ih => exact ⟨ih.toAscending, ih.bytes, ih.below, ih.next⟩
  | @append wm next log record lsn prior appended ih =>
      by_cases left : wm.currentLsn = 2147483647
      · rw [walAppend_overflow left] at appended
        cases appended
      · rw [walAppend_write left] at appended
        obtain ⟨rfl, rfl⟩ := Prod.mk.inj (Except.ok.inj appended)
        have more : wm.currentLsn < wm.currentLsn + 1 := by
          have bound := wm.currentLsn.toInt_lt
          have least := wm.currentLsn.le_toInt
          have notLast : wm.currentLsn.toInt ≠ 2147483647 := fun last =>
            left (Int32.toInt_inj.mp last)
          rw [Int32.lt_iff_toInt_lt, Int32.toInt_add, show (1 : Int32).toInt = 1 by decide,
            Int.bmod_eq_of_le (by omega) (by omega)]
          omega
        refine ⟨⟨?_, ?_⟩, ?_, ?_, Int32.lt_trans ih.next more⟩
        · intro other member
          rcases List.mem_append.mp member with earlier | last
          · exact ih.positive other earlier
          · rw [List.mem_singleton.mp last]
            exact ih.next
        · refine List.pairwise_append.mpr ⟨ih.increasing, List.pairwise_singleton _ _, ?_⟩
          intro earlier member last isLast
          rw [List.mem_singleton.mp isLast]
          exact ih.below earlier member
        · show wm.logFile.write _ = _
          rw [ih.bytes, Stream.write_end rfl, encodeLog_append, encodeLog_cons, encodeLog_nil]
          simp [Stream.bytes]
        · intro other member
          rcases List.mem_append.mp member with earlier | last
          · exact Int32.lt_trans (ih.below other earlier) more
          · rw [List.mem_singleton.mp last]
            exact more

/-! ## A pool that counts pins -/

/-- The ideal pool with the pins of its pages. -/
structure PinnedStore where
  store : PageStore
  pins : PageId → Nat

/-- Fetches of pages in the store do not fail. -/
instance PinnedStore.pagePool : PagePool PinnedStore PageId where
  fetchPage pool pageId := .ok <|
    match pool.store.pages pageId with
    | some _ => ({ pool with pins := pinned pool.pins pageId }, some pageId)
    | none => (pool, none)
  newPage pool := do
    let (store, pageId) ← pool.store.allocate
    return (⟨store, pinned pool.pins pageId⟩, some (pageId, pageId))
  unpinPage pool pageId _ := .ok { pool with pins := unpinned pool.pins pageId }
  data pool pageId := (pool.store.pages pageId).getD zeroPage
  setData pool pageId page := { pool with store := pool.store.set pageId page }
  pageId _ pageId := pageId

/-! ## One record -/

/-- The record is redone on its page if the page is older. -/
def Redoable (record : WalRecord) : Prop :=
  (record.type = .update ∨ record.type = .insert) ∧ record.afterImage.bytes ≠ []

instance Redoable.decidable (record : WalRecord) : Decidable (Redoable record) :=
  inferInstanceAs (Decidable (_ ∧ _))

/-- The page after a record has been redone on it. -/
def redonePage (page : Page) (record : WalRecord) : Page :=
  if record.lsn.toInt64 > pageHeaderGetLsn page ∧ record.afterImage.bytes ≠ [] then
    pageHeaderSetLsn page record.lsn.toInt64
  else page

/-- The store after a record has been redone in it. -/
def redoneStore (store : PageStore) (record : WalRecord) : PageStore :=
  match store.pages record.pageId with
  | some page => store.set record.pageId (redonePage page record)
  | none => store

/-- The tables let the record through. -/
def Considered (dpt : Hashmap resourceKey DptEntry) (minLsn : Lsn) (record : WalRecord) : Prop :=
  ¬record.lsn < minLsn ∧ (record.type = .update ∨ record.type = .insert) ∧
    ∃ entry, dpt.hashmapGet record.pageId = some entry ∧ record.lsn ≥ entry.recLsn

theorem redoPage_pinned (record : WalRecord) (pool : PinnedStore) :
    redoPage record pool = .ok { pool with store := redoneStore pool.store record } := by
  cases used : pool.store.pages record.pageId with
  | none => simp [redoPage, fetchPage, redoneStore, used, bind, Except.bind, pure, Except.pure]
  | some page =>
      simp only [redoPage, fetchPage, redoneStore, redonePage, used, bind, Except.bind, data,
        Option.getD_some, setData, unpinPage]
      split
      · simp
      · rw [PageStore.set_same used]
        simp

theorem redoRecord_considered {dpt : Hashmap resourceKey DptEntry} {minLsn : Lsn}
    {record : WalRecord} (considered : Considered dpt minLsn record) (pool : PinnedStore) :
    redoRecord dpt minLsn pool record =
      .ok { pool with store := redoneStore pool.store record } := by
  obtain ⟨recent, kind, entry, found, later⟩ := considered
  rw [redoRecord, if_neg recent, if_pos kind, found]
  dsimp only
  rw [if_pos later, redoPage_pinned]

theorem redoRecord_not_considered {dpt : Hashmap resourceKey DptEntry} {minLsn : Lsn}
    {record : WalRecord} (skipped : ¬Considered dpt minLsn record) (pool : PinnedStore) :
    redoRecord dpt minLsn pool record = .ok pool := by
  unfold redoRecord
  split
  · rfl
  · rename_i recent
    split
    · rename_i kind
      cases found : dpt.hashmapGet record.pageId with
      | none => rfl
      | some entry =>
          dsimp only
          split
          · rename_i later
            exact absurd ⟨recent, kind, entry, found, later⟩ skipped
          · rfl
    · rfl

/-! ## The pages after a log -/

/-- The records of a log to be redone on a page, in order. -/
def redoneOn (log : List WalRecord) (pageId : PageId) : List WalRecord :=
  log.filter fun record => Redoable record ∧ record.pageId = pageId

/-- The page after them. -/
def redoneFrom (log : List WalRecord) (pageId : PageId) (page : Page) : Page :=
  (redoneOn log pageId).foldl redonePage page

theorem redoneOn_cons (record : WalRecord) (rest : List WalRecord) (pageId : PageId) :
    redoneOn (record :: rest) pageId = if Redoable record ∧ record.pageId = pageId then
      record :: redoneOn rest pageId else redoneOn rest pageId := by
  unfold redoneOn
  rw [List.filter_cons]
  simp only [decide_eq_true_eq]

theorem redonePage_empty {record : WalRecord} (empty : record.afterImage.bytes = []) (page : Page) :
    redonePage page record = page := by
  simp [redonePage, empty]

theorem redoneStore_pages (store : PageStore) (record : WalRecord) (pageId : PageId) :
    (redoneStore store record).pages pageId =
      if pageId = record.pageId then (store.pages pageId).map (redonePage · record)
      else store.pages pageId := by
  unfold redoneStore
  cases used : store.pages record.pageId with
  | none =>
      by_cases same : pageId = record.pageId
      · rw [if_pos same, same, used]
        rfl
      · rw [if_neg same]
  | some page =>
      rw [PageStore.set_pages used]
      by_cases same : pageId = record.pageId
      · rw [if_pos same, if_pos same, same, used]
        rfl
      · rw [if_neg same, if_neg same]

/-- When the tables let all updates and insertions through, each page is redone from the log. -/
theorem redoRecords_pages {dpt : Hashmap resourceKey DptEntry} {minLsn : Lsn}
    {log : List WalRecord} (considered : ∀ record ∈ log,
      record.type = .update ∨ record.type = .insert → Considered dpt minLsn record)
    (pool : PinnedStore) :
    ∃ store, log.foldlM (redoRecord dpt minLsn) pool = .ok { pool with store := store } ∧
      ∀ pageId, store.pages pageId = (pool.store.pages pageId).map (redoneFrom log pageId) := by
  induction log generalizing pool with
  | nil => exact ⟨pool.store, rfl, fun pageId => Option.map_id'.symm⟩
  | cons record rest ih =>
      have others := ih fun other member => considered other (List.mem_cons_of_mem _ member)
      by_cases kind : record.type = .update ∨ record.type = .insert
      · obtain ⟨store, ran, pages⟩ := others { pool with store := redoneStore pool.store record }
        refine ⟨store, ?_, fun pageId => ?_⟩
        · rw [List.foldlM_cons, redoRecord_considered (considered record List.mem_cons_self kind)]
          exact ran
        · rw [pages]
          show ((redoneStore pool.store record).pages pageId).map _ = _
          rw [redoneStore_pages]
          by_cases same : pageId = record.pageId
          · rw [if_pos same, Option.map_map]
            congr 1
            funext page
            rw [Function.comp_apply, redoneFrom, redoneFrom, redoneOn_cons]
            by_cases empty : record.afterImage.bytes = []
            · rw [redonePage_empty empty, if_neg fun redone => redone.1.2 empty]
            · rw [if_pos ⟨⟨kind, empty⟩, same.symm⟩, List.foldl_cons]
          · rw [if_neg same]
            congr 1
            funext page
            rw [redoneFrom, redoneFrom, redoneOn_cons, if_neg fun redone => same redone.2.symm]
      · obtain ⟨store, ran, pages⟩ := others pool
        refine ⟨store, ?_, fun pageId => ?_⟩
        · rw [List.foldlM_cons, redoRecord_not_considered fun through => kind through.2.1]
          exact ran
        · rw [pages]
          congr 1
          funext page
          rw [redoneFrom, redoneFrom, redoneOn_cons, if_neg fun redone => kind redone.1.1]

@[simp] theorem getLsn_setLsn (page : Page) (lsn : Int64) :
    pageHeaderGetLsn (pageHeaderSetLsn page lsn) = lsn := by
  simp [pageHeaderGetLsn, pageHeaderSetLsn]

theorem redonePage_sameButLsn (page : Page) (record : WalRecord) :
    SameButLsn page (redonePage page record) := by
  unfold redonePage
  split
  · exact SameButLsn.setLsn page _
  · exact SameButLsn.rfl page

theorem redonePage_lsn {record : WalRecord} (filled : record.afterImage.bytes ≠ []) (page : Page) :
    IsGreatest {pageHeaderGetLsn page, record.lsn.toInt64}
      (pageHeaderGetLsn (redonePage page record)) := by
  unfold redonePage
  by_cases newer : record.lsn.toInt64 > pageHeaderGetLsn page
  · rw [if_pos ⟨newer, filled⟩, getLsn_setLsn]
    refine ⟨.inr rfl, ?_⟩
    rintro lsn (rfl | rfl)
    · exact Int64.le_of_lt newer
    · exact Int64.le_refl _
  · rw [if_neg fun both => newer both.1]
    refine ⟨.inl rfl, ?_⟩
    rintro lsn (rfl | rfl)
    · exact Int64.le_refl _
    · exact Int64.not_lt.mp newer

/-- The LSNs that a page may get from a log: its own, and those of the records redone on it. -/
def lsnsFor (log : List WalRecord) (pageId : PageId) (page : Page) : Set Int64 :=
  {lsn | lsn = pageHeaderGetLsn page ∨ ∃ record ∈ redoneOn log pageId, lsn = record.lsn.toInt64}

/-- Redoing a log on a page changes nothing but its LSN, which becomes the highest. -/
theorem redoneFrom_spec (log : List WalRecord) (pageId : PageId) (page : Page) :
    SameButLsn page (redoneFrom log pageId page) ∧
      IsGreatest (lsnsFor log pageId page) (pageHeaderGetLsn (redoneFrom log pageId page)) := by
  have filled : ∀ record ∈ redoneOn log pageId, record.afterImage.bytes ≠ [] := by
    intro record member
    exact (of_decide_eq_true (List.mem_filter.mp member).2).1.2
  unfold redoneFrom lsnsFor
  revert filled
  generalize redoneOn log pageId = records
  induction records generalizing page with
  | nil =>
      intro _
      refine ⟨SameButLsn.rfl page, .inl rfl, ?_⟩
      rintro lsn (rfl | ⟨record, member, _⟩)
      · exact Int64.le_refl _
      · cases member
  | cons record rest ih =>
      intro filled
      obtain ⟨same, reached, highest⟩ := ih (redonePage page record) fun other member =>
        filled other (List.mem_cons_of_mem _ member)
      obtain ⟨here, above⟩ := redonePage_lsn (filled record List.mem_cons_self) page
      refine ⟨(redonePage_sameButLsn page record).trans same, ?_, ?_⟩
      · rcases reached with unchanged | ⟨other, member, equal⟩
        · rw [List.foldl_cons, unchanged]
          rcases here with old | new
          · exact .inl old
          · exact .inr ⟨record, List.mem_cons_self, new⟩
        · exact .inr ⟨other, List.mem_cons_of_mem _ member, equal⟩
      · rintro lsn (rfl | ⟨other, member, rfl⟩)
        · exact Int64.le_trans (above (.inl rfl)) (highest (.inl rfl))
        · rcases List.mem_cons.mp member with rfl | later
          · exact Int64.le_trans (above (.inr rfl)) (highest (.inl rfl))
          · exact highest (.inr ⟨other, later, rfl⟩)

/-! ## What the tables let through -/

/-- The smaller of an LSN, unless it is `INVALID_LSN`, and that of an entry. -/
def lowerLsn (minLsn : Lsn) (entry : Int32 × DptEntry) : Lsn :=
  if minLsn = 0 ∨ entry.2.recLsn < minLsn then entry.2.recLsn else minLsn

theorem minRecLsn_eq (dpt : Hashmap resourceKey DptEntry) :
    minRecLsn dpt = dpt.entries.foldl lowerLsn 0 := by
  rw [minRecLsn, Hashmap.drain_eq_entries]
  rfl

theorem lowerLsn_spec {minLsn : Lsn} (start : minLsn = 0 ∨ 0 < minLsn) {entry : Int32 × DptEntry}
    (positive : 0 < entry.2.recLsn) :
    0 < lowerLsn minLsn entry ∧ lowerLsn minLsn entry ≤ entry.2.recLsn ∧
      (0 < minLsn → lowerLsn minLsn entry ≤ minLsn) := by
  unfold lowerLsn
  split
  · rename_i taken
    refine ⟨positive, Int32.le_refl _, fun above => ?_⟩
    rcases taken with zero | less
    · rw [zero] at above
      exact absurd above (by decide)
    · exact Int32.le_of_lt less
  · rename_i kept
    rw [not_or] at kept
    exact ⟨start.resolve_left kept.1, Int32.not_lt.mp kept.2, fun _ => Int32.le_refl _⟩

/-- The smallest of some positive LSNs is positive and not above any of them. -/
theorem foldl_lowerLsn {entries : List (Int32 × DptEntry)}
    (positive : ∀ entry ∈ entries, 0 < entry.2.recLsn) {minLsn : Lsn}
    (start : minLsn = 0 ∨ 0 < minLsn) :
    (0 < minLsn → 0 < entries.foldl lowerLsn minLsn ∧ entries.foldl lowerLsn minLsn ≤ minLsn) ∧
      ∀ entry ∈ entries, 0 < entries.foldl lowerLsn minLsn ∧
        entries.foldl lowerLsn minLsn ≤ entry.2.recLsn := by
  induction entries generalizing minLsn with
  | nil => exact ⟨fun above => ⟨above, Int32.le_refl _⟩, by simp⟩
  | cons first rest ih =>
      obtain ⟨above, lower, least⟩ := lowerLsn_spec start (positive first List.mem_cons_self)
      obtain ⟨below, each⟩ := ih (fun other member => positive other (List.mem_cons_of_mem _ member))
        (.inr above)
      obtain ⟨reaches, reached⟩ := below above
      refine ⟨fun higher => ⟨reaches, Int32.le_trans reached (least higher)⟩, fun entry member => ?_⟩
      rcases List.mem_cons.mp member with rfl | later
      · exact ⟨reaches, Int32.le_trans reached lower⟩
      · exact each entry later

theorem minRecLsn_spec {dpt : Hashmap resourceKey DptEntry}
    (positive : ∀ pageId entry, dpt.hashmapGet pageId = some entry → 0 < entry.recLsn)
    {pageId : PageId} {entry : DptEntry} (found : dpt.hashmapGet pageId = some entry) :
    minRecLsn dpt ≠ 0 ∧ minRecLsn dpt ≤ entry.recLsn := by
  have all : ∀ other ∈ dpt.entries, 0 < other.2.recLsn := fun other member =>
    positive other.1 other.2 (Hashmap.mem_entries_eq.mp member)
  have inEntries : (pageId, entry) ∈ dpt.entries := Hashmap.mem_entries_eq.mpr found
  obtain ⟨above, reached⟩ := (foldl_lowerLsn all (.inl rfl)).2 _ inEntries
  rw [minRecLsn_eq]
  refine ⟨fun zero => ?_, reached⟩
  rw [zero] at above
  exact absurd above (by decide)

/-- The table of dirty pages after analysis of a log. -/
def TableOf (dpt : Hashmap resourceKey DptEntry) (log : List WalRecord) : Prop :=
  ∀ pageId, dpt.hashmapGet pageId = dptOf log pageId

theorem TableOf.entry {dpt : Hashmap resourceKey DptEntry} {log : List WalRecord}
    (table : TableOf dpt log) {pageId : PageId} {entry : DptEntry}
    (found : dpt.hashmapGet pageId = some entry) :
    ∃ first rest, changesTo log pageId = first :: rest ∧ entry.recLsn = first.lsn := by
  rw [table, dptOf] at found
  cases changes : changesTo log pageId with
  | nil =>
      rw [changes] at found
      cases found
  | cons first rest =>
      rw [changes] at found
      obtain rfl := Option.some.inj found
      exact ⟨first, rest, rfl, rfl⟩

theorem TableOf.positive {dpt : Hashmap resourceKey DptEntry} {log : List WalRecord}
    (table : TableOf dpt log) (ascending : Ascending log) (pageId : PageId) (entry : DptEntry)
    (found : dpt.hashmapGet pageId = some entry) : 0 < entry.recLsn := by
  obtain ⟨first, rest, changes, recLsn⟩ := table.entry found
  have member : first ∈ changesTo log pageId := changes ▸ List.mem_cons_self
  rw [recLsn]
  exact ascending.positive first (List.mem_filter.mp member).1

/-- Every update and insertion of the log comes after the first change of its page. -/
theorem TableOf.considered {dpt : Hashmap resourceKey DptEntry} {log : List WalRecord}
    (table : TableOf dpt log) (ascending : Ascending log) {record : WalRecord}
    (member : record ∈ log) (kind : record.type = .update ∨ record.type = .insert) :
    minRecLsn dpt ≠ 0 ∧ Considered dpt (minRecLsn dpt) record := by
  have changes : Changes record := kind.imp id .inl
  have inChanges : record ∈ changesTo log record.pageId := by
    rw [changesTo_eq]
    exact List.mem_filter.mpr ⟨member, decide_eq_true ⟨changes, rfl⟩⟩
  have ordered : (changesTo log record.pageId).Pairwise fun earlier later =>
      earlier.lsn < later.lsn := ascending.increasing.filter _
  cases shape : changesTo log record.pageId with
  | nil =>
      rw [shape] at inChanges
      cases inChanges
  | cons first rest =>
      have found : dpt.hashmapGet record.pageId = some ⟨record.pageId, first.lsn⟩ := by
        rw [table, dptOf, shape]
        rfl
      have later : first.lsn ≤ record.lsn := by
        rw [shape] at inChanges ordered
        rcases List.mem_cons.mp inChanges with rfl | inRest
        · exact Int32.le_refl _
        · exact Int32.le_of_lt ((List.pairwise_cons.mp ordered).1 record inRest)
      obtain ⟨nonzero, least⟩ := minRecLsn_spec (table.positive ascending) found
      refine ⟨nonzero, ?_, kind, _, found, later⟩
      exact Int32.not_lt.mpr (Int32.le_trans least later)

/-! ## Recovery, once and again -/

section Recovery

variable {rm : RecoveryManager PinnedStore} {wal : WalManager} {log : List WalRecord}

theorem recoveryRedo_reads (holds : rm.wal.logFile.bytes = encodeLog log)
    (dirty : minRecLsn rm.dpt ≠ 0) {bpm : PinnedStore}
    (ran : log.foldlM (redoRecord rm.dpt (minRecLsn rm.dpt)) rm.bpm = .ok bpm) :
    recoveryRedo rm = .ok ({ rm with wal := atEndOfLog rm.wal, bpm := bpm }, .ok) := by
  have unread : ∀ (pool : PinnedStore) (record : WalRecord),
      redoRecord rm.dpt (minRecLsn rm.dpt) pool { record with length := 0 } =
        redoRecord rm.dpt (minRecLsn rm.dpt) pool record := fun _ _ => rfl
  simp only [recoveryRedo, if_neg dirty, walReadAll_encodeLog rm.wal holds, bind, Except.bind, pure,
    Except.pure, List.foldlM_map, unread]
  rw [ran]
  rfl

/-- Redo after analysis of the same log. -/
theorem recoveryRedo_pages (holds : rm.wal.logFile.bytes = encodeLog log)
    (ascending : Ascending log) (table : TableOf rm.dpt log) :
    ∃ after, recoveryRedo rm = .ok (after, .ok) ∧ after.bpm.pins = rm.bpm.pins ∧
      ∀ pageId, after.bpm.store.pages pageId =
        (rm.bpm.store.pages pageId).map (redoneFrom log pageId) := by
  by_cases clean : minRecLsn rm.dpt = 0
  · refine ⟨rm, ?_, rfl, fun pageId => ?_⟩
    · rw [recoveryRedo, if_pos clean]
      rfl
    · have none : redoneOn log pageId = [] := by
        refine List.filter_eq_nil_iff.mpr fun record member redone => ?_
        exact (table.considered ascending member (of_decide_eq_true redone).1.1).1 clean
      have same : redoneFrom log pageId = id := by
        funext page
        rw [redoneFrom, none]
        rfl
      rw [same, Option.map_id]
      rfl
  · obtain ⟨store, ran, pages⟩ := redoRecords_pages
      (fun record member kind => (table.considered ascending member kind).2) rm.bpm
    exact ⟨_, recoveryRedo_reads holds clean ran, rfl, pages⟩

/-- No page is older than a record of the log to be redone on it. -/
def UpToDate (log : List WalRecord) (store : PageStore) : Prop :=
  ∀ record ∈ log, Redoable record → ∀ page, store.pages record.pageId = some page →
    record.lsn.toInt64 ≤ pageHeaderGetLsn page

theorem UpToDate.redoneStore {store : PageStore} (recent : UpToDate log store) {record : WalRecord}
    (member : record ∈ log) (kind : record.type = .update ∨ record.type = .insert) :
    redoneStore store record = store := by
  unfold Transaction.redoneStore
  cases used : store.pages record.pageId with
  | none => rfl
  | some page =>
      have same : redonePage page record = page := by
        unfold redonePage
        rw [if_neg]
        rintro ⟨newer, filled⟩
        exact Int64.not_lt.mpr (recent record member ⟨kind, filled⟩ page used) newer
      dsimp only
      rw [same]
      exact PageStore.set_same used

theorem UpToDate.redoRecords {dpt : Hashmap resourceKey DptEntry} {minLsn : Lsn}
    {pool : PinnedStore} (recent : UpToDate log pool.store) :
    log.foldlM (redoRecord dpt minLsn) pool = .ok pool := by
  have each : ∀ record ∈ log, redoRecord dpt minLsn pool record = .ok pool := by
    intro record member
    by_cases considered : Considered dpt minLsn record
    · rw [redoRecord_considered considered, recent.redoneStore member considered.2.1]
    · exact redoRecord_not_considered considered pool
  clear recent
  induction log with
  | nil => rfl
  | cons record rest ih =>
      rw [List.foldlM_cons, each record List.mem_cons_self]
      exact ih fun other member => each other (List.mem_cons_of_mem _ member)

/-- Redo finds nothing to do on pages that are up to date, whatever the tables say. -/
theorem UpToDate.recoveryRedo (holds : rm.wal.logFile.bytes = encodeLog log)
    (recent : UpToDate log rm.bpm.store) :
    ∃ after, recoveryRedo rm = .ok (after, .ok) ∧ after.bpm = rm.bpm := by
  by_cases clean : minRecLsn rm.dpt = 0
  · refine ⟨rm, ?_, rfl⟩
    rw [Transaction.recoveryRedo, if_pos clean]
    rfl
  · exact ⟨_, recoveryRedo_reads holds clean recent.redoRecords, rfl⟩

theorem redoneFrom_upToDate {before after : PageStore}
    (pages : ∀ pageId, after.pages pageId = (before.pages pageId).map (redoneFrom log pageId)) :
    UpToDate log after := by
  intro record member redone page used
  rw [pages] at used
  obtain ⟨old, _, rfl⟩ := Option.map_eq_some_iff.mp used
  refine (redoneFrom_spec log record.pageId old).2.2 (.inr ⟨record, ?_, rfl⟩)
  exact List.mem_filter.mpr ⟨member, decide_eq_true ⟨redone, rfl⟩⟩

/-- The three phases one after the other. -/
theorem recoveryRun_phases {analysed redone : RecoveryManager PinnedStore}
    (analysis : recoveryAnalysis rm = .ok (analysed, .ok))
    (redo : recoveryRedo analysed = .ok (redone, .ok)) :
    recoveryRun rm = .ok ((recoveryUndo redone).1, .ok) := by
  simp only [recoveryRun, analysis, redo, bind, Except.bind, pure, Except.pure, ne_eq,
    not_true_eq_false, if_false]
  rfl

/-- Redo of a log written by `wal_append` gives each page the highest LSN of its own and of
the records redone on it, changes nothing else and gives back every pin. Recovery of the
pages that it leaves changes none of them, whatever is in the tables. -/
theorem recovery_idempotent (written : Written wal log) (pool : PinnedStore) :
    ∃ analysed redone final,
      recoveryAnalysis (recoveryManagerInit wal pool) = .ok (analysed, .ok) ∧
      recoveryRedo analysed = .ok (redone, .ok) ∧
      recoveryRun (recoveryManagerInit wal pool) = .ok (final, .ok) ∧ final.bpm = redone.bpm ∧
      redone.bpm.pins = pool.pins ∧
      (∀ pageId, Option.Rel (fun before after => SameButLsn before after ∧
          IsGreatest (lsnsFor log pageId before) (pageHeaderGetLsn after) ∧
          (redoneOn log pageId = [] → after = before))
        (pool.store.pages pageId) (redone.bpm.store.pages pageId)) ∧
      ∀ second : RecoveryManager PinnedStore, second.wal.logFile.bytes = wal.logFile.bytes →
        second.bpm = redone.bpm →
          ∃ again, recoveryRun second = .ok (again, .ok) ∧ again.bpm = redone.bpm := by
  have below := written.writtenBelow
  have holds : wal.logFile.bytes = encodeLog log := by
    rw [below.bytes]
    simp [Stream.bytes]
  let analysed := log.foldl analyseRecord (recoveryManagerInit (atEndOfLog wal) pool)
  have analysis : recoveryAnalysis (recoveryManagerInit wal pool) = .ok (analysed, .ok) :=
    recoveryAnalysis_reads holds
  obtain ⟨sameWal, sameBpm⟩ :=
    analyseRecords_same log (recoveryManagerInit (atEndOfLog wal) pool)
  have again : analysed.wal.logFile.bytes = encodeLog log := by
    rw [sameWal, ← holds]
    simp [recoveryManagerInit, atEndOfLog, Stream.bytes]
  have table : TableOf analysed.dpt log :=
    analyseRecords_dpt log fun pageId => Hashmap.hashmapGet_init 16 pageId
  obtain ⟨redone, redo, pins, pages⟩ := recoveryRedo_pages again below.toAscending table
  rw [sameBpm] at pins pages
  refine ⟨analysed, redone, _, analysis, redo, recoveryRun_phases analysis redo, rfl, pins, ?_, ?_⟩
  · intro pageId
    rw [pages]
    show Option.Rel _ (pool.store.pages pageId) ((pool.store.pages pageId).map _)
    cases pool.store.pages pageId with
    | none => exact .none
    | some page =>
        obtain ⟨same, greatest⟩ := redoneFrom_spec log pageId page
        refine .some ⟨same, greatest, fun none => ?_⟩
        rw [redoneFrom, none]
        rfl
  · intro second sameLog samePages
    have recent : UpToDate log second.bpm.store := samePages ▸ redoneFrom_upToDate pages
    obtain ⟨sameWal', sameBpm'⟩ :=
      analyseRecords_same log { second with wal := atEndOfLog second.wal }
    have reads := @recoveryAnalysis_reads _ second log (sameLog.trans holds)
    obtain ⟨after, redoAgain, unchanged⟩ := @UpToDate.recoveryRedo
      (log.foldl analyseRecord { second with wal := atEndOfLog second.wal }) log (by
        rw [sameWal', ← holds, ← sameLog]
        simp [atEndOfLog, Stream.bytes]) (by rwa [sameBpm'])
    refine ⟨_, recoveryRun_phases reads redoAgain, ?_⟩
    show after.bpm = _
    rw [unchanged, sameBpm', samePages]

end Recovery

/-- An update of page 5. -/
def updatePage : WalRecord :=
  { WalRecord.zero with type := .update, pageId := 5, afterImage := ⟨[5, 6], by decide⟩ }

/-- A log of one update. -/
def updatedLog : WalManager :=
  { walManagerInit [] with
    logFile := Stream.empty.write (encodeRecord { updatePage with lsn := 1 }), currentLsn := 2 }

theorem updatedLog_written : Written updatedLog [{ updatePage with lsn := 1 }] :=
  .append (.init []) (walAppend_write (by decide) updatePage)

/-- Page 5 gets LSN 1, and keeps it when recovery is run again. -/
theorem recovery_updatedLog : ∃ final,
    recoveryRun (recoveryManagerInit updatedLog (⟨unflushedPage, fun _ => 0⟩ : PinnedStore)) =
        .ok (final, .ok) ∧
      (final.bpm.store.pages 5).map pageHeaderGetLsn = some 1 ∧ final.bpm.pins 5 = 0 ∧
      ∃ again, recoveryRun (recoveryManagerInit updatedLog final.bpm) = .ok (again, .ok) ∧
        again.bpm = final.bpm := by
  obtain ⟨_, redone, final, _, _, ran, same, pins, pages, second⟩ :=
    recovery_idempotent updatedLog_written ⟨unflushedPage, fun _ => 0⟩
  refine ⟨final, ran, ?_, ?_, ?_⟩
  · rw [same]
    have page := pages 5
    rw [show unflushedPage.pages 5 = some zeroPage from rfl] at page
    generalize redone.bpm.store.pages 5 = now at page
    cases page with
    | some related =>
        obtain ⟨-, greatest, -⟩ := related
        have reached : (1 : Int64) ∈ lsnsFor [{ updatePage with lsn := 1 }] 5 zeroPage :=
          .inr ⟨_, List.mem_singleton_self _, by decide⟩
        refine congrArg some (Int64.le_antisymm ?_ (greatest.2 reached))
        rcases greatest.1 with old | ⟨record, member, new⟩
        · rw [old]
          decide +kernel
        · rw [new, List.mem_singleton.mp member]
          decide
  · rw [same, pins]
  · rw [same]
    exact second _ rfl rfl

end MiniSqlite.Transaction
