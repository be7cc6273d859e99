import MiniSqlite.Common.HashmapRuns
import MiniSqlite.Transaction.RecoveryManager

/-!
# The tables that analysis builds

`recovery_analysis` goes once through the log and keeps, for every transaction and
every page, what the records so far say of it. `attOf` and `dptOf` say the same of
a whole log at once; `recoveryAnalysis_tables` is that the tables agree with them.
-/

namespace MiniSqlite.Transaction

open MiniSqlite.Common MiniSqlite.Std MiniSqlite.Storage MiniSqlite.Buffer

variable {Pool Frame : Type} [PagePool Pool Frame]

/-! ## What a log says -/

/-- The records of a transaction. -/
def recordsOf (log : List WalRecord) (txnId : Int32) : List WalRecord :=
  log.filter fun record => record.txnId = txnId

/-- The status that a record ends its transaction with. -/
def outcome? (record : WalRecord) : Option Nat :=
  match record.type with
  | .commit => some 1
  | .abort => some 2
  | _ => none

/-- The status after the last COMMIT or ABORT, or active. -/
def statusOf (records : List WalRecord) : Nat := ((records.filterMap outcome?).getLast?).getD 0

/-- What a log says of a transaction with records in it. -/
def attOf (log : List WalRecord) (txnId : Int32) : Option AttEntry :=
  (recordsOf log txnId).getLast?.map fun last =>
    ⟨txnId, last.lsn, statusOf (recordsOf log txnId)⟩

/-- What a log says of a page that its records change. -/
def dptOf (log : List WalRecord) (pageId : PageId) : Option DptEntry :=
  (changesTo log pageId).head?.map fun first => ⟨pageId, first.lsn⟩

/-- Each transaction begins with its first record and with no other one. -/
def BeginsOnce (log : List WalRecord) : Prop :=
  ∀ txnId, ∀ first ∈ (recordsOf log txnId).head?, first.type = .begin ∧
    ∀ record ∈ (recordsOf log txnId).tail, record.type ≠ .begin

/-- The records are of the six kinds that transactions write. -/
def OfTransactions (log : List WalRecord) : Prop :=
  ∀ record ∈ log, record.type ≠ .checkpoint ∧ record.type ≠ .clr

instance OfTransactions.decidable (log : List WalRecord) : Decidable (OfTransactions log) :=
  inferInstanceAs (Decidable (∀ record ∈ log, _))

/-! ## One record -/

/-- The entry of a transaction after one of its records. -/
def attAfter (record : WalRecord) (entry : Option AttEntry) : Option AttEntry :=
  match record.type with
  | .begin => some ⟨record.txnId, record.lsn, 0⟩
  | .commit => entry.map fun entry => { entry with status := 1, lastLsn := record.lsn }
  | .abort => entry.map fun entry => { entry with status := 2, lastLsn := record.lsn }
  | .update | .insert | .delete => entry.map fun entry => { entry with lastLsn := record.lsn }
  | .checkpoint | .clr => entry

/-- The record changes its page. -/
def Changes (record : WalRecord) : Prop :=
  record.type = .update ∨ record.type = .insert ∨ record.type = .delete

instance Changes.decidable (record : WalRecord) : Decidable (Changes record) :=
  inferInstanceAs (Decidable (_ ∨ _))

theorem tableGet_put {V : Type} (table : Hashmap resourceKey V) (key : Int32) (value : V)
    (other : Int32) : (table.hashmapPut key value).hashmapGet other =
      if other = key then some value else table.hashmapGet other :=
  Hashmap.hashmapGet_put_eq table key value other

theorem changeEntry_att (rm : RecoveryManager Pool) (record : WalRecord)
    (change : AttEntry → AttEntry) (txnId : Int32) :
    (changeEntry rm record change).att.hashmapGet txnId =
      if txnId = record.txnId then (rm.att.hashmapGet txnId).map change
      else rm.att.hashmapGet txnId := by
  unfold changeEntry
  cases found : rm.att.hashmapGet record.txnId with
  | none =>
      by_cases same : txnId = record.txnId
      · rw [if_pos same, same, found]
        rfl
      · rw [if_neg same]
  | some entry =>
      show (rm.att.hashmapPut record.txnId (change entry)).hashmapGet txnId = _
      rw [tableGet_put]
      by_cases same : txnId = record.txnId
      · rw [if_pos same, if_pos same, same]
        exact (congrArg (Option.map change) found).symm
      · rw [if_neg same, if_neg same]

theorem changeEntry_dpt (rm : RecoveryManager Pool) (record : WalRecord)
    (change : AttEntry → AttEntry) : (changeEntry rm record change).dpt = rm.dpt := by
  unfold changeEntry
  split <;> rfl

/-- A record changes the entry of its transaction only. -/
theorem analyseRecord_att (rm : RecoveryManager Pool) (record : WalRecord) (txnId : Int32) :
    (analyseRecord rm record).att.hashmapGet txnId =
      if txnId = record.txnId then attAfter record (rm.att.hashmapGet txnId)
      else rm.att.hashmapGet txnId := by
  unfold analyseRecord attAfter
  cases record.type <;> dsimp only
  case begin => rw [tableGet_put]
  case commit | abort => exact changeEntry_att rm record _ txnId
  case checkpoint | clr => rw [ite_self]
  case update | insert | delete => split <;> exact changeEntry_att rm record _ txnId

/-- The page of a record that changes it enters the table, unless it is there. -/
theorem enterPage_dpt {rm : RecoveryManager Pool} {record : WalRecord} (changes : Changes record)
    (pageId : PageId) : (analyseRecord rm record).dpt.hashmapGet pageId =
      if record.pageId = pageId then (rm.dpt.hashmapGet pageId).or (some ⟨pageId, record.lsn⟩)
      else rm.dpt.hashmapGet pageId := by
  rcases changes with kind | kind | kind <;>
  · rw [analyseRecord, kind]
    dsimp only
    rw [changeEntry_dpt]
    cases found : rm.dpt.hashmapGet record.pageId with
    | some entry =>
        dsimp only
        rw [changeEntry_dpt]
        by_cases same : record.pageId = pageId
        · rw [if_pos same, ← same, found]
          rfl
        · rw [if_neg same]
    | none =>
        dsimp only
        rw [tableGet_put]
        by_cases same : record.pageId = pageId
        · rw [if_pos same.symm, if_pos same, ← same]
          exact (congrArg (Option.or · _) found).symm
        · rw [if_neg (Ne.symm same), if_neg same]

/-- A record enters its page, if it changes it and no record before it did. -/
theorem analyseRecord_dpt (rm : RecoveryManager Pool) (record : WalRecord) (pageId : PageId) :
    (analyseRecord rm record).dpt.hashmapGet pageId =
      if Changes record ∧ record.pageId = pageId then
        (rm.dpt.hashmapGet pageId).or (some ⟨pageId, record.lsn⟩)
      else rm.dpt.hashmapGet pageId := by
  by_cases changes : Changes record
  · rw [enterPage_dpt changes]
    simp only [changes, true_and]
  · rw [if_neg fun both => changes both.1]
    cases kind : record.type with
    | begin | checkpoint | clr => simp [analyseRecord, kind]
    | commit | abort => simp [analyseRecord, kind, changeEntry_dpt]
    | update | insert | delete => exact absurd (by simp [Changes, kind]) changes

/-! ## A whole log -/

theorem recordsOf_concat (log : List WalRecord) (record : WalRecord) (txnId : Int32) :
    recordsOf (log ++ [record]) txnId =
      if txnId = record.txnId then recordsOf log txnId ++ [record] else recordsOf log txnId := by
  unfold recordsOf
  rw [List.filter_append]
  by_cases same : txnId = record.txnId
  · rw [if_pos same, List.filter_singleton, same]
    simp
  · rw [if_neg same, List.filter_singleton]
    simp [Ne.symm same]

theorem changesTo_eq (log : List WalRecord) (pageId : PageId) : changesTo log pageId =
    log.filter fun record => Changes record ∧ record.pageId = pageId := rfl

theorem changesTo_concat (log : List WalRecord) (record : WalRecord) (pageId : PageId) :
    changesTo (log ++ [record]) pageId =
      if Changes record ∧ record.pageId = pageId then changesTo log pageId ++ [record]
      else changesTo log pageId := by
  rw [changesTo_eq, changesTo_eq, List.filter_append]
  by_cases named : Changes record ∧ record.pageId = pageId <;> simp [named]

theorem statusOf_concat (records : List WalRecord) (record : WalRecord) :
    statusOf (records ++ [record]) = (outcome? record).getD (statusOf records) := by
  unfold statusOf
  rw [List.filterMap_append]
  cases ends : outcome? record with
  | none => simp [ends]
  | some status => simp [ends]

/-- The log without its last record. -/
theorem BeginsOnce.earlier {log : List WalRecord} {record : WalRecord}
    (begins : BeginsOnce (log ++ [record])) : BeginsOnce log := by
  intro txnId first isFirst
  have whole := begins txnId first
  rw [recordsOf_concat] at whole
  split at whole
  · cases records : recordsOf log txnId with
    | nil =>
        rw [records] at isFirst
        cases isFirst
    | cons head tail =>
        rw [records] at isFirst whole
        obtain ⟨opens, others⟩ := whole isFirst
        exact ⟨opens, fun other member => others other (List.mem_append_left _ member)⟩
  · exact whole isFirst

/-- The last record is its transaction's BEGIN if and only if it is the first one. -/
theorem BeginsOnce.last {log : List WalRecord} {record : WalRecord}
    (begins : BeginsOnce (log ++ [record])) :
    record.type = .begin ↔ recordsOf log record.txnId = [] := by
  have whole := begins record.txnId
  rw [recordsOf_concat, if_pos rfl] at whole
  cases records : recordsOf log record.txnId with
  | nil =>
      rw [records] at whole
      exact iff_of_true (whole record rfl).1 rfl
  | cons head tail =>
      rw [records] at whole
      refine iff_of_false ?_ (List.cons_ne_nil _ _)
      exact (whole head rfl).2 record (List.mem_append_right _ (List.mem_singleton_self _))

theorem attOf_eq_none {log : List WalRecord} {txnId : Int32} (empty : recordsOf log txnId = []) :
    attOf log txnId = none := by
  rw [attOf, empty]
  rfl

/-- What a log says of a transaction follows from what it said before the last record. -/
theorem attOf_concat {log : List WalRecord} {record : WalRecord}
    (begins : BeginsOnce (log ++ [record])) (kinds : OfTransactions (log ++ [record]))
    (txnId : Int32) : attOf (log ++ [record]) txnId =
      if txnId = record.txnId then attAfter record (attOf log txnId) else attOf log txnId := by
  by_cases same : txnId = record.txnId
  · subst same
    rw [if_pos rfl, attOf, recordsOf_concat, if_pos rfl, List.getLast?_concat, Option.map_some,
      statusOf_concat]
    by_cases opens : recordsOf log record.txnId = []
    · rw [attOf_eq_none opens, opens, attAfter, outcome?, begins.last.mpr opens]
      rfl
    · have notBegin := mt begins.last.mp opens
      have kind := kinds record (List.mem_append_right _ (List.mem_singleton_self _))
      rw [attOf, List.getLast?_eq_some_getLast opens, attAfter, outcome?]
      cases type : record.type with
      | begin => exact absurd type notBegin
      | checkpoint => exact absurd type kind.1
      | clr => exact absurd type kind.2
      | commit | abort | update | insert | delete => rfl
  · rw [if_neg same, attOf, recordsOf_concat, if_neg same, attOf]

theorem dptOf_concat (log : List WalRecord) (record : WalRecord) (pageId : PageId) :
    dptOf (log ++ [record]) pageId =
      if Changes record ∧ record.pageId = pageId then
        (dptOf log pageId).or (some ⟨pageId, record.lsn⟩)
      else dptOf log pageId := by
  rw [dptOf, changesTo_concat, dptOf]
  by_cases named : Changes record ∧ record.pageId = pageId
  · rw [if_pos named, if_pos named, List.head?_append]
    cases (changesTo log pageId).head? <;> rfl
  · rw [if_neg named, if_neg named]

/-- The tables after the records of a log. -/
theorem analyseRecords_att {log : List WalRecord} (begins : BeginsOnce log)
    (kinds : OfTransactions log) {rm : RecoveryManager Pool}
    (fresh : ∀ txnId, rm.att.hashmapGet txnId = none) (txnId : Int32) :
    (log.foldl analyseRecord rm).att.hashmapGet txnId = attOf log txnId := by
  induction log using List.reverseRecOn with
  | nil => exact fresh txnId
  | append_singleton log record ih =>
      have before := ih begins.earlier fun other member =>
        kinds other (List.mem_append_left _ member)
      rw [List.foldl_concat, analyseRecord_att, before, attOf_concat begins kinds]

theorem analyseRecords_dpt (log : List WalRecord) {rm : RecoveryManager Pool}
    (fresh : ∀ pageId, rm.dpt.hashmapGet pageId = none) (pageId : PageId) :
    (log.foldl analyseRecord rm).dpt.hashmapGet pageId = dptOf log pageId := by
  induction log using List.reverseRecOn with
  | nil => exact fresh pageId
  | append_singleton log record ih =>
      rw [List.foldl_concat, analyseRecord_dpt, ih, dptOf_concat]

/-! ## Analysis -/

/-- The manager of a log that has been read to its end. -/
def atEndOfLog (wal : WalManager) : WalManager :=
  { wal with logFile := ⟨wal.logFile.bytes, []⟩ }

/-- Reading a log and working through it; the length field, which is not read, does not matter. -/
theorem recoveryAnalysis_reads {rm : RecoveryManager Pool} {log : List WalRecord}
    (holds : rm.wal.logFile.bytes = encodeLog log) : recoveryAnalysis rm =
      .ok (log.foldl analyseRecord { rm with wal := atEndOfLog rm.wal }, .ok) := by
  have unread : ∀ (rm : RecoveryManager Pool) (record : WalRecord),
      analyseRecord rm { record with length := 0 } = analyseRecord rm record := fun _ _ => rfl
  simp only [recoveryAnalysis, walReadAll_encodeLog rm.wal holds, bind, Except.bind, pure,
    Except.pure, List.foldl_map, unread]
  rfl

/-- The size of a table is the number of keys that are found in it. -/
theorem table_size {V : Type} {table : Hashmap resourceKey V} {present : Finset Int32}
    (found : ∀ key, (table.hashmapGet key).isSome ↔ key ∈ present) :
    table.size = present.card := by
  have distinct : (table.entries.map Prod.fst).Nodup := by
    refine List.pairwise_map.mpr (table.entries_pairwise.imp fun {first second} differ same => ?_)
    rw [same, resourceKey.refl] at differ
    cases differ
  have same : (table.entries.map Prod.fst).toFinset = present := by
    ext key
    rw [List.mem_toFinset, List.mem_map, ← found, Option.isSome_iff_exists]
    constructor
    · rintro ⟨entry, member, rfl⟩
      exact ⟨entry.2, Hashmap.hashmapGet_of_mem member⟩
    · rintro ⟨value, here⟩
      exact ⟨(key, value), Hashmap.mem_entries_eq.mpr here, rfl⟩
  rw [Hashmap.size_eq_length_entries, ← same, List.toFinset_card_of_nodup distinct, List.length_map]

theorem attOf_isSome {log : List WalRecord} {txnId : Int32} :
    (attOf log txnId).isSome ↔ txnId ∈ (log.map WalRecord.txnId).toFinset := by
  rw [attOf, Option.isSome_map, List.getLast?_isSome, List.mem_toFinset, List.mem_map]
  simp [recordsOf]

theorem dptOf_isSome {log : List WalRecord} {pageId : PageId} :
    (dptOf log pageId).isSome ↔
      pageId ∈ ((log.filter fun record => Changes record).map WalRecord.pageId).toFinset := by
  rw [dptOf, Option.isSome_map, List.isSome_head?, List.mem_toFinset, List.mem_map]
  simp [changesTo_eq, and_assoc]

/-- Analysis of a log finds each transaction of it with its status and its last LSN, each
page that it changes with the first LSN, and nothing else. -/
theorem recoveryAnalysis_tables {wal : WalManager} {log : List WalRecord}
    (holds : wal.logFile.bytes = encodeLog log) (begins : BeginsOnce log)
    (kinds : OfTransactions log) (bpm : Pool) :
    ∃ after, recoveryAnalysis (recoveryManagerInit wal bpm) = .ok (after, .ok) ∧
      (∀ txnId, after.att.hashmapGet txnId = attOf log txnId) ∧
      after.att.size = (log.map WalRecord.txnId).toFinset.card ∧
      (∀ pageId, after.dpt.hashmapGet pageId = dptOf log pageId) ∧
      after.dpt.size =
        ((log.filter fun record => Changes record).map WalRecord.pageId).toFinset.card := by
  have fresh {V : Type} (key : Int32) :
      (Hashmap.hashmapInit resourceKey V 16).hashmapGet key = none := Hashmap.hashmapGet_init 16 key
  let start : RecoveryManager Pool := recoveryManagerInit (atEndOfLog wal) bpm
  have att (txnId : Int32) :
      (log.foldl analyseRecord start).att.hashmapGet txnId = attOf log txnId :=
    analyseRecords_att begins kinds fresh txnId
  have dpt (pageId : PageId) :
      (log.foldl analyseRecord start).dpt.hashmapGet pageId = dptOf log pageId :=
    analyseRecords_dpt log fresh pageId
  refine ⟨_, recoveryAnalysis_reads holds, att, table_size fun txnId => ?_, dpt,
    table_size fun pageId => ?_⟩
  · exact (att txnId).symm ▸ attOf_isSome
  · exact (dpt pageId).symm ▸ dptOf_isSome

/-- Two transactions that change one page; the first commits. -/
def sharedPageLog : List WalRecord := [
  { WalRecord.zero with lsn := 1, txnId := 1, type := .begin },
  { WalRecord.zero with lsn := 2, txnId := 2, type := .begin },
  { WalRecord.zero with lsn := 3, txnId := 2, type := .insert, pageId := 7 },
  { WalRecord.zero with lsn := 4, txnId := 1, type := .update, pageId := 7 },
  { WalRecord.zero with lsn := 5, txnId := 1, type := .commit }]

theorem sharedPageLog_beginsOnce : BeginsOnce sharedPageLog := by
  intro txnId
  by_cases first : txnId = 1
  · subst first
    decide
  · by_cases second : txnId = 2
    · subst second
      decide
    · have empty : recordsOf sharedPageLog txnId = [] := by
        simp [recordsOf, sharedPageLog, Ne.symm first, Ne.symm second]
      simp [empty]

/-- The first transaction has committed, the second is active, and page 7 is dirty since
the second one's insertion. -/
theorem recoveryAnalysis_sharedPage :
    ∃ after, recoveryAnalysis
        (recoveryManagerInit ⟨⟨[], encodeLog sharedPageLog⟩, 6, 0⟩ unflushedPage) =
          .ok (after, .ok) ∧
      after.att.hashmapGet 1 = some ⟨1, 5, 1⟩ ∧ after.att.hashmapGet 2 = some ⟨2, 3, 0⟩ ∧
      after.dpt.hashmapGet 7 = some ⟨7, 3⟩ ∧ after.att.size = 2 ∧ after.dpt.size = 1 := by
  obtain ⟨after, ran, att, attSize, dpt, dptSize⟩ :=
    @recoveryAnalysis_tables PageStore ⟨⟨[], encodeLog sharedPageLog⟩, 6, 0⟩ sharedPageLog
      rfl sharedPageLog_beginsOnce (by decide) unflushedPage
  refine ⟨after, ran, ?_, ?_, ?_, ?_, ?_⟩
  · rw [att]
    decide
  · rw [att]
    decide
  · rw [dpt]
    decide
  · rw [attSize]
    decide
  · rw [dptSize]
    decide

end MiniSqlite.Transaction
