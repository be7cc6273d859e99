import MiniSqlite.Buffer.PagePool
import MiniSqlite.Transaction.LockManager
import MiniSqlite.Transaction.WalRuns

/-!
# The recovery manager

`transaction/recovery_manager.c`, for any buffer pool. Each phase reads the log
from its start to its end and then works on the records read; reading and
working do not touch the same data. What the phases do to pages is
`recoveryRun_onlyLsn`: nothing but raise page LSNs.

Null arguments and allocation failure are left out.
-/

namespace MiniSqlite.Transaction

open MiniSqlite.Common MiniSqlite.Std MiniSqlite.Storage MiniSqlite.Buffer

variable {Pool Frame : Type} [PagePool Pool Frame]

open PagePool (fetchPage unpinPage data setData)

/-- `att_entry_t`: the status is 0 for active, 1 for committed, 2 for aborted. -/
structure AttEntry where
  txnId : Int32
  lastLsn : Lsn
  status : Nat
  deriving DecidableEq, Repr

/-- `dpt_entry_t`. -/
structure DptEntry where
  pageId : PageId
  recLsn : Lsn
  deriving DecidableEq, Repr

/-- `recovery_manager_t`. -/
structure RecoveryManager (Pool : Type) where
  wal : WalManager
  bpm : Pool
  att : Hashmap resourceKey AttEntry
  dpt : Hashmap resourceKey DptEntry

/-- `recovery_manager_init`. -/
def recoveryManagerInit (wal : WalManager) (bpm : Pool) : RecoveryManager Pool :=
  ⟨wal, bpm, .hashmapInit resourceKey AttEntry 16, .hashmapInit resourceKey DptEntry 16⟩

/-! ## Analysis -/

/-- Updates the entry of the record's transaction, if it has one. -/
def changeEntry (rm : RecoveryManager Pool) (record : WalRecord) (change : AttEntry → AttEntry) :
    RecoveryManager Pool :=
  match rm.att.hashmapGet record.txnId with
  | some entry => { rm with att := rm.att.hashmapPut record.txnId (change entry) }
  | none => rm

/-- The body of the loop of `recovery_analysis`. -/
def analyseRecord (rm : RecoveryManager Pool) (record : WalRecord) : RecoveryManager Pool :=
  match record.type with
  | .begin =>
      { rm with att := rm.att.hashmapPut record.txnId ⟨record.txnId, record.lsn, 0⟩ }
  | .commit => changeEntry rm record fun entry => { entry with status := 1, lastLsn := record.lsn }
  | .abort => changeEntry rm record fun entry => { entry with status := 2, lastLsn := record.lsn }
  | .update | .insert | .delete =>
      let rm := changeEntry rm record fun entry => { entry with lastLsn := record.lsn }
      match rm.dpt.hashmapGet record.pageId with
      | some _ => rm
      | none => { rm with dpt := rm.dpt.hashmapPut record.pageId ⟨record.pageId, record.lsn⟩ }
  | .checkpoint | .clr => rm

/-- `recovery_analysis`. -/
def recoveryAnalysis (rm : RecoveryManager Pool) :
    Except Fault (RecoveryManager Pool × ErrorCode) := do
  let (wal, records) ← walReadAll (walResetRead rm.wal)
  return (records.foldl analyseRecord { rm with wal }, .ok)

/-! ## Redo -/

/-- The smallest `recordlsn` of the dirty page table, or `INVALID_LSN`. -/
def minRecLsn (dpt : Hashmap resourceKey DptEntry) : Lsn :=
  (dpt.drain (dpt.size + 1) Hashmap.iterInit).foldl
    (fun minLsn entry =>
      if minLsn = 0 ∨ entry.2.recLsn < minLsn then entry.2.recLsn else minLsn) 0

/-- A page is fetched for a record to be redone. Its LSN is raised if the record is
newer; the image is not looked at except for its size. -/
def redoPage (record : WalRecord) (bpm : Pool) : Except Fault Pool := do
  match ← fetchPage bpm record.pageId with
  | (bpm, none) => return bpm
  | (bpm, some page) =>
      if record.lsn.toInt64 > pageHeaderGetLsn (data bpm page) ∧ record.afterImage.bytes ≠ [] then
        let bpm := setData bpm page (pageHeaderSetLsn (data bpm page) record.lsn.toInt64)
        unpinPage bpm record.pageId true
      else unpinPage bpm record.pageId false

/-- The body of the loop of `recovery_redo`. -/
def redoRecord (dpt : Hashmap resourceKey DptEntry) (minLsn : Lsn) (bpm : Pool)
    (record : WalRecord) : Except Fault Pool :=
  if record.lsn < minLsn then .ok bpm
  else if record.type = .update ∨ record.type = .insert then
    match dpt.hashmapGet record.pageId with
    | some entry => if record.lsn ≥ entry.recLsn then redoPage record bpm else .ok bpm
    | none => .ok bpm
  else .ok bpm

/-- `recovery_redo`. -/
def recoveryRedo (rm : RecoveryManager Pool) : Except Fault (RecoveryManager Pool × ErrorCode) := do
  let minLsn := minRecLsn rm.dpt
  if minLsn = 0 then return (rm, .ok)
  let (wal, records) ← walReadAll (walResetRead rm.wal)
  let bpm ← records.foldlM (redoRecord rm.dpt minLsn) rm.bpm
  return ({ rm with wal, bpm }, .ok)

/-! ## Undo -/

/-- `recovery_undo`: a transaction still active is marked as aborted. -/
def recoveryUndo (rm : RecoveryManager Pool) : RecoveryManager Pool × ErrorCode :=
  let entries := rm.att.drain (rm.att.size + 1) Hashmap.iterInit
  let att := entries.foldl (fun att entry =>
    if entry.2.status = 0 then att.hashmapPut entry.1 { entry.2 with status := 2 } else att) rm.att
  ({ rm with att }, .ok)

/-- `recovery_run`. -/
def recoveryRun (rm : RecoveryManager Pool) : Except Fault (RecoveryManager Pool × ErrorCode) := do
  let (rm, rc) ← recoveryAnalysis rm
  if rc ≠ .ok then return (rm, rc)
  let (rm, rc) ← recoveryRedo rm
  if rc ≠ .ok then return (rm, rc)
  return recoveryUndo rm

/-! ## What recovery does to pages -/

/-- The pages have the same bytes, apart from the LSN in the header. -/
def SameButLsn (first second : Page) : Prop := ∀ i, i < 4 ∨ 12 ≤ i → first i = second i

theorem SameButLsn.rfl (page : Page) : SameButLsn page page := fun _ _ => Eq.refl _

theorem SameButLsn.symm {first second : Page} (same : SameButLsn first second) :
    SameButLsn second first := fun i outside => (same i outside).symm

theorem SameButLsn.trans {first second third : Page} (left : SameButLsn first second)
    (right : SameButLsn second third) : SameButLsn first third :=
  fun i outside => (left i outside).trans (right i outside)

theorem SameButLsn.setLsn (page : Page) (lsn : Int64) :
    SameButLsn page (pageHeaderSetLsn page lsn) := by
  intro i outside
  refine (Block.write_apply_outside page ?_).symm
  rw [littleEndian_length]
  exact outside

/-- The two stores have the same pages, apart from page LSNs. -/
def OnlyLsn (before after : PageStore) : Prop :=
  ∀ pageId, Option.Rel SameButLsn (before.pages pageId) (after.pages pageId)

theorem OnlyLsn.rfl (store : PageStore) : OnlyLsn store store := by
  intro pageId
  cases store.pages pageId with
  | none => exact .none
  | some page => exact .some (SameButLsn.rfl page)

theorem OnlyLsn.trans {first second third : PageStore} (left : OnlyLsn first second)
    (right : OnlyLsn second third) : OnlyLsn first third := by
  intro pageId
  have toSecond := left pageId
  have toThird := right pageId
  revert toSecond toThird
  cases first.pages pageId <;> cases second.pages pageId <;> cases third.pages pageId <;>
    rintro (_ | _) (_ | _)
  · exact .none
  · rename_i toSecond toThird
    exact .some (toSecond.trans toThird)

theorem OnlyLsn.setLsn {store : PageStore} {pageId : PageId} {page : Page}
    (used : store.pages pageId = some page) (lsn : Int64) :
    OnlyLsn store (store.set pageId (pageHeaderSetLsn page lsn)) := by
  intro other
  rw [PageStore.set_pages used]
  by_cases same : other = pageId
  · rw [if_pos same, same, used]
    exact .some (SameButLsn.setLsn page lsn)
  · rw [if_neg same]
    exact OnlyLsn.rfl store other

/-- Redoing a record raises at most a page LSN. -/
theorem redoPage_onlyLsn (record : WalRecord) (store : PageStore) :
    ∃ after, redoPage record store = .ok after ∧ OnlyLsn store after := by
  cases used : store.pages record.pageId with
  | none => exact ⟨store, by simp [redoPage, fetchPage, used, bind, Except.bind, pure, Except.pure],
      OnlyLsn.rfl store⟩
  | some page =>
      simp only [redoPage, fetchPage, used, Option.map_some, bind, Except.bind, data,
        Option.getD_some, setData, unpinPage]
      split
      · exact ⟨_, Eq.refl _, OnlyLsn.setLsn used _⟩
      · exact ⟨_, Eq.refl _, OnlyLsn.rfl store⟩

theorem redoRecord_onlyLsn (dpt : Hashmap resourceKey DptEntry) (minLsn : Lsn) (store : PageStore)
    (record : WalRecord) :
    ∃ after, redoRecord dpt minLsn store record = .ok after ∧ OnlyLsn store after := by
  unfold redoRecord
  split
  · exact ⟨store, rfl, OnlyLsn.rfl store⟩
  · split
    · split
      · split
        · exact redoPage_onlyLsn record store
        · exact ⟨store, rfl, OnlyLsn.rfl store⟩
      · exact ⟨store, rfl, OnlyLsn.rfl store⟩
    · exact ⟨store, rfl, OnlyLsn.rfl store⟩

theorem redoRecords_onlyLsn (dpt : Hashmap resourceKey DptEntry) (minLsn : Lsn)
    (records : List WalRecord) (store : PageStore) :
    ∃ after, records.foldlM (redoRecord dpt minLsn) store = .ok after ∧ OnlyLsn store after := by
  induction records generalizing store with
  | nil => exact ⟨store, rfl, OnlyLsn.rfl store⟩
  | cons record rest ih =>
      obtain ⟨middle, redone, changed⟩ := redoRecord_onlyLsn dpt minLsn store record
      obtain ⟨after, finished, changedOn⟩ := ih middle
      refine ⟨after, ?_, changed.trans changedOn⟩
      rw [List.foldlM_cons, redone]
      exact finished

theorem analyseRecord_same (rm : RecoveryManager Pool) (record : WalRecord) :
    (analyseRecord rm record).wal = rm.wal ∧ (analyseRecord rm record).bpm = rm.bpm := by
  have entry : ∀ change, (changeEntry rm record change).wal = rm.wal ∧
      (changeEntry rm record change).bpm = rm.bpm := by
    intro change
    unfold changeEntry
    split <;> exact ⟨rfl, rfl⟩
  unfold analyseRecord
  cases record.type <;> dsimp only
  case begin | checkpoint | clr => exact ⟨rfl, rfl⟩
  case commit | abort => exact entry _
  case update | insert | delete => split <;> exact entry _

theorem analyseRecords_same (records : List WalRecord) (rm : RecoveryManager Pool) :
    (records.foldl analyseRecord rm).wal = rm.wal ∧
      (records.foldl analyseRecord rm).bpm = rm.bpm := by
  induction records generalizing rm with
  | nil => exact ⟨rfl, rfl⟩
  | cons record rest ih =>
      obtain ⟨sameWal, sameBpm⟩ := analyseRecord_same rm record
      obtain ⟨restWal, restBpm⟩ := ih (analyseRecord rm record)
      exact ⟨restWal.trans sameWal, restBpm.trans sameBpm⟩

/-- Recovery from a log that can be read ends, and changes pages in their LSNs only. -/
theorem recoveryRun_onlyLsn {rm : RecoveryManager PageStore} {log : List WalRecord}
    (sound : (WalSession.mk rm.wal log).Sound) :
    ∃ after, recoveryRun rm = .ok (after, .ok) ∧ OnlyLsn rm.bpm after.bpm := by
  let wal : WalManager := { rm.wal with logFile := ⟨rm.wal.logFile.bytes, []⟩ }
  let analysed := log.foldl analyseRecord { rm with wal }
  obtain ⟨sameWal, sameBpm⟩ := analyseRecords_same log { rm with wal }
  have analysis : recoveryAnalysis rm = .ok (analysed, .ok) := by
    simp only [recoveryAnalysis, sound.readAll, bind, Except.bind, pure, Except.pure]
    rfl
  have again : walReadAll (walResetRead analysed.wal) = .ok (wal, log) := by
    have reread : walResetRead analysed.wal = walResetRead rm.wal := by
      rw [sameWal]
      simp [wal, walResetRead, Stream.rewind, Stream.bytes]
    rw [reread, sound.readAll]
  have redone : ∃ redone, recoveryRedo analysed = .ok (redone, .ok) ∧
      OnlyLsn rm.bpm redone.bpm := by
    unfold recoveryRedo
    dsimp only
    split
    · exact ⟨analysed, rfl, sameBpm ▸ OnlyLsn.rfl _⟩
    · obtain ⟨bpm, done, changed⟩ :=
        redoRecords_onlyLsn analysed.dpt (minRecLsn analysed.dpt) log analysed.bpm
      refine ⟨{ analysed with wal, bpm }, ?_, sameBpm ▸ changed⟩
      simp only [again, bind, Except.bind, done, pure, Except.pure]
  obtain ⟨redone, redo, changed⟩ := redone
  refine ⟨(recoveryUndo redone).1, ?_, changed⟩
  simp only [recoveryRun, analysis, redo, bind, Except.bind, pure, Except.pure, ne_eq,
    not_true_eq_false, if_false]
  rfl

/-! ## Committed work -/

section CommittedWork

-- The source never applies an image. `place` is any way to put one at an offset of a page.
variable (place : Page → Int16 → List UInt8 → Page)

/-- The records that change a page, in LSN order. -/
def changesTo (log : List WalRecord) (pageId : PageId) : List WalRecord :=
  log.filter fun record =>
    (record.type = .update ∨ record.type = .insert ∨ record.type = .delete) ∧
      record.pageId = pageId

/-- The transaction has a COMMIT record. -/
def Committed (log : List WalRecord) (txnId : Int32) : Prop :=
  ∃ record ∈ log, record.type = .commit ∧ record.txnId = txnId

instance (log : List WalRecord) (txnId : Int32) : Decidable (Committed log txnId) :=
  inferInstanceAs (Decidable (∃ record ∈ log, _))

/-- The page after the after-images of the records. -/
def replay (records : List WalRecord) (page : Page) : Page :=
  records.foldl (fun page record => place page record.offset record.afterImage.bytes) page

/-- What a page with the given LSN holds when all records up to that LSN have been applied. -/
def flushedPage (log : List WalRecord) (base : Page) (pageId : PageId) (lsn : Int64) : Page :=
  replay place ((changesTo log pageId).filter fun record => record.lsn.toInt64 ≤ lsn) base

/-- What a page holds when exactly the records of committed transactions have been applied. -/
def committedPage (log : List WalRecord) (base : Page) (pageId : PageId) : Page :=
  replay place ((changesTo log pageId).filter fun record => Committed log record.txnId) base

/-- Each page contains the effects of the records up to its LSN and no later ones. -/
def FlushedPrefix (log : List WalRecord) (base : PageId → Page) (store : PageStore) : Prop :=
  ∀ pageId page, store.pages pageId = some page →
    SameButLsn page (flushedPage place log (base pageId) pageId (pageHeaderGetLsn page))

/-- Each page holds the committed work and nothing else. -/
def Restored (log : List WalRecord) (base : PageId → Page) (store : PageStore) : Prop :=
  ∀ pageId page, store.pages pageId = some page →
    SameButLsn page (committedPage place log (base pageId) pageId)

/-- On each page, the records up to the page's LSN and the records of committed
transactions come to the same. -/
def FlushedIsCommitted (log : List WalRecord) (base : PageId → Page) (store : PageStore) : Prop :=
  ∀ pageId page, store.pages pageId = some page →
    SameButLsn (flushedPage place log (base pageId) pageId (pageHeaderGetLsn page))
      (committedPage place log (base pageId) pageId)

/-- Recovery ends with the committed work on every page exactly when the pages held it
before: when the flushed records and the committed ones come to the same. -/
theorem restored_iff_flushedIsCommitted {wal : WalManager} {log : List WalRecord}
    (sound : (WalSession.mk wal log).Sound) (base : PageId → Page) (store : PageStore)
    (flushed : FlushedPrefix place log base store) :
    ∃ after, recoveryRun (recoveryManagerInit wal store) = .ok (after, .ok) ∧
      (Restored place log base after.bpm ↔ FlushedIsCommitted place log base store) := by
  obtain ⟨after, recovered, changed⟩ :=
    @recoveryRun_onlyLsn (recoveryManagerInit wal store) log sound
  refine ⟨after, recovered, ?_⟩
  constructor
  · intro restored pageId page used
    have related := changed pageId
    rw [show (recoveryManagerInit wal store).bpm = store from rfl, used] at related
    generalize used' : after.bpm.pages pageId = found at related
    cases related with
    | some same =>
        exact (flushed pageId page used).symm.trans (same.trans (restored pageId _ used'))
  · intro already pageId page used
    have related := changed pageId
    rw [used] at related
    generalize before : (recoveryManagerInit wal store).bpm.pages pageId = found at related
    cases related with
    | @some stored _ same =>
        exact same.symm.trans ((flushed pageId stored before).trans (already pageId stored before))

end CommittedWork

/-- Images are bytes written at a byte offset. -/
def writeImage (page : Page) (offset : Int16) (image : List UInt8) : Page :=
  page.write offset.toInt.toNat image

/-- A transaction writes the byte 7 at offset 100 of page 5 and commits. -/
def updateAndCommit : List WalCall := [
  .append { WalRecord.zero with txnId := 1, type := .begin },
  .append { WalRecord.zero with
    txnId := 1, prevLsn := 1, type := .update, pageId := 5, offset := 100
    beforeImage := ⟨[0], by decide⟩, afterImage := ⟨[7], by decide⟩ },
  .append { WalRecord.zero with txnId := 1, prevLsn := 2, type := .commit }]

def committedUpdate : WalSession := run WalSession.step (.start []) updateAndCommit

/-- Page 5 is on disk as it was before the transaction. -/
def unflushedPage : PageStore where
  pages pageId := if pageId = 5 then some zeroPage else none
  fresh := []
  fresh_nodup := List.nodup_nil
  fresh_unused := by simp
  invalid_unused := by decide

theorem updateAndCommit_atEnd : EachStep WalSession.step AppendsAtEnd (.start []) updateAndCommit :=
  ⟨by decide, by decide +kernel, by decide +kernel, trivial⟩

theorem committedUpdate_sound : committedUpdate.Sound :=
  @EachStep.run_invariant _ _ _ _ WalSession.Sound (fun _ _ sound atEnd => sound.step atEnd) _ _
    (.start []) updateAndCommit_atEnd

theorem unflushedPage_flushedPrefix :
    FlushedPrefix writeImage committedUpdate.appended (fun _ => zeroPage) unflushedPage := by
  intro pageId page used
  obtain ⟨rfl, rfl⟩ : pageId = 5 ∧ zeroPage = page := by simpa [unflushedPage] using used
  have unflushed : ((changesTo committedUpdate.appended 5).filter fun record =>
      record.lsn.toInt64 ≤ pageHeaderGetLsn zeroPage) = [] := by decide +kernel
  rw [flushedPage, unflushed]
  exact SameButLsn.rfl zeroPage

/-- Recovery reports success and leaves page 5 without the committed byte. -/
theorem committed_update_not_redone :
    FlushedPrefix writeImage committedUpdate.appended (fun _ => zeroPage) unflushedPage ∧
    ∃ after, recoveryRun (recoveryManagerInit committedUpdate.wm unflushedPage) = .ok (after, .ok) ∧
      ¬ Restored writeImage committedUpdate.appended (fun _ => zeroPage) after.bpm := by
  refine ⟨unflushedPage_flushedPrefix, ?_⟩
  obtain ⟨after, recovered, changed⟩ :=
    @recoveryRun_onlyLsn (recoveryManagerInit committedUpdate.wm unflushedPage) _
      committedUpdate_sound
  refine ⟨after, recovered, fun restored => ?_⟩
  have related := changed 5
  generalize before : (recoveryManagerInit committedUpdate.wm unflushedPage).bpm.pages 5 = old,
    now : after.bpm.pages 5 = new at related
  cases related with
  | none => simp [recoveryManagerInit, unflushedPage] at before
  | @some stored left same =>
      obtain rfl : zeroPage = stored := by simpa [recoveryManagerInit, unflushedPage] using before
      have byte := (same.trans (restored 5 left now)) 100 (by decide)
      revert byte
      decide +kernel

/-- The theorem for the committed update of a page not yet flushed. -/
theorem restored_iff_committedUpdate :
    ∃ after, recoveryRun (recoveryManagerInit committedUpdate.wm unflushedPage) = .ok (after, .ok) ∧
      (Restored writeImage committedUpdate.appended (fun _ => zeroPage) after.bpm ↔
        FlushedIsCommitted writeImage committedUpdate.appended (fun _ => zeroPage) unflushedPage) :=
  restored_iff_flushedIsCommitted writeImage committedUpdate_sound (fun _ => zeroPage)
    unflushedPage unflushedPage_flushedPrefix

end MiniSqlite.Transaction
