import MiniSqlite.Executor.DatabaseRuns

/-!
# What `UPDATE` and `DELETE` leave behind

Both change exactly the rows on which their condition is `TRUE`, each once, although the scan
reads the pages that are changed. But an `UPDATE` passes over a row that does not fit and
stores values without a cast to the types of their columns, and neither statement survives
an index that matches its condition.
-/

namespace MiniSqlite.Executor

open MiniSqlite.Common MiniSqlite.Std MiniSqlite.Storage MiniSqlite.Buffer MiniSqlite.Catalog
  MiniSqlite.Parser MiniSqlite.Planner

variable {Double : Type} [Platform Double]

/-! ## The rows a statement is about -/

/-- The tuple at a place, if there is one on which the condition is `TRUE`. -/
def selected (tableSchema : Schema) (whereClause : Option (Expr Double)) (heap : StoreHeap)
    (rid : Rid) : Option (Tuple Double) :=
  (heapContents heap rid).bind fun bytes => delivered tableSchema whereClause (rid, bytes)

/-- The number of rows on which the condition is `TRUE`. -/
def CountsSelected (tableSchema : Schema) (whereClause : Option (Expr Double)) (heap : StoreHeap)
    (affected : Option Nat) : Prop :=
  ∃ rids : List Rid, rids.Nodup ∧
    (∀ rid, rid ∈ rids ↔ (selected tableSchema whereClause heap rid).isSome) ∧
    affected = some rids.length

section Selected

variable {tableSchema : Schema} {whereClause : Option (Expr Double)}
variable {store : PageStore} {tableMeta : TableMeta} {chain : List PageId}
variable (sound : HeapSound ⟨store, tableMeta.rootPageId⟩ chain)

include sound

omit [Platform Double] in
theorem mem_tableRows {rid : Rid} {bytes : List UInt8} :
    (rid, bytes) ∈ tableRows store tableMeta ↔
      heapContents ⟨store, tableMeta.rootPageId⟩ rid = some bytes := by
  rw [tableRows_eq sound]
  exact sound.rows_spec.2 rid bytes

/-- The scan of a table delivers the rows selected. -/
theorem selected_iff {rid : Rid} {old : Tuple Double} :
    selected tableSchema whereClause ⟨store, tableMeta.rootPageId⟩ rid = some old ↔
      ∃ row ∈ tableRows store tableMeta,
        row.1 = rid ∧ delivered tableSchema whereClause row = some old := by
  rw [selected, Option.bind_eq_some_iff]
  constructor
  · rintro ⟨bytes, stored, found⟩
    exact ⟨(rid, bytes), (mem_tableRows sound).mpr stored, rfl, found⟩
  · rintro ⟨⟨_, bytes⟩, member, rfl, found⟩
    exact ⟨bytes, (mem_tableRows sound).mp member, found⟩

/-- The places of the tuples that the scan delivers. -/
theorem mem_rids_iff {rid : Rid} :
    rid ∈ ((tableRows store tableMeta).filterMap (delivered tableSchema whereClause)).map Tuple.rid ↔
      (selected tableSchema whereClause ⟨store, tableMeta.rootPageId⟩ rid).isSome := by
  rw [Option.isSome_iff_exists, List.mem_map]
  constructor
  · rintro ⟨old, member, rfl⟩
    obtain ⟨row, inRows, found⟩ := List.mem_filterMap.mp member
    exact ⟨old, (selected_iff sound).mpr ⟨row, inRows, (delivered_rid found).symm, found⟩⟩
  · rintro ⟨old, here⟩
    obtain ⟨row, inRows, rfl, found⟩ := (selected_iff sound).mp here
    exact ⟨old, List.mem_filterMap.mpr ⟨row, inRows, found⟩, delivered_rid found⟩

theorem rids_nodup :
    (((tableRows store tableMeta).filterMap
      (delivered tableSchema whereClause)).map Tuple.rid).Nodup := by
  have nodup := sound.rows_spec.1
  rw [← tableRows_eq sound] at nodup
  generalize tableRows store tableMeta = rows at nodup
  induction rows with
  | nil => exact List.nodup_nil
  | cons row rows ih =>
      obtain ⟨absent, rest⟩ := List.nodup_cons.mp nodup
      cases found : delivered tableSchema whereClause row with
      | none =>
          rw [List.filterMap_cons_none found]
          exact ih rest
      | some old =>
          rw [List.filterMap_cons_some found, List.map_cons, List.nodup_cons]
          refine ⟨fun member => absent ?_, ih rest⟩
          obtain ⟨other, inRest, same⟩ := List.mem_map.mp member
          rw [← delivered_rid found, ← same]
          exact rid_of_mem_delivered inRest

/-- The rows selected are as many as the scan delivers. -/
theorem countsSelected_iff {affected : Option Nat} :
    CountsSelected tableSchema whereClause ⟨store, tableMeta.rootPageId⟩ affected ↔
      affected = some
        ((tableRows store tableMeta).filterMap (delivered tableSchema whereClause)).length := by
  constructor
  · rintro ⟨rids, nodup, members, rfl⟩
    have same := (List.perm_ext_iff_of_nodup nodup (rids_nodup sound)).mpr fun rid =>
      (members rid).trans (mem_rids_iff sound).symm
    rw [same.length_eq, List.length_map]
  · rintro rfl
    exact ⟨_, rids_nodup sound, fun rid => mem_rids_iff sound, by rw [List.length_map]⟩

end Selected

/-! ## `UPDATE` -/

/-- A stored row reads as a tuple. -/
def ReadsAs (tableSchema : Schema) (bytes : List UInt8) (tuple : Tuple Double) : Prop :=
  ∃ read : Tuple Double, (tupleDeserialize tableSchema bytes).run = .ok (.ok read) ∧
    read.values = tuple.values

/-- Each row on which the condition is `TRUE` has been replaced by the row made of its old
values, all other places hold what they held, and the rows replaced have been counted. -/
structure RowsReplaced (tableSchema : Schema) (whereClause : Option (Expr Double))
    (assignments : List (Assignment Double)) (before after : StoreHeap)
    (affected : Option Nat) : Prop where
  replaced : ∀ rid old, selected tableSchema whereClause before rid = some old →
    ∃ new bytes, (applyAssignments tableSchema old assignments).run = .ok (.ok new) ∧
      heapContents after rid = some bytes ∧ ReadsAs tableSchema bytes new
  untouched : ∀ rid, selected tableSchema whereClause before rid = none →
    heapContents after rid = heapContents before rid
  counted : CountsSelected tableSchema whereClause before affected

/-- The statement has done to its table what it says, and nothing to the catalog. -/
structure UpdatedExactly (db after : Database PageStore) (result : StatementResult Double)
    (tableName : CString) (assignments : List (Assignment Double))
    (whereClause : Option (Expr Double)) : Prop where
  catalog : after.catalog = db.catalog
  table : ∀ tableMeta schema, lookUpTable db.catalog tableName = some (tableMeta, schema) →
    RowsReplaced schema whereClause assignments ⟨db.bpm, tableMeta.rootPageId⟩
      ⟨after.bpm, tableMeta.rootPageId⟩ result.affected

/-- What is stored of the new tuple of a row reads as this tuple. -/
def NewTupleKept (tableSchema : Schema) (assignments : List (Assignment Double))
    (old : Tuple Double) : Prop :=
  ∀ new bytes, (applyAssignments tableSchema old assignments).run = .ok (.ok new) →
    heapBytes new tableSchema = .ok bytes → ReadsAs tableSchema bytes new

/-- Each row on which the condition is `TRUE` has a new tuple that fits when its turn comes and
can be read again. -/
def Updatable (db : Database PageStore) (tableName : CString)
    (assignments : List (Assignment Double)) (whereClause : Option (Expr Double)) : Prop :=
  ∀ tableMeta schema, lookUpTable db.catalog tableName = some (tableMeta, schema) →
    UpdatesFit schema whereClause assignments db.bpm (tableRows db.bpm tableMeta) ∧
      ∀ rid old, selected schema whereClause ⟨db.bpm, tableMeta.rootPageId⟩ rid = some old →
        NewTupleKept schema assignments old

section Table

variable {tableSchema : Schema} {whereClause : Option (Expr Double)}
variable {assignments : List (Assignment Double)} {tableMeta : TableMeta} {chain : List PageId}
variable {before after : PageStore} {changed : List (Tuple Double)} {errors : List Int}

/-- The rows of a table have been replaced if and only if all of them fit and are kept. -/
theorem TableUpdated.replaced_iff (sound : HeapSound ⟨before, tableMeta.rootPageId⟩ chain)
    (updated : TableUpdated tableSchema whereClause assignments tableMeta.rootPageId chain
      (tableRows before tableMeta) before after changed errors) :
    RowsReplaced tableSchema whereClause assignments ⟨before, tableMeta.rootPageId⟩
        ⟨after, tableMeta.rootPageId⟩ (some changed.length) ↔
      UpdatesFit tableSchema whereClause assignments before (tableRows before tableMeta) ∧
        ∀ rid old, selected tableSchema whereClause ⟨before, tableMeta.rootPageId⟩ rid = some old →
          NewTupleKept tableSchema assignments old := by
  rcases updated.outcome with ⟨fits, all⟩ | ⟨unfit, skipped⟩
  · have stored : ∀ rid old,
        selected tableSchema whereClause ⟨before, tableMeta.rootPageId⟩ rid = some old →
        ∃ new bytes, (applyAssignments tableSchema old assignments).run = .ok (.ok new) ∧
          heapBytes new tableSchema = .ok bytes ∧
          heapContents ⟨after, tableMeta.rootPageId⟩ rid = some bytes := by
      intro rid old here
      obtain ⟨row, inRows, rfl, found⟩ := (selected_iff sound).mp here
      have member : old ∈ changed :=
        all.changed_eq ▸ List.mem_filterMap.mpr ⟨row, inRows, found⟩
      obtain ⟨bytes, made, content⟩ := all.contents old member
      obtain ⟨new, applied, serialized⟩ := newTuple_of_updatedBytes made
      exact ⟨new, bytes, applied, serialized, delivered_rid found ▸ content⟩
    constructor
    · intro exactly
      refine ⟨fits, fun rid old here new bytes applied serialized => ?_⟩
      obtain ⟨new', bytes', applied', serialized', content⟩ := stored rid old here
      obtain ⟨new'', bytes'', applied'', content', reads⟩ := exactly.replaced rid old here
      obtain rfl : new' = new := by simpa [applied'] using applied
      obtain rfl : new' = new'' := by simpa [applied'] using applied''
      obtain rfl : bytes' = bytes := by simpa [serialized'] using serialized
      obtain rfl : bytes' = bytes'' := by simpa [content] using content'
      exact reads
    · rintro ⟨-, kept⟩
      refine ⟨fun rid old here => ?_, fun rid unselected => ?_, ?_⟩
      · obtain ⟨new, bytes, applied, serialized, content⟩ := stored rid old here
        exact ⟨new, bytes, applied, content, kept rid old here new bytes applied serialized⟩
      · refine updated.others rid fun member => ?_
        have here := (mem_rids_iff sound).mp member
        rw [unselected] at here
        cases here
      · rw [countsSelected_iff sound, all.changed_eq]
  · refine iff_of_false (fun exactly => ?_) fun holds => unfit holds.1
    have counted := Option.some.inj ((countsSelected_iff sound).mp exactly.counted)
    exact absurd skipped.fewer (by omega)

end Table

variable {db after : Database PageStore} {result : StatementResult Double}

/-- An `UPDATE` that reports `DB_OK` has done what it says if and only if all new rows fit and
can be read again. -/
theorem updatedExactly_iff_updatable (sound : TablesSound db) (tableName : CString)
    (assignments : List (Assignment Double)) (whereClause : Option (Expr Double)) (turns : Nat)
    (ended : executionEngineExecute turns db (.update tableName assignments whereClause) =
      .ok (after, result)) (ok : result.code = .ok) :
    UpdatedExactly db after result tableName assignments whereClause ↔
      Updatable db tableName assignments whereClause := by
  have outcome := outcome_of_execute sound ended
  rw [outcomeOf] at outcome
  rcases changeOutcome_cases outcome with
    ⟨-, same⟩ | ⟨tableMeta, schema, tuples, session, found, ran, same⟩
  · obtain ⟨-, rfl⟩ := Prod.mk.inj same
    cases ok
  · obtain ⟨rfl, rfl⟩ := Prod.mk.inj same
    obtain ⟨chain, stored⟩ := sound.rowsStored (lookUpTable_eq found).1
    obtain ⟨changed, errors, tuples_eq, -, updated⟩ := changeRows_update stored ran
    rw [List.nil_append] at tuples_eq
    subst tuples_eq
    have exact_iff := updated.replaced_iff stored.sound
    constructor
    · intro exactly tableMeta' schema' found'
      obtain ⟨rfl, rfl⟩ := Prod.mk.inj (Option.some.inj (found.symm.trans found'))
      exact exact_iff.mp (exactly.table tableMeta schema found)
    · intro updatable
      refine ⟨rfl, fun tableMeta' schema' found' => ?_⟩
      obtain ⟨rfl, rfl⟩ := Prod.mk.inj (Option.some.inj (found.symm.trans found'))
      exact exact_iff.mpr (updatable tableMeta schema found)

/-! ## Rows that have no room to grow -/

/-- A string literal of a length. -/
def textOf (length : Nat) : Expr Int :=
  .literal (.string (.ofChars (List.replicate length 'a')))

/-- `CREATE TABLE t (s VARCHAR(255))` with rows that fill a page. -/
def createTexts : List (Stmt Int) :=
  [.createTable (.ofChars ['t']) [.plain (.ofChars ['s']) .varchar 255] false,
    .insert (.ofChars ['t']) [] (List.replicate 15 [textOf 250])]

/-- `UPDATE t SET s = ...` with a string one byte longer. -/
def lengthenTexts : Stmt Int := .update (.ofChars ['t']) [⟨.ofChars ['s'], textOf 251⟩] none

/-- No row is replaced, and `DB_OK` is reported. -/
theorem lengthenTexts_ends :
    ∃ outcome, executionEngineExecute 100 (scriptDatabase createTexts) lengthenTexts =
        .ok outcome ∧
      (outcome.2.code, outcome.2.affected, outcome.2.errors) =
        (.ok, some 0, List.replicate 15 ErrorCode.outOfMemory.code) :=
  ends_of_map (by decide +kernel)

/-- The table has fifteen rows, and no condition excludes them. -/
theorem lengthenTexts_selects :
    (lookUpTable (scriptDatabase createTexts).catalog (.ofChars ['t'])).map
      (fun (tableMeta, schema) => ((tableRows (scriptDatabase createTexts).bpm
        tableMeta).filterMap (@delivered Int _ schema none)).length) = some 15 := by
  decide +kernel

theorem lengthenTexts_passedOver {after : Database PageStore} {result : StatementResult Int}
    (affected : result.affected = some 0) :
    ¬UpdatedExactly (scriptDatabase createTexts) after result (.ofChars ['t'])
      [⟨.ofChars ['s'], textOf 251⟩] none := by
  intro exactly
  obtain ⟨⟨tableMeta, schema⟩, found, fifteen⟩ := Option.map_eq_some_iff.mp lengthenTexts_selects
  have sound := (reached_scriptDatabase createTexts).sound.tables
  obtain ⟨chain, stored⟩ := sound.rowsStored (lookUpTable_eq found).1
  have counted := (countsSelected_iff stored.sound).mp (exactly.table tableMeta schema found).counted
  rw [affected, Option.some.injEq] at counted
  exact absurd (counted.trans fifteen) (by decide)

/-- Rows whose page has no room for their new tuples are passed over silently. -/
theorem lengthenTexts_inexact :
    ¬∀ after result, executionEngineExecute 100 (scriptDatabase createTexts) lengthenTexts =
      .ok (after, result) → result.code = .ok →
        UpdatedExactly (scriptDatabase createTexts) after result (.ofChars ['t'])
          [⟨.ofChars ['s'], textOf 251⟩] none := by
  intro exactly
  obtain ⟨⟨after, result⟩, ended, seen⟩ := lengthenTexts_ends
  obtain ⟨code, affected, -⟩ := by simpa using seen
  exact lengthenTexts_passedOver affected (exactly after result ended code)

theorem updatedExactly_iff_updatable_lengthenTexts :
    ¬Updatable (scriptDatabase createTexts) (.ofChars ['t'])
      [⟨.ofChars ['s'], textOf 251⟩] none := by
  obtain ⟨⟨after, result⟩, ended, seen⟩ := lengthenTexts_ends
  obtain ⟨code, affected, -⟩ := by simpa using seen
  have sound := (reached_scriptDatabase createTexts).sound.tables
  rw [← updatedExactly_iff_updatable sound _ _ _ 100 ended code]
  exact lengthenTexts_passedOver affected

/-! ## `DELETE` -/

/-- C defines what a scan does with the rows of a table: it reads inside them, and the
condition neither overflows nor leaves its buffer on them. -/
def ScansDefined (tableSchema : Schema) (whereClause : Option (Expr Double))
    (heap : StoreHeap) : Prop :=
  ∀ rid bytes, heapContents heap rid = some bytes →
    ∃ scanned, (scanRow tableSchema whereClause (rid, bytes)).run = .ok scanned

/-- The rows on which the condition is `TRUE` are gone, and all other places hold what they
held. -/
structure RowsRemoved (tableSchema : Schema) (whereClause : Option (Expr Double))
    (before after : StoreHeap) (affected : Option Nat) : Prop where
  contents : ∀ rid, heapContents after rid =
    if (selected tableSchema whereClause before rid).isSome then none else heapContents before rid
  counted : CountsSelected tableSchema whereClause before affected

/-- The statement has done to its table what it says, and nothing to the catalog. -/
structure DeletedExactly (db after : Database PageStore) (result : StatementResult Double)
    (tableName : CString) (whereClause : Option (Expr Double)) : Prop where
  code : result.code = .ok
  catalog : after.catalog = db.catalog
  table : ∀ tableMeta schema, lookUpTable db.catalog tableName = some (tableMeta, schema) →
    RowsRemoved schema whereClause ⟨db.bpm, tableMeta.rootPageId⟩
      ⟨after.bpm, tableMeta.rootPageId⟩ result.affected

/-- The statement ends, and has done what it says. -/
def Deletes (db : Database PageStore) (tableName : CString)
    (whereClause : Option (Expr Double)) : Prop :=
  ∃ bound, ∀ turns, bound ≤ turns → ∃ after result,
    executionEngineExecute turns db (.delete tableName whereClause) = .ok (after, result) ∧
      DeletedExactly db after result tableName whereClause

section Deleting

variable {tableSchema : Schema} {whereClause : Option (Expr Double)} {firstPageId : PageId}
variable {chain : List PageId} {rows : List (Rid × List UInt8)} {before : PageStore}

/-- A `DELETE` ends if C defines the scan of each row. -/
theorem changeRows_delete_iff {log : List Int} {done : List (Tuple Double)}
    (stored : RowsStored firstPageId chain before rows) :
    (∃ outcome, changeRows tableSchema whereClause (deleteTuple firstPageId) rows ⟨before, log⟩
        done = .ok outcome) ↔
      ∀ row ∈ rows, ∃ scanned, (scanRow tableSchema whereClause row).run = .ok scanned := by
  induction rows generalizing before log done with
  | nil => simp [changeRows]
  | cons row rows ih =>
      rw [changeRows, List.forall_mem_cons]
      cases scanned : (scanRow tableSchema whereClause row).run with
      | error fault => simp [bind, Except.bind]
      | ok outcome =>
          obtain ⟨_ | old, notes⟩ := outcome
          · rw [ok_bind, ih stored.tail]
            simp
          · have rid_eq := scanRow_rid tableSchema whereClause scanned
            have content := stored.stored row List.mem_cons_self
            rw [← rid_eq] at content
            obtain ⟨page, rowIn⟩ := stored.sound.rowIn content
            obtain ⟨changedRow, -⟩ := rowChanged_deletedRow stored.sound rowIn
            rw [ok_bind]
            dsimp only
            rw [deleteTuple_run stored.sound rowIn, ok_bind, ih (stored.changed rid_eq changedRow)]
            simp

end Deleting

omit [Platform Double] in
/-- The scan of a table under a condition is an index scan if an index matches. -/
theorem isIndexScan_iff {cat : CatalogT} {stmt : Stmt Double} {tableName : CString}
    {whereClause : Option (Expr Double)} {tableMeta : TableMeta}
    (condition : conditionOn stmt = whereClause.map (tableName, ·))
    (known : catalogGetTable cat tableName = .ok tableMeta) :
    isIndexScan (plannerPlanPhysical cat (scanUnder (scanOf cat tableName tableMeta) whereClause)) =
      true ↔ Matched cat stmt := by
  rw [optimizeMatchIndex_scanUnder, Matched, condition]
  cases whereClause with
  | none => simp [isIndexScan]
  | some predicate =>
      have here : (∃ name other otherMeta, Option.map (tableName, ·) (some predicate) =
            some (name, (other : Expr Double)) ∧ catalogGetTable cat name = .ok otherMeta ∧
            IndexMatches cat (scanOf cat name otherMeta) other) ↔
          IndexMatches cat (scanOf cat tableName tableMeta) predicate := by
        simp [known]
      rw [here]
      by_cases matched : IndexMatches cat (scanOf cat tableName tableMeta) predicate
      · obtain ⟨_, _, _, indexed⟩ := matchIndex_of_matches matched
        simp [indexed, isIndexScan, matched]
      · simp [matchIndex_of_not_matches matched, isIndexScan, matched]

/-- A `DELETE` removes exactly the rows on which its condition is `TRUE`, unless an index matches
the condition or C leaves open what the condition does on some row. -/
theorem deletes_iff (sound : TablesSound db) {tableName : CString} {tableMeta : TableMeta}
    {schema : Schema} (found : lookUpTable db.catalog tableName = some (tableMeta, schema))
    (whereClause : Option (Expr Double)) :
    Deletes db tableName whereClause ↔
      ¬Matched db.catalog (.delete tableName whereClause) ∧
        ScansDefined schema whereClause ⟨db.bpm, tableMeta.rootPageId⟩ := by
  obtain ⟨known, -⟩ := lookUpTable_eq found
  obtain ⟨chain, stored⟩ := sound.rowsStored known
  have condition : conditionOn (.delete tableName whereClause) =
      whereClause.map (tableName, ·) := rfl
  have indexed := isIndexScan_iff condition known
  have outcome : outcomeOf db (.delete tableName whereClause) =
      if isIndexScan (plannerPlanPhysical db.catalog
          (scanUnder (scanOf db.catalog tableName tableMeta) whereClause)) then .error .nullPointer
      else (changeRows schema whereClause (deleteTuple tableMeta.rootPageId)
        (tableRows db.bpm tableMeta) ⟨db.bpm, []⟩ [] >>= fun outcome =>
          .ok (pulled db .null outcome)) := by
    rw [outcomeOf, changeOutcome, found]
    rfl
  have defined_iff : (∃ outcome, changeRows schema whereClause (deleteTuple tableMeta.rootPageId)
      (tableRows db.bpm tableMeta) ⟨db.bpm, []⟩ [] = .ok outcome) ↔
        ScansDefined schema whereClause ⟨db.bpm, tableMeta.rootPageId⟩ := by
    rw [changeRows_delete_iff stored, ScansDefined]
    constructor
    · intro defined rid bytes content
      exact defined (rid, bytes) ((mem_tableRows stored.sound).mpr content)
    · rintro defined ⟨rid, bytes⟩ member
      exact defined rid bytes ((mem_tableRows stored.sound).mp member)
  rw [← indexed, ← defined_iff]
  constructor
  · rintro ⟨bound, ends⟩
    obtain ⟨after, result, ended, -⟩ := ends bound (Nat.le_refl _)
    have same := outcome_of_execute sound ended
    rw [outcome] at same
    split at same
    · cases same
    · rename_i unindexed
      refine ⟨unindexed, ?_⟩
      cases ran : changeRows schema whereClause (deleteTuple tableMeta.rootPageId)
          (tableRows db.bpm tableMeta) ⟨db.bpm, []⟩ [] with
      | error fault => rw [ran] at same; cases same
      | ok ended => exact ⟨ended, rfl⟩
  · rintro ⟨unindexed, ⟨tuples, after, errors⟩, ran⟩
    rw [if_neg unindexed, ran, ok_bind] at outcome
    obtain ⟨bound, ends⟩ := execute_ends sound (.delete tableName whereClause)
    refine ⟨bound, fun turns enough => ⟨_, _, (ends turns enough).trans outcome, rfl, rfl,
      fun tableMeta' schema' found' => ?_⟩⟩
    · obtain ⟨rfl, rfl⟩ := Prod.mk.inj (Option.some.inj (found.symm.trans found'))
      obtain ⟨tuples_eq, -, deleted⟩ := changeRows_delete stored ran
      refine ⟨fun rid => ?_, ?_⟩
      · rw [deleted.contents]
        exact if_congr (mem_rids_iff stored.sound) rfl rfl
      · rw [countsSelected_iff stored.sound]
        exact congrArg (fun tuples => some tuples.length) (tuples_eq.trans (List.nil_append _))

/-! ## A condition that an index matches -/

/-- `CREATE TABLE t (n INTEGER)` with a row `1`. -/
def createOne : List (Stmt Int) :=
  [.createTable (.ofChars ['t']) [.plain (.ofChars ['n']) .integer 0] false,
    .insert (.ofChars ['t']) [] [[.literal (.int 1)]]]

/-- The same with `CREATE INDEX i ON t (n)`. -/
def createOneIndexed : List (Stmt Int) :=
  createOne ++ [.createIndex (.ofChars ['t']) (.ofChars ['i']) (.ofChars ['n']) false]

/-- `n = 1`. -/
def isOne : Expr Int := .binary (.columnRef .empty (.ofChars ['n'])) .equal (.literal (.int 1))

/-- There is no executor for the index scan that `DELETE FROM t WHERE n = 1` reads from. -/
theorem deleteIndexed_crashes :
    ¬Deletes (scriptDatabase createOneIndexed) (.ofChars ['t']) (some isOne) := by
  rintro ⟨bound, ends⟩
  obtain ⟨after, result, ended, -⟩ := ends bound (Nat.le_refl _)
  have sound := (reached_scriptDatabase createOneIndexed).sound.tables
  have outcome := outcome_of_execute sound ended
  have crashes : (outcomeOf (scriptDatabase createOneIndexed)
      (.delete (.ofChars ['t']) (some isOne))).isOk = false := by decide +kernel
  rw [outcome] at crashes
  cases crashes

theorem deletes_iff_createOne : Deletes (scriptDatabase createOne) (.ofChars ['t']) (some isOne) := by
  have sound := (reached_scriptDatabase createOne).sound.tables
  have known : (lookUpTable (scriptDatabase createOne).catalog (.ofChars ['t'])).isSome := by
    decide +kernel
  obtain ⟨⟨tableMeta, schema⟩, found⟩ := Option.isSome_iff_exists.mp known
  have defined : (lookUpTable (scriptDatabase createOne).catalog (.ofChars ['t'])).all
      (fun (tableMeta, schema) => (tableRows (scriptDatabase createOne).bpm tableMeta).all
        fun row => (scanRow schema (some isOne) row).run.isOk) = true := by decide +kernel
  have noIndex : (scriptDatabase createOne).catalog.indexCache.entries = [] := by decide +kernel
  rw [found, Option.all_some, List.all_eq_true] at defined
  obtain ⟨chain, stored⟩ := sound.rowsStored (lookUpTable_eq found).1
  refine (deletes_iff sound found (some isOne)).mpr ⟨?_, fun rid bytes content => ?_⟩
  · rintro ⟨_, _, _, -, -, -, -, _, _, -, -, _, indexed, -⟩
    simp [catalogGetTableIndexes, noIndex] at indexed
  · have ok := defined _ ((mem_tableRows stored.sound).mpr content)
    cases scanned : (scanRow schema (some isOne) (rid, bytes)).run with
    | error fault => simp [scanned, Except.isOk, Except.toBool] at ok
    | ok outcome => exact ⟨outcome, rfl⟩

end MiniSqlite.Executor
