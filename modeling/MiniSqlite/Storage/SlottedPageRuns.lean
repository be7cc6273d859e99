import MiniSqlite.Storage.SlottedPage
import MiniSqlite.Std.Run

/-!
# Slotted pages under arbitrary use

Runs of the four slotted page operations on a freshly initialised page. The
abstract page is a finite map from slot ids to bytes together with the number of
ids handed out; `pageStep_refines` is the commuting square for one call, and
`slottedPage_contract` collects what it implies for whole runs.
-/

namespace MiniSqlite.Storage

open MiniSqlite.Common MiniSqlite.Std

/-- A call on a page. -/
inductive PageOp where
  | insert (tuple : TupleData)
  | get (slotId : SlotId)
  | delete (slotId : SlotId)
  | update (slotId : SlotId) (newData : TupleData)

/-- What a call returns: an `int`, and the bytes `slotted_page_get` points to. -/
structure PageResult where
  code : Int
  bytes : Option (List UInt8)
  deriving DecidableEq

/-- The page after a call, and the call's result. -/
def pageCall (page : Page) : PageOp → Page × PageResult
  | .insert tuple =>
      let (page, code) := slottedPageInsert page tuple.1
      (page, ⟨code, none⟩)
  | .get slotId =>
      match slottedPageGet page slotId with
      | .ok bytes => (page, ⟨ErrorCode.ok.code, some bytes⟩)
      | .error error => (page, ⟨error.code, none⟩)
  | .delete slotId =>
      let (page, error) := slottedPageDelete page slotId
      (page, ⟨error.code, none⟩)
  | .update slotId newData =>
      let (page, error) := slottedPageUpdate page slotId newData.1
      (page, ⟨error.code, none⟩)

/-- The page after a call. -/
def pageStep (page : Page) (op : PageOp) : Page := (pageCall page op).1

/-- The slot an operation may change. -/
def PageOp.target : PageOp → Option SlotId
  | .insert _ => none
  | .get _ => none
  | .delete slotId => some slotId
  | .update slotId _ => some slotId

/-! ## The abstract page -/

/-- Slot ids handed out so far and the bytes each one names. -/
structure SlotMap where
  issued : Nat
  bytes : Nat → Option (List UInt8)

/-- The map a page represents. -/
def slotMapOf (page : Page) : SlotMap := ⟨pageHeaderGetNumTuples page, recordAt page⟩

/-- The map with one slot's bytes exchanged. -/
def SlotMap.set (map : SlotMap) (i : Nat) (record : Option (List UInt8)) : SlotMap :=
  { map with bytes := fun j => if j = i then record else map.bytes j }

/-- The bytes a slot id names. -/
def SlotMap.lookup (map : SlotMap) (slotId : SlotId) : Option (List UInt8) :=
  if slotId < 0 then none else map.bytes (slotIndex slotId)

/-- The map after a call; `granted` tells whether the page has room for it. -/
def SlotMap.step (map : SlotMap) (granted : Bool) : PageOp → SlotMap
  | .insert tuple =>
      if granted then { map.set map.issued (some tuple.1) with issued := map.issued + 1 } else map
  | .get _ => map
  | .delete slotId =>
      if (map.lookup slotId).isSome then map.set (slotIndex slotId) none else map
  | .update slotId newData =>
      if (map.lookup slotId).isSome ∧ granted then map.set (slotIndex slotId) (some newData.1)
      else map

/-- The page has room for what the call wants to store. -/
def grants (page : Page) : PageOp → Bool
  | .insert tuple => decide (Fits page tuple.1)
  | .update slotId newData => decide (UpdateFits page slotId newData.1)
  | .get _ | .delete _ => true

/-- The call reports an error: `slotted_page_insert` returns one of its two error
codes, the others something else than `DB_OK`. -/
def reportsError (page : Page) (op : PageOp) : Prop :=
  match op with
  | .insert _ => (pageCall page op).2.code = ErrorCode.invalidArgument.code ∨
      (pageCall page op).2.code = ErrorCode.outOfMemory.code
  | _ => (pageCall page op).2.code ≠ ErrorCode.ok.code

theorem SlotMap.ext_set {first second : SlotMap} {i : Nat} {record : Option (List UInt8)}
    (issued : first.issued = second.issued) (here : first.bytes i = record)
    (others : ∀ j, j ≠ i → first.bytes j = second.bytes j) : first = second.set i record := by
  obtain ⟨firstIssued, firstBytes⟩ := first
  unfold SlotMap.set
  congr 1
  funext j
  by_cases same : j = i
  · rw [if_pos same, same]
    exact here
  · rw [if_neg same]
    exact others j same

theorem Rewritten.slotMapOf_eq {before after : Page} {i : Nat} {record : Option (List UInt8)}
    (rewritten : Rewritten before after i record) :
    slotMapOf after = (slotMapOf before).set i record :=
  SlotMap.ext_set rewritten.count rewritten.changed rewritten.others

theorem SlotMap.nonneg_of_lookup {map : SlotMap} {slotId : SlotId}
    (live : (map.lookup slotId).isSome) : ¬ slotId < 0 := by
  intro negative
  simp [SlotMap.lookup, negative] at live

theorem lookup_slotMapOf (page : Page) (slotId : SlotId) :
    (slotMapOf page).lookup slotId = recordOf page slotId := rfl

/-- Every operation keeps the page valid and does to the represented map what
`SlotMap.step` says. -/
theorem pageStep_refines {page : Page} (valid : ValidPage page) (op : PageOp) :
    ValidPage (pageStep page op) ∧
      slotMapOf (pageStep page op) = (slotMapOf page).step (grants page op) op := by
  have layout := valid.toLayout
  cases op with
  | insert tuple =>
      simp only [pageStep, pageCall, grants, SlotMap.step]
      by_cases fits : Fits page tuple.1
      · obtain ⟨_, inserted⟩ := slottedPageInsert_fits layout tuple.2 fits
        refine ⟨inserted.valid, ?_⟩
        simp only [fits, decide_true, if_true]
        have set_ : (slotMapOf (slottedPageInsert page tuple.1).1).bytes =
            ((slotMapOf page).set (pageHeaderGetNumTuples page) (some tuple.1)).bytes := by
          funext j
          by_cases same : j = pageHeaderGetNumTuples page
          · simp [SlotMap.set, slotMapOf, same, inserted.stored]
          · simp [SlotMap.set, slotMapOf, same, inserted.others j same]
        rw [show (slotMapOf page).issued = pageHeaderGetNumTuples page from rfl, ← set_]
        simp only [slotMapOf, inserted.count]
      · rw [slottedPageInsert_refused layout fits]
        simp only [fits, decide_false, Bool.false_eq_true, if_false]
        exact ⟨valid, trivial⟩
  | get slotId =>
      simp only [pageStep, pageCall, SlotMap.step]
      split <;> exact ⟨valid, rfl⟩
  | delete slotId =>
      simp only [pageStep, pageCall, SlotMap.step]
      have lookup := lookup_slotMapOf page slotId
      cases found : recordOf page slotId with
      | none =>
          rw [slottedPageDelete_dead found, if_neg (by simp [lookup, found])]
          exact ⟨valid, rfl⟩
      | some bytes =>
          obtain ⟨_, rewritten⟩ := slottedPageDelete_live layout found
          rw [if_pos (by simp [lookup, found])]
          exact ⟨rewritten.valid, rewritten.slotMapOf_eq⟩
  | update slotId newData =>
      simp only [pageStep, pageCall, SlotMap.step]
      have lookup := lookup_slotMapOf page slotId
      have room : grants page (.update slotId newData) =
          decide (UpdateFits page slotId newData.1) := rfl
      by_cases granted : (recordOf page slotId).isSome ∧ UpdateFits page slotId newData.1
      · obtain ⟨bytes, found⟩ := Option.isSome_iff_exists.mp granted.1
        obtain ⟨_, rewritten⟩ := slottedPageUpdate_live layout found newData.2 granted.2
        rw [if_pos (by simpa [lookup, room] using granted)]
        exact ⟨rewritten.valid, rewritten.slotMapOf_eq⟩
      · have refused : recordOf page slotId = none ∨ ¬ UpdateFits page slotId newData.1 := by
          rw [not_and_or, Option.not_isSome_iff_eq_none] at granted
          exact granted
        rw [(slottedPageUpdate_refused layout refused).1,
          if_neg (by simpa [lookup, room] using granted)]
        exact ⟨valid, rfl⟩

/-- A call that reports an error writes nothing. -/
theorem pageStep_of_error {page : Page} (valid : ValidPage page) (op : PageOp)
    (error : reportsError page op) : pageStep page op = page := by
  have layout := valid.toLayout
  cases op with
  | insert tuple =>
      simp only [reportsError, pageCall] at error
      simp only [pageStep, pageCall]
      by_cases fits : Fits page tuple.1
      · have := valid.count_lt
        rw [(slottedPageInsert_fits layout tuple.2 fits).1] at error
        simp only [ErrorCode.code] at error
        omega
      · rw [slottedPageInsert_refused layout fits]
  | get slotId =>
      simp only [pageStep, pageCall]
      split <;> rfl
  | delete slotId =>
      simp only [reportsError, pageCall] at error
      simp only [pageStep, pageCall]
      cases found : recordOf page slotId with
      | none => rw [slottedPageDelete_dead found]
      | some bytes =>
          rw [(slottedPageDelete_live layout found).1] at error
          exact absurd rfl error
  | update slotId newData =>
      simp only [reportsError, pageCall] at error
      simp only [pageStep, pageCall]
      cases found : recordOf page slotId with
      | none => exact (slottedPageUpdate_refused layout (Or.inl found)).1
      | some bytes =>
          by_cases fits : UpdateFits page slotId newData.1
          · rw [(slottedPageUpdate_live layout found newData.2 fits).1] at error
            exact absurd rfl error
          · exact (slottedPageUpdate_refused layout (Or.inr fits)).1

/-- A call changes at most the record of its target slot, and never the number of
ids handed out downwards. -/
theorem pageStep_frame {page : Page} (valid : ValidPage page) (op : PageOp) :
    pageHeaderGetNumTuples page ≤ pageHeaderGetNumTuples (pageStep page op) ∧
      ∀ i, i < pageHeaderGetNumTuples page →
        (∀ slotId, op.target = some slotId → slotId < 0 ∨ slotIndex slotId ≠ i) →
        recordAt (pageStep page op) i = recordAt page i := by
  have refines := (pageStep_refines valid op).2
  have issued : pageHeaderGetNumTuples (pageStep page op) =
      ((slotMapOf page).step (grants page op) op).issued := by rw [← refines]; rfl
  have bytes : ∀ i, recordAt (pageStep page op) i =
      ((slotMapOf page).step (grants page op) op).bytes i := by rw [← refines]; intro i; rfl
  constructor
  · rw [issued]
    cases op with
    | get slotId => exact Nat.le_refl _
    | insert tuple =>
        simp only [SlotMap.step]
        split <;> simp [slotMapOf]
    | delete slotId =>
        simp only [SlotMap.step]
        split <;> simp [SlotMap.set, slotMapOf]
    | update slotId newData =>
        simp only [SlotMap.step]
        split <;> simp [SlotMap.set, slotMapOf]
  · intro i bound untouched
    rw [bytes]
    cases op with
    | insert tuple =>
        simp only [SlotMap.step]
        split
        · simp [SlotMap.set, slotMapOf, Nat.ne_of_lt bound]
        · rfl
    | get slotId => rfl
    | delete slotId =>
        simp only [SlotMap.step]
        split
        · rename_i live
          have differ := (untouched slotId rfl).resolve_left (SlotMap.nonneg_of_lookup live)
          simp [SlotMap.set, slotMapOf, Ne.symm differ]
        · rfl
    | update slotId newData =>
        simp only [SlotMap.step]
        split
        · rename_i live
          have differ := (untouched slotId rfl).resolve_left (SlotMap.nonneg_of_lookup live.1)
          simp [SlotMap.set, slotMapOf, Ne.symm differ]
        · rfl

/-! ## Whole runs -/

theorem validPage_run {page : Page} (valid : ValidPage page) (ops : List PageOp) :
    ValidPage (run pageStep page ops) :=
  @run_invariant _ _ pageStep ValidPage
    (fun _ op valid => (pageStep_refines valid op).1) page ops valid

theorem count_le_run {page : Page} (valid : ValidPage page) (ops : List PageOp) :
    pageHeaderGetNumTuples page ≤ pageHeaderGetNumTuples (run pageStep page ops) := by
  induction ops generalizing page with
  | nil => exact Nat.le_refl _
  | cons op ops ih =>
      exact (pageStep_frame valid op).1.trans (ih (pageStep_refines valid op).1)

/-- A call leaves every live slot other than its target as it was. -/
theorem recordOf_pageStep {page : Page} (valid : ValidPage page) {slotId : SlotId}
    {bytes : List UInt8} (found : recordOf page slotId = some bytes) (op : PageOp)
    (other : op.target ≠ some slotId) : recordOf (pageStep page op) slotId = some bytes := by
  have nonneg := nonneg_of_recordOf found
  obtain ⟨_, live, _⟩ := live_of_recordOf found
  have same := (pageStep_frame valid op).2 (slotIndex slotId) live.1 (by
    intro target isTarget
    by_cases negative : target < 0
    · exact Or.inl negative
    · refine Or.inr fun index => other ?_
      rw [isTarget, slotIndex_inj negative nonneg index])
  rw [recordOf_of_nonneg nonneg] at found ⊢
  rw [same, found]

/-- A record outlives every call that does not target its slot. -/
theorem recordOf_run {page : Page} (valid : ValidPage page) {slotId : SlotId}
    {bytes : List UInt8} (found : recordOf page slotId = some bytes) (ops : List PageOp)
    (untouched : ∀ op ∈ ops, op.target ≠ some slotId) :
    recordOf (run pageStep page ops) slotId = some bytes := by
  induction ops generalizing page with
  | nil => exact found
  | cons op ops ih =>
      exact ih (pageStep_refines valid op).1
        (recordOf_pageStep valid found op (untouched op List.mem_cons_self))
        (fun other member => untouched other (List.mem_cons_of_mem _ member))

/-- The bytes `slotted_page_get` returns for a slot id, `none` for an error. -/
def getBytes (page : Page) (slotId : SlotId) : Option (List UInt8) :=
  (pageCall page (.get slotId)).2.bytes

theorem getBytes_eq (page : Page) (slotId : SlotId) : getBytes page slotId = recordOf page slotId := by
  unfold getBytes pageCall
  dsimp only
  rw [slottedPageGet_eq]
  cases recordOf page slotId <;> rfl

/-- The code of an insertion that fits is the number of slots there were. -/
theorem insert_code {page : Page} (valid : ValidPage page) {tuple : TupleData}
    (fits : Fits page tuple.1) :
    (pageCall page (.insert tuple)).2.code = pageHeaderGetNumTuples page :=
  (slottedPageInsert_fits valid.toLayout tuple.2 fits).1

/-- An id once returned is below the number of slots ever after; an error code never is. -/
theorem insert_code_ne {page : Page} (valid : ValidPage page) (earlier : TupleData)
    (after : List PageOp) (tuple : TupleData)
    (fits : Fits (run pageStep (pageStep page (.insert earlier)) after) tuple.1) :
    (pageCall page (.insert earlier)).2.code ≠
      (pageCall (run pageStep (pageStep page (.insert earlier)) after) (.insert tuple)).2.code := by
  have next := (pageStep_refines valid (.insert earlier)).1
  have validNow := validPage_run next after
  have grown := count_le_run next after
  rw [insert_code validNow fits]
  by_cases stored : Fits page earlier.1
  · have count : pageHeaderGetNumTuples (pageStep page (.insert earlier)) =
        pageHeaderGetNumTuples page + 1 :=
      (slottedPageInsert_fits valid.toLayout earlier.2 stored).2.count
    rw [insert_code valid stored]
    omega
  · have := validNow.count_lt
    simp only [pageCall, slottedPageInsert_refused valid.toLayout stored]
    split <;> simp only [ErrorCode.code] <;> omega

/-- What an insertion stored is read back until its slot is updated or deleted. -/
theorem insert_reads {page : Page} (valid : ValidPage page) {tuple : TupleData}
    (fits : Fits page tuple.1) (later : List PageOp)
    (untouched : ∀ op ∈ later, op.target ≠ some (Int32.ofNat (pageHeaderGetNumTuples page))) :
    getBytes (run pageStep (pageStep page (.insert tuple)) later)
      (Int32.ofNat (pageHeaderGetNumTuples page)) = some tuple.1 := by
  have next := (pageStep_refines valid (.insert tuple)).1
  have inserted := (slottedPageInsert_fits valid.toLayout tuple.2 fits).2
  have issued : pageHeaderGetNumTuples page <
      pageHeaderGetNumTuples (pageStep page (.insert tuple)) :=
    Nat.lt_of_lt_of_eq (Nat.lt_succ_self _) inserted.count.symm
  have stored : recordOf (pageStep page (.insert tuple))
      (Int32.ofNat (pageHeaderGetNumTuples page)) = some tuple.1 := by
    rw [recordOf_ofNat next issued]
    exact inserted.stored
  rw [getBytes_eq]
  exact recordOf_run next stored later untouched

/-- Only an update that fits a live slot reports `DB_OK`. -/
theorem update_reads {page : Page} (valid : ValidPage page) (slotId : SlotId)
    (newData : TupleData)
    (ok : (pageCall page (.update slotId newData)).2.code = ErrorCode.ok.code) :
    getBytes (pageStep page (.update slotId newData)) slotId = some newData.1 := by
  have reported : (slottedPageUpdate page slotId newData.1).2 = .ok := ErrorCode.code_injective ok
  cases found : recordOf page slotId with
  | none => exact absurd reported (slottedPageUpdate_refused valid.toLayout (Or.inl found)).2
  | some bytes =>
      by_cases fits : UpdateFits page slotId newData.1
      · have rewritten := (slottedPageUpdate_live valid.toLayout found newData.2 fits).2
        rw [getBytes_eq, recordOf_of_nonneg (nonneg_of_recordOf found)]
        exact rewritten.changed
      · exact absurd reported (slottedPageUpdate_refused valid.toLayout (Or.inr fits)).2

/-- Only a delete of a live slot reports `DB_OK`. -/
theorem delete_reads {page : Page} (valid : ValidPage page) (slotId : SlotId)
    (ok : (pageCall page (.delete slotId)).2.code = ErrorCode.ok.code) :
    getBytes (pageStep page (.delete slotId)) slotId = none := by
  have reported : (slottedPageDelete page slotId).2 = .ok := ErrorCode.code_injective ok
  cases found : recordOf page slotId with
  | none =>
      rw [slottedPageDelete_dead found] at reported
      exact absurd reported (by simp)
  | some bytes =>
      have rewritten := (slottedPageDelete_live valid.toLayout found).2
      rw [getBytes_eq, recordOf_of_nonneg (nonneg_of_recordOf found)]
      exact rewritten.changed

/-- What a slotted page promises over every run starting from `start`. -/
structure SlottedPageContract (start : Page) : Prop where
  /-- The page represents a map on which each call acts as `SlotMap.step` says. -/
  refines : ∀ ops, EachStep pageStep
    (fun page op => slotMapOf (pageStep page op) = (slotMapOf page).step (grants page op) op)
    start ops
  /-- A record that fits gets an id no earlier insertion returned. -/
  insert_fresh : ∀ ops (tuple : TupleData), Fits (run pageStep start ops) tuple.1 →
    ∀ before earlier after, ops = before ++ .insert earlier :: after →
      (pageCall (run pageStep start before) (.insert earlier)).2.code ≠
        (pageCall (run pageStep start ops) (.insert tuple)).2.code
  /-- The id reads back exactly those bytes until its slot is updated or deleted. -/
  insert_reads : ∀ ops (tuple : TupleData), Fits (run pageStep start ops) tuple.1 →
    ∃ slotId : SlotId, (pageCall (run pageStep start ops) (.insert tuple)).2.code = slotId.toInt ∧
      ∀ later, (∀ op ∈ later, op.target ≠ some slotId) →
        getBytes (run pageStep start (ops ++ .insert tuple :: later)) slotId = some tuple.1
  /-- An update that reports `DB_OK` makes the slot read as the new data. -/
  update_reads : ∀ ops slotId (newData : TupleData),
    (pageCall (run pageStep start ops) (.update slotId newData)).2.code = ErrorCode.ok.code →
    getBytes (run pageStep start (ops ++ [.update slotId newData])) slotId = some newData.1
  /-- A delete that reports `DB_OK` makes the slot unreadable. -/
  delete_reads : ∀ ops slotId,
    (pageCall (run pageStep start ops) (.delete slotId)).2.code = ErrorCode.ok.code →
    getBytes (run pageStep start (ops ++ [.delete slotId])) slotId = none
  /-- A call leaves every live slot other than its target as it was. -/
  others_kept : ∀ ops op slotId bytes, getBytes (run pageStep start ops) slotId = some bytes →
    op.target ≠ some slotId → getBytes (run pageStep start (ops ++ [op])) slotId = some bytes
  /-- A call that reports an error leaves every byte as it was. -/
  error_unchanged : ∀ ops op, reportsError (run pageStep start ops) op →
    pageStep (run pageStep start ops) op = run pageStep start ops
  /-- Live tuples are disjoint, lie behind the slot array and inside the page, and
  the header records the free space. -/
  valid : ∀ ops, ValidPage (run pageStep start ops)

/-- A freshly initialised page keeps the whole contract. -/
theorem slottedPage_contract (page : Page) (pageId : PageId) :
    SlottedPageContract (slottedPageInit page pageId) := by
  have start := validPage_init page pageId
  have valid := fun ops => validPage_run start ops
  refine ⟨?refines, ?insert_fresh, ?insert_reads, ?update_reads, ?delete_reads, ?others_kept,
    ?error_unchanged, valid⟩
  case refines =>
    intro ops
    exact @eachStep_of_invariant _ _ pageStep _ ValidPage
      (fun _ op valid => (pageStep_refines valid op).1)
      (fun _ op valid => (pageStep_refines valid op).2) _ ops start
  case insert_fresh =>
    intro ops tuple fits before earlier after shape
    subst shape
    rw [run_append, run_cons] at fits ⊢
    exact insert_code_ne (valid before) earlier after tuple fits
  case insert_reads =>
    intro ops tuple fits
    refine ⟨Int32.ofNat (pageHeaderGetNumTuples (run pageStep (slottedPageInit page pageId) ops)),
      ?_, ?_⟩
    · have := (valid ops).count_lt
      rw [insert_code (valid ops) fits, Int32.toInt_ofNat_of_lt (by omega)]
    · intro later untouched
      rw [run_append, run_cons]
      exact insert_reads (valid ops) fits later untouched
  case update_reads =>
    intro ops slotId newData ok
    rw [run_append]
    exact update_reads (valid ops) slotId newData ok
  case delete_reads =>
    intro ops slotId ok
    rw [run_append]
    exact delete_reads (valid ops) slotId ok
  case others_kept =>
    intro ops op slotId bytes found other
    rw [getBytes_eq] at found ⊢
    rw [run_append]
    exact recordOf_pageStep (valid ops) found op other
  case error_unchanged => exact fun ops op error => pageStep_of_error (valid ops) op error

end MiniSqlite.Storage
