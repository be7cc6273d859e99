import MiniSqlite.Transaction.LockManager
import MiniSqlite.Std.Cycles
import MiniSqlite.Std.Integers

/-!
# The deadlock detector

`transaction/deadlock_detector.c`. The detector keeps one transaction that each
transaction waits for, so a later edge replaces an earlier one. The search is
right about the edges it keeps (`deadlockDetect_spec`); it is right about all
edges added and not removed exactly when the kept ones have a cycle whenever
those do (`detectCorrect_iff`).

Null arguments and allocation failure are left out.
-/

namespace MiniSqlite.Transaction

open MiniSqlite.Common MiniSqlite.Std

/-- `INVALID_TXN_ID`. -/
def invalidTxnId : Int32 := -1

/-- `deadlock_detector_t`. Its hash and equality functions are those of the lock manager. -/
structure DeadlockDetector where
  waitsFor : Hashmap resourceKey Int32

/-- `deadlock_detector_init`. -/
def deadlockDetectorInit : DeadlockDetector := ⟨.hashmapInit resourceKey Int32 16⟩

/-- `deadlock_add_edge`. An existing value is overwritten through its pointer. -/
def deadlockAddEdge (dd : DeadlockDetector) (txnA txnB : Int32) : DeadlockDetector :=
  ⟨dd.waitsFor.hashmapPut txnA txnB⟩

/-- `deadlock_remove_edges`. -/
def deadlockRemoveEdges (dd : DeadlockDetector) (txn : Int32) : DeadlockDetector :=
  ⟨dd.waitsFor.hashmapRemove txn⟩

/-- The inner loop of `deadlock_detect`: `stack` holds the transactions passed,
newest first. The result is the repeated transaction, or `INVALID_TXN_ID`. -/
def detectFrom (dd : DeadlockDetector) : (turns : Nat) → (stack : List Int32) →
    (current : Int32) → Except Fault Int32
  | 0, _, _ => .error .unending
  | turns + 1, stack, current =>
      if current = invalidTxnId then .ok invalidTxnId
      else if current ∈ stack then .ok current
      else detectFrom dd turns (current :: stack)
        ((dd.waitsFor.hashmapGet current).getD invalidTxnId)

/-- The outer loop of `deadlock_detect` over the remaining entries. The inner
loop is given as many turns as there are transaction ids. -/
def detectAny (dd : DeadlockDetector) : List (Int32 × Int32) → Except Fault Int32
  | [] => .ok invalidTxnId
  | (start, _) :: rest => do
      let victim ← detectFrom dd 4294967296 [] start
      if victim = invalidTxnId then detectAny dd rest else .ok victim

/-- `deadlock_detect`. -/
def deadlockDetect (dd : DeadlockDetector) : Except Fault Int32 :=
  detectAny dd (dd.waitsFor.drain (dd.waitsFor.size + 1) Hashmap.iterInit)

/-! ## The search -/

/-- The detector keeps the edge from `txnA` to `txnB`. -/
def DeadlockDetector.keeps (dd : DeadlockDetector) (txnA txnB : Int32) : Prop :=
  dd.waitsFor.hashmapGet txnA = some txnB

theorem keeps_addEdge (dd : DeadlockDetector) (txnA txnB txn other : Int32) :
    (deadlockAddEdge dd txnA txnB).keeps txn other ↔
      if txnA = txn then txnB = other else dd.keeps txn other := by
  simp only [DeadlockDetector.keeps, deadlockAddEdge]
  rw [Hashmap.hashmapGet_put]
  by_cases same : txnA = txn <;> simp [resourceKey, same]

theorem keeps_removeEdges (dd : DeadlockDetector) (gone txn other : Int32) :
    (deadlockRemoveEdges dd gone).keeps txn other ↔ gone ≠ txn ∧ dd.keeps txn other := by
  simp only [DeadlockDetector.keeps, deadlockRemoveEdges]
  rw [Hashmap.hashmapGet_remove]
  by_cases same : gone = txn <;> simp [resourceKey, same]

/-- No kept edge leads to `INVALID_TXN_ID`, which would end the search. -/
def DeadlockDetector.Valid (dd : DeadlockDetector) : Prop :=
  ∀ txnA txnB, dd.keeps txnA txnB → txnA ≠ invalidTxnId ∧ txnB ≠ invalidTxnId

theorem DeadlockDetector.keeps_functional (dd : DeadlockDetector) :
    ∀ txn first second, dd.keeps txn first → dd.keeps txn second → first = second := by
  intro txn first second keepsFirst keepsSecond
  exact Option.some.inj (keepsFirst.symm.trans keepsSecond)

/-- What a search that started at `start` says when it is over. -/
structure DetectedFrom (dd : DeadlockDetector) (start victim : Int32) : Prop where
  cycle : victim ≠ invalidTxnId → OnCycle dd.keeps victim
  none : victim = invalidTxnId → ¬ OnCycle dd.keeps start

theorem detectFrom_spec {dd : DeadlockDetector} (valid : dd.Valid) (start : Int32)
    {current : Int32} {stack : List Int32} (turns : Nat) (enough : 4294967296 ≤ turns + stack.length)
    (proper : invalidTxnId ∉ stack) (walk : current ≠ invalidTxnId → Walk dd.keeps start stack current)
    (stopped : current = invalidTxnId → stack.Nodup ∧ ¬ OnCycle dd.keeps start) :
    ∃ victim, detectFrom dd turns stack current = .ok victim ∧ DetectedFrom dd start victim := by
  induction turns generalizing stack current with
  | zero =>
      have nodup : stack.Nodup := by
        by_cases ended : current = invalidTxnId
        · exact (stopped ended).1
        · exact (walk ended).nodup
      have short := length_lt_of_missing invalidTxnId nodup proper
      omega
  | succ turns ih =>
      unfold detectFrom
      split
      next ended => exact ⟨invalidTxnId, rfl, fun wrong => absurd rfl wrong, fun _ => (stopped ended).2⟩
      next going =>
        split
        next seen =>
          exact ⟨current, rfl, fun _ => (walk going).repeats seen, fun wrong => absurd wrong going⟩
        next unseen =>
          have walked := walk going
          refine ih (by simp only [List.length_cons]; omega) (by simp [proper, Ne.symm going]) ?_ ?_
          · intro proceeds
            cases found : dd.waitsFor.hashmapGet current with
            | none => simp [found] at proceeds
            | some next => exact walked.next dd.keeps_functional unseen found
          · intro stops
            refine ⟨List.nodup_cons.mpr ⟨unseen, walked.nodup⟩, walked.ends ?_⟩
            intro next step
            have found : dd.waitsFor.hashmapGet current = some next := step
            rw [found] at stops
            exact (valid current next step).2 stops

theorem detectAny_spec {dd : DeadlockDetector} (valid : dd.Valid) (entries : List (Int32 × Int32))
    (proper : ∀ entry ∈ entries, entry.1 ≠ invalidTxnId) :
    ∃ victim, detectAny dd entries = .ok victim ∧
      (victim ≠ invalidTxnId → OnCycle dd.keeps victim) ∧
      (victim = invalidTxnId → ∀ entry ∈ entries, ¬ OnCycle dd.keeps entry.1) := by
  induction entries with
  | nil => exact ⟨invalidTxnId, rfl, fun wrong => absurd rfl wrong, by simp⟩
  | cons entry rest ih =>
      obtain ⟨start, _⟩ := entry
      have startProper : start ≠ invalidTxnId := proper _ List.mem_cons_self
      obtain ⟨victim, found, detected⟩ := detectFrom_spec valid start 4294967296
        (by simp) List.not_mem_nil (fun _ => .start _ _) (fun wrong => absurd wrong startProper)
      simp only [detectAny, found, bind, Except.bind]
      by_cases clear : victim = invalidTxnId
      · obtain ⟨later, foundLater, onCycle, noneLater⟩ :=
          ih fun entry member => proper entry (List.mem_cons_of_mem _ member)
        refine ⟨later, by simpa [clear] using foundLater, onCycle, ?_⟩
        intro nothing entry member
        rcases List.mem_cons.mp member with rfl | inRest
        · exact detected.none clear
        · exact noneLater nothing entry inRest
      · exact ⟨victim, by simp [clear], detected.cycle, fun wrong => absurd wrong clear⟩

/-- The search ends; its victim is on a cycle of the kept edges, and there is one
whenever these have a cycle. -/
theorem deadlockDetect_spec {dd : DeadlockDetector} (valid : dd.Valid) :
    ∃ victim, deadlockDetect dd = .ok victim ∧
      (victim ≠ invalidTxnId → OnCycle dd.keeps victim) ∧
      (victim = invalidTxnId → ¬ Cyclic dd.keeps) := by
  have proper : ∀ entry ∈ dd.waitsFor.entries, entry.1 ≠ invalidTxnId := fun entry member =>
    (valid entry.1 entry.2 (Hashmap.hashmapGet_of_mem member)).1
  obtain ⟨victim, found, onCycle, clear⟩ := detectAny_spec valid _ proper
  refine ⟨victim, by rwa [deadlockDetect, Hashmap.drain_eq_entries], onCycle, ?_⟩
  rintro nothing ⟨txn, cycle⟩
  obtain ⟨next, step⟩ := cycle.exists_edge
  obtain ⟨entry, member, same, -⟩ := Hashmap.exists_mem_of_hashmapGet step
  have same : entry.1 = txn := by simpa [resourceKey] using same
  exact clear nothing entry member (same ▸ cycle)

/-! ## Sessions -/

/-- A call on the detector. -/
inductive DetectorCall where
  | addEdge (txnA txnB : Int32)
  | removeEdges (txn : Int32)
  deriving DecidableEq, Repr

/-- The transaction ids of a call are valid ones. -/
def DetectorCall.Valid : DetectorCall → Prop
  | .addEdge txnA txnB => txnA ≠ invalidTxnId ∧ txnB ≠ invalidTxnId
  | .removeEdges txn => txn ≠ invalidTxnId

instance : DecidablePred DetectorCall.Valid := fun call =>
  match call with
  | .addEdge _ _ => inferInstanceAs (Decidable (_ ∧ _))
  | .removeEdges _ => inferInstanceAs (Decidable (_ ≠ _))

/-- A detector, and the edges added to it and not since removed, newest first. -/
structure WaitSession where
  detector : DeadlockDetector
  edges : List (Int32 × Int32)

namespace WaitSession

/-- A fresh detector. -/
def start : WaitSession := ⟨deadlockDetectorInit, []⟩

/-- A session after one more call. -/
def step (session : WaitSession) : DetectorCall → WaitSession
  | .addEdge txnA txnB =>
      ⟨deadlockAddEdge session.detector txnA txnB, (txnA, txnB) :: session.edges⟩
  | .removeEdges txn =>
      ⟨deadlockRemoveEdges session.detector txn, session.edges.filter fun edge => edge.1 ≠ txn⟩

/-- `txnA` waits for `txnB`: the edge was added and not removed since. -/
def waitsFor (session : WaitSession) (txnA txnB : Int32) : Prop := (txnA, txnB) ∈ session.edges

/-- Of the transactions that `txnA` waits for, `txnB` is the one added last. -/
def waitsLastFor (session : WaitSession) (txnA txnB : Int32) : Prop :=
  (session.edges.find? fun edge => edge.1 = txnA) = some (txnA, txnB)

/-- The detector keeps the last edge of each transaction, and all ids are valid. -/
structure Sound (session : WaitSession) : Prop where
  keeps : ∀ txnA txnB, session.detector.keeps txnA txnB ↔ session.waitsLastFor txnA txnB
  valid : ∀ edge ∈ session.edges, edge.1 ≠ invalidTxnId ∧ edge.2 ≠ invalidTxnId

theorem waitsFor_of_waitsLastFor {session : WaitSession} {txnA txnB : Int32}
    (last : session.waitsLastFor txnA txnB) : session.waitsFor txnA txnB :=
  List.mem_of_find?_eq_some last

theorem waitsLastFor_addEdge (session : WaitSession) (txnA txnB txn other : Int32) :
    (session.step (.addEdge txnA txnB)).waitsLastFor txn other ↔
      if txnA = txn then txnB = other else session.waitsLastFor txn other := by
  by_cases same : txnA = txn <;> simp [step, waitsLastFor, same]

theorem waitsLastFor_removeEdges (session : WaitSession) (gone txn other : Int32) :
    (session.step (.removeEdges gone)).waitsLastFor txn other ↔
      gone ≠ txn ∧ session.waitsLastFor txn other := by
  simp only [step, waitsLastFor, List.find?_filter]
  by_cases same : gone = txn
  · refine iff_of_false (fun found => ?_) (fun both => both.1 same)
    simpa [same] using List.find?_some found
  · have unchanged : (fun edge : Int32 × Int32 =>
        decide (decide (edge.1 ≠ gone) = true ∧ decide (edge.1 = txn) = true)) =
          fun edge => decide (edge.1 = txn) := by
      ext edge
      by_cases leaves : edge.1 = txn <;> simp [leaves, Ne.symm same]
    rw [unchanged]
    simp [same]

theorem Sound.start : Sound start where
  keeps := by
    intro txnA txnB
    simp [WaitSession.start, waitsLastFor, DeadlockDetector.keeps, deadlockDetectorInit]
  valid := by simp [WaitSession.start]

theorem Sound.addEdge {session : WaitSession} (sound : session.Sound) {txnA txnB : Int32}
    (proper : txnA ≠ invalidTxnId ∧ txnB ≠ invalidTxnId) :
    (session.step (.addEdge txnA txnB)).Sound where
  keeps := by
    intro txn other
    rw [waitsLastFor_addEdge, ← sound.keeps]
    exact keeps_addEdge session.detector txnA txnB txn other
  valid := by
    intro edge member
    rcases List.mem_cons.mp member with rfl | earlier
    · exact proper
    · exact sound.valid edge earlier

theorem Sound.removeEdges {session : WaitSession} (sound : session.Sound) (gone : Int32) :
    (session.step (.removeEdges gone)).Sound where
  keeps := by
    intro txn other
    rw [waitsLastFor_removeEdges, ← sound.keeps]
    exact keeps_removeEdges session.detector gone txn other
  valid := fun edge member => sound.valid edge (List.mem_of_mem_filter member)

theorem Sound.step {session : WaitSession} (sound : session.Sound) {call : DetectorCall}
    (proper : call.Valid) : (session.step call).Sound := by
  cases call with
  | addEdge txnA txnB => exact sound.addEdge proper
  | removeEdges txn => exact sound.removeEdges txn

/-- The detector of a sound session is given valid ids only. -/
theorem Sound.detector_valid {session : WaitSession} (sound : session.Sound) :
    session.detector.Valid := by
  intro txnA txnB kept
  exact sound.valid _ (waitsFor_of_waitsLastFor ((sound.keeps txnA txnB).mp kept))

end WaitSession

/-- `deadlock_detect` ends, with a victim exactly when `edge` has a cycle, and then
with one that lies on a cycle. -/
def DetectCorrect (dd : DeadlockDetector) (edge : Int32 → Int32 → Prop) : Prop :=
  ∃ victim, deadlockDetect dd = .ok victim ∧ (victim ≠ invalidTxnId ↔ Cyclic edge) ∧
    (victim ≠ invalidTxnId → OnCycle edge victim)

theorem WaitSession.Sound.run {calls : List DetectorCall} (proper : ∀ call ∈ calls, call.Valid)
    {session : WaitSession} (sound : session.Sound) :
    (run WaitSession.step session calls).Sound := by
  induction calls generalizing session with
  | nil => exact sound
  | cons call calls ih =>
      exact ih (fun later member => proper later (List.mem_cons_of_mem _ member))
        (sound.step (proper call List.mem_cons_self))

theorem WaitSession.Sound.detectCorrect_iff {session : WaitSession} (sound : session.Sound) :
    DetectCorrect session.detector session.waitsFor ↔
      (Cyclic session.waitsFor → Cyclic session.waitsLastFor) := by
  obtain ⟨victim, found, onCycle, clear⟩ := deadlockDetect_spec sound.detector_valid
  have kept : session.detector.keeps = session.waitsLastFor := by
    ext txnA txnB
    exact sound.keeps txnA txnB
  rw [kept] at onCycle clear
  have widened : victim ≠ invalidTxnId → OnCycle session.waitsFor victim := fun chosen =>
    (onCycle chosen).mono fun _ _ => waitsFor_of_waitsLastFor
  constructor
  · rintro ⟨other, foundOther, exact_, -⟩ cyclic
    obtain rfl : victim = other := Except.ok.inj (found.symm.trans foundOther)
    exact ⟨victim, onCycle (exact_.mpr cyclic)⟩
  · intro enough
    refine ⟨victim, found, ⟨fun chosen => ⟨victim, widened chosen⟩, ?_⟩, widened⟩
    intro cyclic nothing
    exact clear nothing (enough cyclic)

/-- Where every transaction waits for at most one other, the detector is right. -/
theorem WaitSession.Sound.detectCorrect_of_single {session : WaitSession} (sound : session.Sound)
    (single : ∀ txn first second, session.waitsFor txn first → session.waitsFor txn second →
      first = second) : DetectCorrect session.detector session.waitsFor := by
  rw [sound.detectCorrect_iff]
  rintro ⟨txn, cycle⟩
  refine ⟨txn, cycle.mono fun first second waits => ?_⟩
  cases last : session.edges.find? fun edge => edge.1 = first with
  | none => simpa using List.find?_eq_none.mp last _ waits
  | some edge =>
      obtain rfl : edge.1 = first := by simpa using List.find?_some last
      have newest : session.waitsLastFor edge.1 edge.2 := last
      obtain rfl := single _ _ _ waits (waitsFor_of_waitsLastFor newest)
      exact newest

/-- After any calls with valid transaction ids the search ends. Its answer is right
about all edges added and not since removed exactly when these have no cycle or
the newest edge of each transaction already closes one. -/
theorem detectCorrect_iff_newest_cyclic (calls : List DetectorCall)
    (proper : ∀ call ∈ calls, call.Valid) :
    let session := run WaitSession.step .start calls
    DetectCorrect session.detector session.waitsFor ↔
      (Cyclic session.waitsFor → Cyclic session.waitsLastFor) :=
  (WaitSession.Sound.start.run proper).detectCorrect_iff

/-- Transactions 1 and 2 wait for each other, and 1 for 3 as well. -/
def twoHolders : List DetectorCall := [.addEdge 1 2, .addEdge 2 1, .addEdge 1 3]

theorem twoHolders_cyclic : Cyclic (run WaitSession.step .start twoHolders).waitsFor :=
  ⟨1, .tail (.single (show (1, 2) ∈ [(1, 3), (2, 1), (1, 2)] by decide))
    (show (2, 1) ∈ [(1, 3), (2, 1), (1, 2)] by decide)⟩

/-- The detector has forgotten that 1 waits for 2, and reports no deadlock. -/
theorem second_edge_hides_cycle : (∀ call ∈ twoHolders, call.Valid) ∧
    Cyclic (run WaitSession.step .start twoHolders).waitsFor ∧
    deadlockDetect (run WaitSession.step .start twoHolders).detector = .ok invalidTxnId ∧
    ¬ DetectCorrect (run WaitSession.step .start twoHolders).detector
      (run WaitSession.step .start twoHolders).waitsFor := by
  have silent : deadlockDetect (run WaitSession.step .start twoHolders).detector =
      .ok invalidTxnId := by decide +kernel
  refine ⟨by decide, twoHolders_cyclic, silent, ?_⟩
  rintro ⟨victim, found, detects, -⟩
  obtain rfl : invalidTxnId = victim := Except.ok.inj (silent.symm.trans found)
  exact detects.mpr twoHolders_cyclic rfl

/-- The theorem at the calls that make the detector miss a cycle. -/
theorem detectCorrect_iff_newest_cyclic_twoHolders :
    let session := run WaitSession.step .start twoHolders
    DetectCorrect session.detector session.waitsFor ↔
      (Cyclic session.waitsFor → Cyclic session.waitsLastFor) :=
  detectCorrect_iff_newest_cyclic twoHolders (by decide)

end MiniSqlite.Transaction
