import MiniSqlite.Buffer.LruReplacer
import MiniSqlite.Std.Run

/-!
# The LRU-2 replacer as two queues

What the replacer is for needs no entries and no links: two queues of frames, most
recent first. A run of the replacer answers as the run of the queues does, and its
lists, its map and its counters hold the frames of the queues.
-/

namespace MiniSqlite.Buffer

open MiniSqlite.Common MiniSqlite.Std

/-- The frames used once and the frames used again, most recent first. -/
structure LruQueues where
  cold : List FrameId
  hot : List FrameId

/-- The queues without a frame. -/
def LruQueues.drop (queues : LruQueues) (frame : FrameId) : LruQueues :=
  ⟨queues.cold.erase frame, queues.hot.erase frame⟩

/-- The queues after a use of a frame. -/
def LruQueues.use (queues : LruQueues) (frame : FrameId) : LruQueues :=
  if frame ∈ queues.cold ++ queues.hot then
    ⟨queues.cold.erase frame, frame :: queues.hot.erase frame⟩
  else ⟨frame :: queues.cold, queues.hot⟩

/-- A call on the replacer. -/
inductive LruCall where
  | victim
  | pin (frame : FrameId)
  | unpin (frame : FrameId)

/-- The call, with the frame that `lru_replacer_victim` writes if it does not fail. -/
def lruCall (replacer : LruReplacer) : LruCall → Except Fault (LruReplacer × Option FrameId)
  | .victim => lruReplacerVictim replacer
  | .pin frame => do return (← lruReplacerPin replacer frame, none)
  | .unpin frame => do return (← lruReplacerUnpin replacer frame, none)

/-- The call on the queues. -/
def queuesCall (queues : LruQueues) : LruCall → LruQueues × Option FrameId
  | .victim =>
      match lruVictim queues.cold queues.hot with
      | some frame => (queues.drop frame, some frame)
      | none => (queues, none)
  | .pin frame => (queues.drop frame, none)
  | .unpin frame => (queues.use frame, none)

/-- The replacer holds the frames of the queues. -/
def HoldsQueues (replacer : LruReplacer) (queues : LruQueues) : Prop :=
  LruHolds replacer queues.cold queues.hot

theorem lruReplacerUnpin_uses {replacer : LruReplacer} {queues : LruQueues}
    (holds : HoldsQueues replacer queues) (frame : FrameId) :
    ∃ after, lruReplacerUnpin replacer frame = .ok after ∧ HoldsQueues after (queues.use frame) := by
  unfold LruQueues.use
  by_cases member : frame ∈ queues.cold ++ queues.hot
  · rw [if_pos member]
    exact lruReplacerUnpin_again holds member
  · rw [if_neg member]
    exact lruReplacerUnpin_first holds member

/-- Each call succeeds and answers as on the queues. -/
theorem lruCall_refines (replacer : LruReplacer) (queues : LruQueues) (call : LruCall)
    (holds : HoldsQueues replacer queues) :
    ∃ after, lruCall replacer call = .ok (after, (queuesCall queues call).2) ∧
      HoldsQueues after (queuesCall queues call).1 := by
  cases call with
  | victim =>
      obtain ⟨after, taken, evicts, keeps⟩ := lruReplacerVictim_holds holds
      unfold lruCall queuesCall
      cases victim : lruVictim queues.cold queues.hot with
      | some frame =>
          rw [victim] at taken
          exact ⟨after, taken, evicts frame victim⟩
      | none =>
          rw [victim] at taken
          rw [keeps victim] at taken
          exact ⟨replacer, taken, holds⟩
  | pin frame =>
      obtain ⟨after, pinned, held⟩ := lruReplacerPin_holds holds frame
      refine ⟨after, ?_, held⟩
      rw [lruCall, pinned]
      rfl
  | unpin frame =>
      obtain ⟨after, unpinned, held⟩ := lruReplacerUnpin_uses holds frame
      refine ⟨after, ?_, held⟩
      rw [lruCall, unpinned]
      rfl

/-- Whatever the calls, the replacer answers as the queues and holds their frames. -/
theorem lruReplacer_refines (capacity : Nat) (calls : List LruCall) :
    ∃ replacer, executeAnswers lruCall (lruReplacerInit capacity) calls =
        .ok (replacer, (runAnswers queuesCall ⟨[], []⟩ calls).2) ∧
      HoldsQueues replacer (runAnswers queuesCall ⟨[], []⟩ calls).1 := by
  have initial : HoldsQueues (lruReplacerInit capacity) ⟨[], []⟩ := lruReplacerInit_holds capacity
  exact executeAnswers_refines lruCall_refines initial calls

example : (runAnswers queuesCall ⟨[], []⟩
    [.unpin 1, .unpin 2, .unpin 3, .unpin 1, .pin 2, .victim, .victim, .victim]).2 =
      [none, none, none, none, none, some 3, some 1, none] := by
  decide

end MiniSqlite.Buffer
