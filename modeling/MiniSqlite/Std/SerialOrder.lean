import Mathlib.Data.List.Dedup
import Mathlib.Logic.Function.Conjugate

/-!
# Interleavings with a serial order

Actions of several agents on one state, in the order in which they happen. As long as the
actions of agents that have not finished commute, one may pretend that an agent that finishes has
acted alone, behind those that finished before it. `InOrder` is kept by each action and each
finish, and `InOrder.serial` reads the serial order off it. `Memory` is a state that agents read
and write; there two actions commute unless they conflict.
-/

namespace MiniSqlite.Std

section Actions

variable {τ α σ : Type} [DecidableEq τ]

/-- The state after actions of agents. -/
def perform (act : τ × α → σ → σ) (items : List (τ × α)) (state : σ) : σ :=
  items.foldl (fun state item => act item state) state

/-- The actions of one agent. -/
def actionsOf (agent : τ) (items : List (τ × α)) : List (τ × α) :=
  items.filter fun item => decide (item.1 = agent)

/-- The actions of agents that have not finished. -/
def unfinished (ended : List τ) (items : List (τ × α)) : List (τ × α) :=
  items.filter fun item => decide (item.1 ∉ ended)

/-- The actions of the agents in a list, one agent after the other. -/
def oneByOne (agents : List τ) (items : List (τ × α)) : List (τ × α) :=
  agents.flatMap fun agent => actionsOf agent items

variable {act : τ × α → σ → σ} {items : List (τ × α)} {ended : List τ}

omit [DecidableEq τ] in
theorem perform_append (first second : List (τ × α)) (state : σ) :
    perform act (first ++ second) state = perform act second (perform act first state) :=
  List.foldl_append

omit [DecidableEq τ] in
/-- An action that commutes with others may be taken behind them. -/
theorem perform_commute {item : τ × α}
    (commutes : ∀ other ∈ items, Function.Commute (act item) (act other)) (state : σ) :
    perform act items (act item state) = act item (perform act items state) := by
  induction items generalizing state with
  | nil => rfl
  | cons other rest ih =>
      have swap := commutes other List.mem_cons_self
      show perform act rest (act other (act item state)) = act item (perform act rest (act other state))
      rw [← swap state]
      exact ih (fun other member => commutes other (List.mem_cons_of_mem _ member)) _

omit [DecidableEq τ] in
/-- The actions of a kind may be taken first, if the others in front of them commute with them. -/
theorem perform_partition (kind : τ × α → Bool)
    (commutes : items.Pairwise fun first second => kind first = false → kind second = true →
      Function.Commute (act first) (act second)) (state : σ) :
    perform act items state =
      perform act (items.filter kind ++ items.filter fun item => !kind item) state := by
  induction items generalizing state with
  | nil => rfl
  | cons item rest ih =>
      obtain ⟨here, later⟩ := List.pairwise_cons.mp commutes
      show perform act rest (act item state) = _
      rw [ih later]
      cases ofKind : kind item with
      | true =>
          rw [List.filter_cons_of_pos ofKind, List.filter_cons_of_neg (by simp [ofKind])]
          rfl
      | false =>
          rw [List.filter_cons_of_neg (by simp [ofKind]), List.filter_cons_of_pos (by simp [ofKind]),
            perform_append, perform_append, perform_commute]
          · rfl
          · intro other member
            obtain ⟨stands, otherKind⟩ := List.mem_filter.mp member
            exact here other stands ofKind otherKind

theorem actionsOf_concat_ne {agent : τ} {item : τ × α} (differ : item.1 ≠ agent) :
    actionsOf agent (items ++ [item]) = actionsOf agent items := by
  simp [actionsOf, differ]

theorem actionsOf_unfinished {agent : τ} (goes : agent ∉ ended) :
    actionsOf agent (unfinished ended items) = actionsOf agent items := by
  rw [actionsOf, actionsOf, unfinished, List.filter_filter]
  apply List.filter_congr
  intro item _
  by_cases own : item.1 = agent
  · simp [own, goes]
  · simp [own]

theorem unfinished_concat {agent : τ} :
    unfinished (ended ++ [agent]) items =
      (unfinished ended items).filter fun item => !decide (item.1 = agent) := by
  rw [unfinished, unfinished, List.filter_filter]
  apply List.filter_congr
  intro item _
  by_cases own : item.1 = agent <;> simp [own]

theorem oneByOne_concat (agents : List τ) (agent : τ) :
    oneByOne (agents ++ [agent]) items = oneByOne agents items ++ actionsOf agent items := by
  simp [oneByOne]

/-- The actions have the outcome that they have when the agents that have finished act one after
the other, and then the rest; and of these, those of different agents commute. -/
structure InOrder (act : τ × α → σ → σ) (ended : List τ) (items : List (τ × α)) : Prop where
  nodup : ended.Nodup
  outcome : ∀ state, perform act items state =
    perform act (oneByOne ended items ++ unfinished ended items) state
  free : (unfinished ended items).Pairwise fun first second =>
    first.1 ≠ second.1 → Function.Commute (act first) (act second)

theorem InOrder.nil : InOrder act ([] : List τ) ([] : List (τ × α)) :=
  ⟨List.nodup_nil, fun _ => rfl, List.Pairwise.nil⟩

/-- An agent that has not finished may act if this commutes with what other such agents did. -/
theorem InOrder.action (inOrder : InOrder act ended items) {item : τ × α} (goes : item.1 ∉ ended)
    (commutes : ∀ other ∈ unfinished ended items, other.1 ≠ item.1 →
      Function.Commute (act other) (act item)) :
    InOrder act ended (items ++ [item]) := by
  have front : oneByOne ended (items ++ [item]) = oneByOne ended items := by
    rw [oneByOne, oneByOne, List.flatMap_def, List.flatMap_def]
    refine congrArg List.flatten (List.map_congr_left fun agent member => ?_)
    exact actionsOf_concat_ne fun same => goes (same ▸ member)
  have back : unfinished ended (items ++ [item]) = unfinished ended items ++ [item] := by
    simp [unfinished, goes]
  refine ⟨inOrder.nodup, fun state => ?_, ?_⟩
  · rw [front, back, ← List.append_assoc, perform_append, perform_append _ [item],
      inOrder.outcome]
  · rw [back]
    refine List.pairwise_append.mpr ⟨inOrder.free, List.pairwise_singleton _ _, ?_⟩
    intro other member last isLast differ
    obtain rfl := List.mem_singleton.mp isLast
    exact commutes other member differ

/-- An agent that finishes comes behind those that have finished before. -/
theorem InOrder.finish (inOrder : InOrder act ended items) {agent : τ} (goes : agent ∉ ended) :
    InOrder act (ended ++ [agent]) items := by
  refine ⟨?_, fun state => ?_, ?_⟩
  · rw [List.nodup_append]
    refine ⟨inOrder.nodup, List.nodup_singleton _, fun other member last isLast same => ?_⟩
    exact goes (List.mem_singleton.mp isLast ▸ same ▸ member)
  · rw [inOrder.outcome, oneByOne_concat, unfinished_concat, perform_append, List.append_assoc,
      perform_append, ← actionsOf_unfinished goes]
    apply perform_partition
    apply inOrder.free.imp
    intro first second commutes foreign own
    apply commutes
    rw [of_decide_eq_true own]
    exact of_decide_eq_false foreign
  · rw [unfinished_concat]
    exact inOrder.free.sublist List.filter_sublist

end Actions

/-! ## Reading and writing -/

/-- What an agent does to a place: it reads the value, or writes one that may depend on the values
it has read. -/
inductive Access (ν : Type) where
  | read
  | write (value : List ν → ν)

/-- The values of places, and what each agent has read of them, the last first. -/
structure Memory (τ ρ ν : Type) where
  store : ρ → ν
  seen : τ → List ν

section Memory

variable {τ ρ ν : Type} [DecidableEq τ] [DecidableEq ρ]

def Memory.access (item : τ × ρ × Access ν) (memory : Memory τ ρ ν) : Memory τ ρ ν :=
  match item.2.2 with
  | .read =>
      { memory with
        seen := Function.update memory.seen item.1
          (memory.store item.2.1 :: memory.seen item.1) }
  | .write value =>
      { memory with store := Function.update memory.store item.2.1 (value (memory.seen item.1)) }

def Access.isWrite : Access ν → Prop
  | .read => False
  | .write _ => True

/-- Two accesses to one place conflict unless both only read. -/
def Conflicts (first second : τ × ρ × Access ν) : Prop :=
  first.2.1 = second.2.1 ∧ (first.2.2.isWrite ∨ second.2.2.isWrite)

/-- Accesses of different agents commute unless they conflict. -/
theorem Memory.access_commute {first second : τ × ρ × Access ν} (differ : first.1 ≠ second.1)
    (apart : ¬Conflicts first second) :
    Function.Commute (Memory.access first) (Memory.access second) := by
  obtain ⟨agent, place, access⟩ := first
  obtain ⟨other, target, otherAccess⟩ := second
  have agents : agent ≠ other := differ
  intro memory
  cases access with
  | read =>
      cases otherAccess with
      | read =>
          simp only [Memory.access, Memory.mk.injEq, true_and]
          rw [Function.update_comm agents.symm]
          simp [Function.update_of_ne, agents, agents.symm]
      | write value =>
          have places : place ≠ target := fun same => apart ⟨same, .inr trivial⟩
          simp [Memory.access, agents.symm, places]
  | write value =>
      have places : place ≠ target := fun same => apart ⟨same, .inl trivial⟩
      cases otherAccess with
      | read => simp [Memory.access, agents, places.symm]
      | write other =>
          simp only [Memory.access, Memory.mk.injEq, and_true]
          rw [Function.update_comm places.symm]

end Memory

end MiniSqlite.Std
