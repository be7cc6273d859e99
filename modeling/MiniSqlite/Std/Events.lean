import Mathlib.Data.List.Basic

/-!
# Event streams

What a source gives when it is pulled to its end: items, the notes it makes on
the way, and the fault that cuts it short if there is one. Nothing behind a fault
is ever reached, and nothing behind an item before the next pull. Each way to
combine sources (mapping, folding, dropping, taking) comes with the lemma that
says what one pull from the combination does.
-/

namespace MiniSqlite.Std

variable {ε ν α β Acc : Type}

/-- One event of a source. -/
inductive Event (ε ν α : Type) where
  | item (value : α)
  | note (entry : ν)
  | fault (error : ε)

namespace Event

/-- The next item with what comes behind it, and the notes made up to there. -/
def pull : List (Event ε ν α) → List ν → Except ε (Option (α × List (Event ε ν α)) × List ν)
  | [], log => .ok (none, log)
  | .item value :: rest, log => .ok (some (value, rest), log)
  | .note entry :: rest, log => pull rest (log ++ [entry])
  | .fault error :: _, _ => .error error

/-- The events of a computation that gives a list of items and makes notes. -/
def ofCall : Except ε (List α × List ν) → List (Event ε ν α)
  | .error error => [.fault error]
  | .ok (items, notes) => notes.map .note ++ items.map .item

/-- Each item replaced by events. -/
def bindItems (events : List (Event ε ν α)) (replace : α → List (Event ε ν β)) :
    List (Event ε ν β) :=
  events.flatMap fun
    | .item value => replace value
    | .note entry => [.note entry]
    | .fault error => [.fault error]

/-- All items folded into an accumulator, and the notes made. -/
def drain (step : Acc → α → Except ε (Acc × List ν)) :
    Acc → List (Event ε ν α) → List ν → Except ε (Acc × List ν)
  | acc, [], log => .ok (acc, log)
  | acc, .item value :: rest, log => do
      let (acc, notes) ← step acc value
      drain step acc rest (log ++ notes)
  | acc, .note entry :: rest, log => drain step acc rest (log ++ [entry])
  | _, .fault error :: _, _ => .error error

/-- The events of a source that first folds all items of another one. -/
def fold (step : Acc → α → Except ε (Acc × List ν)) (finish : Acc → List (Event ε ν β)) :
    Acc → List (Event ε ν α) → List (Event ε ν β)
  | acc, [] => finish acc
  | acc, .item value :: rest =>
      match step acc value with
      | .error error => [.fault error]
      | .ok (acc, notes) => notes.map .note ++ fold step finish acc rest
  | acc, .note entry :: rest => .note entry :: fold step finish acc rest
  | _, .fault error :: _ => [.fault error]

/-- The events without the first items; the notes made for them stay. -/
def dropItems : Nat → List (Event ε ν α) → List (Event ε ν α)
  | 0, events => events
  | _ + 1, [] => []
  | count + 1, .item _ :: rest => dropItems count rest
  | count + 1, .note entry :: rest => .note entry :: dropItems (count + 1) rest
  | _ + 1, .fault error :: _ => [.fault error]

/-- The events up to the last of the first items. -/
def takeItems : Nat → List (Event ε ν α) → List (Event ε ν α)
  | 0, _ => []
  | _ + 1, [] => []
  | count + 1, .item value :: rest => .item value :: takeItems count rest
  | count + 1, .note entry :: rest => .note entry :: takeItems (count + 1) rest
  | _ + 1, .fault error :: _ => [.fault error]

/-! ## Pulling -/

@[simp] theorem pull_nil (log : List ν) :
    pull ([] : List (Event ε ν α)) log = .ok (none, log) := rfl

@[simp] theorem pull_item (value : α) (rest : List (Event ε ν α)) (log : List ν) :
    pull (.item value :: rest) log = .ok (some (value, rest), log) := rfl

@[simp] theorem pull_fault (error : ε) (rest : List (Event ε ν α)) (log : List ν) :
    pull (.fault error :: rest) log = .error error := rfl

theorem pull_notes (notes : List ν) (events : List (Event ε ν α)) (log : List ν) :
    pull (notes.map .note ++ events) log = pull events (log ++ notes) := by
  induction notes generalizing log with
  | nil => simp
  | cons entry notes ih => simp [pull, ih]

/-- A pull leaves fewer events. -/
theorem length_of_pull {events rest : List (Event ε ν α)} {log log' : List ν} {value : α}
    (pulled : pull events log = .ok (some (value, rest), log')) :
    rest.length < events.length := by
  induction events generalizing log with
  | nil => simp at pulled
  | cons event events ih =>
      cases event with
      | item first =>
          simp only [pull_item, Except.ok.injEq, Prod.mk.injEq, Option.some.injEq] at pulled
          rw [← pulled.1.2]
          exact Nat.lt_succ_self _
      | note entry => exact Nat.lt_succ_of_lt (ih pulled)
      | fault error => simp at pulled

@[simp] theorem bindItems_nil (replace : α → List (Event ε ν β)) : bindItems [] replace = [] := rfl

@[simp] theorem bindItems_item (value : α) (rest : List (Event ε ν α))
    (replace : α → List (Event ε ν β)) :
    bindItems (.item value :: rest) replace = replace value ++ bindItems rest replace := rfl

/-- A pull from replaced items pulls from the original and from what replaces it. -/
theorem pull_bindItems (events : List (Event ε ν α)) (replace : α → List (Event ε ν β))
    (log : List ν) :
    pull (bindItems events replace) log =
      (pull events log >>= fun pulled =>
        match pulled with
        | (none, log) => .ok (none, log)
        | (some (value, rest), log) => pull (replace value ++ bindItems rest replace) log) := by
  induction events generalizing log with
  | nil => rfl
  | cons event events ih =>
      cases event with
      | item value => rfl
      | note entry => exact ih (log ++ [entry])
      | fault error => rfl

/-- A pull from the events of a computation and what follows. -/
theorem pull_ofCall (call : Except ε (List α × List ν)) (rest : List (Event ε ν α))
    (log : List ν) :
    pull (ofCall call ++ rest) log =
      (call >>= fun (items, notes) => pull (items.map .item ++ rest) (log ++ notes)) := by
  cases call with
  | error error => rfl
  | ok result =>
      simp only [ofCall, List.append_assoc, pull_notes]
      rfl

/-- A pull from two streams in sequence: the second is reached when the first has ended. -/
theorem pull_append (first second : List (Event ε ν α)) (log : List ν) :
    pull (first ++ second) log =
      (pull first log >>= fun pulled =>
        match pulled with
        | (none, log) => pull second log
        | (some (value, rest), log) => .ok (some (value, rest ++ second), log)) := by
  induction first generalizing log with
  | nil => rfl
  | cons event first ih =>
      cases event with
      | item value => rfl
      | note entry => exact ih (log ++ [entry])
      | fault error => rfl

/-- Draining pulls an item, folds it and goes on. -/
theorem drain_eq (step : Acc → α → Except ε (Acc × List ν)) (acc : Acc)
    (events : List (Event ε ν α)) (log : List ν) :
    drain step acc events log =
      (pull events log >>= fun pulled =>
        match pulled with
        | (none, log) => .ok (acc, log)
        | (some (value, rest), log) =>
            step acc value >>= fun (acc, notes) => drain step acc rest (log ++ notes)) := by
  induction events generalizing log with
  | nil => rfl
  | cons event events ih =>
      cases event with
      | item value => rfl
      | note entry => exact ih (log ++ [entry])
      | fault error => rfl

/-- The first pull from a folded stream drains the stream. -/
theorem pull_fold (step : Acc → α → Except ε (Acc × List ν)) (finish : Acc → List (Event ε ν β))
    (acc : Acc) (events : List (Event ε ν α)) (log : List ν) :
    pull (fold step finish acc events) log =
      (drain step acc events log >>= fun (acc, log) => pull (finish acc) log) := by
  induction events generalizing acc log with
  | nil => rfl
  | cons event events ih =>
      cases event with
      | item value =>
          simp only [fold, drain]
          cases step acc value with
          | error error => rfl
          | ok result =>
              simp only [pull_notes, ih]
              rfl
      | note entry => exact ih acc (log ++ [entry])
      | fault error => rfl

@[simp] theorem dropItems_nil (count : Nat) : dropItems count ([] : List (Event ε ν α)) = [] := by
  cases count <;> rfl

theorem pull_dropItems_succ (count : Nat) (events : List (Event ε ν α)) (log : List ν) :
    pull (dropItems (count + 1) events) log =
      (pull events log >>= fun pulled =>
        match pulled with
        | (none, log) => .ok (none, log)
        | (some (_, rest), log) => pull (dropItems count rest) log) := by
  induction events generalizing log with
  | nil => rfl
  | cons event events ih =>
      cases event with
      | item value => rfl
      | note entry => exact ih (log ++ [entry])
      | fault error => rfl

@[simp] theorem takeItems_nil (count : Nat) : takeItems count ([] : List (Event ε ν α)) = [] := by
  cases count <;> rfl

theorem pull_takeItems_succ (count : Nat) (events : List (Event ε ν α)) (log : List ν) :
    pull (takeItems (count + 1) events) log =
      (pull events log >>= fun pulled =>
        match pulled with
        | (none, log) => .ok (none, log)
        | (some (value, rest), log) => .ok (some (value, takeItems count rest), log)) := by
  induction events generalizing log with
  | nil => rfl
  | cons event events ih =>
      cases event with
      | item value => rfl
      | note entry => exact ih (log ++ [entry])
      | fault error => rfl

/-! ## What a whole run gives -/

/-- The items of a stream up to its fault, if it has one. -/
def items : List (Event ε ν α) → List α
  | [] => []
  | .item value :: rest => value :: items rest
  | .note _ :: rest => items rest
  | .fault _ :: _ => []

/-- The notes of a stream up to its fault, if it has one. -/
def notes : List (Event ε ν α) → List ν
  | [] => []
  | .item _ :: rest => notes rest
  | .note entry :: rest => entry :: notes rest
  | .fault _ :: _ => []

/-- The fault of a stream, if it has one. -/
def fault? : List (Event ε ν α) → Option ε
  | [] => none
  | .item _ :: rest | .note _ :: rest => fault? rest
  | .fault error :: _ => some error

/-- Collecting all items gives them in order, or ends with the fault. -/
theorem drain_collect (events : List (Event ε ν α)) (acc : List α) (log : List ν) :
    drain (fun items value => .ok (items ++ [value], [])) acc events log =
      match fault? events with
      | some error => .error error
      | none => .ok (acc ++ items events, log ++ notes events) := by
  induction events generalizing acc log with
  | nil => simp [drain, fault?, items, notes]
  | cons event events ih =>
      cases event with
      | item value =>
          simp only [drain, fault?, items, notes, bind, Except.bind, ih, List.append_nil,
            List.append_assoc, List.singleton_append]
      | note entry =>
          simp only [drain, fault?, items, notes, ih, List.append_assoc, List.singleton_append]
      | fault error => rfl

/-! ## Streams without faults -/

@[simp] theorem fault?_item (value : α) (rest : List (Event ε ν α)) :
    fault? (.item value :: rest) = fault? rest := rfl

@[simp] theorem items_item (value : α) (rest : List (Event ε ν α)) :
    items (.item value :: rest) = value :: items rest := rfl

theorem fault?_append (first second : List (Event ε ν α)) :
    fault? (first ++ second) = (fault? first).or (fault? second) := by
  induction first with
  | nil => rfl
  | cons event first ih =>
      cases event with
      | item value => exact ih
      | note entry => exact ih
      | fault error => rfl

theorem items_append {first : List (Event ε ν α)} (clean : fault? first = none)
    (second : List (Event ε ν α)) : items (first ++ second) = items first ++ items second := by
  induction first with
  | nil => rfl
  | cons event first ih =>
      cases event with
      | item value => exact congrArg (value :: ·) (ih clean)
      | note entry => exact ih clean
      | fault error => cases clean

theorem fault?_notes (notes : List ν) (events : List (Event ε ν α)) :
    fault? (notes.map .note ++ events) = fault? events := by
  induction notes with
  | nil => rfl
  | cons entry notes ih => exact ih

theorem items_notes (notes : List ν) (events : List (Event ε ν α)) :
    items (notes.map .note ++ events) = items events := by
  induction notes with
  | nil => rfl
  | cons entry notes ih => exact ih

theorem clean_items (values : List α) :
    fault? (values.map .item : List (Event ε ν α)) = none ∧
      items (values.map .item : List (Event ε ν α)) = values := by
  induction values with
  | nil => exact ⟨rfl, rfl⟩
  | cons value values ih => exact ⟨ih.1, congrArg (value :: ·) ih.2⟩

/-- The events of a computation are without faults if it ends. -/
theorem clean_ofCall {call : Except ε (List α × List ν)} {values : List α} {notes : List ν}
    (ended : call = .ok (values, notes)) :
    fault? (ofCall call) = none ∧ items (ofCall call) = values := by
  rw [ended, ofCall, fault?_notes, items_notes]
  exact clean_items values

/-- Replaced items are without faults if the items and what replaces each of them are. -/
theorem fault?_bindItems {events : List (Event ε ν α)} {replace : α → List (Event ε ν β)} :
    fault? (bindItems events replace) = none ↔
      fault? events = none ∧ ∀ value ∈ items events, fault? (replace value) = none := by
  induction events with
  | nil => simp [fault?, items]
  | cons event events ih =>
      cases event with
      | item value =>
          rw [bindItems_item, fault?_append, Option.or_eq_none_iff, ih, fault?_item, items_item,
            List.forall_mem_cons]
          tauto
      | note entry => exact ih
      | fault error =>
          constructor
          · intro clean
            cases clean
          · rintro ⟨clean, -⟩
            cases clean

/-- Without faults each item is replaced by items. -/
theorem items_bindItems {events : List (Event ε ν α)} {replace : α → List (Event ε ν β)}
    (clean : fault? (bindItems events replace) = none) :
    items (bindItems events replace) = (items events).flatMap fun value => items (replace value) := by
  induction events with
  | nil => rfl
  | cons event events ih =>
      cases event with
      | item value =>
          rw [bindItems_item, fault?_append, Option.or_eq_none_iff] at clean
          rw [bindItems_item, items_append clean.1, ih clean.2, items_item, List.flatMap_cons]
      | note entry => exact ih clean
      | fault error => cases clean

/-- All values folded into an accumulator, whatever the notes. -/
def foldValues (step : Acc → α → Except ε (Acc × List ν)) : Acc → List α → Except ε Acc
  | acc, [] => .ok acc
  | acc, value :: values => do
      let (acc, _) ← step acc value
      foldValues step acc values

/-- A fold is without faults if its source, its steps and what it makes of the last
accumulator are. -/
theorem fault?_fold {step : Acc → α → Except ε (Acc × List ν)} {finish : Acc → List (Event ε ν β)}
    {acc : Acc} {events : List (Event ε ν α)} :
    fault? (fold step finish acc events) = none ↔
      fault? events = none ∧
        ∃ last, foldValues step acc (items events) = .ok last ∧ fault? (finish last) = none := by
  induction events generalizing acc with
  | nil => simp [fold, fault?, items, foldValues]
  | cons event events ih =>
      cases event with
      | item value =>
          rw [fold, items_item, foldValues]
          cases stepped : step acc value with
          | error error =>
              constructor
              · intro clean
                cases clean
              · rintro ⟨-, last, folded, -⟩
                cases folded
          | ok next =>
              dsimp only
              rw [fault?_notes]
              exact ih
      | note entry => exact ih
      | fault error =>
          constructor
          · intro clean
            cases clean
          · rintro ⟨clean, -⟩
            cases clean

theorem items_fold {step : Acc → α → Except ε (Acc × List ν)} {finish : Acc → List (Event ε ν β)}
    {acc last : Acc} {events : List (Event ε ν α)} (clean : fault? events = none)
    (folded : foldValues step acc (items events) = .ok last) :
    items (fold step finish acc events) = items (finish last) := by
  induction events generalizing acc with
  | nil =>
      obtain rfl := Except.ok.inj folded
      rfl
  | cons event events ih =>
      cases event with
      | item value =>
          rw [items_item, foldValues] at folded
          rw [fold]
          cases stepped : step acc value with
          | error error => rw [stepped] at folded; cases folded
          | ok next =>
              rw [stepped] at folded
              dsimp only
              rw [items_notes]
              exact ih clean folded
      | note entry => exact ih clean folded
      | fault error => cases clean

end Event

end MiniSqlite.Std
