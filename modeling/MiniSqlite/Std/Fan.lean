import Mathlib.Data.List.Basic
import Mathlib.Order.Lattice

/-!
# Children with keys between them

A node of a search tree has one child more than it has keys. `Chained` says something of each
child and of the two marks around it: with the keys as marks, that they bound the children;
with the following child as a mark, that the children are linked. A change below a node
exchanges one child, where the key leads, for one or more.
-/

namespace MiniSqlite.Std

/-- Children, with a key in front of each but the first. -/
structure Fan (κ τ : Type*) where
  first : τ
  rest : List (κ × τ)

namespace Fan

variable {κ τ σ β : Type*}

/-- One child. -/
def single (child : τ) : Fan κ τ := ⟨child, []⟩

/-- The children from left to right. -/
def children (fan : Fan κ τ) : List τ := fan.first :: fan.rest.map Prod.snd

/-- The keys from left to right. -/
def keys (fan : Fan κ τ) : List κ := fan.rest.map Prod.fst

def map (change : τ → σ) (fan : Fan κ τ) : Fan κ σ :=
  ⟨change fan.first, fan.rest.map fun entry => (entry.1, change entry.2)⟩

/-- The fan with children in front, each with the key behind it, and children behind. -/
def between : List (τ × κ) → Fan κ τ → List (κ × τ) → Fan κ τ
  | [], fan, after => ⟨fan.first, fan.rest ++ after⟩
  | (child, key) :: before, fan, after =>
      ⟨child, (key, (between before fan after).first) :: (between before fan after).rest⟩

@[simp] theorem children_single (child : τ) : (single child : Fan κ τ).children = [child] := rfl

@[simp] theorem keys_single (child : τ) : (single child : Fan κ τ).keys = [] := rfl

theorem first_mem_children (fan : Fan κ τ) : fan.first ∈ fan.children := List.mem_cons_self

theorem length_children (fan : Fan κ τ) : fan.children.length = fan.rest.length + 1 := by
  rw [children, List.length_cons, List.length_map]

@[simp] theorem children_map (change : τ → σ) (fan : Fan κ τ) :
    (fan.map change).children = fan.children.map change := by
  simp [children, map, Function.comp_def]

@[simp] theorem keys_map (change : τ → σ) (fan : Fan κ τ) : (fan.map change).keys = fan.keys := by
  simp [keys, map, Function.comp_def]

theorem children_between (before : List (τ × κ)) (fan : Fan κ τ) (after : List (κ × τ)) :
    (between before fan after).children =
      before.map Prod.fst ++ fan.children ++ after.map Prod.snd := by
  induction before with
  | nil => simp [between, children]
  | cons entry before ih =>
      rw [children] at ih
      simp [between, children, ih]

theorem keys_between (before : List (τ × κ)) (fan : Fan κ τ) (after : List (κ × τ)) :
    (between before fan after).keys =
      before.map Prod.snd ++ fan.keys ++ after.map Prod.fst := by
  induction before with
  | nil => simp [between, keys]
  | cons entry before ih =>
      rw [keys] at ih
      simp [between, keys, ih]

theorem length_between (before : List (τ × κ)) (fan : Fan κ τ) (after : List (κ × τ)) :
    (between before fan after).rest.length =
      before.length + fan.rest.length + after.length := by
  induction before with
  | nil => simp [between]
  | cons entry before ih =>
      simp only [between, List.length_cons, ih]
      omega

theorem map_between (change : τ → σ) (before : List (τ × κ)) (fan : Fan κ τ)
    (after : List (κ × τ)) :
    (between before fan after).map change =
      between (before.map fun entry => (change entry.1, entry.2)) (fan.map change)
        (after.map fun entry => (entry.1, change entry.2)) := by
  induction before with
  | nil => simp [between, map]
  | cons entry before ih =>
      simp only [map] at ih
      simp only [between, map, List.map_cons, ← ih]

/-- A child exchanged for two is the first of them in its place, and the second inserted. -/
theorem between_two (before : List (τ × κ)) (left right : τ) (key : κ) (after : List (κ × τ)) :
    between before ⟨left, [(key, right)]⟩ after =
      ⟨(between before (single left) after).first,
        (between before (single left) after).rest.insertIdx before.length (key, right)⟩ := by
  induction before with
  | nil => rfl
  | cons entry before ih => simp [between, ih]

/-! ## Where a key leads -/

/-- One child of a fan, and what stands around it. -/
structure Place (κ τ : Type*) where
  before : List (τ × κ)
  child : τ
  after : List (κ × τ)

/-- The fan with its child exchanged. -/
def Place.fill (place : Place κ τ) (fan : Fan κ τ) : Fan κ τ :=
  between place.before fan place.after

/-- The children around a place. -/
def Place.others (place : Place κ τ) : List τ :=
  place.before.map Prod.fst ++ place.after.map Prod.snd

/-- A fan reads the same where a child is exchanged for one that reads the same. -/
theorem Place.map_fill_single (place : Place κ τ) {change : τ → σ} {child other : τ}
    (same : change other = change child) :
    (place.fill (single other)).map change = (place.fill (single child)).map change := by
  have reads : (single other : Fan κ τ).map change = (single child : Fan κ τ).map change :=
    congrArg (fun item => (single item : Fan κ σ)) same
  rw [Place.fill, Place.fill, map_between, map_between, reads]

section Locate

variable [LinearOrder κ]

/-- The child in front of the first key that is larger. -/
def locateFrom (key : κ) : τ → List (κ × τ) → Place κ τ
  | first, [] => ⟨[], first, []⟩
  | first, entry :: rest =>
      if entry.1 ≤ key then
        let place := locateFrom key entry.2 rest
        { place with before := (first, entry.1) :: place.before }
      else ⟨[], first, entry :: rest⟩

def locate (key : κ) (fan : Fan κ τ) : Place κ τ := locateFrom key fan.first fan.rest

variable {key : κ}

theorem fill_locateFrom (key : κ) (first : τ) (rest : List (κ × τ)) :
    (locateFrom key first rest).fill (single (locateFrom key first rest).child) =
      ⟨first, rest⟩ := by
  induction rest generalizing first with
  | nil => rfl
  | cons entry rest ih =>
      rw [locateFrom]
      split
      · have filled := ih entry.2
        rw [Place.fill] at filled
        simp only [Place.fill, between, filled]
      · rfl

/-- A fan is its located child with what stands around it. -/
theorem fill_locate (key : κ) (fan : Fan κ τ) :
    (fan.locate key).fill (single (fan.locate key).child) = fan :=
  fill_locateFrom key fan.first fan.rest

theorem locate_child_mem (key : κ) (fan : Fan κ τ) : (fan.locate key).child ∈ fan.children := by
  have children := congrArg Fan.children (fan.fill_locate key)
  rw [Place.fill, children_between] at children
  rw [← children]
  simp

theorem locate_others_mem {fan : Fan κ τ} {other : τ} (member : other ∈ (fan.locate key).others) :
    other ∈ fan.children := by
  have children := congrArg Fan.children (fan.fill_locate key)
  rw [Place.fill, children_between] at children
  rw [← children]
  rw [Place.others] at member
  rcases List.mem_append.mp member with left | right
  · exact List.mem_append_left _ (List.mem_append_left _ left)
  · exact List.mem_append_right _ right

theorem locateFrom_before (key : κ) (first : τ) (rest : List (κ × τ)) :
    (locateFrom key first rest).before.length =
      (rest.takeWhile fun entry => decide (entry.1 ≤ key)).length := by
  induction rest generalizing first with
  | nil => rfl
  | cons entry rest ih =>
      rw [locateFrom]
      by_cases below : entry.1 ≤ key
      · rw [if_pos below, List.takeWhile_cons_of_pos (by simpa using below)]
        simp only [List.length_cons, ih]
      · rw [if_neg below, List.takeWhile_cons_of_neg (by simpa using below)]
        rfl

/-- The place of a key is the number of leading keys that are not larger. -/
theorem locate_before (key : κ) (fan : Fan κ τ) :
    (fan.locate key).before.length =
      (fan.rest.takeWhile fun entry => decide (entry.1 ≤ key)).length :=
  locateFrom_before key fan.first fan.rest

theorem locateFrom_around (key : κ) (first : τ) (rest : List (κ × τ)) :
    (∀ other ∈ (locateFrom key first rest).before.map Prod.snd, other ≤ key) ∧
      ∀ entry, (locateFrom key first rest).after.head? = some entry → key < entry.1 := by
  induction rest generalizing first with
  | nil => exact ⟨fun _ member => absurd member List.not_mem_nil, fun _ none => by cases none⟩
  | cons entry rest ih =>
      rw [locateFrom]
      by_cases below : entry.1 ≤ key
      · rw [if_pos below]
        refine ⟨fun other member => ?_, (ih entry.2).2⟩
        rcases List.mem_cons.mp member with here | later
        · exact here ▸ below
        · exact (ih entry.2).1 other later
      · rw [if_neg below]
        refine ⟨fun _ member => absurd member List.not_mem_nil, fun other here => ?_⟩
        rw [← Option.some.inj here]
        exact not_le.mp below

/-- The keys in front of the place are not larger, the next key is. -/
theorem locate_around (key : κ) (fan : Fan κ τ) :
    (∀ other ∈ (fan.locate key).before.map Prod.snd, other ≤ key) ∧
      ∀ entry, (fan.locate key).after.head? = some entry → key < entry.1 :=
  locateFrom_around key fan.first fan.rest

theorem locateFrom_map (change : τ → σ) (key : κ) (first : τ) (rest : List (κ × τ)) :
    locateFrom key (change first) (rest.map fun entry => (entry.1, change entry.2)) =
      ⟨(locateFrom key first rest).before.map fun entry => (change entry.1, entry.2),
        change (locateFrom key first rest).child,
        (locateFrom key first rest).after.map fun entry => (entry.1, change entry.2)⟩ := by
  induction rest generalizing first with
  | nil => rfl
  | cons entry rest ih =>
      rw [List.map_cons, locateFrom, locateFrom]
      split
      · rw [ih]
        rfl
      · rfl

end Locate

/-! ## Halves -/

/-- The fan without its middle key: what stands in front of it and what stands behind. -/
def halve (fan : Fan κ τ) : Option (Fan κ τ × κ × Fan κ τ) :=
  match fan.rest.drop (fan.rest.length / 2) with
  | [] => none
  | entry :: rest =>
      some (⟨fan.first, fan.rest.take (fan.rest.length / 2)⟩, entry.1, ⟨entry.2, rest⟩)

theorem halve_eq {fan : Fan κ τ} (nonempty : 0 < fan.rest.length) :
    ∃ left key right, fan.halve = some (left, key, right) ∧
      fan = ⟨left.first, left.rest ++ (key, right.first) :: right.rest⟩ ∧
      left.rest.length = fan.rest.length / 2 := by
  obtain ⟨first, rest⟩ := fan
  have half : rest.length / 2 < rest.length := Nat.div_lt_self nonempty (by decide)
  have dropped := List.drop_eq_getElem_cons half
  refine ⟨⟨first, rest.take (rest.length / 2)⟩, rest[rest.length / 2].1,
    ⟨rest[rest.length / 2].2, rest.drop (rest.length / 2 + 1)⟩, ?_, ?_, ?_⟩
  · rw [halve]
    dsimp only
    rw [dropped]
  · congr 1
    rw [← dropped, List.take_append_drop]
  · rw [List.length_take]
    exact Nat.min_eq_left (Nat.le_of_lt half)

/-! ## Chains -/

/-- Something holds of each child and of the marks around it. A mark is read off a key and the
child behind it. -/
def ChainedFrom (mark : κ × τ → β) (Holds : β → β → τ → Prop) :
    β → τ → List (κ × τ) → β → Prop
  | low, first, [], high => Holds low high first
  | low, first, entry :: rest, high =>
      Holds low (mark entry) first ∧ ChainedFrom mark Holds (mark entry) entry.2 rest high

def Chained (fan : Fan κ τ) (mark : κ × τ → β) (Holds : β → β → τ → Prop) (low high : β) : Prop :=
  ChainedFrom mark Holds low fan.first fan.rest high

variable {mark : κ × τ → β} {Holds Other : β → β → τ → Prop} {low high : β}

@[simp] theorem chained_single {child : τ} :
    (single child).Chained mark Holds low high ↔ Holds low high child := Iff.rfl

@[simp] theorem chained_cons {child : τ} {entry : κ × τ} {rest : List (κ × τ)} :
    (⟨child, entry :: rest⟩ : Fan κ τ).Chained mark Holds low high ↔
      Holds low (mark entry) child ∧ (⟨entry.2, rest⟩ : Fan κ τ).Chained mark Holds (mark entry) high :=
  Iff.rfl

/-- A chain is cut at any key. -/
theorem chained_append {child : τ} {left right : List (κ × τ)} {entry : κ × τ} :
    (⟨child, left ++ entry :: right⟩ : Fan κ τ).Chained mark Holds low high ↔
      (⟨child, left⟩ : Fan κ τ).Chained mark Holds low (mark entry) ∧
        (⟨entry.2, right⟩ : Fan κ τ).Chained mark Holds (mark entry) high := by
  induction left generalizing low child with
  | nil => exact Iff.rfl
  | cons other left ih =>
      rw [List.cons_append, chained_cons, chained_cons, ih, and_assoc]

theorem Chained.imp_from {child : τ} {rest : List (κ × τ)}
    (chained : (⟨child, rest⟩ : Fan κ τ).Chained mark Holds low high)
    (weaker : ∀ other ∈ (⟨child, rest⟩ : Fan κ τ).children, ∀ first second,
      Holds first second other → Other first second other) :
    (⟨child, rest⟩ : Fan κ τ).Chained mark Other low high := by
  induction rest generalizing low child with
  | nil => exact weaker child List.mem_cons_self _ _ chained
  | cons entry rest ih =>
      rw [chained_cons] at chained ⊢
      refine ⟨weaker child List.mem_cons_self _ _ chained.1, ih chained.2 fun other member => ?_⟩
      exact weaker other (List.mem_cons_of_mem _ member)

theorem Chained.imp {fan : Fan κ τ} (chained : fan.Chained mark Holds low high)
    (weaker : ∀ other ∈ fan.children, ∀ first second,
      Holds first second other → Other first second other) :
    fan.Chained mark Other low high :=
  imp_from chained weaker

/-- The lower mark of a chain does not matter where that of a child does not. -/
theorem Chained.lower {fan : Fan κ τ} (chained : fan.Chained mark Holds low high)
    (ignores : ∀ first other second child, Holds first second child → Holds other second child)
    (other : β) : fan.Chained mark Holds other high := by
  obtain ⟨first, rest⟩ := fan
  cases rest with
  | nil => exact ignores _ other _ _ chained
  | cons entry rest => exact ⟨ignores _ other _ _ chained.1, chained.2⟩

/-- Each child has its marks. -/
theorem Chained.of_mem {fan : Fan κ τ} (chained : fan.Chained mark Holds low high) :
    ∀ child ∈ fan.children, ∃ first second, Holds first second child := by
  obtain ⟨first, rest⟩ := fan
  induction rest generalizing low first with
  | nil =>
      intro child member
      rw [List.mem_singleton.mp member]
      exact ⟨_, _, chained⟩
  | cons entry rest ih =>
      intro child member
      rw [chained_cons] at chained
      rcases List.mem_cons.mp member with here | later
      · exact here ▸ ⟨_, _, chained.1⟩
      · exact ih _ chained.2 child later

/-- A place in a chain: its child has marks, and any chain between these marks that begins as
the child did may stand there. -/
theorem Chained.exchange {before : List (τ × κ)} {child : τ} {after : List (κ × τ)}
    (chained : (between before (single child) after).Chained mark Holds low high) :
    ∃ first second, Holds first second child ∧
      (first = low ∧ before = [] ∨ ∃ key ∈ before.map Prod.snd, first = mark (key, child)) ∧
      (second = high ∧ after = [] ∨ ∃ entry, after.head? = some entry ∧ second = mark entry) ∧
      ∀ (Other : β → β → τ → Prop) (fan : Fan κ τ),
        (∀ key, mark (key, fan.first) = mark (key, child)) →
        (∀ other ∈ before.map Prod.fst ++ after.map Prod.snd, ∀ left right,
          Holds left right other → Other left right other) →
        fan.Chained mark Other first second →
        (between before fan after).Chained mark Other low high := by
  induction before generalizing low with
  | nil =>
      cases after with
      | nil =>
          refine ⟨low, high, chained, .inl ⟨rfl, rfl⟩, .inl ⟨rfl, rfl⟩, fun _ fan _ _ inner => ?_⟩
          simpa [between] using inner
      | cons entry after =>
          obtain ⟨here, behind⟩ := chained
          refine ⟨low, mark entry, here, .inl ⟨rfl, rfl⟩, .inr ⟨entry, rfl, rfl⟩,
            fun _ fan _ weaker inner => ?_⟩
          refine chained_append.mpr ⟨inner, ?_⟩
          exact Chained.imp behind fun other member => weaker other member
  | cons entry before ih =>
      obtain ⟨front, behind⟩ := chained
      obtain ⟨first, second, here, left, right, exchanged⟩ := ih behind
      refine ⟨first, second, here, .inr ?_, right, fun Other fan same weaker inner => ?_⟩
      · rcases left with ⟨rfl, rfl⟩ | ⟨key, member, equal⟩
        · exact ⟨entry.2, List.mem_cons_self, rfl⟩
        · exact ⟨key, List.mem_cons_of_mem _ member, equal⟩
      · have linked : mark (entry.2, (between before fan after).first) =
            mark (entry.2, (between before (single child) after).first) := by
          cases before with
          | nil => exact same entry.2
          | cons other before => rfl
        have changed := exchanged Other fan same
          (fun other member => weaker other (List.mem_cons_of_mem _ member)) inner
        refine ⟨weaker entry.1 List.mem_cons_self _ _ ?_, ?_⟩
        · rw [linked]
          exact front
        · rw [linked]
          exact changed

/-- The children in front of a place, whose marks are read off keys. -/
theorem Chained.of_mem_before {edge : κ → β} {before : List (τ × κ)} {inner : Fan κ τ}
    {after : List (κ × τ)}
    (chained : (between before inner after).Chained (fun entry => edge entry.1) Holds low high) :
    ∀ entry ∈ before, ∃ first, Holds first (edge entry.2) entry.1 := by
  induction before generalizing low with
  | nil => exact fun _ member => absurd member List.not_mem_nil
  | cons other before ih =>
      intro entry member
      rcases List.mem_cons.mp member with here | later
      · exact here ▸ ⟨_, chained.1⟩
      · exact ih chained.2 entry later

/-- The children behind a place. -/
theorem Chained.of_mem_rest {first : τ} {rest : List (κ × τ)}
    (chained : (⟨first, rest⟩ : Fan κ τ).Chained mark Holds low high) :
    ∀ entry ∈ rest, ∃ second, Holds (mark entry) second entry.2 := by
  induction rest generalizing low first with
  | nil => exact fun _ member => absurd member List.not_mem_nil
  | cons other rest ih =>
      intro entry member
      rcases List.mem_cons.mp member with here | later
      · rw [here]
        cases rest with
        | nil => exact ⟨_, chained.2⟩
        | cons next rest => exact ⟨_, chained.2.1⟩
      · exact ih chained.2 entry later

theorem mem_rest_of_mem_after {before : List (τ × κ)} {fan : Fan κ τ} {after : List (κ × τ)}
    {entry : κ × τ} (member : entry ∈ after) : entry ∈ (between before fan after).rest := by
  induction before with
  | nil => exact List.mem_append_right _ member
  | cons other before ih => exact List.mem_cons_of_mem _ ih

section Order

variable [Preorder β]

/-- Where each child's marks increase, all marks of a chain do. -/
theorem Chained.sorted {fan : Fan κ τ} (chained : fan.Chained mark Holds low high)
    (increasing : ∀ first second child, Holds first second child → first < second) :
    low < high ∧ (fan.rest.map mark).Pairwise (· < ·) ∧
      ∀ between ∈ fan.rest.map mark, low < between ∧ between < high := by
  obtain ⟨first, rest⟩ := fan
  induction rest generalizing low first with
  | nil =>
      exact ⟨increasing _ _ _ chained, List.Pairwise.nil, fun _ member =>
        absurd member List.not_mem_nil⟩
  | cons entry rest ih =>
      obtain ⟨here, behind⟩ := chained
      have below := increasing _ _ _ here
      obtain ⟨above, sorted, within⟩ := ih _ behind
      refine ⟨lt_trans below above, ?_, fun other member => ?_⟩
      · exact List.pairwise_cons.mpr ⟨fun other member => (within other member).1, sorted⟩
      · rcases List.mem_cons.mp member with same | later
        · exact same ▸ ⟨below, above⟩
        · exact ⟨lt_trans below (within other later).1, (within other later).2⟩

end Order

end Fan

end MiniSqlite.Std
