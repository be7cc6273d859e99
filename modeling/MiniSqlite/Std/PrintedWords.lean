import MiniSqlite.Std.Procedures

/-!
# Code that reads printed words

Code of a parser stands in front of tokens, and each token spells a word. `Skips` says that code
reads the tokens of some words and goes on behind them as other code does, whatever they are
followed by, as long as the first token behind them is one that may follow. `Opens` says which
tokens stand first where words and what follows them are put together. Both are closed under
sequencing, and so is reading a list with separators or without.
-/

namespace MiniSqlite.Std

open Code

variable {Call : Type → Type} {ε τ ω α β : Type}

/-- The first token is one of a kind. -/
def Begins (kind : τ → Prop) (tokens : List τ) : Prop :=
  ∃ first more, tokens = first :: more ∧ kind first

theorem Begins.mono {kind kind' : τ → Prop} {tokens : List τ} (begins : Begins kind tokens)
    (included : ∀ token, kind token → kind' token) : Begins kind' tokens := by
  obtain ⟨first, more, same, here⟩ := begins
  exact ⟨first, more, same, included first here⟩

/-! ## First tokens -/

/-- Tokens that spell some words, put before tokens that start with one that may follow, start
with one of a kind. -/
def Opens (word : τ → ω) (words : List ω) (kind follows : τ → Prop) : Prop :=
  ∀ ⦃tokens rest : List τ⦄, tokens.map word = words → Begins follows rest →
    Begins kind (tokens ++ rest)

section Opens

variable {word : τ → ω} {words words' : List ω} {kind middle follows : τ → Prop}

theorem opens_nil (included : ∀ token, follows token → kind token) :
    Opens word [] kind follows := by
  intro tokens rest spelled begins
  obtain rfl := List.map_eq_nil_iff.mp spelled
  exact begins.mono included

theorem opens_cons {first : ω} (here : ∀ token, word token = first → kind token) :
    Opens word (first :: words) kind follows := by
  intro tokens rest spelled begins
  obtain ⟨token, more, rfl, same, -⟩ := List.map_eq_cons_iff.mp spelled
  exact ⟨token, more ++ rest, rfl, here token same⟩

theorem Opens.append (first : Opens word words kind middle)
    (second : Opens word words' middle follows) : Opens word (words ++ words') kind follows := by
  intro tokens rest spelled begins
  obtain ⟨front, back, rfl, spelled, spelled'⟩ := List.map_eq_append_iff.mp spelled
  rw [List.append_assoc]
  exact first spelled (second spelled' begins)

theorem Opens.mono {kind' : τ → Prop} (opens : Opens word words kind follows)
    (included : ∀ token, kind token → kind' token) : Opens word words kind' follows :=
  fun _ _ spelled begins => (opens spelled begins).mono included

/-- What opens whatever follows. -/
theorem Opens.whatever (opens : Opens word words kind fun _ => True) :
    Opens word words kind follows :=
  fun _ _ spelled begins => opens spelled (begins.mono fun _ _ => trivial)

/-- There is always a first token, as something follows. -/
theorem opens_any : Opens word words (fun _ => True) follows := by
  intro tokens rest spelled begins
  obtain ⟨first, more, rfl, -⟩ := begins
  cases tokens with
  | nil => exact ⟨first, more, rfl, trivial⟩
  | cons token tokens => exact ⟨token, tokens ++ first :: more, rfl, trivial⟩

end Opens

/-! ## Reading -/

variable (body : ∀ {β : Type}, Call β → Code Call ε β) (exhausted : ε) (word : τ → ω)

/-- Code reads the tokens of some words and goes on behind them as other code does. -/
def Skips (words : List ω) (follows : τ → Prop) (code next : List τ → Code Call ε α) : Prop :=
  ∀ ⦃tokens rest : List τ⦄, tokens.map word = words → Begins follows rest →
    ∀ ⦃value : α⦄, Yields body exhausted (next rest) value →
      Yields body exhausted (code (tokens ++ rest)) value

variable {body exhausted word} {words words' : List ω} {middle follows : τ → Prop}
  {code inner next : List τ → Code Call ε α}

/-- Code that looks at the next token only. -/
theorem skips_nil (look : ∀ token rest, follows token → ∀ value,
      Yields body exhausted (next (token :: rest)) value →
        Yields body exhausted (code (token :: rest)) value) :
    Skips body exhausted word [] follows code next := by
  intro tokens rest spelled begins value yields
  obtain rfl := List.map_eq_nil_iff.mp spelled
  obtain ⟨first, more, rfl, here⟩ := begins
  exact look first more here value yields

theorem skips_refl : Skips body exhausted word [] follows code code :=
  skips_nil fun _ _ _ _ yields => yields

/-- Code that consumes one token. -/
theorem skips_token {first : ω} (look : ∀ token rest, word token = first → ∀ value,
      Yields body exhausted (next rest) value →
        Yields body exhausted (code (token :: rest)) value) :
    Skips body exhausted word [first] follows code next := by
  intro tokens rest spelled begins value yields
  obtain ⟨token, rfl, same⟩ := List.map_eq_singleton_iff.mp spelled
  exact look token rest same value yields

theorem Skips.trans (first : Skips body exhausted word words middle code inner)
    (second : Skips body exhausted word words' follows inner next)
    (opens : Opens word words' middle follows) :
    Skips body exhausted word (words ++ words') follows code next := by
  intro tokens rest spelled begins value yields
  obtain ⟨front, back, rfl, spelled, spelled'⟩ := List.map_eq_append_iff.mp spelled
  rw [List.append_assoc]
  exact first spelled (opens spelled' begins) (second spelled' begins yields)

/-- Code that has read some words may look at the next token. -/
theorem Skips.look (first : Skips body exhausted word words middle code inner)
    (second : Skips body exhausted word [] follows inner next)
    (included : ∀ token, follows token → middle token) :
    Skips body exhausted word words follows code next := by
  have both := first.trans second (opens_nil included)
  rwa [List.append_nil] at both

theorem Skips.mono {follows' : τ → Prop} (skips : Skips body exhausted word words follows' code next)
    (included : ∀ token, follows token → follows' token) :
    Skips body exhausted word words follows code next :=
  fun _ _ spelled begins => skips spelled (begins.mono included)

/-- What follows code follows what it goes on as. -/
theorem Skips.bind (skips : Skips body exhausted word words follows code next)
    (more : α → Code Call ε β) :
    Skips body exhausted word words follows (fun tokens => code tokens >>= more)
      (fun tokens => next tokens >>= more) := by
  intro tokens rest spelled begins value yields
  obtain ⟨result, first, second⟩ := yields_bind.mp yields
  exact yields_bind.mpr ⟨result, skips spelled begins first, second⟩

/-- A call reads what its body reads. -/
theorem Skips.call {procedure : List τ → Call α}
    (skips : Skips body exhausted word words follows (fun tokens => body (procedure tokens)) next) :
    Skips body exhausted word words follows (fun tokens => invoke (procedure tokens)) next := by
  intro tokens rest spelled begins value yields
  exact .call (returns_iff.mpr (skips spelled begins yields)) (.done value)

/-! ## Lists -/

/-- The words of items one after the other, with a separator between them. -/
def separated (comma : ω) (print : β → List ω) : List β → List ω
  | [] => []
  | [last] => print last
  | item :: next :: more => print item ++ comma :: separated comma print (next :: more)

section Lists

variable {comma : ω} {print : β → List ω}

/-- The first word of a list is that of its first item. -/
theorem opens_separated {kind : τ → Prop} {list : List β} (some : list ≠ [])
    (first : ∀ item ∈ list, Opens word (print item) kind fun _ => True) :
    Opens word (separated comma print list) kind follows := by
  cases list with
  | nil => exact absurd rfl some
  | cons item list =>
      have here := first item List.mem_cons_self
      cases list with
      | nil => exact here.whatever
      | cons other list => exact here.append opens_any

variable (loop finish : List β → List τ → Code Call ε α)

theorem skips_separated_from {front behind : List β} (some : behind ≠ [])
    (last : ∀ before item, before ++ [item] = front ++ behind →
      Skips body exhausted word (print item) follows (loop before) (finish (before ++ [item])))
    (more : ∀ before item after, before ++ item :: after = front ++ behind →
      Skips body exhausted word (print item ++ [comma]) (fun _ => True) (loop before)
        (loop (before ++ [item]))) :
    Skips body exhausted word (separated comma print behind) follows (loop front)
      (finish (front ++ behind)) := by
  induction behind generalizing front with
  | nil => exact absurd rfl some
  | cons item behind ih =>
      cases behind with
      | nil => exact last front item rfl
      | cons other behind =>
          have here := more front item (other :: behind) rfl
          have later := @ih (front ++ [item]) (List.cons_ne_nil other behind)
            (fun before item same => last before item (by simpa using same))
            (fun before item after same => more before item after (by simpa using same))
          have both := here.trans later opens_any
          simpa [separated] using both

/-- A loop that reads an item in each turn, and goes on as long as separators follow. -/
theorem skips_separated {list : List β} (some : list ≠ [])
    (last : ∀ before item, before ++ [item] = list →
      Skips body exhausted word (print item) follows (loop before) (finish (before ++ [item])))
    (more : ∀ before item after, before ++ item :: after = list →
      Skips body exhausted word (print item ++ [comma]) (fun _ => True) (loop before)
        (loop (before ++ [item]))) :
    Skips body exhausted word (separated comma print list) follows (loop []) (finish list) :=
  skips_separated_from loop finish some last more

theorem skips_flatMap_from {front behind : List β} (turn : ∀ before, ∀ item ∈ behind,
      Skips body exhausted word (print item) follows (loop before) (loop (before ++ [item])))
    (first : ∀ item ∈ behind, Opens word (print item) follows follows) :
    Skips body exhausted word (behind.flatMap print) follows (loop front)
        (loop (front ++ behind)) ∧
      Opens word (behind.flatMap print) follows follows := by
  induction behind generalizing front with
  | nil =>
      rw [List.append_nil]
      exact ⟨skips_refl, opens_nil fun _ here => here⟩
  | cons item behind ih =>
      obtain ⟨later, opens⟩ := @ih (front ++ [item])
        (fun before other member => turn before other (List.mem_cons_of_mem _ member))
        (fun other member => first other (List.mem_cons_of_mem _ member))
      have here := turn front item List.mem_cons_self
      rw [List.append_assoc] at later
      exact ⟨here.trans later opens, (first item List.mem_cons_self).append opens⟩

/-- A loop that reads an item in each turn, and goes on as long as one follows. -/
theorem skips_flatMap {list : List β} (turn : ∀ before, ∀ item ∈ list,
      Skips body exhausted word (print item) follows (loop before) (loop (before ++ [item])))
    (first : ∀ item ∈ list, Opens word (print item) follows follows) :
    Skips body exhausted word (list.flatMap print) follows (loop []) (loop list) ∧
      Opens word (list.flatMap print) follows follows :=
  skips_flatMap_from loop turn first

end Lists

end MiniSqlite.Std
