import Mathlib.Data.List.Infix
import MiniSqlite.Executor.DerivedPredicates

/-!
# LIKE

What the evaluator does with a pattern: it searches for the text between two `%` and
compares any other pattern. The pattern of a single `%` begins and ends with the same one.
-/

namespace MiniSqlite.Executor

open MiniSqlite.Common MiniSqlite.Storage MiniSqlite.Parser

variable {Double : Type} [Platform Double]

/-- `strstr` finds a part that occurs in a string. -/
theorem contains_iff (string part : CString) :
    string.contains part = true ↔ part.chars <:+: string.chars := by
  rw [CString.contains, List.any_eq_true, List.infix_iff_prefix_suffix]
  simp only [List.mem_tails, List.isPrefixOf_iff_prefix]
  exact exists_congr fun _ => And.comm

/-- A pattern begins and ends with `%`. -/
def IsBracketed (pattern : CString) : Prop :=
  pattern.chars.head? = some 37 ∧ pattern.chars.getLast? = some 37

/-- The text between the wildcards at the ends of a pattern. -/
def bracketedText (pattern : CString) : List UInt8 := pattern.chars.tail.dropLast

/-- A string matches a pattern. -/
def MatchesPattern (pattern string : CString) : Prop :=
  IsBracketed pattern ∧ bracketedText pattern <:+: string.chars ∨
    ¬ IsBracketed pattern ∧ pattern = string

/-- The lengths that a bracketed pattern is taken apart with are neither negative nor too
large for the buffer. -/
def LengthsFit (pattern : CString) : Prop :=
  IsBracketed pattern → 2 ≤ pattern.length ∧ innerLength pattern = pattern.length - 2 ∧
    innerLength pattern < 256

/-- What `LIKE` with a pattern has to be. -/
structure LikeLawful (tuple : Option (Tuple Double)) (schema : SchemaPointer)
    (pattern : CString) : Prop where
  lengths : LengthsFit pattern
  decides (e : Expr Double) (string : CString) : Evaluates tuple schema e (.varchar string) →
    ∃ found : Bool, (found = true ↔ MatchesPattern pattern string) ∧
      ∀ isNot, Evaluates tuple schema (.like e pattern isNot) (.boolean (found != isNot))
  null (e : Expr Double) (isNot : Bool) : Evaluates tuple schema e .null →
    Evaluates tuple schema (.like e pattern isNot) .null

/-- A bracketed pattern of at least two bytes and what stands between. -/
theorem innerLength_long {pattern : CString} (long : 2 ≤ pattern.length)
    (short : pattern.length ≤ 255) : innerLength pattern = pattern.length - 2 := by
  rw [innerLength]
  omega

/-- Only the pattern of a single `%` begins and ends with `%` and is shorter than two bytes. -/
theorem IsBracketed.long {pattern : CString} (bracketed : IsBracketed pattern)
    (notSingle : pattern.chars ≠ [37]) : 2 ≤ pattern.length := by
  obtain ⟨first, _⟩ := bracketed
  rw [CString.length]
  match shape : pattern.chars with
  | [] => simp [shape] at first
  | [c] =>
      rw [shape] at first notSingle
      exact absurd (congrArg (fun c => [c]) (Option.some.inj first)) notSingle
  | _ :: _ :: _ => simp

/-- The bytes that are copied are those between the wildcards. -/
theorem ofBytes_inner {pattern : CString} (long : 2 ≤ pattern.length)
    (short : pattern.length ≤ 255) :
    (CString.ofBytes (pattern.chars.tail.take (innerLength pattern))).chars =
      bracketedText pattern := by
  have inner : pattern.chars.tail.take (innerLength pattern) = bracketedText pattern := by
    rw [innerLength_long long short, bracketedText, List.dropLast_eq_take, List.length_tail,
      CString.length]
    congr 1
  have terminated : 0 ∉ bracketedText pattern := fun member =>
    pattern.unterminated (List.mem_of_mem_tail (List.mem_of_mem_dropLast member))
  rw [inner]
  exact congrArg CString.chars (CString.ofBytes_chars ⟨_, terminated⟩)

/-- The match of every pattern but `%` is what it should be. -/
theorem likeMatches_spec {pattern : CString} (short : pattern.length ≤ 255)
    (notSingle : pattern.chars ≠ [37]) (string : CString) :
    ∃ found, likeMatches string pattern = .ok found ∧
      (found = true ↔ MatchesPattern pattern string) := by
  rw [likeMatches]
  by_cases bracketed : IsBracketed pattern
  · have long := bracketed.long notSingle
    have fits : ¬ 256 ≤ innerLength pattern := by
      rw [innerLength_long long short]
      omega
    have test := bracketed
    rw [IsBracketed] at test
    rw [if_pos test, if_neg fits]
    refine ⟨_, rfl, ?_⟩
    rw [contains_iff, ofBytes_inner long short, MatchesPattern]
    simp [bracketed]
  · have test := bracketed
    rw [IsBracketed] at test
    rw [if_neg test]
    refine ⟨_, rfl, ?_⟩
    rw [decide_eq_true_iff, MatchesPattern]
    simp only [bracketed, false_and, not_false_eq_true, true_and, false_or]
    constructor
    · intro same
      cases pattern
      cases string
      simp_all
    · exact congrArg CString.chars

theorem evaluates_like {tuple : Option (Tuple Double)} {schema : SchemaPointer} {e : Expr Double}
    {v : Value Double} (value : Evaluates tuple schema e v) (pattern : CString) (isNot : Bool) :
    exprEvaluate tuple schema (.like e pattern isNot) = applyLike v pattern isNot := by
  rw [Evaluates] at value
  rw [exprEvaluate, value, pure_bind]

/-- `LIKE` with a pattern of at most 255 bytes is what it has to be for every string if and
only if the pattern is not a single `%`. -/
theorem likeLawful_iff (tuple : Option (Tuple Double)) (schema : SchemaPointer)
    (pattern : CString) (short : pattern.length ≤ 255) :
    LikeLawful tuple schema pattern ↔ pattern.chars ≠ [37] := by
  constructor
  · intro lawful single
    have long := (lawful.lengths (by rw [IsBracketed, single]; exact ⟨rfl, rfl⟩)).1
    rw [CString.length, single] at long
    exact absurd long (by decide)
  · intro notSingle
    constructor
    · intro bracketed
      have long := bracketed.long notSingle
      have inner := innerLength_long long short
      exact ⟨long, inner, by omega⟩
    · intro e string value
      obtain ⟨found, decided, correct⟩ := likeMatches_spec short notSingle string
      refine ⟨found, correct, fun isNot => ?_⟩
      rw [Evaluates, evaluates_like value, applyLike, decided]
      rfl
    · intro e isNot value
      rw [Evaluates, evaluates_like value]
      rfl

/-- `'a' LIKE '%'` writes outside the buffer. -/
theorem singleWildcard_unlawful :
    ¬ LikeLawful (none : Option (Tuple Int)) .null (CString.ofChars ['%']) := by
  intro lawful
  have faults : exprEvaluate (none : Option (Tuple Int)) .null
      (.like (.literal (.string (CString.ofChars ['a']))) (CString.ofChars ['%']) false) =
        .error .outOfBounds := rfl
  obtain ⟨found, _, values⟩ := lawful.decides (.literal (.string (CString.ofChars ['a']))) _ rfl
  have value := values false
  rw [Evaluates, faults] at value
  cases value

/-- `LIKE '%%'` and `NOT LIKE '%%'` are what they have to be. -/
theorem twoWildcards_lawful :
    LikeLawful (none : Option (Tuple Int)) .null (CString.ofChars ['%', '%']) :=
  (likeLawful_iff none .null _ (by decide)).mpr (by decide)

end MiniSqlite.Executor
