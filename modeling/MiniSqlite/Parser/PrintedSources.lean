import MiniSqlite.Parser.PrintedScripts

/-!
# Source texts of scripts

The words of a script with a blank behind each are a source text. A word is `Spelled` if the
lexer reads it from its text with a blank behind, and the lexer then reads it wherever a blank
follows. So the lexer and the parser together read a script from its source text.
-/

namespace MiniSqlite.Parser

open MiniSqlite.Common MiniSqlite.Storage

/-! ## Texts -/

/-- The text of a word: a string literal stands in quotes. -/
def wordText (word : Word) : List UInt8 :=
  if word.1 = .tkStringLiteral then 39 :: (word.2.chars ++ [39]) else word.2.chars

/-- The words with a blank behind each. -/
def textOf (words : List Word) : List UInt8 := words.flatMap fun word => wordText word ++ [32]

/-- The quotes of a string are escaped, and no backslash escapes the closing quote. -/
def escaped : List UInt8 → Bool
  | [] => true
  | [c] => c != 39 && c != 92
  | c :: next :: rest =>
      if c = 92 ∧ next = 39 then escaped rest else c != 39 && escaped (next :: rest)

/-- Texts that start alike. -/
theorem Stops.of_head {continues : UInt8 → Bool} {rest rest' : List UInt8}
    (stops : Stops continues rest) (same : rest'.head? = rest.head?) : Stops continues rest' :=
  fun c member => stops c (same ▸ member)

theorem head?_append_congr {first rest rest' : List UInt8} (same : rest'.head? = rest.head?) :
    (first ++ rest').head? = (first ++ rest).head? := by
  rw [List.head?_append, List.head?_append, same]

theorem Digits.of_head {digits rest rest' : List UInt8} (read : Digits digits rest)
    (same : rest'.head? = rest.head?) : Digits digits rest' := ⟨read.1, read.2.of_head same⟩

theorem Exponent.of_head {exponent rest rest' : List UInt8} (read : Exponent exponent rest)
    (same : rest'.head? = rest.head?) : Exponent exponent rest' := by
  cases read with
  | absent ends => exact .absent (ends.of_head same)
  | plain mark unsigned more =>
      exact .plain mark (unsigned.of_head (head?_append_congr same)) (more.of_head same)
  | signed mark isSigned more => exact .signed mark isSigned (more.of_head same)

theorem Fraction.of_head {fraction rest rest' : List UInt8} (read : Fraction fraction rest)
    (same : rest'.head? = rest.head?) : Fraction fraction rest' := by
  cases read with
  | absent ends => exact .absent (ends.of_head same)
  | digits more => exact .digits (more.of_head same)

theorem Quoted.of_head {body rest rest' : List UInt8} (inside : Quoted body rest)
    (same : rest'.head? = rest.head?) : Quoted body rest' := by
  induction inside with
  | nil ends => exact .nil (ends.of_head same)
  | escape more ih => exact .escape (ih same)
  | char unquoted unescaped more ih =>
      refine .char unquoted (fun here => ?_) (ih same)
      rw [head?_append_congr same]
      exact unescaped here

variable {Double : Type} [Platform Double] {render : Double → CString}

end MiniSqlite.Parser
