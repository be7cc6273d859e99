import MiniSqlite.Parser.ParserSound
import MiniSqlite.Parser.SourceTiling
import MiniSqlite.Std.ProcedureEnds

/-!
# Texts are read to their end

The lexer and the parser end on every text, also on texts for which the source goes on with
memory that holds no object or overflows a counter: there they stop.
-/

namespace MiniSqlite.Parser

open MiniSqlite.Common MiniSqlite.Std MiniSqlite.Std.Code ParserT

variable {Double : Type} [Platform Double]

/-- What the source does is not defined from here on: a counter overflows, or memory is used
that holds no object. -/
def Undefined (fault : Fault) : Prop := fault = .overflow ∨ fault = .indeterminate

/-- A call that is not fine fails at once. -/
theorem Call.fails_of_not_fine {α : Type} {procedure : Call Double α} (ready : procedure.Pre)
    (unfine : ¬procedure.Fine) : ∃ fault, Undefined fault ∧ body procedure = .fail fault := by
  cases procedure
  case likePattern minPrec left isNot pattern p =>
    refine ⟨.indeterminate, .inr rfl, ?_⟩
    rw [body]
    unfold parseLikePattern
    split
    case h_1 string => exact absurd ⟨string, rfl⟩ unfine
    case h_2 => rfl
  case assignments assignments p =>
    have ready : p.Ready := ready
    obtain ⟨token, rest, first⟩ := ready.cons
    refine ⟨.indeterminate, .inr rfl, ?_⟩
    have other : token.type ≠ .tkIdentifier := fun named =>
      unfine ((peekType_eq first).trans (congrArg Except.ok named))
    rw [body, parseAssignments, peek_eq first]
    exact if_pos other
  case store stmts capacity s p =>
    refine ⟨.overflow, .inl rfl, ?_⟩
    rw [body, storeStatement, ready.2.grow_overflow (Nat.le_of_not_lt unfine)]
    rfl
  all_goals exact absurd trivial unfine

/-- What `parser_parse_all` does with any tokens: it ends, with statements from segments of
the tokens, unless it comes to where the source is not defined. -/
theorem parserParseAll_ends {tokens : List TokenT} (ends : EndsOnce tokens) :
    EndsWith Undefined (StatementsLeft [] (parserInit tokens))
      (runParser (parserInit tokens) (parserParseAll (parserInit tokens) : Parse Double _)) := by
  have pre : (Call.statements [] 16 (parserInit tokens) : Call Double _).Pre :=
    ⟨ends, Nat.zero_le _, 4, by decide, rfl⟩
  have enough : (Call.statements [] 16 (parserInit tokens) : Call Double _).size <
      maxDepth (parserInit tokens) := by
    rw [Call.size, maxDepth]
    show 16 * tokens.length + 6 < 16 * (tokens.length + 2)
    omega
  rw [runParser, parserParseAll, run_invoke]
  exact answer_endsWith (fun procedure => body_does procedure)
    (fun _ ready unfine => Call.fails_of_not_fine ready unfine) enough pre

/-- `lexer_tokenize` ends on any text, with tokens that tile it. -/
theorem lexerTokenize_ends (source : CString) :
    EndsWith Undefined (fun tokens => Tiles (1, 1) source.chars tokens ∧ EndsOnce tokens)
      (lexerTokenize (lexerInit source)) := by
  obtain ⟨tokens, tiled, ends, lexed⟩ := lexerTokenize_tokens source
  rw [lexed]
  split
  · exact .ok ⟨tiled, ends⟩
  · exact .error (.inl rfl)

end MiniSqlite.Parser
