import MiniSqlite.Executor.Session

/-!
# The columns an expression refers to

The value of an expression depends on the columns it names and on nothing else of
the tuple and the schema it is evaluated against. Columns are found by their names
alone, in the order of the schema.
-/

namespace MiniSqlite.Executor

open MiniSqlite.Common MiniSqlite.Std MiniSqlite.Storage MiniSqlite.Parser

variable {Double : Type}

mutual

/-- The references to columns that evaluating an expression may come across, as table and
column. -/
def exprRefs : Expr Double → List (CString × CString)
  | .literal _ | .functionCall _ _ _ | .subquery => []
  | .columnRef table column => [(table, column)]
  | .binary left _ right => exprRefs left ++ exprRefs right
  | .unary _ operand => exprRefs operand
  | .isNull operand _ => exprRefs operand
  | .inExpr left list _ => exprRefs left ++ listRefs list
  | .between expr low high _ => exprRefs expr ++ exprRefs low ++ exprRefs high
  | .like expr _ _ => exprRefs expr

/-- The references in a list of expressions. -/
def listRefs : List (Expr Double) → List (CString × CString)
  | [] => []
  | item :: list => exprRefs item ++ listRefs list

end

section Congruence

variable [Platform Double] {tuple tuple' : Option (Tuple Double)} {schema schema' : SchemaPointer}

mutual

/-- Expressions evaluate alike where the columns they refer to have the same values. -/
theorem exprEvaluate_congr : (expr : Expr Double) →
    (∀ ref ∈ exprRefs expr, columnValue tuple schema ref.2 = columnValue tuple' schema' ref.2) →
    exprEvaluate tuple schema expr = exprEvaluate tuple' schema' expr
  | .literal _, _ => by rw [exprEvaluate, exprEvaluate]
  | .columnRef table column, same => by
      rw [exprEvaluate, exprEvaluate]
      exact same (table, column) (by rw [exprRefs]; exact List.mem_singleton_self _)
  | .binary left op right, same => by
      rw [exprRefs, List.forall_mem_append] at same
      rw [exprEvaluate, exprEvaluate, exprEvaluate_congr left same.1, exprEvaluate_congr right same.2]
  | .unary op operand, same => by
      rw [exprRefs] at same
      rw [exprEvaluate, exprEvaluate, exprEvaluate_congr operand same]
  | .isNull operand isNot, same => by
      rw [exprRefs] at same
      rw [exprEvaluate, exprEvaluate, exprEvaluate_congr operand same]
  | .inExpr left list isNot, same => by
      rw [exprRefs, List.forall_mem_append] at same
      rw [exprEvaluate, exprEvaluate, exprEvaluate_congr left same.1]
      refine bind_congr fun v => ?_
      rw [foundIn_congr v list same.2]
  | .between expr low high isNot, same => by
      rw [exprRefs, List.forall_mem_append, List.forall_mem_append] at same
      rw [exprEvaluate, exprEvaluate, exprEvaluate_congr expr same.1.1,
        exprEvaluate_congr low same.1.2, exprEvaluate_congr high same.2]
  | .like expr pattern isNot, same => by
      rw [exprRefs] at same
      rw [exprEvaluate, exprEvaluate, exprEvaluate_congr expr same]
  | .functionCall .., _ => by rw [exprEvaluate, exprEvaluate]
  | .subquery, _ => by rw [exprEvaluate, exprEvaluate]

theorem foundIn_congr (left : Value Double) : (list : List (Expr Double)) →
    (∀ ref ∈ listRefs list, columnValue tuple schema ref.2 = columnValue tuple' schema' ref.2) →
    foundIn tuple schema left list = foundIn tuple' schema' left list
  | [], _ => by rw [foundIn, foundIn]
  | item :: list, same => by
      rw [listRefs, List.forall_mem_append] at same
      rw [foundIn, foundIn, exprEvaluate_congr item same.1]
      refine bind_congr fun itemVal => ?_
      rw [foundIn_congr left list same.2]

end

end Congruence

/-! ## Finding a column -/

/-- The value of a column depends on the names of the schema and the values of the tuple. -/
theorem columnValue_congr {tuple tuple' : Tuple Double} {schema schema' : Schema}
    (values : tuple.values = tuple'.values) (names : schema.names = schema'.names)
    (column : CString) :
    columnValue (some tuple) (.to schema) column = columnValue (some tuple') (.to schema') column := by
  rw [columnValue, columnValue, schemaFindColumn_names, schemaFindColumn_names, names]
  simp only [tupleGetValue, values]

theorem exprEvaluate_values [Platform Double] {tuple tuple' : Tuple Double} {schema schema' : Schema}
    (values : tuple.values = tuple'.values) (names : schema.names = schema'.names)
    (expr : Expr Double) :
    exprEvaluate (some tuple) (.to schema) expr = exprEvaluate (some tuple') (.to schema') expr :=
  exprEvaluate_congr expr fun ref _ => columnValue_congr values names ref.2

end MiniSqlite.Executor
