/-!
# Error codes

`error_code_t` of `common/error.h`. Functions that return a code in the same
`int` as an identifier are modelled with `Int` results and `ErrorCode.code`, so
that the two are as indistinguishable as they are in the source.
-/

namespace MiniSqlite.Common

/-- `error_code_t`. -/
inductive ErrorCode where
  | ok
  | ioError
  | pageNotFound
  | bufferPoolFull
  | fileNotOpen
  | txnAborted
  | deadlock
  | lockConflict
  | syntaxError
  | unknownTable
  | unknownColumn
  | duplicateKey
  | nullViolation
  | typeMismatch
  | invalidArgument
  | outOfMemory
  | internalError
  deriving DecidableEq, Repr

/-- The enumerator's integer value. Every code except `DB_OK` is positive. -/
def ErrorCode.code : ErrorCode → Int
  | .ok => 0
  | .ioError => 1001
  | .pageNotFound => 1002
  | .bufferPoolFull => 1003
  | .fileNotOpen => 1004
  | .txnAborted => 2001
  | .deadlock => 2002
  | .lockConflict => 2003
  | .syntaxError => 3001
  | .unknownTable => 3002
  | .unknownColumn => 3003
  | .duplicateKey => 3004
  | .nullViolation => 3005
  | .typeMismatch => 3006
  | .invalidArgument => 3007
  | .outOfMemory => 4001
  | .internalError => 9001

theorem ErrorCode.code_injective {first second : ErrorCode}
    (equal : first.code = second.code) : first = second := by
  cases first <;> cases second <;> first | rfl | simp [ErrorCode.code] at equal

theorem ErrorCode.code_nonneg (error : ErrorCode) : 0 ≤ error.code := by
  cases error <;> decide

/-- What the C code leaves undefined, or a situation a pool is assumed never to meet. -/
inductive Fault where
  /-- A null pointer is followed. -/
  | nullPointer
  /-- A signed counter overflows, so that no page id is left. -/
  | overflow
  /-- A loop has taken more turns than there are things to visit. -/
  | unending
  /-- A frame is needed and only an eviction could give it. -/
  | eviction
  /-- A value is read that has no meaning: bytes never written, no enumerator. -/
  | indeterminate
  /-- Memory outside an array is read or written. -/
  | outOfBounds
  deriving DecidableEq, Repr

end MiniSqlite.Common
