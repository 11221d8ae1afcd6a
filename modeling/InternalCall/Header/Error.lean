/-!
# Failures of reading a header

A line that fits nowhere, or a prototype of an unknown type, is reported with
its number, counted from 1 over all lines. What the lines amount to as a whole is
reported by assembly.
-/

namespace InternalCall

/-- The three arrays of a table. -/
inductive ArrayKind where
  /-- The tokens. -/
  | indexes
  /-- The symbols of the natives. -/
  | funcs
  /-- The flag bytes. -/
  | flags
deriving DecidableEq, Repr, Inhabited

/-- The name of the array in a header. -/
def ArrayKind.name : ArrayKind → String
  | indexes => "indexes"
  | funcs => "funcs"
  | flags => "flags"

/-- Why a text is no header. -/
inductive HeaderError where
  /-- The line does not fit where it stands. -/
  | unexpectedLine (line : Nat) (text : String)
  /-- A prototype names a type that calls cannot carry. -/
  | unknownType (line : Nat) (type : String)
  /-- An assembly lacks one of its arrays. -/
  | missingArray (assembly : String) (array : ArrayKind)
  /-- The text ends inside an array. -/
  | unterminated (assembly : String) (array : ArrayKind)
  /-- The arrays of an assembly differ in length. -/
  | lengthMismatch (assembly : String) (indexes funcs flags : Nat)
  /-- The comment before a symbol names another token than the array of tokens. -/
  | tokenCommentMismatch (assembly : String) (index : Nat) (comment token : UInt32)
deriving DecidableEq, Repr

/-- The error in words. -/
def HeaderError.message : HeaderError → String
  | unexpectedLine line text => s!"line {line}: unexpected `{text}`"
  | unknownType line type => s!"line {line}: unsupported prototype type `{type}`"
  | missingArray assembly array => s!"assembly `{assembly}` has no `{array.name}` array"
  | unterminated assembly array =>
    s!"assembly `{assembly}`: `{array.name}` array is not terminated"
  | lengthMismatch assembly indexes funcs flags =>
    s!"assembly `{assembly}`: {indexes} indexes, {funcs} funcs, {flags} flags"
  | tokenCommentMismatch assembly index comment token =>
    s!"assembly `{assembly}` entry {index}: comment says token {comment}, index array says {token}"

end InternalCall
