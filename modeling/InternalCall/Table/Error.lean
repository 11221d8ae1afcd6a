import InternalCall.Convention
import InternalCall.Text.Numeral

/-!
# Failures of a table

Why a table cannot be built, and the miss of a token that no entry has. Every
build error names the position and the token at which the first rule fails.
-/

namespace InternalCall

/-- Why a list of records is not a table, or a table cannot be installed. -/
inductive BuildError where
  /-- The token at the position does not exceed the one before it. -/
  | unsorted (index : Nat) (previous token : UInt32)
  /-- The record has no entry point. -/
  | nullEntry (index : Nat) (token : UInt32)
  /-- The flag byte selects no convention. -/
  | unknownFlag (index : Nat) (token : UInt32) (flags : UInt8)
  /-- The three sequences of a table differ in length. -/
  | lengthMismatch (tokens natives flags : Nat)
  /-- The native cannot be called with the convention that its flag byte selects. -/
  | conventionMismatch (index : Nat) (token : UInt32) (convention : Convention)
  /-- The native declares more parameters than a call has argument slots. -/
  | arityTooLarge (index : Nat) (token : UInt32) (arity limit : Nat)
  /-- A registry is already installed. -/
  | alreadyInitialized
deriving DecidableEq, Repr

/-- The error in words. -/
def BuildError.message : BuildError → String
  | unsorted index previous token =>
    s!"icall table unsorted at index {index}: token {token} follows {previous}"
  | nullEntry index token => s!"icall table entry {index} (token {token}) has a null native entry"
  | unknownFlag index token flags =>
    s!"icall table entry {index} (token {token}) has unrecognized flags {Text.hexByte flags}"
  | lengthMismatch tokens natives flags =>
    s!"icall table sequences differ in length: {tokens} tokens, {natives} natives, {flags} flags"
  | conventionMismatch index token convention =>
    s!"icall table entry {index} (token {token}): managed native cannot use the {convention.text} convention"
  | arityTooLarge index token arity limit =>
    s!"icall table entry {index} (token {token}) takes {arity} arguments, limit is {limit}"
  | alreadyInitialized => "icall registry already initialized"

/-- A token that no entry of the table has. -/
structure NotFound where
  /-- The token that was looked for. -/
  token : UInt32
deriving DecidableEq, Repr

/-- The miss in words. -/
def NotFound.message (e : NotFound) : String := s!"icall token {e.token} is not in the table"

end InternalCall
