import InternalCall.Managed.Error
import InternalCall.Value

/-!
# Failures of a call

A call that was dispatched comes back with a result or with one of these errors.
A managed error is carried through unchanged; the others say how the arguments
or the result disagree with the declared shape of the native.
-/

namespace InternalCall

/-- Why a single call has no result. -/
inductive CallError where
  /-- The native raised a managed error. -/
  | managed (e : ManagedError)
  /-- The number of arguments is not the native's arity. -/
  | arity (token : UInt32) (expected got : Nat)
  /-- The argument at the position has another kind than its parameter. -/
  | argumentKind (token : UInt32) (index : Nat) (expected : ScalarKind) (got : ValueKind)
  /-- The native returned a scalar of another kind than it declares. -/
  | returnKind (token : UInt32) (expected got : ScalarKind)
deriving DecidableEq, Repr

/-- The error in words. A managed error speaks for itself. -/
def CallError.message : CallError → String
  | managed e => e.text
  | arity token expected got => s!"icall {token}: expected {expected} argument(s), got {got}"
  | argumentKind token index expected got =>
    s!"icall {token}: argument {index} expected {expected.cName}, got {got.name}"
  | returnKind token expected got =>
    s!"icall {token}: native returned {got.cName}, declared {expected.cName}"

end InternalCall
