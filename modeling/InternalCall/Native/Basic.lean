import InternalCall.Convention
import InternalCall.Native.Program
import InternalCall.Signature

/-!
# Native routines

A native is one of a closed set of shapes. The shape fixes how the arguments of
a call are passed, so it is checked once, when a table is built, and not at each
call. Routines on scalars are functions that may panic; a managed routine is the
program that it runs on its arguments.
-/

namespace InternalCall

/-- The largest number of parameters that a native may declare, and the number of argument slots
of a call. -/
def maxArity : Nat := 8

/-- A named routine from scalars to a result. The name is what a record of calls shows. -/
structure Routine (α β : Type) where
  /-- The name of the routine. -/
  name : String
  /-- The result for the arguments, or the message of a panic. -/
  run : List α → Except String β

/-- A named routine that takes part in the managed world. -/
structure ManagedRoutine where
  /-- The name of the routine. -/
  name : String
  /-- What the routine does when it is called with the arguments. -/
  run : List Value → Program

/-- A native entry point with its declared shape. -/
inductive Native where
  /-- Native integers in, a native integer out. -/
  | allInteger (arity : UInt8) (routine : Routine Int32 Int32)
  /-- Native integers in, nothing out. -/
  | integerVoid (arity : UInt8) (routine : Routine Int32 Unit)
  /-- Scalars of the declared kinds in and out. -/
  | mixed (signature : Signature) (routine : Routine Scalar Scalar)
  /-- Native integers in, an address out. -/
  | returnsHandle (arity : UInt8) (routine : Routine Int32 Handle)
  /-- Managed values in and out. -/
  | managed (arity : UInt8) (routine : ManagedRoutine)

namespace Native

/-- The number of parameters. -/
def arity : Native → Nat
  | allInteger n _ | integerVoid n _ | returnsHandle n _ | managed n _ => n.toNat
  | mixed s _ => s.arity

/-- The class that reports count the native in. -/
def classOf : Native → SignatureClass
  | allInteger _ _ | integerVoid _ _ => .allInteger
  | mixed _ _ => .mixed
  | returnsHandle _ _ => .returnsHandle
  | managed _ _ => .managed

/-- The signature on scalars. A managed native has none. -/
def signature? : Native → Option Signature
  | allInteger n _ => some (.allInt n.toNat)
  | integerVoid n _ => some (.intVoid n.toNat)
  | mixed s _ => some s
  | returnsHandle n _ => some (.intHandle n.toNat)
  | managed _ _ => none

/-- Whether the native takes part in the managed world. -/
def isManaged : Native → Bool
  | managed _ _ => true
  | _ => false

/-- Whether the native may be called with the convention: managed values cross wrapped calls only. -/
def supports (n : Native) : Convention → Bool
  | .wrapped => true
  | .raw => !n.isManaged

/-- The name of the routine behind the entry point. -/
def routineName : Native → String
  | allInteger _ r => r.name
  | integerVoid _ r => r.name
  | mixed _ r => r.name
  | returnsHandle _ r => r.name
  | managed _ r => r.name

/-- The native's class and shape, as listings and call records show it. -/
def describe (n : Native) : String :=
  match n.signature? with
  | some s => s!"NativeEntry::{n.classOf.text}({s.text})"
  | none => s!"NativeEntry::managed(arity={n.arity})"

end Native

end InternalCall
