import InternalCall.Scalar

/-!
# Signatures

The declared shape of a native routine: the kinds of its parameters in call
order and what it returns. A signature has one printed form, and falls into one
of the coarse classes that reports count.
-/

namespace InternalCall

/-- What a routine returns. -/
inductive ReturnKind where
  /-- Nothing. -/
  | void
  /-- A scalar of the kind. -/
  | scalar (k : ScalarKind)
deriving DecidableEq, Repr, Inhabited

/-- The type name that stands for the return slot in a prototype. -/
def ReturnKind.cName : ReturnKind → String
  | void => "void"
  | scalar k => k.cName

/-- A coarse class of routines. -/
inductive SignatureClass where
  /-- Native integers in, a native integer or nothing out. -/
  | allInteger
  /-- Any other mix of scalars. -/
  | mixed
  /-- Native integers in, an address out. -/
  | returnsHandle
  /-- Managed values in and out. -/
  | managed
deriving DecidableEq, Repr, Inhabited

/-- The name of the class in reports. -/
def SignatureClass.text : SignatureClass → String
  | allInteger => "all-integer"
  | mixed => "mixed"
  | returnsHandle => "returns-handle"
  | managed => "managed"

/-- The shape of a routine on scalars. -/
structure Signature where
  /-- The kinds of the parameters, in call order. -/
  params : List ScalarKind
  /-- What is returned. -/
  ret : ReturnKind
deriving DecidableEq, Repr, Inhabited

namespace Signature

/-- The signature with `n` native integer parameters that returns a native integer. -/
def allInt (n : Nat) : Signature := ⟨List.replicate n .int, .scalar .int⟩

/-- The signature with `n` native integer parameters that returns nothing. -/
def intVoid (n : Nat) : Signature := ⟨List.replicate n .int, .void⟩

/-- The signature with `n` native integer parameters that returns an address. -/
def intHandle (n : Nat) : Signature := ⟨List.replicate n .int, .scalar .handle⟩

/-- The number of parameters. -/
def arity (s : Signature) : Nat := s.params.length

/-- The class of the signature. Any parameter that is no native integer makes it mixed. -/
def classOf (s : Signature) : SignatureClass :=
  if s.params.all (· == .int) then
    match s.ret with
    | .scalar .handle => .returnsHandle
    | .void | .scalar .int => .allInteger
    | .scalar _ => .mixed
  else .mixed

/-- The parameter list as printed: the type names, separated by commas alone. -/
def paramText (params : List ScalarKind) : String :=
  ",".intercalate (params.map ScalarKind.cName)

/-- The printed form: the return type, a space and the parameters in parentheses. -/
def text (s : Signature) : String := s.ret.cName ++ " (" ++ paramText s.params ++ ")"

end Signature

end InternalCall
