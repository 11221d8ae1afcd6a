import InternalCall.Scalar

/-!
# Values at a call site

What managed code passes to a call and gets back: a scalar, a reference to an
object on the managed heap, or nothing. Object references only make sense to
routines that take part in the managed world.
-/

namespace InternalCall

/-- A reference to an object on the managed heap. -/
structure ObjectRef where
  /-- The number under which the engine knows the object. -/
  id : UInt64
deriving DecidableEq, Repr, Inhabited

/-- An argument or a result of a call. -/
inductive Value where
  /-- No value. -/
  | void
  /-- A primitive value. -/
  | scalar (s : Scalar)
  /-- A managed object. -/
  | object (r : ObjectRef)
deriving DecidableEq, Repr, Inhabited

/-- The kind of a value, as far as messages tell values apart. -/
inductive ValueKind where
  /-- No value. -/
  | void
  /-- A scalar of the kind. -/
  | scalar (k : ScalarKind)
  /-- A managed object. -/
  | object
deriving DecidableEq, Repr, Inhabited

/-- The name of the kind in messages. -/
def ValueKind.name : ValueKind → String
  | void => "void"
  | scalar k => k.cName
  | object => "object"

namespace Value

/-- The value of a native integer. -/
def int (n : Int32) : Value := scalar (.int n)

/-- The value of a 64-bit integer. -/
def long (n : Int64) : Value := scalar (.long n)

/-- The value of a double. -/
def double (x : Binary64) : Value := scalar (.double x)

/-- The value of an address. -/
def handle (h : Handle) : Value := scalar (.handle h)

instance : Coe Scalar Value := ⟨scalar⟩

instance : Coe ObjectRef Value := ⟨object⟩

/-- Whether there is no value. -/
def isVoid : Value → Bool
  | void => true
  | _ => false

/-- The scalar that the value holds. -/
def scalar? : Value → Option Scalar
  | scalar s => some s
  | _ => none

/-- The native integer that the value holds. -/
def int? (v : Value) : Option Int32 := v.scalar?.bind Scalar.int?

/-- The 64-bit integer that the value holds. -/
def long? (v : Value) : Option Int64 := v.scalar?.bind Scalar.long?

/-- The double that the value holds. -/
def double? (v : Value) : Option Binary64 := v.scalar?.bind Scalar.double?

/-- The address that the value holds. -/
def handle? (v : Value) : Option Handle := v.scalar?.bind Scalar.handle?

/-- The object that the value refers to. -/
def object? : Value → Option ObjectRef
  | object r => some r
  | _ => none

/-- The kind of the value. -/
def kind : Value → ValueKind
  | void => .void
  | scalar s => .scalar s.kind
  | object _ => .object

/-- Equality of values, where doubles compare as numbers. -/
def numEq : Value → Value → Bool
  | void, void => true
  | scalar a, scalar b => a.numEq b
  | object a, object b => a == b
  | _, _ => false

end Value

end InternalCall
