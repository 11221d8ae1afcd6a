import InternalCall.Binary64

/-!
# Scalars

The primitive machine values that any native routine may take and return: native
integers, 64-bit integers, doubles and opaque addresses. A scalar kind has one
name in printed prototypes and may have more when prototypes are read.
-/

namespace InternalCall

/-- An opaque native address. Calls pass it on and never look behind it. -/
structure Handle where
  /-- The address as a number. -/
  address : UInt64
deriving DecidableEq, Repr, Inhabited

/-- The handle that refers to nothing. -/
def Handle.null : Handle := ⟨0⟩

/-- Whether the handle refers to nothing. -/
def Handle.isNull (h : Handle) : Bool := h == null

/-- The kind of a scalar slot in a signature. -/
inductive ScalarKind where
  /-- A native integer of 32 bits. -/
  | int
  /-- An integer of 64 bits. -/
  | long
  /-- A double-precision number. -/
  | double
  /-- An opaque address. -/
  | handle
deriving DecidableEq, Repr, Inhabited

namespace ScalarKind

/-- The type name that stands for the kind in a prototype. -/
def cName : ScalarKind → String
  | int => "int"
  | long => "int64_t"
  | double => "double"
  | handle => "void*"

/-- The kind that a type name in a prototype stands for. -/
def ofCName? (name : String) : Option ScalarKind :=
  if name = "int" ∨ name = "int32_t" then some int
  else if name = "int64_t" then some long
  else if name = "double" then some double
  else if name = "void*" ∨ name = "gpointer" then some handle
  else none

/-- The printed name of a kind reads back as the kind. -/
@[simp] theorem ofCName?_cName (k : ScalarKind) : ofCName? k.cName = some k := by
  cases k <;> decide

end ScalarKind

/-- A primitive value. -/
inductive Scalar where
  /-- A native integer. -/
  | int (n : Int32)
  /-- A 64-bit integer. -/
  | long (n : Int64)
  /-- A double. -/
  | double (x : Binary64)
  /-- An opaque address. -/
  | handle (h : Handle)
deriving DecidableEq, Repr

namespace Scalar

/-- The scalar that fills a slot nobody has written to. -/
instance : Inhabited Scalar := ⟨.int 0⟩

/-- The kind of the scalar. -/
def kind : Scalar → ScalarKind
  | int _ => .int
  | long _ => .long
  | double _ => .double
  | handle _ => .handle

/-- The payload of a native integer. -/
def int? : Scalar → Option Int32
  | int n => some n
  | _ => none

/-- The payload of a 64-bit integer. -/
def long? : Scalar → Option Int64
  | long n => some n
  | _ => none

/-- The payload of a double. -/
def double? : Scalar → Option Binary64
  | double x => some x
  | _ => none

/-- The payload of an address. -/
def handle? : Scalar → Option Handle
  | handle h => some h
  | _ => none

/-- Equality of kind and payload, where doubles compare as numbers. -/
def numEq : Scalar → Scalar → Bool
  | int a, int b => a == b
  | long a, long b => a == b
  | double a, double b => a.numEq b
  | handle a, handle b => a == b
  | _, _ => false

end Scalar

end InternalCall
