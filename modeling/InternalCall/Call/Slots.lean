import InternalCall.Native.Basic
import InternalCall.Run.Basic

/-!
# Argument slots

The scalar arguments of a call are copied into a block of `maxArity` slots, one
argument after the other, and the routine receives as many slots as there were
arguments. An argument of the wrong kind ends the copying with an error. Writing
or reading past the block panics; a call that respects the limit on parameters
never gets there.
-/

namespace InternalCall

variable {σ α β : Type}

/-- The argument slots of one call. -/
abbrev Slots (α : Type) := Vector α maxArity

namespace Slots

/-- A block of slots that nobody has written to. -/
def empty [Inhabited α] : Slots α := Vector.replicate maxArity default

/-- Writes into the slot at the position. -/
def write (slots : Slots α) (index : Nat) (a : α) : Exec σ (Slots α) :=
  if h : index < maxArity then return slots.set index a h
  else Exec.panic (.slotOverrun index)

/-- Writes what `read` makes of each item into the slots from `index` on. -/
def fill (read : Nat → β → Except CallError α) (index : Nat) (slots : Slots α) :
    List β → Exec σ (Except CallError (Slots α))
  | [] => return .ok slots
  | item :: rest => do
    match read index item with
    | .error e => return .error e
    | .ok a => fill read (index + 1) (← slots.write index a) rest

/-- The contents of the first `n` slots. -/
def first (slots : Slots α) (n : Nat) : Exec σ (List α) :=
  if n ≤ maxArity then return slots.toList.take n
  else Exec.panic (.slotOverrun n)

end Slots

/-- The argument at the position as a native integer. -/
def readInt (token : UInt32) (index : Nat) (v : Value) : Except CallError Int32 :=
  match v.int? with
  | some n => .ok n
  | none => .error (.argumentKind token index .int v.kind)

/-- The argument at the position as a scalar of the declared kind. -/
def readScalar (token : UInt32) (index : Nat) (item : Value × ScalarKind) :
    Except CallError Scalar :=
  match item.1 with
  | .scalar s => if s.kind = item.2 then .ok s else mismatch
  | _ => mismatch
where
  /-- The error that names the declared kind and the kind of the argument. -/
  mismatch := .error (.argumentKind token index item.2 item.1.kind)

/-- The arguments of a call as native integers. -/
def marshalInts (token : UInt32) (args : List Value) : Exec σ (Except CallError (List Int32)) := do
  match ← Slots.fill (readInt token) 0 Slots.empty args with
  | .error e => return .error e
  | .ok slots => return .ok (← slots.first args.length)

/-- The arguments of a call as scalars of the declared kinds. -/
def marshalScalars (token : UInt32) (params : List ScalarKind) (args : List Value) :
    Exec σ (Except CallError (List Scalar)) := do
  match ← Slots.fill (readScalar token) 0 Slots.empty (args.zip params) with
  | .error e => return .error e
  | .ok slots => return .ok (← slots.first args.length)

end InternalCall
