import InternalCall.Managed.Error

/-!
# Managed contexts

The engine's side of a wrapped call: a stack of handle frames and one slot for
an error that is to be raised when the current call returns. An engine brings
its own context; `DetachedContext` serves hosts that have no managed heap.
-/

namespace InternalCall

/-- A position of the handle stack, to which it can be released again. Anyone can make one, so it need
not be a position that the stack ever had. -/
structure FrameMark where
  /-- The number of frames that were open. -/
  depth : UInt64
deriving DecidableEq, Repr, Inhabited

/-- The services of an engine that wrapped calls use. -/
class ManagedContext (σ : Type) where
  /-- Opens a handle frame; the mark says where it starts. A context that cannot open one stays as it
  is and panics with the message. -/
  pushFrame : σ → Except String (FrameMark × σ)
  /-- Releases every handle created since the mark was given out. -/
  popFrame : FrameMark → σ → σ
  /-- Records an error to be raised when the current call returns. -/
  setPending : ManagedError → σ → σ
  /-- Empties the slot for the pending error and hands out what it held. -/
  takePending : σ → Option ManagedError × σ

/-- A context without a managed heap. -/
structure DetachedContext where
  /-- The number of open handle frames. -/
  depth : UInt64 := 0
  /-- The error to be raised when the current call returns. -/
  pending : Option ManagedError := none
deriving DecidableEq, Repr, Inhabited

namespace DetachedContext

/-- The largest number of frames that a detached context counts. -/
def maxDepth : UInt64 := 18446744073709551615

/-- The message of the panic with which it refuses to count one more. Builds differ in whether they
check additions; a build for debugging, which is the one that is described here, does. -/
def overflow : String := "attempt to add with overflow"

/-- A detached context counts its frames; releasing to a mark sets the count to that of the mark. -/
instance : ManagedContext DetachedContext where
  pushFrame c :=
    if c.depth < maxDepth then .ok (⟨c.depth⟩, { c with depth := c.depth + 1 }) else .error overflow
  popFrame mark c := { c with depth := mark.depth }
  setPending e c := { c with pending := some e }
  takePending c := (c.pending, { c with pending := none })

end DetachedContext

end InternalCall
