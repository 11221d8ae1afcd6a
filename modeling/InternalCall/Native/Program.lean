import InternalCall.Call.Error
import InternalCall.Run.Event

/-!
# Programs of managed routines

What a managed routine does is given as a program: a tree of the requests that
it makes of its surroundings, each followed by what the routine does with the
answer. A program ends by returning a value, by raising a managed error or by
panicking; a panic of its own, of a call that it dispatches or of the context
ends it too, unless it guards the part of it in which it panics. The tree is all
that a call can observe of a routine, so a statement about every program is a
statement about every behaviour of managed routines.
-/

namespace InternalCall

/-- The behaviour of a managed routine from some point on. -/
inductive Program where
  /-- Returns the value. -/
  | ret (v : Value)
  /-- Raises the error. -/
  | raise (e : ManagedError)
  /-- Panics with the message. -/
  | panic (message : String)
  /-- Opens a handle frame and goes on with its mark. -/
  | pushFrame (next : FrameMark → Program)
  /-- Releases the handle frames down to the mark. -/
  | popFrame (mark : FrameMark) (next : Program)
  /-- Records a pending error. -/
  | setPending (e : ManagedError) (next : Program)
  /-- Empties the slot for the pending error and goes on with what it held. -/
  | takePending (next : Option ManagedError → Program)
  /-- Dispatches another call on the same context and goes on with its outcome. -/
  | dispatch (token : UInt32) (args : List Value) (next : Except CallError Value → Program)
  /-- Runs a part of its own, catches the panic if that part panics, and goes on with how it ended. -/
  | guarded (part : Program) (next : Except Panic (Except ManagedError Value) → Program)

end InternalCall
