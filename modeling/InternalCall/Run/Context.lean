import InternalCall.Run.Basic

/-!
# Uses of the managed context

The four services of a managed context as computations. Each use is recorded as
an event, so that a trace shows every frame opened and released and everything
that happened to the slot for the pending error.
-/

namespace InternalCall.Exec

variable {σ : Type} [ManagedContext σ]

/-- Opens a handle frame, or panics if the context does. -/
def pushFrame : Exec σ FrameMark := do
  match ManagedContext.pushFrame (← get) with
  | .error message => panic (.context message)
  | .ok (mark, s) =>
    set s
    record (.push mark)
    return mark

/-- Releases the handle frames down to the mark. -/
def popFrame (mark : FrameMark) : Exec σ Unit := do
  set (ManagedContext.popFrame mark (← get))
  record (.pop mark)

/-- Records a pending error. -/
def setPending (e : ManagedError) : Exec σ Unit := do
  set (ManagedContext.setPending e (← get))
  record (.setPending e)

/-- Empties the slot for the pending error and returns what it held. -/
def takePending : Exec σ (Option ManagedError) := do
  let (found, s) := ManagedContext.takePending (← get)
  set s
  record (.takePending found)
  return found

end InternalCall.Exec
