import InternalCall.Run.Context

/-!
# Handle frames of wrapped calls

A wrapped call lives in one handle frame. Entering the frame empties the slot
for the pending error, so an error that was left there before is never taken for
one of this call; leaving it hands out what was recorded meanwhile. A panic
releases the frame and leaves the slot alone.
-/

namespace InternalCall.Frame

variable {σ α : Type} [ManagedContext σ]

/-- Opens a frame and discards an error that was pending before. -/
def enter : Exec σ FrameMark := do
  let mark ← Exec.pushFrame
  if let some stale ← Exec.takePending then
    Exec.log .warn s!"discarding managed error pending before icall: {stale.text}"
  return mark

/-- Takes the pending error and releases the frame. -/
def leave (mark : FrameMark) : Exec σ (Option ManagedError) := do
  let pending? ← Exec.takePending
  Exec.popFrame mark
  return pending?

/-- Runs the computation in a frame of its own; the result comes with the error that was pending
at the end. -/
def within (body : Exec σ α) : Exec σ (α × Option ManagedError) := do
  let mark ← enter
  let result ← body.onPanic (Exec.popFrame mark)
  let pending? ← leave mark
  return (result, pending?)

end InternalCall.Frame
