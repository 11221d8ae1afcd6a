import InternalCall.Native.Basic
import InternalCall.Run.Context

/-!
# Running a routine

A routine is run as it was handed its arguments: the call is recorded first, and
then the routine does what it does. The dispatches that a managed routine makes
are answered by the `Reentry` that it is run under.
-/

namespace InternalCall

variable {σ α β : Type}

/-- Calls a routine on scalars; `encode` says how an argument shows in the record of the call. -/
def Routine.call (r : Routine α β) (encode : α → Value) (args : List α) : Exec σ β := do
  Exec.record (.call r.name (args.map encode))
  match r.run args with
  | .ok result => return result
  | .error message => Exec.panic (.native message)

/-- What answers a dispatch made from inside a managed routine: token and arguments in, outcome
out. -/
abbrev Reentry (σ : Type) := UInt32 → List Value → Exec σ (Except CallError Value)

/-- Allows no further dispatch. -/
def Reentry.none : Reentry σ := fun _ _ => Exec.stop .exhausted

/-- Runs a program to its end. -/
def Program.exec [ManagedContext σ] (reentry : Reentry σ) :
    Program → Exec σ (Except ManagedError Value)
  | .ret v => return .ok v
  | .raise e => return .error e
  | .panic message => Exec.panic (.native message)
  | .pushFrame next => do
    let mark ← Exec.pushFrame
    (next mark).exec reentry
  | .popFrame mark next => do
    Exec.popFrame mark
    next.exec reentry
  | .setPending e next => do
    Exec.setPending e
    next.exec reentry
  | .takePending next => do
    let found ← Exec.takePending
    (next found).exec reentry
  | .dispatch token args next => do
    let outcome ← reentry token args
    (next outcome).exec reentry
  | .guarded part next => do
    let ended ← (part.exec reentry).catchPanic
    (next ended).exec reentry

/-- Calls a managed routine. -/
def ManagedRoutine.call [ManagedContext σ] (r : ManagedRoutine) (reentry : Reentry σ)
    (args : List Value) : Exec σ (Except ManagedError Value) := do
  Exec.record (.call r.name args)
  (r.run args).exec reentry

end InternalCall
