import InternalCall.Native.Run
import InternalCall.Proofs.Run.Steps

/-!
# What a program does, act by act

A program that runs uses the context itself and dispatches further calls. Its
events are those of its own uses and those of the calls that it dispatches, in
the order in which it does them; the events of one dispatch stand together. What
it does in a part that it guards, it does in its place, whether or not the part
panics.
-/

namespace InternalCall

/-- One thing that a program does. -/
inductive Act (σ : Type) where
  /-- It uses the context; this is the event of the use. -/
  | use (ev : Event)
  /-- It dispatches the token, in the context that it has then. -/
  | dispatch (token : UInt32) (args : List Value) (c : σ)

variable {σ : Type}

/-- The events of an act. -/
def Act.trace (reentry : Reentry σ) : Act σ → List Event
  | .use ev => [ev]
  | .dispatch token args c => (reentry token args c).trace

variable [ManagedContext σ]

/-- What a program does when it runs in the context. -/
def Program.acts (reentry : Reentry σ) : Program → σ → List (Act σ)
  | .ret _, _ | .raise _, _ | .panic _, _ => []
  | .pushFrame next, c =>
    match ManagedContext.pushFrame c with
    | .ok (mark, c) => .use (.push mark) :: (next mark).acts reentry c
    | .error _ => []
  | .popFrame mark next, c =>
    .use (.pop mark) :: next.acts reentry (ManagedContext.popFrame mark c)
  | .setPending e next, c =>
    .use (.setPending e) :: next.acts reentry (ManagedContext.setPending e c)
  | .takePending next, c =>
    .use (.takePending (ManagedContext.takePending c).1) ::
      (next (ManagedContext.takePending c).1).acts reentry (ManagedContext.takePending c).2
  | .dispatch token args next, c =>
    .dispatch token args c ::
      match reentry token args c with
      | ⟨.returned outcome, c, _⟩ => (next outcome).acts reentry c
      | _ => []
  | .guarded part next, c =>
    part.acts reentry c ++
      match part.exec reentry c with
      | ⟨.returned result, c, _⟩ => (next (.ok result)).acts reentry c
      | ⟨.panicked p, c, _⟩ => (next (.error p)).acts reentry c
      | _ => []

/-- The events of a program are those of its acts, one act after the other. -/
theorem Program.exec_trace (reentry : Reentry σ) (p : Program) (c : σ) :
    (p.exec reentry c).trace = (p.acts reentry c).flatMap (Act.trace reentry) := by
  induction p generalizing c with
  | ret v => rfl
  | raise e => rfl
  | panic message => rfl
  | pushFrame next ih =>
      rw [exec, acts, Exec.bind_apply]
      cases opens : ManagedContext.pushFrame c with
      | error message =>
          rw [Exec.pushFrame_of_error opens]
          rfl
      | ok opened =>
          rw [Exec.pushFrame_of_ok opens, List.flatMap_cons, ← ih]
          rfl
  | popFrame mark next ih =>
      rw [exec, acts, List.flatMap_cons, ← ih, Exec.bind_apply, Exec.popFrame_apply]
      rfl
  | setPending e next ih =>
      rw [exec, acts, List.flatMap_cons, ← ih, Exec.bind_apply, Exec.setPending_apply]
      rfl
  | takePending next ih =>
      rw [exec, acts, List.flatMap_cons, ← ih, Exec.bind_apply, Exec.takePending_apply]
      rfl
  | dispatch token args next ih =>
      rw [exec, acts, List.flatMap_cons, Exec.bind_apply, Act.trace]
      rcases reentry token args c with ⟨ending, c', trace⟩
      cases ending with
      | returned outcome =>
          rw [← ih]
          rfl
      | _ => simp
  | guarded part next part_ih ih =>
      rw [exec, acts, List.flatMap_append, ← part_ih, Exec.bind_apply, Exec.catchPanic]
      rcases part.exec reentry c with ⟨ending, c', trace⟩
      cases ending with
      | returned result =>
          rw [← ih]
          rfl
      | panicked p =>
          rw [← ih]
          rfl
      | _ => simp

end InternalCall
