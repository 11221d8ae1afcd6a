import InternalCall.Run.Event

/-!
# Runs

A computation of type `Exec σ α` starts in a state of type `σ`, usually the
managed context of a thread, and yields a `Run`: how it ended, the state it left
and the events it caused, oldest first. Computations are composed as a monad;
what follows an ending other than a result is not run.
-/

namespace InternalCall

/-- What a computation yields. -/
structure Run (σ α : Type) where
  /-- How the computation ended. -/
  ending : Ending α
  /-- The state that it left. -/
  state : σ
  /-- The events that it caused, oldest first. -/
  trace : List Event
deriving DecidableEq, Repr

/-- A computation on a state. -/
def Exec (σ α : Type) : Type := σ → Run σ α

variable {σ α β γ : Type}

namespace Run

/-- The run with earlier events put in front of its own. -/
def after (earlier : List Event) (r : Run σ α) : Run σ α := { r with trace := earlier ++ r.trace }

/-- Goes on from a run that returned; any other ending stays as it is. -/
def andThen : Run σ α → (α → Exec σ β) → Run σ β
  | ⟨.returned a, s, trace⟩, f => (f a s).after trace
  | ⟨.panicked p, s, trace⟩, _ => ⟨.panicked p, s, trace⟩
  | ⟨.aborted e, s, trace⟩, _ => ⟨.aborted e, s, trace⟩
  | ⟨.exhausted, s, trace⟩, _ => ⟨.exhausted, s, trace⟩

@[simp] theorem after_nil (r : Run σ α) : r.after [] = r := rfl

@[simp] theorem after_after (t u : List Event) (r : Run σ α) :
    (r.after u).after t = r.after (t ++ u) := by
  simp [after]

theorem andThen_after (t : List Event) (r : Run σ α) (f : α → Exec σ β) :
    (r.after t).andThen f = (r.andThen f).after t := by
  obtain ⟨ending, s, trace⟩ := r
  cases ending <;> simp [andThen, after]

theorem andThen_assoc (r : Run σ α) (f : α → Exec σ β) (g : β → Exec σ γ) :
    (r.andThen f).andThen g = r.andThen fun a s => (f a s).andThen g := by
  obtain ⟨ending, s, trace⟩ := r
  cases ending with
  | returned a => exact andThen_after trace (f a s) g
  | panicked p => rfl
  | aborted e => rfl
  | exhausted => rfl

end Run

namespace Exec

/-- Returns the value and does nothing else. -/
protected def pure (a : α) : Exec σ α := fun s => ⟨.returned a, s, []⟩

/-- Runs the first computation and, if it returned, the one that follows from its result. -/
protected def bind (x : Exec σ α) (f : α → Exec σ β) : Exec σ β := fun s => (x s).andThen f

instance : Monad (Exec σ) where
  pure := Exec.pure
  bind := Exec.bind

theorem pure_apply (a : α) (s : σ) : (pure a : Exec σ α) s = ⟨.returned a, s, []⟩ := rfl

theorem bind_apply (x : Exec σ α) (f : α → Exec σ β) (s : σ) :
    (x >>= f) s = (x s).andThen f := rfl

instance : LawfulMonad (Exec σ) := LawfulMonad.mk' _
  (fun x => by
    funext s
    show (x s).andThen Exec.pure = x s
    obtain ⟨ending, _, _⟩ := x s
    cases ending <;> simp [Run.andThen, Run.after, Exec.pure])
  (fun _ _ => rfl)
  (fun x f g => by
    funext s
    exact Run.andThen_assoc (x s) f g)

/-- Ends without a result. -/
def stop (ending : Ending α) : Exec σ α := fun s => ⟨ending, s, []⟩

/-- Panics. -/
def panic (p : Panic) : Exec σ α := stop (.panicked p)

/-- Ends the process. -/
def abort (e : FatalError) : Exec σ α := stop (.aborted e)

/-- Records an event. -/
def record (e : Event) : Exec σ Unit := fun s => ⟨.returned (), s, [e]⟩

/-- Writes a log record. -/
def log (level : LogLevel) (message : String) : Exec σ Unit := record (.log level message)

/-- The current state. -/
def get : Exec σ σ := fun s => ⟨.returned s, s, []⟩

/-- Replaces the state. -/
def set (s : σ) : Exec σ Unit := fun _ => ⟨.returned (), s, []⟩

/-- Runs the computation and, if it panics, the cleanup before the panic goes on. The process does
not clean up when it is aborted. -/
def onPanic (x : Exec σ α) (cleanup : Exec σ Unit) : Exec σ α := fun s =>
  match x s with
  | ⟨.panicked p, s, trace⟩ => ((cleanup s).andThen fun _ => panic p).after trace
  | r => r

/-- Runs the computation and catches its panic. The end of the process and a run that was cut short
are not caught. -/
def catchPanic (x : Exec σ α) : Exec σ (Except Panic α) := fun s =>
  match x s with
  | ⟨.returned a, s, trace⟩ => ⟨.returned (.ok a), s, trace⟩
  | ⟨.panicked p, s, trace⟩ => ⟨.returned (.error p), s, trace⟩
  | ⟨.aborted e, s, trace⟩ => ⟨.aborted e, s, trace⟩
  | ⟨.exhausted, s, trace⟩ => ⟨.exhausted, s, trace⟩

end Exec

/-- What a fatal error does to the process. -/
inductive FatalAction where
  /-- The process ends. -/
  | abort
  /-- The error panics, for hosts that isolate the runtime. -/
  | panic
deriving DecidableEq, Repr, Inhabited

/-- Logs the error and stops as the action says. -/
def FatalError.escalate (e : FatalError) (action : FatalAction) : Exec σ α := do
  Exec.log .error e.message
  match action with
  | .abort => Exec.abort e
  | .panic => Exec.panic (.fatal e)

end InternalCall
