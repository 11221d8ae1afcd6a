import InternalCall.Proofs.Call.ContextUse
import InternalCall.Proofs.Registry.Dispatch

/-!
# Sessions

What happens to one detached context over time. An engine calls entries and
dispatches tokens on it, catches what panics, and uses the context itself in
between; each step starts from the context that the one before left. Whatever
the natives do, a call either ignores the context or is a body in a frame, so
it ends alike whatever was pending when it began, and it leaves the context at
the depth at which it found it. A frame that the context cannot open is a panic,
of a call or of the engine, that leaves the context as it was.
-/

namespace InternalCall

/-- A call that an engine makes. -/
inductive Call where
  /-- Calls an entry. -/
  | invoke (e : Entry) (o : CallOptions) (args : List Value)
  /-- Dispatches a token. -/
  | dispatch (token : UInt32) (args : List Value)

/-- A use that an engine makes of its context between calls. -/
inductive ContextUse where
  /-- Opens a handle frame. -/
  | pushFrame
  /-- Releases the handle frames down to the mark. -/
  | popFrame (mark : FrameMark)
  /-- Records a pending error. -/
  | setPending (e : ManagedError)
  /-- Empties the slot for the pending error. -/
  | takePending

/-- The context after the use, also where the use is a panic. -/
def ContextUse.apply : ContextUse → DetachedContext → DetachedContext
  | pushFrame, c =>
    match ManagedContext.pushFrame c with
    | .ok (_, c) => c
    | .error _ => c
  | popFrame mark, c => ManagedContext.popFrame mark c
  | setPending e, c => ManagedContext.setPending e c
  | takePending, c => (ManagedContext.takePending c).2

/-- A step of a session. -/
inductive SessionStep where
  /-- A call. -/
  | call (x : Call)
  /-- A use of the context by the engine itself. -/
  | use (u : ContextUse)

/-- A call of a session with the context in which it began and what came of it. -/
structure Visit where
  /-- The call. -/
  call : Call
  /-- The context in which it began. -/
  before : DetachedContext
  /-- What came of it. -/
  run : Run DetachedContext (Except CallError Value)

namespace Registry

/-- Makes the call. Dispatches inside it go to the registry, at most `allowance` at once. -/
def make (r : Registry) (allowance : Nat) : Call → Exec DetachedContext (Except CallError Value)
  | .invoke e o args => e.invoke o (r.dispatch allowance) args
  | .dispatch token args => r.dispatch (allowance + 1) token args

/-- The calls of a session that starts in the context. It goes on after a panic, and is over when
a call does not give the context back. -/
def session (r : Registry) (allowance : Nat) : List SessionStep → DetachedContext → List Visit
  | [], _ => []
  | .use u :: rest, c => r.session allowance rest (u.apply c)
  | .call x :: rest, c =>
    let run := r.make allowance x c
    ⟨x, c, run⟩ :: if run.ending.survives then r.session allowance rest run.state else []

/-- A call ignores the context or is a body in a frame, with log records before it. -/
theorem make_cases (r : Registry) (allowance : Nat) (x : Call) :
    (r.make allowance x).IgnoresContext ∨
      ∃ log body, ∀ c, r.make allowance x c = (framed body c).after log := by
  cases x with
  | invoke e o args => exact e.invoke_cases o _ args
  | dispatch token args =>
      rw [make]
      cases h : r.resolver.resolve token with
      | error miss =>
          rw [dispatch_of_miss h]
          exact Or.inl (.escalate _ _)
      | ok e =>
          rw [dispatch_of_resolve h]
          exact e.invoke_cases _ _ args

/-- A call that gives the context back leaves it at the depth at which it found it. -/
theorem depth_make (r : Registry) (allowance : Nat) (x : Call) (c : DetachedContext)
    (survives : (r.make allowance x c).ending.survives = true) :
    (r.make allowance x c).state.depth = c.depth := by
  rcases r.make_cases allowance x with ⟨ending, trace, -, hx⟩ | ⟨log, body, hx⟩
  · rw [hx]
  · by_cases room : c.depth < DetachedContext.maxDepth
    · rw [hx, framed_detached _ room, Run.after_mk] at survives ⊢
      rw [Frame.survives_outerEnding] at survives
      exact Frame.depth_outerContext survives
    · rw [hx, framed_overflow _ room, Run.after_mk]

/-- How a call ends does not depend on what was pending when it began. -/
theorem ending_make (r : Registry) (allowance : Nat) (x : Call) (c : DetachedContext)
    (pending? : Option ManagedError) :
    (r.make allowance x c).ending = (r.make allowance x ⟨c.depth, pending?⟩).ending := by
  rcases r.make_cases allowance x with ⟨ending, trace, -, hx⟩ | ⟨log, body, hx⟩
  · rw [hx, hx]
  · rw [hx, hx]
    by_cases room : c.depth < DetachedContext.maxDepth
    · rw [framed_detached body room, framed_detached body (c := ⟨c.depth, pending?⟩) room,
        Run.after_mk, Run.after_mk]
    · rw [framed_overflow body room, framed_overflow body (c := ⟨c.depth, pending?⟩) room,
        Run.after_mk, Run.after_mk]

/-- What came of a call of a session is what the call yields in the context in which it began. -/
theorem run_of_mem_session {r : Registry} {allowance : Nat} {steps : List SessionStep}
    {c : DetachedContext} {v : Visit} (h : v ∈ r.session allowance steps c) :
    v.run = r.make allowance v.call v.before := by
  induction steps generalizing c with
  | nil => cases h
  | cons step rest ih =>
      cases step with
      | use u => exact ih h
      | call x =>
          rw [session, List.mem_cons] at h
          rcases h with rfl | h
          · rfl
          · split at h
            · exact ih h
            · cases h

end Registry

end InternalCall
