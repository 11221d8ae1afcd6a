import InternalCall.Proofs.Native.Acts
import InternalCall.Proofs.Registry.Dispatch
import InternalCall.Proofs.Session.Basic

/-!
# Frames are balanced

A wrapped call opens one frame and closes it again, on every path on which it
gives the context back and whatever its native does in between. What the native
does stands between the two takes: its own uses of the context, and whole calls
that it dispatches, of which the same is true. All other calls leave the context
alone, and so does a wrapped call for which the context cannot open a frame.
-/

namespace InternalCall

/-- The run of a wrapped call that began in `c`, around the run of what it did in its frame. Log
records apart, the call of its own opens the frame by a push and a take and closes it by a take and
the pop to the mark of its push; a panic is followed by that pop alone. -/
inductive Frame.Surrounds (c : DetachedContext)
    (inner : Run DetachedContext (Except CallError Value)) :
    Run DetachedContext (Except CallError Value) → Prop where
  /-- The native, or the marshaling of its arguments, came to a result. -/
  | returned {result outcome : Except CallError Value} {opening : List Event}
      (ending : inner.ending = .returned result)
      (opens : opening.filter (fun ev => !ev.isLog) = [.push ⟨c.depth⟩, .takePending c.pending]) :
      Surrounds c inner ⟨.returned outcome, ⟨c.depth, none⟩,
        opening ++ (inner.trace ++ [.takePending inner.state.pending, .pop ⟨c.depth⟩])⟩
  /-- The native panicked; the slot is left as the native left it. -/
  | panicked {p : Panic} {opening : List Event} (ending : inner.ending = .panicked p)
      (opens : opening.filter (fun ev => !ev.isLog) = [.push ⟨c.depth⟩, .takePending c.pending]) :
      Surrounds c inner ⟨.panicked p, ⟨c.depth, inner.state.pending⟩,
        opening ++ (inner.trace ++ [.pop ⟨c.depth⟩])⟩
  /-- The process ended inside the native, or the run was cut short there. -/
  | lost {ending : Ending (Except CallError Value)} {opening : List Event}
      (inside : inner.ending.survives = false) (outside : ending.survives = false)
      (opens : opening.filter (fun ev => !ev.isLog) = [.push ⟨c.depth⟩, .takePending c.pending]) :
      Surrounds c inner ⟨ending, inner.state, opening ++ inner.trace⟩

/-- A call around what it did in its frame has the push that opened it. -/
theorem Frame.Surrounds.push_mem {c : DetachedContext}
    {inner run : Run DetachedContext (Except CallError Value)} (h : Frame.Surrounds c inner run) :
    .push ⟨c.depth⟩ ∈ run.trace := by
  have pushes : ∀ {opening : List Event},
      opening.filter (fun ev => !ev.isLog) = [.push ⟨c.depth⟩, .takePending c.pending] →
        Event.push ⟨c.depth⟩ ∈ opening := fun opens =>
    List.mem_of_mem_filter (opens ▸ List.mem_cons_self)
  cases h with
  | returned _ opens | panicked _ opens | lost _ _ opens =>
      exact List.mem_append_left _ (pushes opens)

/-- Opening a frame is one push and one take, apart from what is logged. -/
theorem Frame.filter_opening {log : List Event} (logs : ∀ ev ∈ log, ev.isLog = true)
    (mark : FrameMark) (stale? : Option ManagedError) :
    (log ++ Frame.openingEvents mark stale?).filter (fun ev => !ev.isLog) =
      [.push mark, .takePending stale?] := by
  have hlog : log.filter (fun ev => !ev.isLog) = [] := by
    rw [List.filter_eq_nil_iff]
    intro ev hev
    simp [logs ev hev]
  rw [List.filter_append, hlog, List.nil_append]
  cases stale? <;> rfl

/-- A wrapped call with the right number of arguments surrounds what it does in its frame, if the
context can open one. -/
theorem Entry.invoke_surrounds {e : Entry} {args : List Value} {c : DetachedContext}
    (same : args.length = e.native.arity) (wrapped : e.convention = .wrapped)
    (room : c.depth < DetachedContext.maxDepth) (o : CallOptions)
    (reentry : Reentry DetachedContext) :
    Frame.Surrounds c (e.callInFrame o reentry args ⟨c.depth + 1, none⟩)
      (e.invoke o reentry args c) := by
  have opens := Frame.filter_opening (e.isLog_traceEvents o args) ⟨c.depth⟩ c.pending
  generalize runs : e.callInFrame o reentry args ⟨c.depth + 1, none⟩ = inner
  rw [Entry.invoke_detached same wrapped room o reentry runs, ← List.append_assoc]
  obtain ⟨ending, left, trace⟩ := inner
  cases ending with
  | returned result => exact .returned rfl opens
  | panicked p => exact .panicked rfl opens
  | aborted err =>
      simp only [Frame.outerEnding, Frame.outerContext, Frame.closingEvents, List.append_nil]
      exact .lost rfl rfl opens
  | exhausted =>
      simp only [Frame.outerEnding, Frame.outerContext, Frame.closingEvents, List.append_nil]
      exact .lost rfl rfl opens

/-- A native on scalars does not use the context in its frame. -/
theorem Entry.callInFrame_ignoresContext {σ : Type} [ManagedContext σ] {e : Entry}
    (scalar : e.native.isManaged = false) (o : CallOptions) (reentry : Reentry σ)
    (args : List Value) : (e.callInFrame o reentry args).IgnoresContext := by
  rw [Entry.callInFrame_of_scalar scalar]
  exact e.callScalar_ignoresContext o args

/-- What a managed native does in its frame: it is called, and then its program does what it does,
act by act. -/
theorem Entry.callInFrame_trace {σ : Type} [ManagedContext σ] {e : Entry} {arity : UInt8}
    {routine : ManagedRoutine} (managed : e.native = .managed arity routine) (o : CallOptions)
    (reentry : Reentry σ) (args : List Value) (c : σ) :
    (e.callInFrame o reentry args c).trace =
      .call routine.name args ::
        ((routine.run args).acts reentry c).flatMap (Act.trace reentry) := by
  rw [Entry.callInFrame_of_managed managed, managed, Native.serve_trace, ← Program.exec_trace]
  rfl

end InternalCall
