import InternalCall.Proofs.Call.ContextUse
import InternalCall.Proofs.Registry.Dispatch

/-!
# The log of calls

A call that is logged does what it does when it is not, and writes one record
first. A managed routine may dispatch further calls, which a registry logs too,
so the records stand anywhere in the trace of a dispatch; leaving them out gives
the run of a registry that logs no calls.
-/

namespace InternalCall

/-- Whether the event is the log record of a call. -/
def Event.isCallRecord : Event → Bool
  | .log .trace _ => true
  | _ => false

variable {σ α β : Type}

/-- The run without the log records of calls. -/
def Run.unlogged (r : Run σ α) : Run σ α :=
  { r with trace := r.trace.filter fun ev => !ev.isCallRecord }

/-- The second computation does what the first does, but leaves no log records of calls. -/
def Exec.UnloggedIs (x y : Exec σ α) : Prop := ∀ s, y s = (x s).unlogged

namespace Exec.UnloggedIs

theorem pure (a : α) : UnloggedIs (Pure.pure a : Exec σ α) (Pure.pure a) := fun _ => rfl

theorem stop (ending : Ending α) : UnloggedIs (Exec.stop ending : Exec σ α) (Exec.stop ending) :=
  fun _ => rfl

theorem record {ev : Event} (h : ev.isCallRecord = false) :
    UnloggedIs (Exec.record ev : Exec σ Unit) (Exec.record ev) := fun s => by
  simp [Run.unlogged, h]

theorem escalate (e : FatalError) (action : FatalAction) :
    UnloggedIs (e.escalate action : Exec σ α) (e.escalate action) := fun s => by
  rw [FatalError.escalate_apply]
  rfl

/-- Two computations in a row are without their records what the two are without theirs. -/
theorem bind {x y : Exec σ α} {f g : α → Exec σ β} (hx : x.UnloggedIs y)
    (hf : ∀ a, (f a).UnloggedIs (g a)) : (x >>= f).UnloggedIs (y >>= g) := by
  intro s
  rw [Exec.bind_apply, Exec.bind_apply, hx s]
  rcases x s with ⟨ending, s', trace⟩
  cases ending with
  | returned a => simp [Run.unlogged, hf a s', Run.after]
  | panicked p => rfl
  | aborted e => rfl
  | exhausted => rfl

/-- A panic is caught with or without the records. -/
theorem catchPanic {x y : Exec σ α} (hx : x.UnloggedIs y) :
    x.catchPanic.UnloggedIs y.catchPanic := by
  intro s
  unfold Exec.catchPanic
  rw [hx s]
  rcases x s with ⟨ending, s', trace⟩
  cases ending <;> rfl

end Exec.UnloggedIs

/-! ## Calls -/

/-- What a routine on scalars does is not logged. -/
theorem Exec.callThenEnd_unlogged (name : String) (args : List Value) (ending : Ending α) :
    (Exec.callThenEnd name args ending : Exec σ α).UnloggedIs
      (Exec.callThenEnd name args ending) :=
  .bind (.record rfl) fun _ => .stop ending

variable [ManagedContext σ]

/-- Opening a frame leaves no record of a call, nor does a context that refuses to. -/
theorem Exec.pushFrame_unlogged :
    (Exec.pushFrame : Exec σ FrameMark).UnloggedIs Exec.pushFrame := by
  intro c
  rcases Frame.opens_or_refuses c with ⟨mark, opened, opens⟩ | ⟨message, refuses⟩
  · rw [Exec.pushFrame_of_ok opens]
    rfl
  · rw [Exec.pushFrame_of_error refuses]
    rfl

/-- The dispatches of the second are those of the first without the log records of calls. -/
def Reentry.UnloggedIs (logged quiet : Reentry σ) : Prop :=
  ∀ token args, (logged token args).UnloggedIs (quiet token args)

section
variable {logged quiet : Reentry σ} (hquiet : logged.UnloggedIs quiet)
include hquiet

/-- A program whose dispatches are not logged does what it does when they are. -/
theorem Program.exec_unlogged (p : Program) : (p.exec logged).UnloggedIs (p.exec quiet) := by
  induction p with
  | ret v => exact .pure _
  | raise e => exact .pure _
  | panic message => exact .stop _
  | pushFrame next ih => exact .bind Exec.pushFrame_unlogged ih
  | popFrame mark next ih => exact .bind (fun _ => rfl) fun _ => ih
  | setPending e next ih => exact .bind (fun _ => rfl) fun _ => ih
  | takePending next ih => exact .bind (fun _ => rfl) ih
  | dispatch token args next ih => exact .bind (hquiet token args) ih
  | guarded part next part_ih ih => exact .bind part_ih.catchPanic ih

theorem Native.serve_unlogged (n : Native) (o : CallOptions) (token : UInt32)
    (args : List Value) :
    (n.serve o token logged args).UnloggedIs (n.serve o token quiet args) := by
  cases n with
  | managed k r =>
      refine .bind (.bind (.record rfl) fun _ => ?_) fun _ => .pure _
      exact Program.exec_unlogged hquiet (r.run args)
  | _ =>
      simp only [Native.serve, Routine.serve_eq_callThenEnd]
      exact Exec.callThenEnd_unlogged _ _ _

theorem Native.perform_unlogged (n : Native) (o : CallOptions) (token : UInt32)
    (args : List Value) :
    (n.perform o token logged args).UnloggedIs (n.perform o token quiet args) := by
  unfold Native.perform
  cases n.kindError? token args with
  | some err => exact .pure _
  | none => exact n.serve_unlogged hquiet o token args

end

/-- The events of opening a frame are no records of calls. -/
theorem Frame.opening_unlogged (mark : FrameMark) (stale? : Option ManagedError) :
    (Frame.openingEvents mark stale?).filter (fun ev => !ev.isCallRecord) =
      Frame.openingEvents mark stale? := by
  cases stale? <;> rfl

/-- A frame adds no record of a call to the run in it. -/
theorem Run.inFrame_unlogged (mark : FrameMark) (stale? : Option ManagedError)
    (inner : Run σ (Except CallError Value)) :
    (inner.inFrame mark stale?).unlogged = inner.unlogged.inFrame mark stale? := by
  obtain ⟨ending, left, trace⟩ := inner
  cases ending <;>
    simp only [Run.unlogged, Run.inFrame, List.filter_append, Frame.opening_unlogged] <;> rfl

/-- A frame adds no record of a call to those of its body. -/
theorem framed_unlogged {body silent : Exec σ (Except CallError Value)}
    (h : body.UnloggedIs silent) : (framed body).UnloggedIs (framed silent) := by
  intro c
  rcases Frame.opens_or_refuses c with ⟨mark, opened, opens⟩ | ⟨message, refuses⟩
  · rw [framed_of_ok opens, framed_of_ok opens, h, Run.inFrame_unlogged]
  · rw [framed_of_error refuses, framed_of_error refuses]
    rfl

theorem Entry.underConvention_unlogged (e : Entry) {body silent : Exec σ (Except CallError Value)}
    (h : body.UnloggedIs silent) : (e.underConvention body).UnloggedIs (e.underConvention silent) := by
  unfold Entry.underConvention
  cases e.convention with
  | raw => exact h
  | wrapped => exact framed_unlogged h

/-- All that an entry logs by itself is the record of the call. -/
theorem Entry.traceEvents_unlogged (e : Entry) (o : CallOptions) (args : List Value) :
    (e.traceEvents o args).filter (fun ev => !ev.isCallRecord) = [] := by
  unfold Entry.traceEvents
  cases o.traceCalls <;> rfl

/-- An entry that is called without a log does what it does with one. -/
theorem Entry.perform_unlogged {logged quiet : Reentry σ} (hquiet : logged.UnloggedIs quiet)
    (e : Entry) (o : CallOptions) (args : List Value) :
    (e.perform o logged args).UnloggedIs
      (e.perform { o with traceCalls := false } quiet args) := by
  by_cases same : args.length = e.native.arity
  · have hbody : (e.native.perform o e.token logged args).UnloggedIs
        (e.native.perform { o with traceCalls := false } e.token quiet args) :=
      e.native.perform_unlogged hquiet o e.token args
    intro c
    rw [Entry.perform_of_length same, Entry.perform_of_length same,
      e.underConvention_unlogged hbody c]
    simp only [Run.unlogged, Run.after, List.filter_append, Entry.traceEvents_unlogged]
    rfl
  · unfold Entry.perform
    rw [if_pos same, if_pos same]
    exact .pure _

/-- A registry that logs no calls dispatches as one that does, at any depth, but for the records. -/
theorem scanDispatch_unlogged (records : List Record) (settings : Settings) (allowance : Nat) :
    (scanDispatch records settings allowance : Reentry σ).UnloggedIs
      (scanDispatch records { settings with traceCalls := false } allowance) := by
  induction allowance with
  | zero => exact fun _ _ => .stop _
  | succ allowance ih =>
      intro token args
      simp only [scanDispatch]
      cases (records.find? fun r => r.token == token).bind Record.entry? with
      | none => exact .escalate _ _
      | some e => exact e.perform_unlogged ih settings.callOptions args

end InternalCall
