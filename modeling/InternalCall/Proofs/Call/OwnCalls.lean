import InternalCall.Proofs.Call.ContextUse

/-!
# The calls that a call makes itself

A call of an entry calls one native, its own, and calls it once, provided the
native accepts the arguments and a wrapped call gets its frame; otherwise it
calls none. What a managed routine dispatches while it runs is on the routine's
account: its events stand together right after the record of the routine's call.
-/

namespace InternalCall

/-- Whether the event is the call of a native. -/
def Event.isCall : Event → Bool
  | .call _ _ => true
  | _ => false

variable {σ α β : Type} [ManagedContext σ]

/-- The state in which the body of a wrapped call starts, provided the context opens a frame. -/
def Frame.entered (c : σ) : σ :=
  match ManagedContext.pushFrame c with
  | .error _ => c
  | .ok (_, opened) => (ManagedContext.takePending opened).2

theorem Frame.entered_of_ok {c opened : σ} {mark : FrameMark}
    (opens : ManagedContext.pushFrame c = .ok (mark, opened)) :
    Frame.entered c = (ManagedContext.takePending opened).2 := by
  rw [Frame.entered, opens]

/-- What a native causes while it runs in the state: nothing if it works on scalars; what its
program does if it is managed. -/
def Native.causes (n : Native) (reentry : Reentry σ) (args : List Value) (c : σ) : List Event :=
  match n with
  | .managed _ r => ((r.run args).exec reentry c).trace
  | _ => []

/-- The trace has one call that the native does not make itself, which is the call of the native
with the arguments. -/
def CallsOnce (n : Native) (reentry : Reentry σ) (args : List Value) (c : σ)
    (trace : List Event) : Prop :=
  ∃ before after, trace = before ++ .call n.routineName args :: (n.causes reentry args c ++ after) ∧
    ∀ ev ∈ before ++ after, ev.isCall = false

/-- The trace has no call. -/
def CallsNothing (trace : List Event) : Prop := ∀ ev ∈ trace, ev.isCall = false

/-- A trace in which the native is called is not one without calls. -/
theorem CallsOnce.not_callsNothing {n : Native} {reentry : Reentry σ} {args : List Value} {c : σ}
    {trace : List Event} (once : CallsOnce n reentry args c trace) : ¬ CallsNothing trace := by
  obtain ⟨before, after, rfl, -⟩ := once
  intro nothing
  have called := nothing (.call n.routineName args) (by simp)
  cases called

/-- Events around a trace that are no calls change nothing about what is called. -/
theorem CallsOnce.surround {n : Native} {reentry : Reentry σ} {args : List Value} {c : σ}
    {trace before after : List Event} (h : CallsOnce n reentry args c trace)
    (hbefore : CallsNothing before) (hafter : CallsNothing after) :
    CallsOnce n reentry args c (before ++ (trace ++ after)) := by
  obtain ⟨b, a, rfl, hquiet⟩ := h
  refine ⟨before ++ b, a ++ after, by simp [List.append_assoc], ?_⟩
  intro ev hev
  simp only [List.mem_append] at hev
  rcases hev with (hev | hev) | (hev | hev)
  · exact hbefore ev hev
  · exact hquiet ev (List.mem_append_left _ hev)
  · exact hquiet ev (List.mem_append_right _ hev)
  · exact hafter ev hev

theorem CallsNothing.append {t u : List Event} (ht : CallsNothing t) (hu : CallsNothing u) :
    CallsNothing (t ++ u) := by
  intro ev hev
  rcases List.mem_append.mp hev with h | h
  · exact ht ev h
  · exact hu ev h

/-- Opening a frame calls nothing. -/
theorem Frame.callsNothing_opening (mark : FrameMark) (stale? : Option ManagedError) :
    CallsNothing (Frame.openingEvents mark stale?) := by
  cases stale? <;> simp [CallsNothing, Frame.openingEvents, Event.isCall]

/-- A frame puts its own events around those of its body, and none of them is a call. -/
theorem Run.inFrame_trace (mark : FrameMark) (stale? : Option ManagedError)
    (inner : Run σ (Except CallError Value)) :
    ∃ before after, (inner.inFrame mark stale?).trace = before ++ (inner.trace ++ after) ∧
      CallsNothing before ∧ CallsNothing after := by
  have hopening := Frame.callsNothing_opening mark stale?
  obtain ⟨ending, c, trace⟩ := inner
  cases ending with
  | returned result =>
      exact ⟨_, _, rfl, hopening, by simp [CallsNothing, Event.isCall]⟩
  | panicked p => exact ⟨_, _, rfl, hopening, by simp [CallsNothing, Event.isCall]⟩
  | aborted e => exact ⟨_, [], by simp [Run.inFrame], hopening, by simp [CallsNothing]⟩
  | exhausted => exact ⟨_, [], by simp [Run.inFrame], hopening, by simp [CallsNothing]⟩

/-- A body in a frame starts in the state in which the frame was entered, and the frame adds no
call. -/
theorem framed_trace (body : Exec σ (Except CallError Value)) {c : σ} (opens : Frame.Opens c) :
    ∃ before after, (framed body c).trace = before ++ ((body (Frame.entered c)).trace ++ after) ∧
      CallsNothing before ∧ CallsNothing after := by
  obtain ⟨mark, opened, hpush⟩ := opens
  rw [framed_of_ok hpush, Frame.entered_of_ok hpush]
  exact Run.inFrame_trace mark _ _

/-- A call that comes back from its frame has the result of its body, unless an error is pending. -/
theorem framed_returned {body : Exec σ (Except CallError Value)} {c : σ}
    {outcome : Except CallError Value} (h : (framed body c).ending = .returned outcome) :
    ∃ result, (body (Frame.entered c)).ending = .returned result ∧
      outcome = wrappedOutcome result
        (ManagedContext.takePending (body (Frame.entered c)).state).1 := by
  rcases Frame.opens_or_refuses c with ⟨mark, opened, opens⟩ | ⟨message, refuses⟩
  · rw [framed_of_ok opens, ← Frame.entered_of_ok opens] at h
    generalize body (Frame.entered c) = inner at h ⊢
    obtain ⟨ending, left, trace⟩ := inner
    cases ending with
    | returned result =>
        cases h
        exact ⟨result, rfl, rfl⟩
    | panicked p | aborted e | exhausted => cases h
  · rw [framed_of_error refuses] at h
    cases h

/-- A value comes out of a frame only if the body returned it and nothing is pending. -/
theorem wrappedOutcome_eq_ok_iff {result : Except CallError Value} {pending? : Option ManagedError}
    {v : Value} : wrappedOutcome result pending? = .ok v ↔ result = .ok v ∧ pending? = none := by
  cases result <;> cases pending? <;> simp [wrappedOutcome]

section
omit [ManagedContext σ]

/-- How a routine ends that is run on the payloads. -/
def Routine.ending (r : Routine α β) (result : β → Except CallError Value) (payloads : List α) :
    Ending (Except CallError Value) :=
  match r.run payloads with
  | .ok b => .returned (result b)
  | .error message => .panicked (.native message)

/-- Records the call of a routine with the arguments and ends so. -/
def Exec.callThenEnd (name : String) (args : List Value) (ending : Ending α) : Exec σ α := do
  Exec.record (.call name args)
  Exec.stop ending

theorem Exec.ending_callThenEnd (name : String) (args : List Value) (ending : Ending α) (c : σ) :
    (Exec.callThenEnd name args ending c).ending = ending := rfl

theorem Exec.trace_callThenEnd (name : String) (args : List Value) (ending : Ending α) (c : σ) :
    (Exec.callThenEnd name args ending c).trace = [.call name args] := rfl

/-- To serve arguments is to call the routine with them and to end as it does on their payloads. -/
theorem Routine.serve_eq_callThenEnd (r : Routine α β) (payload? : Value → Option α)
    (result : β → Except CallError Value) (args : List Value) :
    (r.serve payload? result args : Exec σ _) =
      Exec.callThenEnd r.name args (r.ending result (args.filterMap payload?)) := by
  unfold Routine.serve Routine.ending Exec.callThenEnd
  cases r.run (args.filterMap payload?) <;> rfl

/-- Serving the arguments records the call of the routine and nothing else. -/
theorem Routine.serve_trace (r : Routine α β) (payload? : Value → Option α)
    (result : β → Except CallError Value) (args : List Value) (c : σ) :
    (r.serve payload? result args c).trace = [.call r.name args] := by
  rw [Routine.serve_eq_callThenEnd, Exec.trace_callThenEnd]

end

/-- Running a native records its call first; what follows is what the native causes. -/
theorem Native.serve_trace (n : Native) (o : CallOptions) (token : UInt32) (reentry : Reentry σ)
    (args : List Value) (c : σ) :
    (n.serve o token reentry args c).trace =
      .call n.routineName args :: n.causes reentry args c := by
  cases n with
  | managed k r =>
      simp only [Native.serve, ManagedRoutine.call, Exec.bind_apply, Exec.record_apply,
        Run.andThen_returned, Native.causes, Native.routineName]
      rcases (r.run args).exec reentry c with ⟨ending, c', trace⟩
      cases ending <;> simp [Exec.pure_apply]
  | _ => exact Routine.serve_trace _ _ _ _ _

/-- With arguments of the declared kinds the native is called once. -/
theorem Native.perform_callsOnce {n : Native} {o : CallOptions} {token : UInt32}
    {reentry : Reentry σ} {args : List Value} (kinds : n.kindError? token args = none) (c : σ) :
    CallsOnce n reentry args c (n.perform o token reentry args c).trace := by
  rw [Native.perform_of_kinds kinds, Native.serve_trace]
  exact ⟨[], [], by simp, by simp⟩

/-- With an argument of another kind nothing is called. -/
theorem Native.perform_callsNothing {n : Native} {o : CallOptions} {token : UInt32}
    {reentry : Reentry σ} {args : List Value} (kinds : n.kindError? token args ≠ none) (c : σ) :
    CallsNothing (n.perform o token reentry args c).trace := by
  obtain ⟨e, he⟩ := Option.ne_none_iff_exists'.mp kinds
  rw [Native.perform_of_kindError he]
  simp [CallsNothing, Exec.pure_apply]

/-- What a native on scalars causes does not depend on the state. -/
theorem Native.causes_of_scalar {n : Native} (h : n.isManaged = false) (reentry : Reentry σ)
    (args : List Value) (c : σ) : n.causes reentry args c = [] := by
  cases n with
  | managed k r => cases h
  | _ => rfl

/-- Log records call nothing. -/
theorem Entry.callsNothing_traceEvents (e : Entry) (o : CallOptions) (args : List Value) :
    CallsNothing (e.traceEvents o args) := by
  intro ev hev
  cases ev with
  | call name args => cases e.isLog_traceEvents o _ _ hev
  | _ => rfl

/-- The trace of a call that gets as far as its native, when the number of arguments is right: that of
the native under its convention, with events around it that call nothing. -/
theorem Entry.perform_trace {r : Record} {e : Entry} (makes : r.Makes e) (o : CallOptions)
    (reentry : Reentry σ) {args : List Value} (same : args.length = e.native.arity) {c : σ}
    (begins : e.convention.Begins c) :
    ∃ start before after, (e.perform o reentry args c).trace =
        before ++ ((e.native.perform o e.token reentry args start).trace ++ after) ∧
      CallsNothing before ∧ CallsNothing after ∧
      e.native.causes reentry args start = e.native.causes reentry args (Frame.entered c) := by
  have hlog := e.callsNothing_traceEvents o args
  rw [Entry.perform_of_length same, Entry.underConvention]
  cases hc : e.convention with
  | raw =>
      have scalar := makes.isManaged_of_raw hc
      refine ⟨c, e.traceEvents o args, [], ?_, hlog, fun _ hev => absurd hev List.not_mem_nil, ?_⟩
      · rw [List.append_nil]
        rfl
      · rw [Native.causes_of_scalar scalar, Native.causes_of_scalar scalar]
  | wrapped =>
      obtain ⟨before, after, htrace, hbefore, hafter⟩ :=
        framed_trace (e.native.perform o e.token reentry args) (begins hc)
      refine ⟨_, e.traceEvents o args ++ before, after, ?_, hlog.append hbefore, hafter, rfl⟩
      rw [List.append_assoc, ← htrace]
      rfl

/-- An entry whose native accepts the arguments calls the native once, if the call gets that far. -/
theorem Entry.perform_callsOnce {r : Record} {e : Entry} (makes : r.Makes e) (o : CallOptions)
    (reentry : Reentry σ) {args : List Value} (accepts : e.native.Accepts args) {c : σ}
    (begins : e.convention.Begins c) :
    CallsOnce e.native reentry args (Frame.entered c) (e.perform o reentry args c).trace := by
  obtain ⟨start, before, after, htrace, hbefore, hafter, hcauses⟩ :=
    Entry.perform_trace makes o reentry accepts.1 begins
  have kinds : e.native.kindError? e.token args = none :=
    (Native.accepts_iff accepts.1).mp accepts
  have honce : CallsOnce e.native reentry args start _ :=
    Native.perform_callsOnce (o := o) kinds start
  rw [htrace]
  have := honce.surround hbefore hafter
  unfold CallsOnce at this ⊢
  rwa [hcauses] at this

/-- A call that does not get its frame ends in the panic of the context. What it was to run in the
frame is not run, and the context is left alone. -/
theorem Entry.perform_of_not_begins {e : Entry} {args : List Value}
    (same : args.length = e.native.arity) (o : CallOptions) (reentry : Reentry σ) {c : σ}
    (stuck : ¬ e.convention.Begins c) :
    ∃ message, ManagedContext.pushFrame c = .error message ∧ e.perform o reentry args c =
      ⟨.panicked (.context message), c, e.traceEvents o args⟩ := by
  obtain ⟨wrapped, closed⟩ := Classical.not_imp.mp stuck
  obtain ⟨message, refuses⟩ := Frame.not_opens_iff.mp closed
  refine ⟨message, refuses, ?_⟩
  rw [Entry.perform_of_length same, Entry.underConvention, wrapped]
  dsimp only
  rw [framed_of_error refuses, Run.after_mk, List.append_nil]

/-- An entry whose native does not accept the arguments calls nothing, nor does one that gets no
frame. -/
theorem Entry.perform_callsNothing {r : Record} {e : Entry} (makes : r.Makes e) (o : CallOptions)
    (reentry : Reentry σ) {args : List Value} {c : σ}
    (refuses : ¬ (e.native.Accepts args ∧ e.convention.Begins c)) :
    CallsNothing (e.perform o reentry args c).trace := by
  by_cases same : args.length = e.native.arity
  · by_cases begins : e.convention.Begins c
    · obtain ⟨start, before, after, htrace, hbefore, hafter, -⟩ :=
        Entry.perform_trace makes o reentry same begins
      have kinds : e.native.kindError? e.token args ≠ none := fun h =>
        refuses ⟨(Native.accepts_iff same).mpr h, begins⟩
      rw [htrace]
      exact hbefore.append ((Native.perform_callsNothing kinds start).append hafter)
    · obtain ⟨message, -, panics⟩ := Entry.perform_of_not_begins same o reentry begins
      rw [panics]
      exact e.callsNothing_traceEvents o args
  · simp [Entry.perform, same, Exec.pure_apply, CallsNothing]

theorem Record.Makes.callsNothing {r : Record} {e : Entry} (makes : r.Makes e) (o : CallOptions)
    (reentry : Reentry σ) {args : List Value} {c : σ}
    (refuses : ¬ (e.native.Accepts args ∧ e.convention.Begins c)) :
    CallsNothing (e.invoke o reentry args c).trace := by
  rw [makes.invoke_eq_perform]
  exact Entry.perform_callsNothing makes o reentry refuses

/-- A call calls the native, and once, exactly when the native accepts the arguments and the call gets
its frame, if it needs one. -/
theorem Record.Makes.callsOnce_iff {r : Record} {e : Entry} (makes : r.Makes e) (o : CallOptions)
    (reentry : Reentry σ) (args : List Value) (c : σ) :
    CallsOnce e.native reentry args (Frame.entered c) (e.invoke o reentry args c).trace ↔
      e.native.Accepts args ∧ e.convention.Begins c := by
  constructor
  · intro once
    by_contra refuses
    exact once.not_callsNothing (makes.callsNothing o reentry refuses)
  · rintro ⟨accepts, begins⟩
    rw [makes.invoke_eq_perform]
    exact Entry.perform_callsOnce makes o reentry accepts begins

end InternalCall
