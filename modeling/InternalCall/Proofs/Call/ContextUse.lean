import InternalCall.Proofs.Call.Invoke

/-!
# What a call does with its context

A call on scalars and a call that is refused run alike in every context and do
nothing with it. A wrapped call puts a frame around what its native does: before
it one push and one take, after it one take and the pop, or only the pop when the
native panicked. Where the context cannot open the frame the call panics before
any of that.
-/

namespace InternalCall

/-- Whether the event is a use of the managed context. -/
def Event.isContextUse : Event → Bool
  | .push _ | .pop _ | .setPending _ | .takePending _ => true
  | .log _ _ | .call _ _ => false

/-- Whether the event is a log record. -/
def Event.isLog : Event → Bool
  | .log _ _ => true
  | _ => false

/-- A log record is no use of the context. -/
theorem Event.isContextUse_of_isLog {ev : Event} (h : ev.isLog = true) :
    ev.isContextUse = false := by
  cases ev with
  | log level message => rfl
  | _ => cases h

variable {σ α β : Type}

/-- The computation runs alike in every state, leaves the state alone and does not use the
context. -/
def Exec.IgnoresContext (x : Exec σ α) : Prop :=
  ∃ ending trace, (∀ ev ∈ trace, ev.isContextUse = false) ∧ ∀ s, x s = ⟨ending, s, trace⟩

namespace Exec.IgnoresContext

theorem leaves {x : Exec σ α} (hx : IgnoresContext x) (s : σ) :
    (x s).state = s ∧ ∀ ev ∈ (x s).trace, ev.isContextUse = false := by
  obtain ⟨ending, trace, quiet, hx⟩ := hx
  rw [hx]
  exact ⟨rfl, quiet⟩

theorem pure (a : α) : IgnoresContext (Pure.pure a : Exec σ α) :=
  ⟨.returned a, [], by simp, fun _ => rfl⟩

theorem panic (p : Panic) : IgnoresContext (Exec.panic p : Exec σ α) :=
  ⟨.panicked p, [], by simp, fun _ => rfl⟩

theorem record {ev : Event} (h : ev.isContextUse = false) :
    IgnoresContext (Exec.record ev : Exec σ Unit) :=
  ⟨.returned (), [ev], by simpa using h, fun _ => rfl⟩

theorem escalate (e : FatalError) (action : FatalAction) :
    IgnoresContext (e.escalate action : Exec σ α) :=
  ⟨_, _, by simp [Event.isContextUse], fun s => FatalError.escalate_apply e action s⟩

/-- What goes on from a computation that ignores the context ignores it if each continuation
does. -/
theorem bind {x : Exec σ α} {f : α → Exec σ β} (hx : IgnoresContext x)
    (hf : ∀ a, IgnoresContext (f a)) : IgnoresContext (x >>= f) := by
  obtain ⟨ending, trace, quiet, hx⟩ := hx
  cases ending with
  | returned a =>
      obtain ⟨ending', trace', quiet', hfa⟩ := hf a
      refine ⟨ending', trace ++ trace', List.forall_mem_append.mpr ⟨quiet, quiet'⟩, fun s => ?_⟩
      rw [Exec.bind_apply, hx, Run.andThen_returned, hfa, Run.after_mk]
  | panicked p => exact ⟨.panicked p, trace, quiet, fun s => by rw [Exec.bind_apply, hx]; rfl⟩
  | aborted e => exact ⟨.aborted e, trace, quiet, fun s => by rw [Exec.bind_apply, hx]; rfl⟩
  | exhausted => exact ⟨.exhausted, trace, quiet, fun s => by rw [Exec.bind_apply, hx]; rfl⟩

/-- The same for a computation that yields an error or a value. -/
theorem bindResult {ε : Type} {x : Exec σ (Except ε α)} {f : Except ε α → Exec σ β}
    (hx : IgnoresContext x) (herror : ∀ e, IgnoresContext (f (.error e)))
    (hok : ∀ a, IgnoresContext (f (.ok a))) : IgnoresContext (x >>= f) := by
  refine bind hx fun result => ?_
  cases result with
  | error e => exact herror e
  | ok a => exact hok a

end Exec.IgnoresContext

open Exec.IgnoresContext in
/-- Copying arguments into slots ignores the context, also where it panics. -/
theorem Slots.fill_ignoresContext (read : Nat → β → Except CallError α) (index : Nat)
    (slots : Slots α) (items : List β) :
    (Slots.fill read index slots items : Exec σ _).IgnoresContext := by
  induction items generalizing index slots with
  | nil => exact pure _
  | cons item rest ih =>
      rw [Slots.fill]
      cases read index item with
      | error e => exact pure _
      | ok a =>
          refine bind ?_ fun slots => ih (index + 1) slots
          unfold Slots.write
          split
          · exact pure _
          · exact panic _

open Exec.IgnoresContext in
theorem Slots.first_ignoresContext (slots : Slots α) (n : Nat) :
    (slots.first n : Exec σ _).IgnoresContext := by
  unfold Slots.first
  split
  · exact pure _
  · exact panic _

open Exec.IgnoresContext in
theorem marshalInts_ignoresContext (token : UInt32) (args : List Value) :
    (marshalInts token args : Exec σ _).IgnoresContext :=
  bindResult (Slots.fill_ignoresContext _ _ _ _) (fun _ => pure _) fun slots =>
    bind (Slots.first_ignoresContext slots _) fun _ => pure _

open Exec.IgnoresContext in
theorem marshalScalars_ignoresContext (token : UInt32) (params : List ScalarKind)
    (args : List Value) : (marshalScalars token params args : Exec σ _).IgnoresContext :=
  bindResult (Slots.fill_ignoresContext _ _ _ _) (fun _ => pure _) fun slots =>
    bind (Slots.first_ignoresContext slots _) fun _ => pure _

open Exec.IgnoresContext in
/-- A routine on scalars does not see the context. -/
theorem Routine.call_ignoresContext (r : Routine α β) (encode : α → Value) (args : List α) :
    (r.call encode args : Exec σ _).IgnoresContext := by
  refine bind (record rfl) fun _ => ?_
  cases r.run args with
  | ok b => exact pure _
  | error message => exact panic _

open Exec.IgnoresContext in
/-- A call on scalars ignores the context, whatever the native and the arguments are. -/
theorem Entry.callScalar_ignoresContext (e : Entry) (o : CallOptions) (args : List Value) :
    (e.callScalar o args : Exec σ _).IgnoresContext := by
  obtain ⟨token, native, convention⟩ := e
  cases native with
  | allInteger n r =>
      refine bindResult (marshalInts_ignoresContext token args) (fun _ => pure _) fun ints => ?_
      exact bind (r.call_ignoresContext _ ints) fun _ => pure _
  | integerVoid n r =>
      refine bindResult (marshalInts_ignoresContext token args) (fun _ => pure _) fun ints => ?_
      exact bind (r.call_ignoresContext _ ints) fun _ => pure _
  | returnsHandle n r =>
      refine bindResult (marshalInts_ignoresContext token args) (fun _ => pure _) fun ints => ?_
      exact bind (r.call_ignoresContext _ ints) fun _ => pure _
  | mixed s r =>
      refine bindResult (marshalScalars_ignoresContext token s.params args) (fun _ => pure _)
        fun scalars => ?_
      exact bind (r.call_ignoresContext _ scalars) fun _ => pure _
  | managed n r => exact panic _

/-- What a call logs before anything else. -/
def Entry.traceEvents (e : Entry) (o : CallOptions) (args : List Value) : List Event :=
  if o.traceCalls then [.log .trace (e.traceLine args)] else []

theorem Entry.isLog_traceEvents (e : Entry) (o : CallOptions) (args : List Value) :
    ∀ ev ∈ e.traceEvents o args, ev.isLog = true := by
  unfold Entry.traceEvents
  split <;> simp [Event.isLog]

variable [ManagedContext σ]

/-- A raw call with the right number of arguments logs itself and calls the native on scalars. -/
theorem Entry.invoke_of_raw {e : Entry} {args : List Value} (same : args.length = e.native.arity)
    (raw : e.convention = .raw) (o : CallOptions) (reentry : Reentry σ) (c : σ) :
    e.invoke o reentry args c = (e.callScalar o args c).after (e.traceEvents o args) := by
  by_cases ht : o.traceCalls = true
  · simp [Entry.invoke, Entry.traceEvents, same, raw, ht, Exec.bind_apply]
  · simp [Entry.invoke, Entry.traceEvents, same, raw, ht]

/-- A wrapped call with the right number of arguments logs itself and runs the native in a frame. -/
theorem Entry.invoke_of_wrapped {e : Entry} {args : List Value}
    (same : args.length = e.native.arity) (wrapped : e.convention = .wrapped) (o : CallOptions)
    (reentry : Reentry σ) (c : σ) :
    e.invoke o reentry args c =
      (framed (e.callInFrame o reentry args) c).after (e.traceEvents o args) := by
  rw [← Entry.callWrapped_eq_framed]
  by_cases ht : o.traceCalls = true
  · simp [Entry.invoke, Entry.traceEvents, same, wrapped, ht, Exec.bind_apply]
  · simp [Entry.invoke, Entry.traceEvents, same, wrapped, ht]

/-- The body as the convention of the entry has it run: as it is, or in a frame. -/
def Entry.underConvention (e : Entry) (body : Exec σ (Except CallError Value)) :
    Exec σ (Except CallError Value) :=
  match e.convention with
  | .raw => body
  | .wrapped => framed body

/-- With the right number of arguments, a call means that the entry logs the call and performs its
native under its convention. -/
theorem Entry.perform_of_length {e : Entry} {args : List Value}
    (same : args.length = e.native.arity) (o : CallOptions) (reentry : Reentry σ) (c : σ) :
    e.perform o reentry args c =
      (e.underConvention (e.native.perform o e.token reentry args) c).after
        (e.traceEvents o args) := by
  unfold Entry.perform Entry.underConvention Entry.traceEvents
  rw [if_neg (not_not_intro same)]
  cases o.traceCalls with
  | false => rfl
  | true => rfl

/-- With the right number of arguments, the entry performs its native under its convention. -/
theorem Record.Makes.invoke_of_length {r : Record} {e : Entry} (makes : r.Makes e)
    {args : List Value} (same : args.length = e.native.arity) (o : CallOptions)
    (reentry : Reentry σ) (c : σ) :
    e.invoke o reentry args c =
      (e.underConvention (e.native.perform o e.token reentry args) c).after
        (e.traceEvents o args) := by
  rw [makes.invoke_eq_perform, Entry.perform_of_length same]

/-- With another number of arguments nothing happens but the error. -/
theorem Entry.invoke_of_length_ne {e : Entry} {args : List Value}
    (differs : args.length ≠ e.native.arity) (o : CallOptions) (reentry : Reentry σ) (c : σ) :
    e.invoke o reentry args c =
      ⟨.returned (.error (.arity e.token e.native.arity args.length)), c, []⟩ := by
  simp [Entry.invoke, differs, Exec.pure_apply]

/-- A call that is refused for the number of its arguments, and a raw call, ignore the context. -/
theorem Entry.invoke_ignoresContext {e : Entry} {args : List Value}
    (h : args.length ≠ e.native.arity ∨ e.convention = .raw) (o : CallOptions)
    (reentry : Reentry σ) : (e.invoke o reentry args).IgnoresContext := by
  by_cases same : args.length = e.native.arity
  · have raw : e.convention = .raw := h.resolve_left (not_not_intro same)
    obtain ⟨ending, trace, quiet, hcall⟩ := Entry.callScalar_ignoresContext (σ := σ) e o args
    have logged : ∀ ev ∈ e.traceEvents o args, ev.isContextUse = false := fun ev hev =>
      Event.isContextUse_of_isLog (e.isLog_traceEvents o args ev hev)
    refine ⟨ending, e.traceEvents o args ++ trace, List.forall_mem_append.mpr ⟨logged, quiet⟩,
      fun c => ?_⟩
    rw [Entry.invoke_of_raw same raw, hcall, Run.after_mk]
  · exact ⟨_, [], nofun, Entry.invoke_of_length_ne same o reentry⟩

/-- A call ignores the context or is a body in a frame, with log records before it. -/
theorem Entry.invoke_cases (e : Entry) (o : CallOptions) (reentry : Reentry σ)
    (args : List Value) :
    (e.invoke o reentry args).IgnoresContext ∨
      ∃ log body, ∀ c, e.invoke o reentry args c = (framed body c).after log := by
  by_cases h : args.length ≠ e.native.arity ∨ e.convention = .raw
  · exact Or.inl (Entry.invoke_ignoresContext h o reentry)
  · obtain ⟨same, notRaw⟩ := not_or.mp h
    have wrapped : e.convention = .wrapped := by
      cases hc : e.convention with
      | wrapped => rfl
      | raw => exact absurd hc notRaw
    exact Or.inr ⟨_, _, Entry.invoke_of_wrapped (not_not.mp same) wrapped o reentry⟩

/-- Whether the context lives on: a result and a panic leave it behind, the end of the process does
not, and a run that was cut short says nothing of it. -/
def Ending.survives : Ending α → Bool
  | .returned _ | .panicked _ => true
  | .aborted _ | .exhausted => false

namespace Frame

/-- The events that close a frame around a body: a take and the pop after a result, the pop alone
after a panic. -/
def closingEvents (mark : FrameMark) (inner : Run DetachedContext α) : List Event :=
  match inner.ending with
  | .returned _ => [.takePending inner.state.pending, .pop mark]
  | .panicked _ => [.pop mark]
  | .aborted _ | .exhausted => []

/-- How a wrapped call ends whose body ran so in its frame. -/
def outerEnding (inner : Run DetachedContext (Except CallError Value)) :
    Ending (Except CallError Value) :=
  match inner.ending with
  | .returned result => .returned (wrappedOutcome result inner.state.pending)
  | .panicked p => .panicked p
  | .aborted e => .aborted e
  | .exhausted => .exhausted

/-- The context that a frame opened at the depth leaves behind: at that depth, and with an empty
slot if the body returned. -/
def outerContext (depth : UInt64) (inner : Run DetachedContext α) : DetachedContext :=
  match inner.ending with
  | .returned _ => ⟨depth, none⟩
  | .panicked _ => ⟨depth, inner.state.pending⟩
  | .aborted _ | .exhausted => inner.state

theorem survives_outerEnding (inner : Run DetachedContext (Except CallError Value)) :
    (outerEnding inner).survives = inner.ending.survives := by
  unfold outerEnding
  cases inner.ending <;> rfl

/-- A body that gave the context back left it at the depth at which its frame was opened. -/
theorem depth_outerContext {depth : UInt64} {inner : Run DetachedContext α}
    (h : inner.ending.survives = true) : (outerContext depth inner).depth = depth := by
  unfold outerContext
  cases hi : inner.ending with
  | returned a => rfl
  | panicked p => rfl
  | aborted e =>
      rw [hi] at h
      cases h
  | exhausted =>
      rw [hi] at h
      cases h

end Frame

/-- Seen from outside its frame on a detached context, a body's run has the events that open and close
the frame around its own. -/
theorem Run.inFrame_detached (mark : FrameMark) (stale? : Option ManagedError)
    (inner : Run DetachedContext (Except CallError Value)) :
    inner.inFrame mark stale? =
      ⟨Frame.outerEnding inner, Frame.outerContext mark.depth inner,
        Frame.openingEvents mark stale? ++ (inner.trace ++ Frame.closingEvents mark inner)⟩ := by
  obtain ⟨ending, left, trace⟩ := inner
  cases ending with
  | returned result => rfl
  | panicked p => rfl
  | aborted e => simp [Run.inFrame, Frame.outerEnding, Frame.outerContext, Frame.closingEvents]
  | exhausted => simp [Run.inFrame, Frame.outerEnding, Frame.outerContext, Frame.closingEvents]

section
variable {c : DetachedContext}

/-- On a detached context below the largest depth, the body of a wrapped call starts one frame deeper
with an empty slot, whatever the slot held. All that the call adds to its body's run are the events
that open and close the frame. -/
theorem framed_detached (body : Exec DetachedContext (Except CallError Value))
    (room : c.depth < DetachedContext.maxDepth) :
    framed body c =
      ⟨Frame.outerEnding (body ⟨c.depth + 1, none⟩),
        Frame.outerContext c.depth (body ⟨c.depth + 1, none⟩),
        Frame.openingEvents ⟨c.depth⟩ c.pending ++ ((body ⟨c.depth + 1, none⟩).trace ++
          Frame.closingEvents ⟨c.depth⟩ (body ⟨c.depth + 1, none⟩))⟩ := by
  rw [framed_of_ok (DetachedContext.pushFrame_of_lt room), Run.inFrame_detached]
  rfl

/-- At the largest depth the frame overflows: the body is not run and the context is left alone, the
slot included. -/
theorem framed_overflow (body : Exec DetachedContext (Except CallError Value))
    (full : ¬ c.depth < DetachedContext.maxDepth) :
    framed body c = ⟨.panicked (.context DetachedContext.overflow), c, []⟩ :=
  framed_of_error (DetachedContext.pushFrame_of_not_lt full)

section
variable {e : Entry} {args : List Value} (same : args.length = e.native.arity)
  (wrapped : e.convention = .wrapped)
include same wrapped

/-- A wrapped call with the right number of arguments, on a detached context: what it logs and the
events that open and close its frame stand around what it did in the frame. -/
theorem Entry.invoke_detached (room : c.depth < DetachedContext.maxDepth) (o : CallOptions)
    (reentry : Reentry DetachedContext) {inner : Run DetachedContext (Except CallError Value)}
    (runs : e.callInFrame o reentry args ⟨c.depth + 1, none⟩ = inner) :
    e.invoke o reentry args c =
      ⟨Frame.outerEnding inner, Frame.outerContext c.depth inner,
        e.traceEvents o args ++ (Frame.openingEvents ⟨c.depth⟩ c.pending ++
          (inner.trace ++ Frame.closingEvents ⟨c.depth⟩ inner))⟩ := by
  rw [Entry.invoke_of_wrapped same wrapped, framed_detached _ room, Run.after_mk, runs]

/-- At the largest depth a wrapped call with the right number of arguments logs itself and panics. -/
theorem Entry.invoke_overflow (full : ¬ c.depth < DetachedContext.maxDepth) (o : CallOptions)
    (reentry : Reentry DetachedContext) :
    e.invoke o reentry args c =
      ⟨.panicked (.context DetachedContext.overflow), c, e.traceEvents o args⟩ := by
  rw [Entry.invoke_of_wrapped same wrapped, framed_overflow _ full, Run.after_mk, List.append_nil]

/-- A wrapped call whose native came to a result in its frame. -/
theorem Entry.invoke_yields (room : c.depth < DetachedContext.maxDepth) {o : CallOptions}
    {reentry : Reentry DetachedContext} {left : DetachedContext} {result : Except CallError Value}
    (inner : (e.callInFrame o reentry args).Yields ⟨c.depth + 1, none⟩ result left) :
    (e.invoke o reentry args).Yields c (wrappedOutcome result left.pending) ⟨c.depth, none⟩ := by
  obtain ⟨trace, hinner⟩ := inner
  exact ⟨_, Entry.invoke_detached same wrapped room o reentry hinner⟩

/-- A wrapped call whose native panicked in its frame. -/
theorem Entry.invoke_panics (room : c.depth < DetachedContext.maxDepth) {o : CallOptions}
    {reentry : Reentry DetachedContext} {left : DetachedContext} {p : Panic}
    (inner : (e.callInFrame o reentry args).Panics ⟨c.depth + 1, none⟩ p left) :
    (e.invoke o reentry args).Panics c p ⟨c.depth, left.pending⟩ := by
  obtain ⟨trace, hinner⟩ := inner
  exact ⟨_, Entry.invoke_detached same wrapped room o reentry hinner⟩

end

end

end InternalCall
