import InternalCall.Proofs.Call.ContextUse
import InternalCall.Proofs.Call.OwnCalls
import InternalCall.Proofs.Registry.Dispatch

/-!
# Where panics come from

A call writes its arguments into slots and picks the path for its native, and
either could panic. For the entries of a store that was built neither does: the
store refused natives with more parameters than there are slots and managed
natives under the raw convention. So a call panics exactly when its native was
called and panicked, or when its context panicked instead of opening a frame.
-/

namespace InternalCall

variable {σ α β : Type}

/-- Whether the panic is a call's own: for a slot that it lacks, or for a managed native on the path
for scalars. -/
def Panic.isInternal : Panic → Bool
  | slotOverrun _ | managedOnScalarPath => true
  | native _ | context _ | fatal _ => false

/-- The routine panics on the arguments. -/
def Routine.Panics (r : Routine α β) (args : List α) (p : Panic) : Prop :=
  ∃ message, r.run args = .error message ∧ p = .native message

/-- The native panics when it is called with the arguments: the routine panics on their payloads or,
if the native is managed, what its program does in the state ends in the panic. -/
def Native.Panics [ManagedContext σ] (n : Native) (reentry : Reentry σ) (args : List Value) (c : σ)
    (p : Panic) : Prop :=
  match n with
  | .allInteger _ r => r.Panics (args.filterMap Value.int?) p
  | .integerVoid _ r => r.Panics (args.filterMap Value.int?) p
  | .mixed _ r => r.Panics (args.filterMap Value.scalar?) p
  | .returnsHandle _ r => r.Panics (args.filterMap Value.int?) p
  | .managed _ r => ((r.run args).exec reentry c).ending = .panicked p

/-! ## The panics of a call -/

/-- A routine that is served panics exactly when it panics on the payloads. -/
theorem Routine.panicked_serve_iff {r : Routine α β} {payload? : Value → Option α}
    {result : β → Except CallError Value} {args : List Value} {c : σ} {p : Panic} :
    (r.serve payload? result args c).ending = .panicked p ↔ r.Panics (args.filterMap payload?) p := by
  rw [Routine.serve_eq_callThenEnd, Exec.ending_callThenEnd]
  unfold Routine.ending Routine.Panics
  cases r.run (args.filterMap payload?) <;> simp [eq_comm]

section
variable [ManagedContext σ] {reentry : Reentry σ} {args : List Value} {c : σ} {p : Panic}

/-- A native that is served panics exactly when it panics on the arguments. -/
theorem Native.panicked_serve_iff {n : Native} {o : CallOptions} {token : UInt32} :
    (n.serve o token reentry args c).ending = .panicked p ↔ n.Panics reentry args c p := by
  cases n with
  | managed k r =>
      simp only [Native.serve, ManagedRoutine.call, Native.Panics, Exec.bind_apply,
        Exec.record_apply, Run.andThen_returned]
      rcases (r.run args).exec reentry c with ⟨ending, c', trace⟩
      cases ending <;> simp [Exec.pure_apply]
  | _ => exact Routine.panicked_serve_iff

/-- A native that is performed panics exactly when the kinds of the arguments are right and it
panics on them. -/
theorem Native.panicked_perform_iff {n : Native} {o : CallOptions} {token : UInt32} :
    (n.perform o token reentry args c).ending = .panicked p ↔
      n.kindError? token args = none ∧ n.Panics reentry args c p := by
  cases kinds : n.kindError? token args with
  | none => rw [Native.perform_of_kinds kinds, Native.panicked_serve_iff, and_iff_right rfl]
  | some e => simp [Native.perform_of_kindError kinds, Exec.pure_apply]

/-- A panic leaves a frame exactly when it leaves the body. -/
theorem Run.panicked_inFrame_iff {mark : FrameMark} {stale? : Option ManagedError}
    {inner : Run σ (Except CallError Value)} :
    (inner.inFrame mark stale?).ending = .panicked p ↔ inner.ending = .panicked p := by
  obtain ⟨ending, c, trace⟩ := inner
  cases ending <;> simp [Run.inFrame]

/-- A body in a frame panics exactly when the frame is opened and the body panics, or when the
context panics instead of opening the frame. -/
theorem panicked_framed_iff {body : Exec σ (Except CallError Value)} :
    (framed body c).ending = .panicked p ↔
      Frame.Opens c ∧ (body (Frame.entered c)).ending = .panicked p ∨
        ∃ message, ManagedContext.pushFrame c = .error message ∧ p = .context message := by
  rcases Frame.opens_or_refuses c with opens | ⟨message, refuses⟩
  · have noRefusal : ¬ ∃ message, ManagedContext.pushFrame c = .error message ∧
        p = .context message := by
      rintro ⟨message, refuses, -⟩
      exact Frame.not_opens_iff.mpr ⟨message, refuses⟩ opens
    rw [and_iff_right opens, or_iff_left noRefusal]
    obtain ⟨mark, opened, opens⟩ := opens
    rw [framed_of_ok opens, Frame.entered_of_ok opens, Run.panicked_inFrame_iff]
  · have closed : ¬ Frame.Opens c := Frame.not_opens_iff.mpr ⟨message, refuses⟩
    rw [framed_of_error refuses]
    simp [closed, refuses, eq_comm]

/-- A native on scalars panics in every state alike. -/
theorem Native.panics_iff_of_scalar {n : Native} (scalar : n.isManaged = false) (c' : σ) :
    n.Panics reentry args c p ↔ n.Panics reentry args c' p := by
  cases n with
  | managed k r => cases scalar
  | _ => rfl

/-- An entry that a record makes panics exactly when its native accepts the arguments, is reached and
panics on them, or when a wrapped call with the right number of arguments gets no frame. -/
theorem Record.Makes.panicked_invoke_iff {r : Record} {e : Entry} (makes : r.Makes e)
    {o : CallOptions} : (e.invoke o reentry args c).ending = .panicked p ↔
      e.native.Accepts args ∧ e.convention.Begins c ∧
          e.native.Panics reentry args (Frame.entered c) p ∨
        args.length = e.native.arity ∧ e.convention = .wrapped ∧
          ∃ message, ManagedContext.pushFrame c = .error message ∧ p = .context message := by
  by_cases same : args.length = e.native.arity
  · rw [Native.accepts_iff same, makes.invoke_of_length same, Run.after, Entry.underConvention,
      and_iff_right same]
    cases hc : e.convention with
    | raw =>
        simp only [Native.panicked_perform_iff, reduceCtorEq, false_and, or_false,
          Convention.begins_raw, true_and]
        rw [Native.panics_iff_of_scalar (makes.isManaged_of_raw hc)]
    | wrapped =>
        simp only [panicked_framed_iff, Native.panicked_perform_iff, Convention.begins_wrapped_iff,
          true_and]
        rw [and_left_comm]
  · have refuses : ¬ e.native.Accepts args := fun h => same h.1
    simp [makes.invoke_eq_perform, Entry.perform, same, refuses, Exec.pure_apply]

end

/-! ## The panics that a call passes on -/

/-- Whenever the computation panics, the condition holds of the panic. -/
def Exec.PanicsOnly (x : Exec σ α) (condition : Panic → Prop) : Prop :=
  ∀ c p, (x c).ending = .panicked p → condition p

/-- What follows a computation panics only as the two do. -/
theorem Exec.PanicsOnly.bind {condition : Panic → Prop} {x : Exec σ α} {f : α → Exec σ β}
    (hx : x.PanicsOnly condition) (hf : ∀ a, (f a).PanicsOnly condition) :
    (x >>= f).PanicsOnly condition := by
  intro c p h
  have hxc := hx c
  rw [Exec.bind_apply] at h
  generalize x c = run at hxc h
  obtain ⟨ending, c', trace⟩ := run
  cases ending with
  | returned a => exact hf a c' p h
  | panicked q => exact hxc p (by simpa using h)
  | aborted e => cases h
  | exhausted => cases h

/-- A computation whose panic is caught does not panic. -/
theorem Exec.catchPanic_panicsOnly (x : Exec σ α) (condition : Panic → Prop) :
    x.catchPanic.PanicsOnly condition := by
  intro c p h
  unfold Exec.catchPanic at h
  generalize x c = run at h
  obtain ⟨ending, c', trace⟩ := run
  cases ending <;> cases h

section
variable [ManagedContext σ] {condition : Panic → Prop} (native : ∀ message, condition (.native message))
  (context : ∀ message, condition (.context message))

/-- A context panics with a message of its own when it cannot open a frame. -/
theorem Exec.pushFrame_panicsOnly (context : ∀ message, condition (.context message)) :
    (Exec.pushFrame : Exec σ FrameMark).PanicsOnly condition := by
  intro c p h
  rcases Frame.opens_or_refuses c with ⟨mark, opened, opens⟩ | ⟨message, refuses⟩
  · rw [Exec.pushFrame_of_ok opens] at h
    cases h
  · rw [Exec.pushFrame_of_error refuses] at h
    cases h
    exact context message

variable {reentry : Reentry σ} (nested : ∀ token args, (reentry token args).PanicsOnly condition)
include native context nested

/-- A program panics with a message of its own, as its context does or as a call does that it
dispatches. -/
theorem Program.exec_panicsOnly (p : Program) : (p.exec reentry).PanicsOnly condition := by
  induction p with
  | ret v => rintro c q ⟨⟩
  | raise e => rintro c q ⟨⟩
  | panic message =>
      rintro c q ⟨⟩
      exact native message
  | pushFrame next ih => exact .bind (Exec.pushFrame_panicsOnly context) ih
  | popFrame mark next ih => exact .bind (by rintro c q ⟨⟩) fun _ => ih
  | setPending e next ih => exact .bind (by rintro c q ⟨⟩) fun _ => ih
  | takePending next ih => exact .bind (by rintro c q ⟨⟩) ih
  | dispatch token args next ih => exact .bind (nested token args) ih
  | guarded part next _ ih => exact .bind (Exec.catchPanic_panicsOnly _ condition) ih

/-- A call panics with a message of its native or its context, or as a call does that its native
dispatches. -/
theorem Record.Makes.invoke_panicsOnly {r : Record} {e : Entry} (makes : r.Makes e)
    (o : CallOptions) (args : List Value) : (e.invoke o reentry args).PanicsOnly condition := by
  intro c p h
  rcases makes.panicked_invoke_iff.mp h with ⟨-, -, panics⟩ | ⟨-, -, message, -, rfl⟩
  · cases hn : e.native with
    | managed k r =>
        rw [hn] at panics
        exact Program.exec_panicsOnly native context nested (r.run args) _ p panics
    | _ =>
        rw [hn] at panics
        obtain ⟨message, -, rfl⟩ := panics
        exact native message
  · exact context message

end

/-- However deep its dispatches nest, a registry that was built never panics for a slot that a call
lacks or a managed native on the path for scalars. -/
theorem Registry.dispatch_panicsOnly [ManagedContext σ] {records : List Record}
    {settings : Settings} {registry : Registry}
    (built : Registry.build records settings = .ok registry) (allowance : Nat) (token : UInt32)
    (args : List Value) :
    (registry.dispatch allowance token args : Exec σ _).PanicsOnly fun p => p.isInternal = false := by
  induction allowance generalizing token args with
  | zero => rintro c p ⟨⟩
  | succ allowance ih =>
      cases resolved : registry.resolver.resolve token with
      | error miss =>
          rw [Registry.dispatch_of_miss resolved]
          intro c p h
          rw [FatalError.escalate_apply] at h
          cases ha : registry.settings.onUnresolved with
          | abort => simp [ha] at h
          | panic =>
              simp only [ha, Ending.panicked.injEq] at h
              rw [← h, Panic.isInternal]
      | ok e =>
          rw [Registry.dispatch_of_resolve resolved]
          obtain ⟨r, makes⟩ := Store.exists_makes_of_mem (Registry.build_eq_ok built).1
            (Resolver.mem_of_resolve resolved).1
          exact makes.invoke_panicsOnly (fun _ => rfl) (fun _ => rfl) ih _ args

end InternalCall
