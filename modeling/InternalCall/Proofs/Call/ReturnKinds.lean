import InternalCall.Proofs.Call.CallLog
import InternalCall.Proofs.Call.Kinds

/-!
# Options only observe

A native on scalars declares the kind of its result. Whatever kind of native it
is, a call that checks the result returns a value of that kind or fails. The same
call without the check differs in one case alone: it comes to the scalar that the
check would have refused. Logging calls changes even less; it puts one record in
front of what a call does.

A native on scalars does not see the context, so nothing is pending when the frame
of its call is closed, unless the engine itself recorded an error while the native
ran. Such an error is reported in place of any value, checked or not, and no
assumption is made here that there is none.
-/

namespace InternalCall

/-- The kind of the values that the return slot holds. -/
def ReturnKind.valueKind : ReturnKind → ValueKind
  | void => .void
  | scalar k => .scalar k

/-- How a call that checks its result against the return slot ends, and how it ends without the
check. The given error is the one that is pending when the native has returned. -/
inductive ReturnKind.Endings (declared : ReturnKind) (token : UInt32)
    (left? : Option ManagedError) :
    Ending (Except CallError Value) → Ending (Except CallError Value) → Prop where
  /-- The result is of the declared kind, and both calls come to it. -/
  | value {v : Value} (conforms : v.kind = declared.valueKind) :
      Endings declared token left? (.returned (wrappedOutcome (.ok v) left?))
        (.returned (wrappedOutcome (.ok v) left?))
  /-- The result is a scalar of another kind. The check reports both kinds; without it the call comes
  to the scalar. -/
  | scalar {k : ScalarKind} {x : Scalar} (declares : declared = .scalar k) (differs : x.kind ≠ k) :
      Endings declared token left? (.returned (.error (.returnKind token k x.kind)))
        (.returned (wrappedOutcome (.ok (.scalar x)) left?))
  /-- The call fails either way, and not for the kind of its result. -/
  | error {err : CallError} (other : ∀ token' k got, err ≠ .returnKind token' k got) :
      Endings declared token left? (.returned (.error err)) (.returned (.error err))
  /-- The call panics either way. -/
  | panic {p : Panic} : Endings declared token left? (.panicked p) (.panicked p)

/-- The first run is that of a call which checks its result against the return slot, the second that
of the call without the check: the native is run alike and the context is used alike. The given error
is the one that is pending when the native has returned. -/
structure ReturnKind.Audits {σ : Type} (declared : ReturnKind) (token : UInt32)
    (left? : Option ManagedError) (checked unchecked : Run σ (Except CallError Value)) : Prop where
  /-- Both leave the same context. -/
  state_eq : checked.state = unchecked.state
  /-- Both make the same calls of natives and the same uses of the context. -/
  trace_eq : checked.trace = unchecked.trace
  /-- Only values of the declared kind pass the check. -/
  conforms : ∀ v, checked.ending = .returned (.ok v) → v.kind = declared.valueKind
  /-- The endings differ only where the check refuses a scalar. -/
  endings : declared.Endings token left? checked.ending unchecked.ending

variable {σ α β : Type}

/-- A call that checks its result returns values of the declared kind only. -/
theorem ReturnKind.Endings.kind_of_ok {declared : ReturnKind} {token : UInt32}
    {left? : Option ManagedError} {checked unchecked : Ending (Except CallError Value)} {v : Value}
    (h : declared.Endings token left? checked unchecked) (ok : checked = .returned (.ok v)) :
    v.kind = declared.valueKind := by
  cases h with
  | value conforms =>
      obtain ⟨same, -⟩ := wrappedOutcome_eq_ok_iff.mp (Ending.returned.inj ok)
      cases same
      exact conforms
  | scalar | error | panic => cases ok

/-- Runs that end so and agree in all else are those of a call with and without the check. -/
theorem ReturnKind.Endings.audits {declared : ReturnKind} {token : UInt32}
    {left? : Option ManagedError} {checked unchecked : Ending (Except CallError Value)}
    (h : declared.Endings token left? checked unchecked) (s : σ) (trace : List Event) :
    declared.Audits token left? ⟨checked, s, trace⟩ ⟨unchecked, s, trace⟩ :=
  ⟨rfl, rfl, fun _ ok => h.kind_of_ok ok, h⟩

/-! ## What a native yields -/

variable {declared : ReturnKind} {token : UInt32}

/-- The check of a mixed native lets only its declared kind pass. -/
theorem CallOptions.mixedResult_endings (traceCalls : Bool) (out : Scalar) :
    declared.Endings token none
      (.returned (CallOptions.mixedResult ⟨true, traceCalls⟩ token declared out))
      (.returned (CallOptions.mixedResult ⟨false, traceCalls⟩ token declared out)) := by
  cases declared with
  | void => exact .value rfl
  | scalar k =>
      by_cases same : out.kind = k
      · simp only [CallOptions.mixedResult, same, bne_self_eq_false, Bool.and_false,
          Bool.false_eq_true, if_false]
        exact .value (congrArg ValueKind.scalar same)
      · have differs : (out.kind != k) = true := bne_iff_ne.mpr same
        simp only [CallOptions.mixedResult, differs, Bool.and_self, Bool.false_and, if_true,
          Bool.false_eq_true, if_false]
        exact .scalar rfl same

/-- A routine that is served its arguments panics either way or has its result judged, on the same
payloads and without a use of the context. -/
theorem Routine.serve_endings (r : Routine α β) (payload? : Value → Option α)
    {checked unchecked : β → Except CallError Value}
    (h : ∀ b, declared.Endings token none (.returned (checked b)) (.returned (unchecked b)))
    (args : List Value) :
    ∃ checkedEnding uncheckedEnding trace,
      declared.Endings token none checkedEnding uncheckedEnding ∧ ∀ c : σ,
        r.serve payload? checked args c = ⟨checkedEnding, c, trace⟩ ∧
        r.serve payload? unchecked args c = ⟨uncheckedEnding, c, trace⟩ := by
  let payloads := args.filterMap payload?
  refine ⟨r.ending checked payloads, r.ending unchecked payloads, [.call r.name args], ?_,
    fun c => ?_⟩
  · unfold Routine.ending
    cases r.run payloads with
    | ok b => exact h b
    | error message => exact .panic
  · rw [Routine.serve_eq_callThenEnd, Routine.serve_eq_callThenEnd]
    exact ⟨rfl, rfl⟩

variable [ManagedContext σ]

/-- A native on scalars does the same in every context with the check and without it, and leaves the
context alone. -/
theorem Native.perform_endings {native : Native} {s : Signature}
    (signature : native.signature? = some s) (traceCalls : Bool) (token : UInt32)
    (args : List Value) :
    ∃ checked unchecked trace, s.ret.Endings token none checked unchecked ∧
      ∀ (reentry : Reentry σ) (c : σ),
        native.perform ⟨true, traceCalls⟩ token reentry args c = ⟨checked, c, trace⟩ ∧
        native.perform ⟨false, traceCalls⟩ token reentry args c = ⟨unchecked, c, trace⟩ := by
  cases kinds : native.kindError? token args with
  | some err =>
      refine ⟨.returned (.error err), .returned (.error err), [], .error ?_, fun reentry c => ?_⟩
      · rw [Native.kindError?, signature, Option.bind_some] at kinds
        obtain ⟨i, v, k, -, rfl⟩ := firstMismatch_of_kindError? kinds
        rintro _ _ _ ⟨⟩
      · rw [Native.perform_of_kindError kinds, Native.perform_of_kindError kinds]
        exact ⟨rfl, rfl⟩
  | none =>
      simp only [Native.perform_of_kinds kinds]
      cases native with
      | allInteger n r =>
          cases signature
          have judged : ∀ i : Int32, (Signature.allInt n.toNat).ret.Endings token none
              (.returned (.ok (.int i))) (.returned (.ok (.int i))) := fun _ => .value rfl
          obtain ⟨_, _, _, endings, serves⟩ := r.serve_endings (σ := σ) Value.int? judged args
          exact ⟨_, _, _, endings, fun _ => serves⟩
      | integerVoid n r =>
          cases signature
          have judged : ∀ _ : Unit, (Signature.intVoid n.toNat).ret.Endings token none
              (.returned (.ok .void)) (.returned (.ok .void)) := fun _ => .value rfl
          obtain ⟨_, _, _, endings, serves⟩ := r.serve_endings (σ := σ) Value.int? judged args
          exact ⟨_, _, _, endings, fun _ => serves⟩
      | mixed s r =>
          cases signature
          obtain ⟨_, _, _, endings, serves⟩ := r.serve_endings (σ := σ) Value.scalar?
            (CallOptions.mixedResult_endings traceCalls) args
          exact ⟨_, _, _, endings, fun _ => serves⟩
      | returnsHandle n r =>
          cases signature
          have judged : ∀ h : Handle, (Signature.intHandle n.toNat).ret.Endings token none
              (.returned (.ok (.handle h))) (.returned (.ok (.handle h))) := fun _ => .value rfl
          obtain ⟨_, _, _, endings, serves⟩ := r.serve_endings (σ := σ) Value.int? judged args
          exact ⟨_, _, _, endings, fun _ => serves⟩
      | managed n r => cases signature

/-! ## What a call yields -/

/-- The error that is pending when a native on scalars has returned. A raw call does not look at the
slot. In a wrapped call the slot was emptied when the frame was opened, and the native does not see
the context. -/
def Entry.left? (e : Entry) (c : σ) : Option ManagedError :=
  match e.convention, ManagedContext.pushFrame c with
  | .wrapped, .ok (_, opened) =>
    (ManagedContext.takePending (ManagedContext.takePending opened).2).1
  | _, _ => none

/-- A detached context has nothing pending then. -/
theorem Entry.left?_detached (e : Entry) (c : DetachedContext) : e.left? c = none := by
  by_cases room : c.depth < DetachedContext.maxDepth
  · rw [Entry.left?, DetachedContext.pushFrame_of_lt room]
    cases e.convention <;> rfl
  · rw [Entry.left?, DetachedContext.pushFrame_of_not_lt room]
    cases e.convention <;> rfl

/-- Seen from outside a frame, runs of a body with and without the check differ alike: what is
pending when the frame is closed comes in place of any value. -/
theorem ReturnKind.Endings.audits_inFrame {checked unchecked : Ending (Except CallError Value)}
    (h : declared.Endings token none checked unchecked) (mark : FrameMark)
    (stale? : Option ManagedError) (s : σ) (trace : List Event) :
    declared.Audits token (ManagedContext.takePending s).1
      (Run.inFrame mark stale? ⟨checked, s, trace⟩)
      (Run.inFrame mark stale? ⟨unchecked, s, trace⟩) := by
  cases h with
  | value conforms => exact Endings.audits (.value conforms) _ _
  | scalar declares differs => exact Endings.audits (.scalar declares differs) _ _
  | error other => exact Endings.audits (.error other) _ _
  | panic => exact Endings.audits .panic _ _

/-- Bodies that do the same in every state, and leave it alone, differ as they end under either
convention. -/
theorem Entry.underConvention_audits (e : Entry)
    {checked unchecked : Exec σ (Except CallError Value)}
    {checkedEnding uncheckedEnding : Ending (Except CallError Value)} {trace : List Event}
    (hchecked : ∀ c, checked c = ⟨checkedEnding, c, trace⟩)
    (hunchecked : ∀ c, unchecked c = ⟨uncheckedEnding, c, trace⟩)
    (h : declared.Endings token none checkedEnding uncheckedEnding) (c : σ) :
    declared.Audits token (e.left? c) (e.underConvention checked c)
      (e.underConvention unchecked c) := by
  unfold Entry.underConvention Entry.left?
  cases e.convention with
  | raw =>
      dsimp only
      rw [hchecked, hunchecked]
      exact h.audits c trace
  | wrapped =>
      dsimp only
      rcases Frame.opens_or_refuses c with ⟨mark, opened, opens⟩ | ⟨message, refuses⟩
      · rw [framed_of_ok opens, framed_of_ok opens, hchecked, hunchecked, opens]
        exact h.audits_inFrame mark _ _ trace
      · rw [framed_of_error refuses, framed_of_error refuses, refuses]
        exact ReturnKind.Endings.audits .panic c []

/-- Calls of an entry of a store with and without the check run the native alike, and differ at most
by a scalar that the check refuses. -/
theorem Record.Makes.invoke_audits {r : Record} {e : Entry} (makes : r.Makes e) {s : Signature}
    (signature : e.native.signature? = some s) (traceCalls : Bool) (reentry : Reentry σ)
    (args : List Value) (c : σ) :
    s.ret.Audits e.token (e.left? c) (e.invoke ⟨true, traceCalls⟩ reentry args c)
      (e.invoke ⟨false, traceCalls⟩ reentry args c) := by
  by_cases same : args.length = e.native.arity
  · obtain ⟨checked, unchecked, trace, endings, performs⟩ :=
      Native.perform_endings (σ := σ) signature traceCalls e.token args
    have audits := e.underConvention_audits (fun c => (performs reentry c).1)
      (fun c => (performs reentry c).2) endings c
    rw [makes.invoke_of_length same, makes.invoke_of_length same]
    exact ⟨audits.state_eq, congrArg (e.traceEvents ⟨true, traceCalls⟩ args ++ ·) audits.trace_eq,
      audits.conforms, audits.endings⟩
  · rw [Entry.invoke_of_length_ne same, Entry.invoke_of_length_ne same]
    exact ReturnKind.Endings.audits (.error (by rintro _ _ _ ⟨⟩)) c []

/-- A call that is logged is the call without a log, after one record; a call that is refused for the
number of its arguments is not logged. -/
theorem Record.Makes.invoke_logged {r : Record} {e : Entry} (makes : r.Makes e) (o : CallOptions)
    (reentry : Reentry σ) (args : List Value) (c : σ) :
    e.invoke { o with traceCalls := true } reentry args c =
      (e.invoke { o with traceCalls := false } reentry args c).after
        (if args.length = e.native.arity then [.log .trace (e.traceLine args)] else []) := by
  by_cases same : args.length = e.native.arity
  · rw [if_pos same, makes.invoke_of_length same, makes.invoke_of_length same, Run.after_after]
    rfl
  · rw [if_neg same, Entry.invoke_of_length_ne same, Entry.invoke_of_length_ne same]
    rfl

end InternalCall
