import InternalCall.Proofs.Call.Meaning
import InternalCall.Proofs.Table.Store

/-!
# Calling an entry is what it means

Reading the arguments one after the other is comparing their kinds and taking
their payloads; opening and closing a frame around a body is the body seen from
outside its frame. Together they turn a call of an entry, slots and frame and
all, into its meaning.
-/

namespace InternalCall

variable {σ α β : Type}

/-- Reading native integers is comparing kinds and taking payloads. -/
theorem readEach_readInt (token : UInt32) (args : List Value) (index : Nat) :
    readEach (readInt token) index args =
      (kindError? token index args (List.replicate args.length .int)).elim
        (.ok (args.filterMap Value.int?)) .error := by
  induction args generalizing index with
  | nil => rfl
  | cons v rest ih =>
      rw [readEach_cons, ih]
      cases v with
      | void => rfl
      | object r => rfl
      | scalar s =>
          cases s with
          | int n =>
              simp only [List.length_cons, List.replicate_succ, kindError?, Value.kind, Scalar.kind,
                if_true]
              cases kindError? token (index + 1) rest (List.replicate rest.length .int) <;> rfl
          | long n => rfl
          | double x => rfl
          | handle h => rfl

/-- Reading scalars is comparing kinds and taking payloads. -/
theorem readEach_readScalar (token : UInt32) (args : List Value) (params : List ScalarKind)
    (index : Nat) (same : args.length = params.length) :
    readEach (readScalar token) index (args.zip params) =
      (kindError? token index args params).elim (.ok (args.filterMap Value.scalar?)) .error := by
  induction args generalizing index params with
  | nil => rfl
  | cons v rest ih =>
      cases params with
      | nil => cases same
      | cons k params =>
          rw [List.zip_cons_cons, readEach_cons, ih params (index + 1) (Nat.succ.inj same)]
          cases v with
          | void => rfl
          | object r => rfl
          | scalar s =>
              by_cases hk : s.kind = k
              · have hv : (Value.scalar s).kind = .scalar k := by rw [Value.kind, hk]
                simp only [readScalar, kindError?, hk, hv, if_true, List.filterMap_cons,
                  Value.scalar?]
                cases kindError? token (index + 1) rest params <;> rfl
              · have hv : ¬ (Value.scalar s).kind = .scalar k := by
                  intro he
                  exact hk (ValueKind.scalar.inj he)
                simp only [readScalar, kindError?, hk, hv, if_false, readScalar.mismatch]
                rfl

/-- No argument is of the wrong kind exactly when the kinds agree position by position. -/
theorem kindError?_eq_none_iff {token : UInt32} {index : Nat} {args : List Value}
    {params : List ScalarKind} (same : args.length = params.length) :
    kindError? token index args params = none ↔
      args.map Value.kind = params.map ValueKind.scalar := by
  induction args generalizing index params with
  | nil =>
      cases params with
      | nil => simp [kindError?]
      | cons k params => cases same
  | cons v rest ih =>
      cases params with
      | nil => cases same
      | cons k params =>
          rw [List.map_cons, List.map_cons, List.cons.injEq, kindError?]
          by_cases hk : v.kind = .scalar k
          · rw [if_pos hk, ih (Nat.succ.inj same)]
            exact ⟨fun h => ⟨hk, h⟩, fun h => h.2⟩
          · rw [if_neg hk]
            exact ⟨fun h => (Option.some_ne_none _ h).elim, fun h => absurd h.1 hk⟩

/-- A signature of a native on scalars has as many parameters as the native's arity. -/
theorem Native.length_params {n : Native} {s : Signature} (h : n.signature? = some s) :
    s.params.length = n.arity := by
  cases n <;> cases h <;> simp [Native.arity, Signature.allInt, Signature.intVoid,
    Signature.intHandle, Signature.arity]

/-- With the right number of arguments, a native accepts them unless one is of the wrong kind. -/
theorem Native.accepts_iff {n : Native} {token : UInt32} {args : List Value}
    (same : args.length = n.arity) : n.Accepts args ↔ n.kindError? token args = none := by
  rw [Native.Accepts, Native.kindError?]
  cases h : n.signature? with
  | none => simp [same]
  | some s =>
      rw [Option.bind_some, kindError?_eq_none_iff (same.trans (Native.length_params h).symm)]
      simp [same]

/-- The payloads of native integers are the arguments again. -/
theorem map_int_payloads {args : List Value} {n : Nat}
    (h : args.map Value.kind = (List.replicate n ScalarKind.int).map ValueKind.scalar) :
    (args.filterMap Value.int?).map Value.int = args := by
  induction args generalizing n with
  | nil => rfl
  | cons v rest ih =>
      cases n with
      | zero => cases h
      | succ n =>
          rw [List.map_cons, List.replicate_succ, List.map_cons, List.cons.injEq] at h
          obtain ⟨hkind, hrest⟩ := h
          cases v with
          | void => cases hkind
          | object r => cases hkind
          | scalar s =>
              cases s with
              | int i => exact congrArg (Value.int i :: ·) (ih hrest)
              | long i => cases hkind
              | double x => cases hkind
              | handle a => cases hkind

/-- The payloads of scalars are the arguments again. -/
theorem map_scalar_payloads {args : List Value} {params : List ScalarKind}
    (h : args.map Value.kind = params.map ValueKind.scalar) :
    (args.filterMap Value.scalar?).map Value.scalar = args := by
  induction args generalizing params with
  | nil => rfl
  | cons v rest ih =>
      cases params with
      | nil => cases h
      | cons k params =>
          rw [List.map_cons, List.map_cons, List.cons.injEq] at h
          obtain ⟨hkind, hrest⟩ := h
          cases v with
          | void => cases hkind
          | object r => cases hkind
          | scalar s => exact congrArg (Value.scalar s :: ·) (ih hrest)

/-- Calling a routine on the payloads and converting its result is serving the arguments. -/
theorem Routine.serve_eq_call (r : Routine α β) {payload? : Value → Option α} {encode : α → Value}
    (result : β → Except CallError Value) {args : List Value}
    (h : (args.filterMap payload?).map encode = args) :
    (r.serve payload? result args : Exec σ _) =
      r.call encode (args.filterMap payload?) >>= fun b => pure (result b) := by
  unfold Routine.serve Routine.call
  rw [h, bind_assoc]
  congr 1
  funext _
  cases r.run (args.filterMap payload?) <;> rfl

/-- Marshaling native integers either finds an argument of another kind or yields the payloads,
which make up the arguments again. -/
theorem marshalInts_cases (σ : Type) (token : UInt32) {args : List Value} {n : Nat}
    (same : args.length = n) (fits : n ≤ maxArity) :
    (∃ e, kindError? token 0 args (List.replicate n .int) = some e ∧
      (marshalInts token args : Exec σ _) = pure (.error e)) ∨
    (kindError? token 0 args (List.replicate n .int) = none ∧
      (marshalInts token args : Exec σ _) = pure (.ok (args.filterMap Value.int?)) ∧
      (args.filterMap Value.int?).map Value.int = args) := by
  subst same
  rw [marshalInts_eq fits, readEach_readInt]
  cases h : kindError? token 0 args (List.replicate args.length .int) with
  | some e => exact Or.inl ⟨e, rfl, rfl⟩
  | none =>
      exact Or.inr ⟨rfl, rfl, map_int_payloads ((kindError?_eq_none_iff (by simp)).mp h)⟩

/-- Marshaling scalars either finds an argument of another kind or yields the payloads, which make
up the arguments again. -/
theorem marshalScalars_cases (σ : Type) (token : UInt32) {args : List Value}
    {params : List ScalarKind} (same : args.length = params.length)
    (fits : params.length ≤ maxArity) :
    (∃ e, kindError? token 0 args params = some e ∧
      (marshalScalars token params args : Exec σ _) = pure (.error e)) ∨
    (kindError? token 0 args params = none ∧
      (marshalScalars token params args : Exec σ _) = pure (.ok (args.filterMap Value.scalar?)) ∧
      (args.filterMap Value.scalar?).map Value.scalar = args) := by
  rw [marshalScalars_eq same (same ▸ fits), readEach_readScalar token args params 0 same]
  cases h : kindError? token 0 args params with
  | some e => exact Or.inl ⟨e, rfl, rfl⟩
  | none => exact Or.inr ⟨rfl, rfl, map_scalar_payloads ((kindError?_eq_none_iff same).mp h)⟩

variable [ManagedContext σ]

theorem Native.perform_of_kindError {n : Native} {o : CallOptions} {token : UInt32}
    {reentry : Reentry σ} {args : List Value} {e : CallError}
    (h : n.kindError? token args = some e) :
    n.perform o token reentry args = pure (.error e) := by
  rw [Native.perform, h]

theorem Native.perform_of_kinds {n : Native} {o : CallOptions} {token : UInt32}
    {reentry : Reentry σ} {args : List Value} (h : n.kindError? token args = none) :
    n.perform o token reentry args = n.serve o token reentry args := by
  rw [Native.perform, h]

/-- A call on scalars performs the native. -/
theorem Entry.callScalar_eq_perform {e : Entry} {o : CallOptions} {reentry : Reentry σ}
    {args : List Value} (same : args.length = e.native.arity) (fits : e.native.arity ≤ maxArity)
    (scalar : e.native.isManaged = false) :
    e.callScalar o args = e.native.perform o e.token reentry args := by
  obtain ⟨token, native, convention⟩ := e
  cases native with
  | allInteger n r =>
      rcases marshalInts_cases σ token same fits with ⟨err, he, hm⟩ | ⟨he, hm, hargs⟩
      · simp only [Entry.callScalar, Native.perform_of_kindError (n := .allInteger n r) he, hm, pure_bind]
      · simp only [Entry.callScalar, Native.perform_of_kinds (n := .allInteger n r) he, hm, pure_bind,
          Native.serve, Routine.serve_eq_call r _ hargs]
  | integerVoid n r =>
      rcases marshalInts_cases σ token same fits with ⟨err, he, hm⟩ | ⟨he, hm, hargs⟩
      · simp only [Entry.callScalar, Native.perform_of_kindError (n := .integerVoid n r) he, hm, pure_bind]
      · simp only [Entry.callScalar, Native.perform_of_kinds (n := .integerVoid n r) he, hm, pure_bind,
          Native.serve, Routine.serve_eq_call r _ hargs]
  | mixed s r =>
      rcases marshalScalars_cases σ token same fits with ⟨err, he, hm⟩ | ⟨he, hm, hargs⟩
      · simp only [Entry.callScalar, Native.perform_of_kindError (n := .mixed s r) he, hm, pure_bind]
      · simp only [Entry.callScalar, Native.perform_of_kinds (n := .mixed s r) he, hm, pure_bind,
          Native.serve, Routine.serve_eq_call r _ hargs]
  | returnsHandle n r =>
      rcases marshalInts_cases σ token same fits with ⟨err, he, hm⟩ | ⟨he, hm, hargs⟩
      · simp only [Entry.callScalar, Native.perform_of_kindError (n := .returnsHandle n r) he, hm, pure_bind]
      · simp only [Entry.callScalar, Native.perform_of_kinds (n := .returnsHandle n r) he, hm, pure_bind,
          Native.serve, Routine.serve_eq_call r _ hargs]
  | managed n r => cases scalar

/-- In the frame of its call a native on scalars is called as it would be without a frame. -/
theorem Entry.callInFrame_of_scalar {e : Entry} (scalar : e.native.isManaged = false)
    (o : CallOptions) (reentry : Reentry σ) (args : List Value) :
    e.callInFrame o reentry args = e.callScalar o args := by
  unfold Entry.callInFrame
  cases hn : e.native with
  | managed n r =>
      rw [hn] at scalar
      cases scalar
  | _ => rfl

/-- In the frame of its call a managed native is served as it is. -/
theorem Entry.callInFrame_of_managed {e : Entry} {n : UInt8} {r : ManagedRoutine}
    (managed : e.native = .managed n r) (o : CallOptions) (reentry : Reentry σ)
    (args : List Value) :
    e.callInFrame o reentry args = e.native.serve o e.token reentry args := by
  simp only [Entry.callInFrame, managed, Native.serve]
  congr 1
  funext result
  cases result <;> rfl

/-- What a wrapped call runs inside its frame performs the native, a managed one included. -/
theorem Entry.callInFrame_eq_perform {e : Entry} {o : CallOptions} {reentry : Reentry σ}
    {args : List Value} (same : args.length = e.native.arity) (fits : e.native.arity ≤ maxArity) :
    e.callInFrame o reentry args = e.native.perform o e.token reentry args := by
  cases hm : e.native.isManaged with
  | false =>
      rw [Entry.callInFrame_of_scalar hm, Entry.callScalar_eq_perform same fits hm]
  | true =>
      cases hn : e.native with
      | managed n r =>
          rw [Entry.callInFrame_of_managed hn, hn, Native.perform_of_kinds rfl]
      | _ =>
          rw [hn] at hm
          cases hm

/-- Opening a frame pushes, empties the slot and warns if it was filled. -/
theorem Frame.enter_of_ok {c opened : σ} {mark : FrameMark}
    (opens : ManagedContext.pushFrame c = .ok (mark, opened)) :
    Frame.enter c =
      ⟨.returned mark, (ManagedContext.takePending opened).2,
        Frame.openingEvents mark (ManagedContext.takePending opened).1⟩ := by
  unfold Frame.enter
  simp only [Exec.bind_apply, Exec.pushFrame_of_ok opens, Run.andThen_returned,
    Exec.takePending_apply]
  cases (ManagedContext.takePending opened).1 <;> rfl

/-- A frame that cannot be opened is a panic before the slot is looked at. -/
theorem Frame.enter_of_error {c : σ} {message : String}
    (refuses : ManagedContext.pushFrame c = .error message) :
    Frame.enter c = ⟨.panicked (.context message), c, []⟩ := by
  unfold Frame.enter
  rw [Exec.bind_apply, Exec.pushFrame_of_error refuses, Run.andThen_panicked]

/-- A wrapped call is what runs inside the frame, seen from outside. -/
theorem Entry.callWrapped_eq_framed (e : Entry) (o : CallOptions) (reentry : Reentry σ)
    (args : List Value) :
    e.callWrapped o reentry args = framed (e.callInFrame o reentry args) := by
  funext c
  simp only [Entry.callWrapped, Frame.within, Exec.bind_apply]
  cases opens : ManagedContext.pushFrame c with
  | error message =>
      rw [framed_of_error opens, Frame.enter_of_error opens]
      rfl
  | ok opened =>
      rw [framed_of_ok opens, Frame.enter_of_ok opens]
      simp only [Run.andThen_returned, Exec.bind_apply, Exec.onPanic]
      rcases e.callInFrame o reentry args _ with ⟨ending, c', trace⟩
      cases ending with
      | returned result =>
          simp only [Run.andThen_returned, Exec.bind_apply, Frame.leave, Exec.takePending_apply,
            Exec.popFrame_apply, Exec.pure_apply, Run.after_mk, Run.inFrame]
          generalize ManagedContext.takePending c' = left
          obtain ⟨pending?, c''⟩ := left
          cases result with
          | error err => simp [wrappedOutcome, Exec.pure_apply]
          | ok v => cases pending? <;> simp [wrappedOutcome, Exec.pure_apply]
      | panicked p => simp [Run.inFrame]
      | aborted err => rfl
      | exhausted => rfl

/-- Calling an entry that a record makes is what calling it means. -/
theorem Record.Makes.invoke_eq_perform {r : Record} {e : Entry} (h : r.Makes e) (o : CallOptions)
    (reentry : Reentry σ) (args : List Value) :
    e.invoke o reentry args = e.perform o reentry args := by
  by_cases same : args.length = e.native.arity
  · cases hc : e.convention with
    | raw =>
        have hcall : e.callScalar o args = e.native.perform o e.token reentry args :=
          Entry.callScalar_eq_perform same h.arity_le (h.isManaged_of_raw hc)
        simp only [Entry.invoke, Entry.perform, same, ne_eq, not_true_eq_false, if_false, hc,
          hcall]
    | wrapped =>
        simp only [Entry.invoke, Entry.perform, same, ne_eq, not_true_eq_false, if_false, hc,
          Entry.callWrapped_eq_framed, Entry.callInFrame_eq_perform same h.arity_le]
  · simp only [Entry.invoke, Entry.perform, ne_eq, same, not_false_eq_true, if_true]

end InternalCall
