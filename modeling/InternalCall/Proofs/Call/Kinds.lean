import InternalCall.Proofs.Call.ContextUse
import InternalCall.Proofs.Call.OwnCalls

/-!
# Arguments against the signature

The shape that a native reports decides which calls reach its routine. A routine
on scalars is called exactly when the kinds of the arguments are those of its
parameters, and then runs on the payloads that the arguments are made of; a
managed routine is called exactly when the number of the arguments is right, and
gets them as they are. A call that does not reach its routine fails with the
error on the number of the arguments or, if that is right, on the first of
another kind. A wrapped call needs a frame besides; if the context panics instead
of opening one, so does the call.
-/

namespace InternalCall

/-! ## The first argument of another kind -/

/-- The argument at the position is the first that is not of the kind declared there. -/
structure FirstMismatch (args : List Value) (params : List ScalarKind) (i : Nat) (v : Value)
    (k : ScalarKind) : Prop where
  /-- The argument at the position. -/
  arg : args[i]? = some v
  /-- The kind that is declared there. -/
  param : params[i]? = some k
  /-- The argument is no scalar of that kind. -/
  differs : v.kind ≠ .scalar k
  /-- The arguments before it are of the kinds declared for them. -/
  least : ∀ j w l, args[j]? = some w → params[j]? = some l → w.kind ≠ .scalar l → i ≤ j

/-- An argument and a parameter that agree stand before no first mismatch. -/
theorem FirstMismatch.cons {args : List Value} {params : List ScalarKind} {i : Nat} {v w : Value}
    {k l : ScalarKind} (h : FirstMismatch args params i v k) (agrees : w.kind = .scalar l) :
    FirstMismatch (w :: args) (l :: params) (i + 1) v k := by
  refine ⟨h.arg, h.param, h.differs, fun j w' l' hw hl differs => ?_⟩
  cases j with
  | zero =>
      cases hw
      cases hl
      exact absurd agrees differs
  | succ j => exact Nat.succ_le_succ (h.least j w' l' hw hl differs)

/-- The error that is found is that of the first argument of another kind. -/
theorem firstMismatch_of_kindError? {token : UInt32} {index : Nat} {args : List Value}
    {params : List ScalarKind} {err : CallError}
    (found : kindError? token index args params = some err) :
    ∃ i v k, FirstMismatch args params i v k ∧ err = .argumentKind token (index + i) k v.kind := by
  induction args generalizing index params with
  | nil => cases found
  | cons w rest ih =>
      cases params with
      | nil => cases found
      | cons l params =>
          rw [kindError?] at found
          split at found
          next agrees =>
            obtain ⟨i, v, k, first, rfl⟩ := ih found
            exact ⟨i + 1, v, k, first.cons agrees, by rw [Nat.add_assoc, Nat.add_comm 1 i]⟩
          next differs =>
            cases found
            exact ⟨0, w, l, ⟨rfl, rfl, differs, fun j _ _ _ _ _ => Nat.zero_le j⟩, rfl⟩

/-- The error with which the arguments are refused, and its words: it is on their number or, if that
is right, on the first of another kind. -/
inductive Signature.Refuses (s : Signature) (token : UInt32) (args : List Value) :
    CallError → String → Prop where
  /-- There are not as many arguments as parameters. -/
  | arity (differs : args.length ≠ s.params.length) :
      Refuses s token args (.arity token s.params.length args.length)
        s!"icall {token}: expected {s.params.length} argument(s), got {args.length}"
  /-- There are, but one is of another kind than its parameter. -/
  | argumentKind {i : Nat} {v : Value} {k : ScalarKind} (same : args.length = s.params.length)
      (first : FirstMismatch args s.params i v k) :
      Refuses s token args (.argumentKind token i k v.kind)
        s!"icall {token}: argument {i} expected {k.cName}, got {v.kind.name}"

/-! ## Routines on scalars -/

variable {σ α β : Type}

/-- A routine either returns or panics. -/
theorem Routine.survives_ending (r : Routine α β) (result : β → Except CallError Value)
    (payloads : List α) : (r.ending result payloads).survives = true := by
  unfold Routine.ending
  cases r.run payloads <;> rfl

/-- Arguments that are made up of their payloads again are served by running the routine on these. -/
theorem Routine.serve_of_payloads (r : Routine α β) {payload? : Value → Option α} {encode : α → Value}
    {args : List Value} (h : (args.filterMap payload?).map encode = args) :
    ∃ payloads, args = payloads.map encode ∧ ∀ result, (r.serve payload? result args : Exec σ _) =
      Exec.callThenEnd r.name args (r.ending result payloads) :=
  ⟨args.filterMap payload?, h.symm, fun result => r.serve_eq_callThenEnd payload? result args⟩

/-- The arguments are made of payloads, and the native's routine, run on these, ends so. -/
inductive Native.Answers (o : CallOptions) (token : UInt32) :
    Native → List Value → Ending (Except CallError Value) → Prop where
  /-- Native integers in, a native integer out. -/
  | allInteger {n : UInt8} {r : Routine Int32 Int32} (ints : List Int32) :
      Answers o token (.allInteger n r) (ints.map Value.int)
        (r.ending (fun i => .ok (.int i)) ints)
  /-- Native integers in, nothing out. -/
  | integerVoid {n : UInt8} {r : Routine Int32 Unit} (ints : List Int32) :
      Answers o token (.integerVoid n r) (ints.map Value.int)
        (r.ending (fun _ => .ok .void) ints)
  /-- Scalars in, and out what the return slot makes of the result. -/
  | mixed {s : Signature} {r : Routine Scalar Scalar} (scalars : List Scalar) :
      Answers o token (.mixed s r) (scalars.map Value.scalar)
        (r.ending (o.mixedResult token s.ret) scalars)
  /-- Native integers in, an address out. -/
  | returnsHandle {n : UInt8} {r : Routine Int32 Handle} (ints : List Int32) :
      Answers o token (.returnsHandle n r) (ints.map Value.int)
        (r.ending (fun h => .ok (.handle h)) ints)

theorem Native.Answers.survives {o : CallOptions} {token : UInt32} {n : Native} {args : List Value}
    {ending : Ending (Except CallError Value)} (h : n.Answers o token args ending) :
    ending.survives = true := by
  cases h <;> exact Routine.survives_ending _ _ _

variable [ManagedContext σ]

/-- A native on scalars that is served arguments of its kinds answers them. -/
theorem Native.serve_of_kinds {n : Native} {s : Signature} {args : List Value}
    (signature : n.signature? = some s)
    (kinds : args.map Value.kind = s.params.map ValueKind.scalar) (o : CallOptions)
    (token : UInt32) :
    ∃ ending, n.Answers o token args ending ∧ ∀ reentry : Reentry σ,
      n.serve o token reentry args = Exec.callThenEnd n.routineName args ending := by
  cases n with
  | allInteger k r =>
      cases signature
      obtain ⟨ints, rfl, serves⟩ := r.serve_of_payloads (σ := σ) (map_int_payloads kinds)
      exact ⟨_, .allInteger ints, fun _ => serves _⟩
  | integerVoid k r =>
      cases signature
      obtain ⟨ints, rfl, serves⟩ := r.serve_of_payloads (σ := σ) (map_int_payloads kinds)
      exact ⟨_, .integerVoid ints, fun _ => serves _⟩
  | mixed s r =>
      cases signature
      obtain ⟨scalars, rfl, serves⟩ := r.serve_of_payloads (σ := σ) (map_scalar_payloads kinds)
      exact ⟨_, .mixed scalars, fun _ => serves _⟩
  | returnsHandle k r =>
      cases signature
      obtain ⟨ints, rfl, serves⟩ := r.serve_of_payloads (σ := σ) (map_int_payloads kinds)
      exact ⟨_, .returnsHandle ints, fun _ => serves _⟩
  | managed k r => cases signature

/-! ## Calls under a convention -/

/-- An error of the body is the error of a call that gets as far as the body, under either
convention. -/
theorem Entry.underConvention_error (e : Entry) (err : CallError) {c : σ}
    (begins : e.convention.Begins c) :
    (e.underConvention (pure (.error err)) c).ending = .returned (.error err) := by
  unfold Entry.underConvention
  cases hc : e.convention with
  | raw => rfl
  | wrapped =>
      obtain ⟨mark, opened, opens⟩ := begins hc
      dsimp only
      rw [framed_of_ok opens]
      rfl

theorem CallsNothing.filter_eq_nil {trace : List Event} (h : CallsNothing trace) :
    trace.filter Event.isCall = [] :=
  List.filter_eq_nil_iff.mpr fun ev hev => by rw [h ev hev]; exact Bool.false_ne_true

/-- The calls of natives that a call makes are those of its body, if it gets that far. -/
theorem Entry.calls_underConvention (e : Entry) (o : CallOptions) (args : List Value)
    {body : Exec σ (Except CallError Value)} {trace : List Event}
    (constant : ∀ s, (body s).trace = trace) {c : σ} (begins : e.convention.Begins c) :
    ((e.underConvention body c).after (e.traceEvents o args)).trace.filter Event.isCall =
      trace.filter Event.isCall := by
  rw [Run.after, List.filter_append, (e.callsNothing_traceEvents o args).filter_eq_nil,
    List.nil_append]
  unfold Entry.underConvention
  cases hc : e.convention with
  | raw => exact congrArg _ (constant c)
  | wrapped =>
      obtain ⟨before, after, htrace, hbefore, hafter⟩ := framed_trace body (begins hc)
      dsimp only
      rw [htrace, constant, List.filter_append, List.filter_append, hbefore.filter_eq_nil,
        hafter.filter_eq_nil, List.nil_append, List.append_nil]

/-! ## Calls of the entries of a store -/

/-- A native that takes part in nothing managed has a signature. -/
theorem Native.exists_signature {n : Native} (scalar : n.isManaged = false) :
    ∃ s, n.signature? = some s := by
  cases n with
  | managed k r => cases scalar
  | _ => exact ⟨_, rfl⟩

/-- A native on scalars accepts the arguments that are of the kinds of its parameters. -/
theorem Native.accepts_iff_kinds {n : Native} {s : Signature} (signature : n.signature? = some s)
    {args : List Value} :
    n.Accepts args ↔ args.map Value.kind = s.params.map ValueKind.scalar := by
  constructor
  · intro accepts
    exact accepts.2 s signature
  · intro kinds
    have lengths := congrArg List.length kinds
    rw [List.length_map, List.length_map, Native.length_params signature] at lengths
    refine ⟨lengths, fun s' hs' => ?_⟩
    cases Option.some.inj (signature.symm.trans hs')
    exact kinds

/-- A managed native accepts the arguments that are as many as it takes. -/
theorem Native.accepts_managed_iff {n : UInt8} {routine : ManagedRoutine} {args : List Value} :
    (Native.managed n routine).Accepts args ↔ args.length = n.toNat := by
  constructor
  · intro accepts
    exact accepts.1
  · intro same
    exact ⟨same, nofun⟩

section
variable {r : Record} {e : Entry} (makes : r.Makes e) {s : Signature}
  (signature : e.native.signature? = some s) {args : List Value} (o : CallOptions)
  (reentry : Reentry σ) (c : σ)
include makes signature

/-- Arguments of the declared kinds reach the routine as their payloads. -/
theorem Record.Makes.invoke_of_kinds (kinds : args.map Value.kind = s.params.map ValueKind.scalar) :
    ∃ ending, e.native.Answers o e.token args ending ∧
      e.invoke o reentry args c =
        (e.underConvention (Exec.callThenEnd e.native.routineName args ending) c).after
          (e.traceEvents o args) := by
  have accepts := (Native.accepts_iff_kinds signature).mpr kinds
  obtain ⟨ending, answers, serves⟩ := Native.serve_of_kinds (σ := σ) signature kinds o e.token
  have performs : e.native.perform o e.token reentry args =
      Exec.callThenEnd e.native.routineName args ending := by
    rw [Native.perform_of_kinds ((Native.accepts_iff accepts.1).mp accepts), serves]
  exact ⟨ending, answers, by rw [makes.invoke_of_length accepts.1, performs]⟩

/-- Other arguments are refused and no native is called. Their number is looked at before the call gets
its frame, their kinds after it. -/
theorem Record.Makes.invoke_of_kinds_ne
    (kinds : args.map Value.kind ≠ s.params.map ValueKind.scalar) :
    (e.invoke o reentry args c).trace.filter Event.isCall = [] ∧
      ((args.length = e.native.arity → e.convention.Begins c) →
        ∃ err, s.Refuses e.token args err err.message ∧
          (e.invoke o reentry args c).ending = .returned (.error err)) := by
  have params : s.params.length = e.native.arity := Native.length_params signature
  have refuses : ¬ (e.native.Accepts args ∧ e.convention.Begins c) :=
    fun h => kinds ((Native.accepts_iff_kinds signature).mp h.1)
  have silent := makes.callsNothing o reentry refuses
  refine ⟨silent.filter_eq_nil, fun begins => ?_⟩
  by_cases same : args.length = e.native.arity
  · obtain ⟨err, found⟩ : ∃ err, kindError? e.token 0 args s.params = some err :=
      Option.ne_none_iff_exists'.mp fun h =>
        kinds ((kindError?_eq_none_iff (same.trans params.symm)).mp h)
    have performs : e.native.perform o e.token reentry args = pure (.error err) := by
      apply Native.perform_of_kindError
      rw [Native.kindError?, signature, Option.bind_some, found]
    obtain ⟨i, v, k, first, rfl⟩ := firstMismatch_of_kindError? found
    rw [makes.invoke_of_length same, performs]
    refine ⟨_, ?_, e.underConvention_error _ (begins same)⟩
    rw [Nat.zero_add]
    exact .argumentKind (same.trans params.symm) first
  · rw [Entry.invoke_of_length_ne same, ← params]
    exact ⟨_, .arity (params ▸ same), rfl⟩

/-- The routine is called, and once, exactly when the arguments are of the declared kinds and the call
gets its frame, if it needs one. -/
theorem Record.Makes.calls_eq_iff_kinds :
    (e.invoke o reentry args c).trace.filter Event.isCall = [.call e.native.routineName args] ↔
      args.map Value.kind = s.params.map ValueKind.scalar ∧ e.convention.Begins c := by
  rw [← Native.accepts_iff_kinds signature]
  constructor
  · intro calls
    by_contra refuses
    rw [(makes.callsNothing o reentry refuses).filter_eq_nil] at calls
    cases calls
  · rintro ⟨accepts, begins⟩
    obtain ⟨ending, -, runs⟩ := makes.invoke_of_kinds signature o reentry c
      ((Native.accepts_iff_kinds signature).mp accepts)
    rw [runs, e.calls_underConvention o args (Exec.trace_callThenEnd _ args ending) begins]
    rfl

end

/-- The routine of a managed native is called, and once, exactly when the number of the arguments is
right and the call gets its frame. -/
theorem Record.Makes.callsOnce_managed_iff {r : Record} {e : Entry} (makes : r.Makes e) {n : UInt8}
    {routine : ManagedRoutine} (managed : e.native = .managed n routine) (o : CallOptions)
    (reentry : Reentry σ) (args : List Value) (c : σ) :
    CallsOnce e.native reentry args (Frame.entered c) (e.invoke o reentry args c).trace ↔
      args.length = n.toNat ∧ Frame.Opens c := by
  have wrapped : e.convention = .wrapped :=
    makes.wrapped_of_managed (by rw [managed, Native.isManaged])
  rw [makes.callsOnce_iff, wrapped, Convention.begins_wrapped_iff, managed,
    Native.accepts_managed_iff]

end InternalCall
