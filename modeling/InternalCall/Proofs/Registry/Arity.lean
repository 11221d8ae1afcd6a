import InternalCall.Proofs.Registry.Prototypes

/-!
# Linking and the number of arguments

A call is refused for the number of its arguments exactly when that is not the
arity of its native, which a prototype is meant to state. Linking compares the two
for natives on scalars, as part of their shapes, but has no shape to compare for a
managed native. So a managed native is linked under a prototype with any number of
parameters, and if that is not its arity then every call that follows the prototype
is refused.
-/

namespace InternalCall

variable {σ α β : Type}

/-! ## What a call is refused for -/

/-- Whether the error is one about the number of arguments. -/
def CallError.isArity : CallError → Bool
  | .arity _ _ _ => true
  | _ => false

/-- Whatever the state, the computation comes back without an error about the number of arguments. -/
def Exec.NeverArity (body : Exec σ (Except CallError Value)) : Prop :=
  ∀ (s : σ) (err : CallError), (body s).ending = .returned (.error err) → err.isArity = false

/-- A result that is judged is not refused for the number of arguments. -/
theorem CallOptions.isArity_of_mixedResult {o : CallOptions} {token : UInt32} {ret : ReturnKind}
    {out : Scalar} {err : CallError} (h : o.mixedResult token ret out = .error err) :
    err.isArity = false := by
  cases ret with
  | void => cases h
  | scalar declared =>
      rw [mixedResult] at h
      split at h
      · cases h
        rfl
      · cases h

theorem Routine.serve_neverArity (r : Routine α β) (payload? : Value → Option α)
    {result : β → Except CallError Value}
    (judged : ∀ b err, result b = .error err → err.isArity = false) (args : List Value) :
    (r.serve payload? result args : Exec σ _).NeverArity := by
  intro s err h
  rw [Routine.serve_eq_callThenEnd, Exec.ending_callThenEnd, Routine.ending] at h
  cases hr : r.run (args.filterMap payload?) with
  | error message =>
      rw [hr] at h
      cases h
  | ok b =>
      rw [hr] at h
      exact judged b err (Ending.returned.inj h)

variable [ManagedContext σ]

theorem Native.serve_neverArity (n : Native) (o : CallOptions) (token : UInt32)
    (reentry : Reentry σ) (args : List Value) :
    (n.serve o token reentry args).NeverArity := by
  cases n with
  | managed k r =>
      intro s err h
      rw [Native.serve, Exec.bind_apply] at h
      generalize r.call reentry args s = called at h
      obtain ⟨ending, c, trace⟩ := called
      cases ending with
      | returned result =>
          cases result <;> cases h
          rfl
      | panicked p | aborted e | exhausted => cases h
  | mixed s r =>
      exact r.serve_neverArity Value.scalar? (fun _ _ => CallOptions.isArity_of_mixedResult) args
  | allInteger k r | integerVoid k r | returnsHandle k r =>
      exact r.serve_neverArity Value.int? (by rintro _ _ ⟨⟩) args

/-- A native that runs refuses arguments for their kinds only. -/
theorem Native.perform_neverArity (n : Native) (o : CallOptions) (token : UInt32)
    (reentry : Reentry σ) (args : List Value) :
    (n.perform o token reentry args).NeverArity := by
  cases kinds : n.kindError? token args with
  | none =>
      rw [Native.perform_of_kinds kinds]
      exact n.serve_neverArity o token reentry args
  | some found =>
      rw [Native.perform_of_kindError kinds]
      obtain ⟨s, -, hs⟩ := Option.bind_eq_some_iff.mp kinds
      obtain ⟨i, v, k, -, rfl⟩ := firstMismatch_of_kindError? hs
      intro c err h
      cases h
      rfl

/-- A frame adds managed errors only. -/
theorem framed_neverArity {body : Exec σ (Except CallError Value)} (inner : body.NeverArity) :
    (framed body).NeverArity := by
  intro c err h
  obtain ⟨result, hresult, houtcome⟩ := framed_returned h
  cases result with
  | error raised =>
      cases houtcome
      exact inner _ _ hresult
  | ok v =>
      cases hp : (ManagedContext.takePending (body (Frame.entered c)).state).1 with
      | none =>
          rw [hp] at houtcome
          cases houtcome
      | some pending =>
          rw [hp] at houtcome
          cases houtcome
          rfl

/-- A call is refused for the number of its arguments exactly when that is not the arity. -/
theorem Record.Makes.arity_error_iff {r : Record} {e : Entry} (makes : r.Makes e) (o : CallOptions)
    (reentry : Reentry σ) (args : List Value) (c : σ) :
    (∃ err, (e.invoke o reentry args c).ending = .returned (.error err) ∧ err.isArity = true) ↔
      args.length ≠ e.native.arity := by
  constructor
  · rintro ⟨err, h, arity⟩ same
    rw [makes.invoke_of_length same] at h
    have inner := e.native.perform_neverArity o e.token reentry args
    have never : (e.underConvention (e.native.perform o e.token reentry args)).NeverArity := by
      unfold Entry.underConvention
      cases e.convention with
      | raw => exact inner
      | wrapped => exact framed_neverArity inner
    have absent := never c err h
    rw [arity] at absent
    cases absent
  · intro differs
    rw [Entry.invoke_of_length_ne differs]
    exact ⟨_, rfl, rfl⟩

/-! ## What linking compares -/

/-- A native on scalars that an entry admits has as many parameters as the prototype. -/
theorem TableEntry.Admits.arity_eq {e : TableEntry} {native : Native} (admits : e.Admits native)
    {declared : Signature} (prototype : e.signature? = some declared)
    (scalar : native.isManaged = false) : native.arity = declared.arity := by
  obtain ⟨registered, shape, h⟩ := admits declared prototype scalar
  rw [← Native.length_params shape, Signature.arity, h.params.length_eq]

namespace Registry

variable {t : AssemblyTable} {catalog : Catalog} {settings : Settings} {registry : Registry}

/-- Dispatching the token of an entry of the table calls the native under its symbol, which the entry
admits. -/
theorem dispatch_of_linked (linked : ofTable t catalog settings = .ok registry) {e : TableEntry}
    (he : e ∈ t.entries) :
    ∃ (r : Record) (f : Entry), r.Makes f ∧ f.token = e.token ∧
      catalog.get? e.symbol = some f.native ∧ e.Admits f.native ∧
      ∀ (allowance : Nat) (args : List Value), registry.dispatch (allowance + 1) e.token args =
        f.invoke registry.callOptions (registry.dispatch allowance : Reentry σ) args := by
  obtain ⟨records, hlink, hbuild⟩ := ofTable_eq_ok_iff.mp linked
  obtain ⟨f, hf, bound⟩ := exists_of_mem_of_forall₂ (boundTo_of_ofTable linked)
    (Array.mem_def.mp he)
  obtain ⟨r, makes⟩ := Store.exists_makes_of_mem (build_eq_ok hbuild).1 (Array.mem_def.mpr hf)
  obtain ⟨native, found, admits⟩ := AssemblyTable.linkable_of_link hlink he
  cases Option.some.inj (found.symm.trans bound.native_eq)
  have resolved : registry.resolver.resolve e.token = .ok f :=
    (resolve_eq_ok_iff_of_ofTable linked).mpr ⟨Array.mem_def.mpr hf, bound.token_eq⟩
  exact ⟨r, f, makes, bound.token_eq, found, admits, dispatch_of_resolve resolved⟩

/-- In a registry that was made from a table, natives on scalars take as many arguments as their
prototypes declare. A dispatch with that many arguments is refused for their number exactly if the
native is managed and takes another number of them, and then nothing else has happened. -/
theorem refused_arity_iff (linked : ofTable t catalog settings = .ok registry) {e : TableEntry}
    (he : e ∈ t.entries) {declared : Signature} (prototype : e.signature? = some declared) :
    ∃ native, catalog.get? e.symbol = some native ∧
      (native.isManaged = false → native.arity = declared.arity) ∧
      ∀ (allowance : Nat) (args : List Value) (c : σ), args.length = declared.arity →
        ((∃ err, (registry.dispatch (allowance + 1) e.token args c).ending =
            .returned (.error err) ∧ err.isArity = true) ↔
          native.isManaged = true ∧ native.arity ≠ declared.arity) ∧
        (native.arity ≠ declared.arity → registry.dispatch (allowance + 1) e.token args c =
          ⟨.returned (.error (.arity e.token native.arity declared.arity)), c, []⟩) := by
  obtain ⟨r, f, makes, htoken, found, admits, dispatch⟩ := dispatch_of_linked (σ := σ) linked he
  refine ⟨f.native, found, admits.arity_eq prototype, fun allowance args c follows => ⟨?_, ?_⟩⟩
  · rw [dispatch, makes.arity_error_iff, follows]
    constructor
    · intro differs
      refine ⟨?_, differs.symm⟩
      by_contra scalar
      exact differs (admits.arity_eq prototype (Bool.eq_false_iff.mpr scalar)).symm
    · rintro ⟨-, differs⟩
      exact differs.symm
  · intro differs
    have hlength : args.length ≠ f.native.arity := fun h => differs (h.symm.trans follows)
    rw [dispatch, Entry.invoke_of_length_ne hlength, htoken, follows]

/-- A native on scalars and a managed one, each called with as many arguments as declared: the first
refuses the object for its kind and not for the number, the second takes one argument and refuses
two. -/
theorem refused_arity_iff_scalar_and_managed :
    let len : Native := .allInteger 1 ⟨"len", fun args => .ok args.sum⟩
    let clone : Native := .managed 1 ⟨"clone", fun args => .ret (args.headD .void)⟩
    let t : AssemblyTable :=
      ⟨"corlib", #[⟨10, "len", some (.allInt 1), 4⟩, ⟨20, "clone", some (.allInt 2), 0⟩]⟩
    let registry : Registry := ⟨⟨#[⟨10, len, .raw⟩, ⟨20, clone, .wrapped⟩]⟩, {}⟩
    let c : DetachedContext := ⟨3, some (.ofMessage "stale")⟩
    ofTable t (.ofList [("len", len), ("clone", clone)]) {} = .ok registry ∧
      (¬ ∃ err, (registry.dispatch 2 10 [.object ⟨7⟩] c).ending = .returned (.error err) ∧
        err.isArity = true) ∧
      registry.dispatch 2 20 [.object ⟨7⟩, .int 2] c =
        ⟨.returned (.error (.arity 20 1 2)), c, []⟩ := by
  intro len clone t registry c
  have linked : ofTable t (.ofList [("len", len), ("clone", clone)]) {} = .ok registry := rfl
  refine ⟨linked, ?_, ?_⟩
  · obtain ⟨native, found, -, called⟩ := refused_arity_iff (σ := DetachedContext) linked
      (e := ⟨10, "len", some (.allInt 1), 4⟩) (by simp [t]) rfl
    cases found
    rw [(called 1 [.object ⟨7⟩] c rfl).1]
    rintro ⟨⟨⟩, -⟩
  · obtain ⟨native, found, -, called⟩ := refused_arity_iff (σ := DetachedContext) linked
      (e := ⟨20, "clone", some (.allInt 2), 0⟩) (by simp [t]) rfl
    cases found
    exact (called 1 [.object ⟨7⟩, .int 2] c rfl).2 (by decide)

/-- A managed native of one parameter is linked under a prototype of two, and a call with two
arguments is refused for their number, at every depth. -/
theorem managed_linked_under_other_arity :
    let clone : Native := .managed 1 ⟨"clone", fun args => .ret (args.headD .void)⟩
    let t : AssemblyTable := ⟨"corlib", #[⟨20, "clone", some (.allInt 2), 0⟩]⟩
    let registry : Registry := ⟨⟨#[⟨20, clone, .wrapped⟩]⟩, {}⟩
    let c : DetachedContext := {}
    ofTable t (.ofList [("clone", clone)]) {} = .ok registry ∧
      clone.arity ≠ (Signature.allInt 2).arity ∧
      ∀ allowance : Nat, registry.dispatch (allowance + 1) 20 [.int 1, .int 2] c =
        ⟨.returned (.error (.arity 20 1 2)), c, []⟩ := by
  intro clone t registry c
  have linked : ofTable t (.ofList [("clone", clone)]) {} = .ok registry := rfl
  refine ⟨linked, by decide, fun allowance => ?_⟩
  obtain ⟨r, f, -, htoken, found, -, dispatch⟩ := dispatch_of_linked (σ := DetachedContext) linked
    (e := ⟨20, "clone", some (.allInt 2), 0⟩) (by simp [t])
  have hnative : clone = f.native := Option.some.inj found
  have hlength : [Value.int 1, .int 2].length ≠ f.native.arity := by
    rw [← hnative]
    decide
  rw [dispatch, Entry.invoke_of_length_ne hlength, htoken, ← hnative]
  rfl

end Registry

end InternalCall
