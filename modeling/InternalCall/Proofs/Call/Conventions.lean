import InternalCall.Proofs.Call.Kinds

/-!
# The two conventions on scalars

A native on scalars may be called with either convention, and which one a record
selects makes no difference to the call: it ends alike and calls the native alike,
whatever is pending in the context. The raw call leaves the context alone; the
wrapped call leaves its depth and empties the slot for the pending error, unless
it is refused for the number of its arguments. They part only at the largest depth
that the context counts, where the wrapped call gets no frame.
-/

namespace InternalCall

/-- The entry stands in a store in the place of the record. -/
def Record.Becomes (r : Record) (e : Entry) : Prop :=
  ∃ records store i, Store.build records = .ok store ∧ records[i]? = some r ∧
    store.get? i = some e

/-- The record of a native that may be called with the convention makes one entry. -/
theorem Record.makes_ofNative_iff {token : UInt32} {native : Native} {convention : Convention}
    (fits : native.arity ≤ maxArity) (supported : native.supports convention = true) {e : Entry} :
    (Record.ofNative token native convention).Makes e ↔ e = ⟨token, native, convention⟩ := by
  constructor
  · intro makes
    obtain ⟨token', native', convention'⟩ := e
    have htoken : token' = token := makes.token_eq
    have hnative : native = native' := Option.some.inj makes.native_eq
    have hconvention : convention = convention' := by
      have h := makes.convention_eq
      rw [Record.ofNative, Convention.ofFlag?_flag] at h
      exact Option.some.inj h
    rw [htoken, hnative, hconvention]
  · rintro rfl
    exact ⟨rfl, rfl, Convention.ofFlag?_flag convention, fits, supported⟩

/-- A record that makes an entry has it stand in its place in every store, and in one at least. -/
theorem Record.becomes_iff_makes {r : Record} {e : Entry} : r.Becomes e ↔ r.Makes e := by
  constructor
  · rintro ⟨records, store, i, built, hr, he⟩
    obtain ⟨e', he', makes⟩ := Store.exists_makes_at built hr
    cases Option.some.inj (he.symm.trans he')
    exact makes
  · intro makes
    refine ⟨[r], ⟨#[e]⟩, 0, Store.build_eq_ok_iff.mpr ⟨?_, ?_⟩, rfl, rfl⟩
    · exact List.pairwise_singleton _ _
    · exact .cons makes .nil

/-- A frame around a body that leaves the context alone and returns or panics: the body's ending
stays as it is, and the context is left at its depth with an empty slot. -/
theorem framed_of_constant {body : Exec DetachedContext (Except CallError Value)}
    {ending : Ending (Except CallError Value)} {trace : List Event}
    (constant : ∀ c, body c = ⟨ending, c, trace⟩) (survives : ending.survives = true)
    {c : DetachedContext} (room : c.depth < DetachedContext.maxDepth) :
    (framed body c).ending = ending ∧ (framed body c).state = ⟨c.depth, none⟩ := by
  -- the body starts with the slot that opening the frame emptied, and does not fill it
  rw [framed_detached _ room, constant]
  cases ending with
  | returned result => cases result <;> exact ⟨rfl, rfl⟩
  | panicked p => exact ⟨rfl, rfl⟩
  | aborted e => cases survives
  | exhausted => cases survives

section
variable {native : Native} (scalar : native.isManaged = false)
include scalar

/-- With the right number of arguments, a native on scalars does the same in every state, leaves it
alone, and returns or panics. -/
theorem Native.perform_of_scalar {args : List Value} (same : args.length = native.arity)
    (o : CallOptions) (token : UInt32) :
    ∃ ending trace, ending.survives = true ∧
      ∀ (reentry : Reentry DetachedContext) (c : DetachedContext),
        native.perform o token reentry args c = ⟨ending, c, trace⟩ := by
  obtain ⟨s, signature⟩ := Native.exists_signature scalar
  cases kinds : native.kindError? token args with
  | some err =>
      refine ⟨.returned (.error err), [], rfl, fun reentry c => ?_⟩
      rw [Native.perform_of_kindError kinds]
      rfl
  | none =>
      have accepts := (Native.accepts_iff same).mpr kinds
      obtain ⟨ending, answers, serves⟩ := Native.serve_of_kinds (σ := DetachedContext) signature
        (accepts.2 s signature) o token
      refine ⟨ending, [.call native.routineName args], answers.survives, fun reentry c => ?_⟩
      rw [Native.perform_of_kinds kinds, serves]
      rfl

/-- With the right number of arguments, the calls of a native on scalars under the two conventions
end alike and call the native alike; the wrapped call leaves the depth and an empty slot. -/
theorem Native.conventions_agree (fits : native.arity ≤ maxArity) {args : List Value}
    (same : args.length = native.arity) (token : UInt32) (o : CallOptions)
    (reentry : Reentry DetachedContext) (c : DetachedContext) {c' : DetachedContext}
    (room : c'.depth < DetachedContext.maxDepth) :
    let raw := (Entry.mk token native .raw).invoke o reentry args c
    let wrapped := (Entry.mk token native .wrapped).invoke o reentry args c'
    raw.ending = wrapped.ending ∧
    raw.trace.filter Event.isCall = wrapped.trace.filter Event.isCall ∧
    wrapped.state = ⟨c'.depth, none⟩ := by
  obtain ⟨ending, trace, survives, constant⟩ := Native.perform_of_scalar scalar same o token
  obtain ⟨wrappedEnding, wrappedState⟩ := framed_of_constant (constant reentry) survives room
  have traces := fun s => congrArg Run.trace (constant reentry s)
  have makes : ∀ convention,
      (Record.ofNative token native convention).Makes ⟨token, native, convention⟩ := fun convention =>
    (Record.makes_ofNative_iff fits (Native.supports_of_scalar scalar convention)).mpr rfl
  have beginsRaw : Convention.raw.Begins c := Convention.begins_raw c
  have beginsWrapped : Convention.wrapped.Begins c' :=
    Convention.begins_wrapped_iff.mpr (Frame.opens_detached_iff.mpr room)
  intro raw wrapped
  have runsRaw : raw = _ := (makes .raw).invoke_of_length same o reentry c
  have runsWrapped : wrapped = _ := (makes .wrapped).invoke_of_length same o reentry c'
  rw [runsRaw, runsWrapped]
  refine ⟨?_, ?_, wrappedState⟩
  · calc (native.perform o token reentry args c).ending
        = ending := by rw [constant]
      _ = (framed (native.perform o token reentry args) c').ending := wrappedEnding.symm
  · rw [Entry.calls_underConvention _ o args traces beginsRaw,
      Entry.calls_underConvention _ o args traces beginsWrapped]

end

end InternalCall
