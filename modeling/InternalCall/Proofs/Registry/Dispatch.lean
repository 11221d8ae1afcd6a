import InternalCall.Proofs.Call.OwnCalls
import InternalCall.Proofs.Table.Resolution
import InternalCall.Registry.Basic

/-!
# Dispatch is a scan followed by a call

Dispatching a token in a built registry is scanning the records for the one that
has the token and performing its native under the convention of its flag byte,
at every depth of nested dispatches. A token that no record has stops the run
with an error that names it, and nothing else happens.
-/

namespace InternalCall

variable {σ : Type}

/-- The entry that the record stands for, whether or not it would be accepted. -/
def Record.entry? (r : Record) : Option Entry := do
  let native ← r.native?
  let convention ← Convention.ofFlag? r.flags
  return ⟨r.token, native, convention⟩

/-- Dispatch by a scan of the records from the front. -/
def scanDispatch [ManagedContext σ] (records : List Record) (settings : Settings) :
    (allowance : Nat) → Reentry σ
  | 0 => Reentry.none
  | allowance + 1 => fun token args =>
    match (records.find? fun r => r.token == token).bind Record.entry? with
    | some e => e.perform settings.callOptions (scanDispatch records settings allowance) args
    | none => (FatalError.notFound ⟨token⟩).escalate settings.onUnresolved

theorem Record.Makes.entry?_eq {r : Record} {e : Entry} (h : r.Makes e) : r.entry? = some e := by
  obtain ⟨token, native, convention⟩ := e
  obtain ⟨rfl, hn, hc, -, -⟩ := h
  simp only [Record.entry?, hn, hc]
  rfl

section
variable [ManagedContext σ] {registry : Registry} {token : UInt32}

/-- One dispatch of a token that resolves calls the entry. -/
theorem Registry.dispatch_of_resolve {e : Entry} (h : registry.resolver.resolve token = .ok e)
    (allowance : Nat) (args : List Value) :
    registry.dispatch (allowance + 1) token args =
      e.invoke registry.callOptions (registry.dispatch allowance : Reentry σ) args := by
  rw [Registry.dispatch]
  simp only [Resolver.resolveCallSite, h, pure_bind]

/-- One dispatch of a token that does not resolve is fatal. -/
theorem Registry.dispatch_of_miss {miss : NotFound}
    (h : registry.resolver.resolve token = .error miss) (allowance : Nat) (args : List Value) :
    (registry.dispatch (allowance + 1) token args : Exec σ _) =
      (FatalError.notFound miss).escalate registry.settings.onUnresolved := by
  rw [Registry.dispatch]
  simp only [Resolver.resolveCallSite, h, FatalError.escalate_bind]
  rfl

end

section
variable {records : List Record} {settings : Settings} {registry : Registry}
  (built : Registry.build records settings = .ok registry)
include built

/-- A registry that was built has the store of its records and the settings it was given. -/
theorem Registry.build_eq_ok : Store.build records = .ok registry.store ∧
    registry.settings = settings := by
  simp only [Registry.build, bind_eq_ok_iff, pure_eq_ok_iff] at built
  obtain ⟨store, hstore, rfl⟩ := built
  exact ⟨hstore, rfl⟩

/-- A record's token resolves to the entry that the record makes. -/
theorem Registry.resolve_of_mem {r : Record} (hr : r ∈ records) :
    ∃ e, r.Makes e ∧ registry.resolver.resolve r.token = .ok e := by
  have hstore := (Registry.build_eq_ok built).1
  obtain ⟨i, hi⟩ := List.mem_iff_getElem?.mp hr
  obtain ⟨e, he, hmakes⟩ := Store.exists_makes_at hstore hi
  refine ⟨e, hmakes, ?_⟩
  rw [← hmakes.token_eq]
  exact Resolver.resolve_of_makes hstore he

variable [ManagedContext σ]

/-- One dispatch of a record's token performs the entry that the record makes. -/
theorem Registry.dispatch_of_mem {r : Record} (hr : r ∈ records) :
    ∃ e, r.Makes e ∧ ∀ (allowance : Nat) (args : List Value),
      registry.dispatch (allowance + 1) r.token args =
        e.perform settings.callOptions (registry.dispatch allowance : Reentry σ) args := by
  obtain ⟨e, hmakes, hresolve⟩ := Registry.resolve_of_mem built hr
  refine ⟨e, hmakes, fun allowance args => ?_⟩
  rw [Registry.dispatch_of_resolve hresolve, hmakes.invoke_eq_perform, Registry.callOptions,
    (Registry.build_eq_ok built).2]

/-- One dispatch of a token that no record has is fatal. -/
theorem Registry.dispatch_of_absent {token : UInt32} (absent : ∀ r ∈ records, r.token ≠ token)
    (allowance : Nat) (args : List Value) (c : σ) :
    registry.dispatch (allowance + 1) token args c =
      (FatalError.notFound ⟨token⟩).escalate settings.onUnresolved c := by
  obtain ⟨hstore, hsettings⟩ := Registry.build_eq_ok built
  have hresolve : registry.resolver.resolve token = .error ⟨token⟩ :=
    Resolver.resolve_of_absent hstore absent
  rw [Registry.dispatch_of_miss hresolve, hsettings]

/-- The registry dispatches as the scan does, however deep dispatches may nest. -/
theorem Registry.dispatch_eq_scan (allowance : Nat) :
    (registry.dispatch allowance : Reentry σ) = scanDispatch records settings allowance := by
  induction allowance with
  | zero => rfl
  | succ allowance ih =>
      funext token args
      cases hfind : records.find? fun r => r.token == token with
      | none =>
          have absent : ∀ r ∈ records, r.token ≠ token := by
            intro r hr
            simpa using List.find?_eq_none.mp hfind r hr
          funext c
          simp only [Registry.dispatch_of_absent built absent, scanDispatch, hfind,
            Option.bind_none]
      | some r =>
          have htoken : r.token = token := by simpa using List.find?_some hfind
          obtain ⟨e, hmakes, hdispatch⟩ :=
            Registry.dispatch_of_mem (σ := σ) built (List.mem_of_find?_eq_some hfind)
          rw [htoken] at hdispatch
          rw [hdispatch, ih]
          simp only [scanDispatch, hfind, Option.bind_some, hmakes.entry?_eq]

end

end InternalCall
