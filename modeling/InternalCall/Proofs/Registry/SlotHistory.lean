import InternalCall.Proofs.Registry.Linking
import InternalCall.Registry.Slot

/-!
# The slot over time

What happens to the slot of a process that attempts to fill it, asks what it
holds and dispatches in what it holds, in any order. The slot holds the registry
of the first attempt whose records build, from that attempt on; every other
attempt fails and leaves it alone. A failure that is escalated as a panic may be
caught, and the process goes on with the slot as it was.
-/

namespace InternalCall

variable {σ τ α ρ : Type}

/-- Runs a computation on a context of its own, beside a state that it leaves alone. -/
def Exec.beside (x : Exec σ α) (c : σ) : Exec τ (α × σ) := fun s =>
  match x c with
  | ⟨.returned a, c', trace⟩ => ⟨.returned (a, c'), s, trace⟩
  | ⟨.panicked p, _, trace⟩ => ⟨.panicked p, s, trace⟩
  | ⟨.aborted e, _, trace⟩ => ⟨.aborted e, s, trace⟩
  | ⟨.exhausted, _, trace⟩ => ⟨.exhausted, s, trace⟩

/-- An operation of a process on its slot. -/
inductive SlotStep (σ ρ : Type) where
  /-- Puts a registry that was built before into the slot. -/
  | install (registry : Registry)
  /-- Builds a registry and puts it into the slot. -/
  | load (records : List Record) (settings : Settings)
  /-- Builds a registry and puts it into the slot; a failure is fatal. -/
  | loadOrEscalate (records : List Record) (settings : Settings)
  /-- Asks whether a registry is installed. -/
  | isFilled
  /-- Asks for the installed registry. -/
  | get
  /-- Reads something off the installed registry. -/
  | read (question : Registry → ρ)
  /-- Dispatches a token in the installed registry, on a context of the caller. -/
  | dispatch (allowance : Nat) (token : UInt32) (args : List Value) (c : σ)

/-- What an operation on the slot returns. -/
inductive SlotAnswer (σ ρ : Type) where
  /-- The slot was filled with the registry. -/
  | installed (registry : Registry)
  /-- The attempt to fill the slot was refused. -/
  | refused (e : BuildError)
  /-- Whether a registry is installed. -/
  | filled (b : Bool)
  /-- The installed registry. -/
  | found (held? : Option Registry)
  /-- What was read, if a registry is installed. -/
  | read (answer? : Option ρ)
  /-- The result of a dispatch and the context it left, if a registry is installed. -/
  | dispatched (result? : Option (Except CallError Value × σ))

/-- The answer of an attempt that reports its failure. -/
def SlotAnswer.ofResult : Except BuildError Registry → SlotAnswer σ ρ
  | .ok registry => installed registry
  | .error e => refused e

namespace SlotStep

/-- Performs the operation. Without an installed registry there is nothing to dispatch in. -/
def perform [ManagedContext σ] : SlotStep σ ρ → Exec Slot (SlotAnswer σ ρ)
  | install registry => .ofResult <$> Slot.install registry
  | load records settings => .ofResult <$> Slot.load records settings
  | loadOrEscalate records settings => .installed <$> Slot.loadOrEscalate records settings
  | isFilled => do return .filled (← Exec.get).isFilled
  | get => do return .found (← Exec.get).installed?
  | read question => do return .read ((← Exec.get).installed?.map question)
  | dispatch allowance token args c => do
    match (← Exec.get).installed? with
    | none => return .dispatched none
    | some registry =>
      return .dispatched (some (← (registry.dispatch allowance token args).beside c))

/-- What an attempt to fill the slot brings: a registry, or the reason why its records are none.
The other operations attempt nothing. -/
def attempt? : SlotStep σ ρ → Option (Except BuildError Registry)
  | install registry => some (.ok registry)
  | load records settings | loadOrEscalate records settings =>
    some (Registry.build records settings)
  | isFilled | get | read _ | dispatch .. => none

/-- The registry that the step brings, if it brings one. -/
def offered? (step : SlotStep σ ρ) : Option Registry := step.attempt?.bind Except.toOption

theorem attempt?_of_offered? {step : SlotStep σ ρ} {registry : Registry}
    (h : step.offered? = some registry) : step.attempt? = some (.ok registry) := by
  rw [offered?] at h
  cases attempted : step.attempt? with
  | none => simp [attempted] at h
  | some attempt =>
      cases attempt with
      | error e => simp [attempted, Except.toOption] at h
      | ok r => simpa [attempted, Except.toOption] using h

end SlotStep

/-- A step of a process with the slot in which it began and what came of it. -/
structure SlotVisit (σ ρ : Type) where
  /-- The step. -/
  step : SlotStep σ ρ
  /-- The slot in which it began. -/
  before : Slot
  /-- What came of it. -/
  run : Run Slot (SlotAnswer σ ρ)

namespace Slot

/-- The steps of a process that starts with the slot. It goes on after a panic, which somebody
catches, and is over when the process ends. -/
def history [ManagedContext σ] : Slot → List (SlotStep σ ρ) → List (SlotVisit σ ρ)
  | _, [] => []
  | s, step :: rest =>
    let run := step.perform s
    ⟨step, s, run⟩ :: if run.ending.survives then run.state.history rest else []

/-! ## One step -/

/-- What comes of an attempt: the registry if there is one and the slot is empty. The slot is looked
at only when there is a registry. -/
def accept (s : Slot) (attempt : Except BuildError Registry) : Except BuildError Registry := do
  let registry ← attempt
  discard (s.fill registry)
  return registry

/-- The slot with the registry that it holds, or else with the one that is offered. -/
def orElse (s : Slot) (offered? : Option Registry) : Slot := ⟨s.installed?.or offered?⟩

@[simp] theorem orElse_none (s : Slot) : s.orElse none = s := by
  rw [orElse, Option.or_none]

@[simp] theorem orElse_orElse (s : Slot) (first? second? : Option Registry) :
    (s.orElse first?).orElse second? = s.orElse (first?.or second?) := by
  simp only [orElse, Option.or_assoc]

theorem accept_eq_ok_iff {s : Slot} {attempt : Except BuildError Registry} {registry : Registry} :
    s.accept attempt = .ok registry ↔ attempt = .ok registry ∧ s.installed? = none := by
  simp only [accept, bind_eq_ok_iff, pure_eq_ok_iff]
  constructor
  · rintro ⟨r, hattempt, u, hfill, rfl⟩
    refine ⟨hattempt, ?_⟩
    obtain ⟨held?⟩ := s
    cases held? with
    | none => rfl
    | some held => cases hfill
  · rintro ⟨hattempt, hempty⟩
    obtain ⟨held?⟩ := s
    obtain rfl : held? = none := hempty
    exact ⟨registry, hattempt, (), rfl, rfl⟩

/-- A filled slot accepts no registry. -/
theorem accept_of_filled {s : Slot} (filled : s.installed? ≠ none) (registry : Registry) :
    s.accept (.ok registry) = .error .alreadyInitialized := by
  obtain ⟨held?⟩ := s
  cases held? with
  | none => exact absurd rfl filled
  | some held => rfl

/-- An attempt that fails leaves the slot alone. -/
theorem orElse_of_accept_error {s : Slot} {attempt : Except BuildError Registry} {e : BuildError}
    (h : s.accept attempt = .error e) : s.orElse attempt.toOption = s := by
  obtain ⟨held?⟩ := s
  cases attempt with
  | error e => exact orElse_none _
  | ok registry =>
      cases held? with
      | none => cases h
      | some held => rfl

theorem install_apply (registry : Registry) (s : Slot) :
    install registry s = ⟨.returned (s.accept (.ok registry)), s.orElse (some registry), []⟩ := by
  obtain ⟨held?⟩ := s
  cases held? <;> rfl

theorem load_apply (records : List Record) (settings : Settings) (s : Slot) :
    load records settings s = ⟨.returned (s.accept (Registry.build records settings)),
      s.orElse (Registry.build records settings).toOption,
      Registry.loadEvents records settings⟩ := by
  rw [load, Exec.bind_apply, Registry.load_apply, Run.andThen_returned]
  cases Registry.build records settings with
  | error e =>
      rw [Except.toOption, orElse_none]
      exact congrArg (Run.mk _ s) (List.append_nil _)
  | ok registry =>
      simp only [install_apply, Run.after_mk, List.append_nil]
      rfl

/-- A failure to load is escalated as the settings say that were handed over, whatever those of the
installed registry say. -/
theorem loadOrEscalate_apply (records : List Record) (settings : Settings) (s : Slot) :
    loadOrEscalate records settings s =
      match s.accept (Registry.build records settings) with
      | .ok registry => ⟨.returned registry, s.orElse (Registry.build records settings).toOption,
          Registry.loadEvents records settings⟩
      | .error e => ⟨match settings.onUnresolved with
          | .abort => .aborted (.build e)
          | .panic => .panicked (.fatal (.build e)), s,
          Registry.loadEvents records settings ++ [.log .error (FatalError.build e).message]⟩ := by
  rw [loadOrEscalate, Exec.bind_apply, load_apply, Run.andThen_returned]
  cases h : s.accept (Registry.build records settings) with
  | ok registry =>
      simp only [Exec.pure_apply, Run.after_mk, List.append_nil]
  | error e =>
      cases settings.onUnresolved <;>
        simp only [orElse_of_accept_error h, FatalError.escalate_apply, Run.after_mk]

end Slot

/-- A computation beside a state leaves that state alone. -/
theorem Exec.state_beside (x : Exec σ α) (c : σ) (s : τ) : (x.beside c s).state = s := by
  unfold Exec.beside
  obtain ⟨ending, c', trace⟩ := x c
  cases ending <;> rfl

namespace SlotStep

variable [ManagedContext σ]

/-- A step leaves the slot with the registry that it holds, or else with the one that the step
brings. -/
theorem state_perform (step : SlotStep σ ρ) (s : Slot) :
    (step.perform s).state = s.orElse step.offered? := by
  cases step with
  | install registry =>
      rw [perform, Exec.map_apply, Run.state_andThen_pure, Slot.install_apply]
      rfl
  | load records settings =>
      rw [perform, Exec.map_apply, Run.state_andThen_pure, Slot.load_apply]
      rfl
  | loadOrEscalate records settings =>
      rw [perform, Exec.map_apply, Run.state_andThen_pure, Slot.loadOrEscalate_apply]
      cases h : s.accept (Registry.build records settings) with
      | ok registry => rfl
      | error e => exact (Slot.orElse_of_accept_error h).symm
  | isFilled => exact (Slot.orElse_none s).symm
  | get => exact (Slot.orElse_none s).symm
  | read question => exact (Slot.orElse_none s).symm
  | dispatch allowance token args c =>
      refine Eq.trans ?_ (Slot.orElse_none s).symm
      rw [perform, Exec.bind_apply, Exec.get, Run.andThen_returned]
      cases s.installed? with
      | none => rfl
      | some registry =>
          simp only [Exec.bind_apply, Run.after_nil]
          rw [Run.state_andThen_pure, Exec.state_beside]

end SlotStep

namespace SlotVisit

/-- The step filled the slot. -/
def Installs (v : SlotVisit σ ρ) : Prop := ∃ registry, v.run.ending = .returned (.installed registry)

/-- The step attempted to fill the slot and failed with the error. It left the slot alone. The step
that escalates logged the error and stopped as the settings say that were handed to it. -/
def FailsWith (v : SlotVisit σ ρ) (e : BuildError) : Prop :=
  v.run.state = v.before ∧
    match v.step with
    | .loadOrEscalate records settings =>
      v.run.ending = (match settings.onUnresolved with
        | .abort => .aborted (.build e)
        | .panic => .panicked (.fatal (.build e))) ∧
      v.run.trace =
        Registry.loadEvents records settings ++ [.log .error ("fatal icall error: " ++ e.message)]
    | _ => v.run.ending = .returned (.refused e)

/-- The step came to what it must come to in a slot that holds the registry, or nothing. -/
structure Settled [ManagedContext σ] (v : SlotVisit σ ρ) (held? : Option Registry) : Prop where
  /-- A registry that is brought to an empty slot fills it. -/
  installs : ∀ registry, v.step.attempt? = some (.ok registry) → held? = none →
    v.run.ending = .returned (.installed registry) ∧ v.run.state.installed? = some registry
  /-- A registry that is brought to a filled slot is refused. -/
  refuses : ∀ registry, v.step.attempt? = some (.ok registry) → held? ≠ none →
    v.FailsWith .alreadyInitialized
  /-- Records that do not build are refused, whatever the slot holds. -/
  rejects : ∀ e, v.step.attempt? = some (.error e) → v.FailsWith e
  /-- Whether the slot is filled. -/
  isFilled : v.step = .isFilled → v.run = ⟨.returned (.filled held?.isSome), v.before, []⟩
  /-- The registry is that in the slot. -/
  get : v.step = .get → v.run = ⟨.returned (.found held?), v.before, []⟩
  /-- What is read is read off the registry in the slot. -/
  read : ∀ question, v.step = .read question →
    v.run = ⟨.returned (.read (held?.map question)), v.before, []⟩
  /-- What is dispatched is dispatched in the registry in the slot. -/
  dispatch : ∀ allowance token args c, v.step = .dispatch allowance token args c →
    (held? = none → v.run = ⟨.returned (.dispatched none), v.before, []⟩) ∧
    ∀ registry, held? = some registry → v.run =
      ((.dispatched ∘ some) <$> (registry.dispatch allowance token args).beside c) v.before

end SlotVisit

section
variable [ManagedContext σ] {step : SlotStep σ ρ} {s : Slot}
  {attempt : Except BuildError Registry} (attempted : step.attempt? = some attempt)
include attempted

/-- An attempt that is accepted fills the slot. -/
theorem SlotStep.perform_of_accept_ok {registry : Registry} (h : s.accept attempt = .ok registry) :
    (step.perform s).ending = .returned (.installed registry) := by
  cases step with
  | install r =>
      cases attempted
      rw [perform, Exec.map_apply, Slot.install_apply, h]
      rfl
  | load records settings =>
      cases attempted
      rw [perform, Exec.map_apply, Slot.load_apply, h]
      rfl
  | loadOrEscalate records settings =>
      cases attempted
      rw [perform, Exec.map_apply, Slot.loadOrEscalate_apply, h]
      rfl
  | isFilled | get | read | dispatch => cases attempted

/-- An attempt that is not accepted fails. -/
theorem SlotStep.perform_of_accept_error {e : BuildError} (h : s.accept attempt = .error e) :
    SlotVisit.FailsWith ⟨step, s, step.perform s⟩ e := by
  refine ⟨?_, ?_⟩
  · have offered : step.offered? = attempt.toOption := by rw [offered?, attempted, Option.bind_some]
    rw [state_perform, offered, Slot.orElse_of_accept_error h]
  cases step with
  | install r =>
      cases attempted
      show (perform _ s).ending = _
      rw [perform, Exec.map_apply, Slot.install_apply, h]
      rfl
  | load records settings =>
      cases attempted
      show (perform _ s).ending = _
      rw [perform, Exec.map_apply, Slot.load_apply, h]
      rfl
  | loadOrEscalate records settings =>
      cases attempted
      show (perform _ s).ending = _ ∧ (perform _ s).trace = _
      rw [perform, Exec.map_apply, Slot.loadOrEscalate_apply, h]
      cases settings.onUnresolved <;> exact ⟨rfl, rfl⟩
  | isFilled | get | read | dispatch => cases attempted

end

/-- Every step comes to what it must come to. -/
theorem SlotStep.settled_perform [ManagedContext σ] (step : SlotStep σ ρ) (s : Slot) :
    SlotVisit.Settled ⟨step, s, step.perform s⟩ s.installed? where
  installs registry attempted empty := by
    have accepted : s.accept (.ok registry) = .ok registry := Slot.accept_eq_ok_iff.mpr ⟨rfl, empty⟩
    have offered : step.offered? = some registry := by
      rw [offered?, attempted, Option.bind_some, Except.toOption]
    refine ⟨perform_of_accept_ok attempted accepted, ?_⟩
    rw [state_perform, Slot.orElse, empty, offered, Option.none_or]
  refuses registry attempted filled :=
    perform_of_accept_error attempted (Slot.accept_of_filled filled registry)
  rejects e attempted := perform_of_accept_error attempted rfl
  isFilled := by
    rintro rfl
    rfl
  get := by
    rintro rfl
    rfl
  read := by
    rintro question rfl
    rfl
  dispatch := by
    rintro allowance token args c rfl
    refine ⟨fun empty => ?_, fun registry held => ?_⟩
    · rw [perform, Exec.bind_apply, Exec.get, Run.andThen_returned, empty]
      rfl
    · rw [perform, Exec.bind_apply, Exec.get, Run.andThen_returned, held]
      rfl

/-- A step that failed filled nothing. -/
theorem SlotVisit.FailsWith.not_installs {v : SlotVisit σ ρ} {e : BuildError}
    (fails : v.FailsWith e) : ¬ v.Installs := by
  rintro ⟨registry, installs⟩
  obtain ⟨step, before, run⟩ := v
  obtain ⟨-, hfails⟩ := fails
  cases step with
  | loadOrEscalate records settings =>
      have hending := hfails.1.symm.trans installs
      cases ha : settings.onUnresolved <;> simp [ha] at hending
  | _ => cases hfails.symm.trans installs

/-- A step that is no attempt fills nothing. -/
theorem SlotStep.not_installs [ManagedContext σ] {step : SlotStep σ ρ}
    (noAttempt : step.attempt? = none) (s : Slot) :
    ¬ SlotVisit.Installs ⟨step, s, step.perform s⟩ := by
  rintro ⟨registry, installs⟩
  replace installs : (step.perform s).ending = .returned (.installed registry) := installs
  cases step with
  | install | load | loadOrEscalate => cases noAttempt
  | isFilled | get | read => cases installs
  | dispatch allowance token args c =>
      rw [perform, Exec.bind_apply, Exec.get, Run.andThen_returned] at installs
      cases hs : s.installed? with
      | none =>
          rw [hs] at installs
          cases installs
      | some held =>
          simp only [hs, Exec.bind_apply, Run.after_nil, Exec.beside] at installs
          generalize held.dispatch allowance token args c = run at installs
          obtain ⟨ending, c', trace⟩ := run
          cases ending <;> cases installs

/-- Only an attempt that brings a registry to an empty slot fills it. -/
theorem SlotStep.of_installs [ManagedContext σ] {step : SlotStep σ ρ} {s : Slot}
    (installs : SlotVisit.Installs ⟨step, s, step.perform s⟩) :
    s.installed? = none ∧ step.offered? ≠ none := by
  cases attempted : step.attempt? with
  | none => exact absurd installs (not_installs attempted s)
  | some attempt =>
      cases accepted : s.accept attempt with
      | ok registry =>
          obtain ⟨rfl, empty⟩ := Slot.accept_eq_ok_iff.mp accepted
          refine ⟨empty, ?_⟩
          rw [offered?, attempted]
          exact Option.some_ne_none registry
      | error e => exact absurd installs (perform_of_accept_error attempted accepted).not_installs

/-! ## Many steps -/

namespace Slot

variable [ManagedContext σ] {s : Slot} {steps : List (SlotStep σ ρ)}

/-- Before each step of a history, the slot holds what it held at first, or else the first registry
that an earlier step brought. -/
theorem history_getElem? {n : Nat} {v : SlotVisit σ ρ} (h : (s.history steps)[n]? = some v) :
    steps[n]? = some v.step ∧ v.run = v.step.perform v.before ∧
      v.before = s.orElse ((steps.take n).findSome? SlotStep.offered?) := by
  induction steps generalizing s n with
  | nil => simp [history] at h
  | cons step rest ih =>
      cases n with
      | zero =>
          obtain rfl : _ = v := Option.some.inj h
          exact ⟨rfl, rfl, (orElse_none s).symm⟩
      | succ n =>
          rw [history, List.getElem?_cons_succ] at h
          split at h
          · obtain ⟨hstep, hrun, hbefore⟩ := ih h
            refine ⟨hstep, hrun, ?_⟩
            rw [hbefore, SlotStep.state_perform, orElse_orElse, List.take_succ_cons,
              List.findSome?_cons]
            cases step.offered? <;> rfl
          · simp at h

/-- A history that leaves out steps ends with one after which the process did not go on. -/
theorem exists_getLast?_of_length_history_lt (h : (s.history steps).length < steps.length) :
    ∃ v, (s.history steps).getLast? = some v ∧ v.run.ending.survives = false := by
  induction steps generalizing s with
  | nil => simp at h
  | cons step rest ih =>
      rw [history] at h ⊢
      generalize step.perform s = run at h ⊢
      cases survives : run.ending.survives with
      | false =>
          exact ⟨_, rfl, survives⟩
      | true =>
          simp only [survives, if_true, List.length_cons, Nat.add_lt_add_iff_right] at h ⊢
          obtain ⟨v, hlast, hv⟩ := ih h
          exact ⟨v, by simp [List.getLast?_cons, hlast], hv⟩

section
variable {n : Nat} {v : SlotVisit σ ρ} (visited : ((Slot.mk none).history steps)[n]? = some v)
include visited

/-- At each step, what a slot that was empty at first holds is the first registry that was brought,
and the step comes to what it must come to. -/
theorem history_settled : v.before.installed? = (steps.take n).findSome? SlotStep.offered? ∧
    v.run.state.installed? = (steps.take (n + 1)).findSome? SlotStep.offered? ∧
    v.Settled ((steps.take n).findSome? SlotStep.offered?) := by
  obtain ⟨hstep, hrun, hbefore⟩ := history_getElem? visited
  have hheld : v.before.installed? = (steps.take n).findSome? SlotStep.offered? :=
    congrArg installed? hbefore
  refine ⟨hheld, ?_, ?_⟩
  · rw [hrun, SlotStep.state_perform, hbefore, orElse_orElse]
    simp only [List.take_add_one, hstep, Option.toList_some, List.findSome?_append,
      List.findSome?_singleton, orElse, Option.none_or]
  · have hsettled := SlotStep.settled_perform v.step v.before
    rwa [← hrun, hheld] at hsettled

/-- A step fills the slot exactly if it brings a registry and no earlier step brought one. -/
theorem installs_iff : v.Installs ↔
    v.step.offered? ≠ none ∧ ∀ step ∈ steps.take n, step.offered? = none := by
  obtain ⟨hheld, -, hsettled⟩ := history_settled visited
  obtain ⟨-, hrun, -⟩ := history_getElem? visited
  rw [← List.findSome?_eq_none_iff, ← hheld]
  constructor
  · intro hv
    obtain ⟨step, before, run⟩ := v
    obtain rfl : run = step.perform before := hrun
    exact (SlotStep.of_installs hv).symm
  · rintro ⟨offered, empty⟩
    obtain ⟨registry, hregistry⟩ := Option.ne_none_iff_exists'.mp offered
    exact ⟨registry, (hsettled.installs registry (SlotStep.attempt?_of_offered? hregistry)
      (hheld.symm.trans empty)).1⟩

end

/-- Over any steps, the slot is filled at most once and then keeps what it was filled with. Before
and after each step it holds the first registry that a step up to there brought, and the step comes
to what it must come to in such a slot. A step fills the slot exactly if it brings a registry and no
earlier step did, whatever failed before it. Only a step after which the process does not go on cuts
the history short. -/
theorem history_keeps_first (steps : List (SlotStep σ ρ)) :
    let visits : List (SlotVisit σ ρ) := (Slot.mk none).history steps
    let held? := fun n => (steps.take n).findSome? SlotStep.offered?
    (∀ (n : Nat) (v : SlotVisit σ ρ), visits[n]? = some v → steps[n]? = some v.step ∧
      v.before.installed? = held? n ∧ v.run.state.installed? = held? (n + 1) ∧
      v.Settled (held? n) ∧
      (v.Installs ↔ v.step.offered? ≠ none ∧ ∀ step ∈ steps.take n, step.offered? = none)) ∧
    (∀ (i j : Nat) (v w : SlotVisit σ ρ), visits[i]? = some v → visits[j]? = some w →
      v.Installs → w.Installs → i = j) ∧
    (visits.length < steps.length →
      ∃ v, visits.getLast? = some v ∧ v.run.ending.survives = false) := by
  intro visits held?
  refine ⟨fun n v h => ?_, fun i j v w hv hw vi wi => ?_, exists_getLast?_of_length_history_lt⟩
  · obtain ⟨hbefore, hafter, hsettled⟩ := history_settled h
    exact ⟨(history_getElem? h).1, hbefore, hafter, hsettled, installs_iff h⟩
  -- the earlier of two steps that fill the slot would have left nothing to fill for the later
  have notBefore : ∀ (i j : Nat) (v w : SlotVisit σ ρ), visits[i]? = some v →
      visits[j]? = some w → v.Installs → w.Installs → ¬ i < j := by
    intro i j v w hv hw vi wi hij
    have hmem : v.step ∈ steps.take j :=
      List.mem_of_getElem? ((List.getElem?_take_of_lt hij).trans (history_getElem? hv).1)
    exact ((installs_iff hv).mp vi).1 (((installs_iff hw).mp wi).2 v.step hmem)
  have := notBefore i j v w hv hw vi wi
  have := notBefore j i w v hw hv wi vi
  omega

/-- Records that do not build are escalated as a panic on an empty slot, a registry is installed, and
a second one is refused with the panic that its own settings ask for, though those of the installed
one ask for an abort. What is read then is read off the first registry. -/
theorem history_keeps_first_after_panics :
    let sum : Native := .allInteger 1 ⟨"sum", fun args => .ok args.sum⟩
    let lenient : Settings := ⟨.panic, true, false⟩
    let strict : Settings := ⟨.abort, true, false⟩
    let steps : List (SlotStep DetachedContext Nat) :=
      [.loadOrEscalate [.ofNative 7 sum .raw, .ofNative 7 sum .raw] lenient,
        .load [.ofNative 3 sum .raw] strict, .loadOrEscalate [] lenient, .read Registry.size]
    let first : Registry := ⟨⟨#[⟨3, sum, .raw⟩]⟩, strict⟩
    let visits := (Slot.mk none).history steps
    visits.length = 4 ∧
      (∃ v, visits[2]? = some v ∧
        v.run.ending = .panicked (.fatal (.build .alreadyInitialized))) ∧
      ∃ v, visits[3]? = some v ∧ v.run = ⟨.returned (.read (some 1)), ⟨some first⟩, []⟩ := by
  intro sum lenient strict steps first visits
  have hlength : visits.length = 4 := rfl
  obtain ⟨v, hv⟩ : ∃ v, visits[2]? = some v := ⟨_, rfl⟩
  obtain ⟨w, hw⟩ : ∃ w, visits[3]? = some w := ⟨_, rfl⟩
  refine ⟨hlength, ⟨v, hv, ?_⟩, w, hw, ?_⟩
  · obtain ⟨hstep, -, -, settled, -⟩ := (history_keeps_first steps).1 2 v hv
    obtain ⟨step, before, run⟩ := v
    obtain rfl : SlotStep.loadOrEscalate [] lenient = step := Option.some.inj hstep
    exact (settled.refuses ⟨⟨#[]⟩, lenient⟩ rfl (Option.some_ne_none first)).2.1
  · obtain ⟨hstep, hbefore, -, settled, -⟩ := (history_keeps_first steps).1 3 w hw
    have held : w.before = ⟨some first⟩ := congrArg Slot.mk hbefore
    rw [settled.read Registry.size (Option.some.inj hstep).symm, held]
    rfl

end Slot

end InternalCall
