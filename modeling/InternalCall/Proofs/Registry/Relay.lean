import InternalCall.Proofs.Call.ContextUse
import InternalCall.Proofs.Registry.Dispatch

/-!
# Errors cross nested calls unchanged

A managed routine may do nothing but dispatch another call and pass its outcome
on: a value is returned, a managed error is raised again. Through a chain of such
routines, however long, what the innermost routine produces reaches the outermost
caller as it is, although every call on the way opens a frame and empties the
same slot. Only a chain with more frames than the context can count does not reach
its end: it comes back as a panic.
-/

namespace InternalCall

/-- What follows a dispatch passes its outcome on: a value is returned, a managed error raised. -/
def Relays (next : Except CallError Value → Program) : Prop :=
  (∀ v, next (.ok v) = .ret v) ∧ ∀ e, next (.error (.managed e)) = .raise e

/-- Passes an outcome on; an error of the call that is not a managed one is raised as an error of its
own. -/
def relay : Except CallError Value → Program
  | .ok v => .ret v
  | .error (.managed e) => .raise e
  | .error e => .raise ⟨"Nested", e.message⟩

theorem relays_relay : Relays relay := by
  constructor
  · intro v
    rfl
  · intro e
    rfl

/-- The token is that of a managed routine that takes as many arguments as are given; called with
them, the routine does what the program says. -/
def RunsManaged (records : List Record) (token : UInt32) (args : List Value) (p : Program) : Prop :=
  ∃ r ∈ records, r.token = token ∧ ∃ arity routine, r.native? = some (.managed arity routine) ∧
    args.length = arity.toNat ∧ routine.run args = p

/-- A call passes through the number of managed routines, each of which dispatches the next and
passes the outcome on, to a last one, which does what the program says. -/
inductive RelayChain (records : List Record) :
    Nat → (token : UInt32) → (args : List Value) → Program → Prop where
  /-- The routine of the call is the last. -/
  | last {token : UInt32} {args : List Value} {p : Program}
      (runs : RunsManaged records token args p) : RelayChain records 0 token args p
  /-- The routine of the call passes on what the rest of the chain yields. -/
  | outer {n : Nat} {token token' : UInt32} {args args' : List Value}
      {next : Except CallError Value → Program} {p : Program}
      (runs : RunsManaged records token args (.dispatch token' args' next))
      (relays : Relays next) (rest : RelayChain records n token' args' p) :
      RelayChain records (n + 1) token args p

/-- What a managed routine produces: the error that it raises, else the one that it left pending,
else its value. -/
def produced (result : Except ManagedError Value) (pending? : Option ManagedError) :
    Except ManagedError Value :=
  match result, pending? with
  | .error e, _ => .error e
  | .ok _, some e => .error e
  | .ok v, none => .ok v

@[simp] theorem produced_none (result : Except ManagedError Value) :
    produced result none = result := by
  cases result <;> rfl

/-- A wrapped call hands out what its routine produced. -/
theorem wrappedOutcome_managed (result : Except ManagedError Value)
    (pending? : Option ManagedError) :
    wrappedOutcome (result.mapError .managed) pending? =
      (produced result pending?).mapError .managed := by
  cases result with
  | error e => rfl
  | ok v => cases pending? <;> rfl

variable {records : List Record} {settings : Settings} {registry : Registry}

theorem RunsManaged.of_mem {token : UInt32} {routine : ManagedRoutine} {args : List Value}
    (arity : UInt8) (mem : .ofNative token (.managed arity routine) .wrapped ∈ records)
    (same : args.length = arity.toNat) : RunsManaged records token args (routine.run args) :=
  ⟨_, mem, rfl, arity, routine, rfl, same, rfl⟩

section
variable (built : Registry.build records settings = .ok registry) {token : UInt32}
  {args : List Value} {p : Program} (runs : RunsManaged records token args p)
include built runs

/-- A dispatch of a managed routine is a wrapped call that runs the program in its frame. -/
theorem Registry.dispatch_runsManaged :
    ∃ e : Entry, e.convention = .wrapped ∧ args.length = e.native.arity ∧
      ∀ allowance,
        let reentry : Reentry DetachedContext := registry.dispatch allowance
        registry.dispatch (allowance + 1) token args = e.invoke registry.callOptions reentry args ∧
        e.callInFrame registry.callOptions reentry args = do
          Exec.record (.call e.native.routineName args)
          return (← p.exec reentry).mapError .managed := by
  obtain ⟨r, hr, rfl, arity, routine, hnative, same, rfl⟩ := runs
  obtain ⟨e, hmakes, hresolve⟩ := Registry.resolve_of_mem built hr
  have hn : e.native = .managed arity routine :=
    Option.some.inj (hmakes.native_eq.symm.trans hnative)
  have wrapped : e.convention = .wrapped := hmakes.wrapped_of_managed (by rw [hn, Native.isManaged])
  have same' : args.length = e.native.arity := by rw [hn, same, Native.arity]
  refine ⟨e, wrapped, same', fun allowance =>
    ⟨Registry.dispatch_of_resolve hresolve allowance args, ?_⟩⟩
  rw [Entry.callInFrame_of_managed hn, hn, Native.serve, ManagedRoutine.call, bind_assoc]
  rfl

variable {allowance : Nat} {c left : DetachedContext}

/-- A managed routine that returns in its frame: the dispatch hands out what it produced, with the
slot empty and the depth as before. -/
theorem Registry.dispatch_managed (room : c.depth < DetachedContext.maxDepth)
    {result : Except ManagedError Value}
    (returns : (p.exec (registry.dispatch allowance)).Yields ⟨c.depth + 1, none⟩ result left) :
    (registry.dispatch (allowance + 1) token args).Yields c
      ((produced result left.pending).mapError .managed) ⟨c.depth, none⟩ := by
  obtain ⟨e, wrapped, same, dispatches⟩ := Registry.dispatch_runsManaged built runs
  obtain ⟨dispatch, inFrame⟩ := dispatches allowance
  have hframe : (e.callInFrame registry.callOptions (registry.dispatch allowance) args).Yields
      ⟨c.depth + 1, none⟩ (result.mapError .managed) left := by
    rw [inFrame]
    exact .bind ⟨_, Exec.record_apply _ _⟩ (.bind returns (.pure _ left))
  rw [dispatch, ← wrappedOutcome_managed]
  exact Entry.invoke_yields same wrapped room hframe

/-- A managed routine that panics in its frame: the dispatch panics alike, with the depth as
before. -/
theorem Registry.dispatch_managed_panics (room : c.depth < DetachedContext.maxDepth) {q : Panic}
    (panics : (p.exec (registry.dispatch allowance)).Panics ⟨c.depth + 1, none⟩ q left) :
    (registry.dispatch (allowance + 1) token args).Panics c q ⟨c.depth, left.pending⟩ := by
  obtain ⟨e, wrapped, same, dispatches⟩ := Registry.dispatch_runsManaged built runs
  obtain ⟨dispatch, inFrame⟩ := dispatches allowance
  have hframe : (e.callInFrame registry.callOptions (registry.dispatch allowance) args).Panics
      ⟨c.depth + 1, none⟩ q left := by
    rw [inFrame]
    exact Exec.Yields.bind_panics ⟨_, Exec.record_apply _ _⟩ (panics.bind _)
  rw [dispatch]
  exact Entry.invoke_panics same wrapped room hframe

/-- A dispatch of a managed routine at the largest depth overflows. -/
theorem Registry.dispatch_managed_overflow (full : ¬ c.depth < DetachedContext.maxDepth) :
    (registry.dispatch (allowance + 1) token args).Panics c
      (.context DetachedContext.overflow) c := by
  obtain ⟨e, wrapped, same, dispatches⟩ := Registry.dispatch_runsManaged built runs
  rw [(dispatches allowance).1]
  exact ⟨_, Entry.invoke_overflow same wrapped full _ _⟩

end

/-- What follows a dispatch that passes the outcome on produces that outcome. -/
theorem Relays.exec_yields {next : Except CallError Value → Program} (relays : Relays next)
    (reentry : Reentry DetachedContext) (outcome : Except ManagedError Value)
    (c : DetachedContext) :
    ((next (outcome.mapError .managed)).exec reentry).Yields c outcome c := by
  cases outcome with
  | ok v =>
      rw [Except.mapError, relays.1]
      exact .pure _ c
  | error e =>
      rw [Except.mapError, relays.2]
      exact .pure _ c

open DetachedContext (maxDepth overflow toNat_depth_succ)

/-- What the last routine of a chain produced comes out of the first dispatch, if the context can
count the frames of the chain. -/
theorem RelayChain.dispatch_yields (built : Registry.build records settings = .ok registry)
    {n : Nat} {token : UInt32} {args : List Value} {p : Program}
    (chain : RelayChain records n token args p) {allowance : Nat} {c left : DetachedContext}
    (room : c.depth.toNat + n < maxDepth.toNat) {result : Except ManagedError Value}
    (returns : (p.exec (registry.dispatch allowance)).Yields
      ⟨c.depth + UInt64.ofNat (n + 1), none⟩ result left) :
    (registry.dispatch (allowance + n + 1) token args).Yields c
      ((produced result left.pending).mapError .managed) ⟨c.depth, none⟩ := by
  have below : c.depth < maxDepth := UInt64.lt_iff_toNat_lt.mpr (by omega)
  induction chain generalizing c with
  | last runs => exact Registry.dispatch_managed built runs below returns
  | @outer n token token' args args' next p runs relays rest ih =>
      -- the inner call starts in the frame of the outer one, which leaves the slot empty
      have innerRoom : (c.depth + 1).toNat + n < maxDepth.toNat := by
        rw [toNat_depth_succ below]
        omega
      have innerBelow : c.depth + 1 < maxDepth := UInt64.lt_iff_toNat_lt.mpr (by omega)
      have hdepth : c.depth + UInt64.ofNat (n + 1 + 1) = c.depth + 1 + UInt64.ofNat (n + 1) := by
        rw [UInt64.ofNat_add (n + 1) 1, UInt64.add_comm (UInt64.ofNat (n + 1)), UInt64.add_assoc]
        rfl
      rw [hdepth] at returns
      have hinner := ih (c := ⟨c.depth + 1, none⟩) innerRoom returns innerBelow
      have hrelay : ((Program.dispatch token' args' next).exec
          (registry.dispatch (allowance + n + 1))).Yields (DetachedContext.mk (c.depth + 1) none)
            (produced result left.pending) ⟨c.depth + 1, none⟩ :=
        .bind hinner (relays.exec_yields _ _ _)
      have houter := Registry.dispatch_managed built runs below hrelay
      rw [produced_none] at houter
      exact houter

/-- A chain with more frames than the context can count overflows, with the depth given back. -/
theorem RelayChain.dispatch_overflows (built : Registry.build records settings = .ok registry)
    {n : Nat} {token : UInt32} {args : List Value} {p : Program}
    (chain : RelayChain records n token args p) (allowance : Nat) (c : DetachedContext)
    (deep : maxDepth.toNat ≤ c.depth.toNat + n) :
    ∃ pending?, (registry.dispatch (allowance + n + 1) token args).Panics c (.context overflow)
      ⟨c.depth, pending?⟩ := by
  induction chain generalizing c with
  | last runs =>
      have full : ¬ c.depth < maxDepth := fun below => by
        have bound := UInt64.lt_iff_toNat_lt.mp below
        omega
      exact ⟨c.pending, Registry.dispatch_managed_overflow built runs full⟩
  | @outer n token token' args args' next p runs relays rest ih =>
      by_cases below : c.depth < maxDepth
      · have innerDeep : maxDepth.toNat ≤ (c.depth + 1).toNat + n := by
          rw [toNat_depth_succ below]
          omega
        obtain ⟨pending?, panics⟩ := ih ⟨c.depth + 1, none⟩ innerDeep
        have relayed : ((Program.dispatch token' args' next).exec
            (registry.dispatch (allowance + n + 1))).Panics (DetachedContext.mk (c.depth + 1) none)
              (.context overflow) ⟨c.depth + 1, pending?⟩ := panics.bind _
        exact ⟨pending?, Registry.dispatch_managed_panics built runs below relayed⟩
      · exact ⟨c.pending, Registry.dispatch_managed_overflow built runs below⟩

end InternalCall
