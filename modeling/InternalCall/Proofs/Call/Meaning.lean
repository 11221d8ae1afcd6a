import InternalCall.Call.Invoke
import InternalCall.Proofs.Call.Marshal

/-!
# What a call means

The meaning of a call is given without slots and without opening and closing a
frame step by step: the kinds of the arguments are compared with the declared
ones, the routine runs on the payloads of the caller's own arguments, and a
wrapped call is its body seen from outside the frame. For the entries of a built
store, calling an entry is exactly that.
-/

namespace InternalCall

/-- The error of the first argument, counted from `index` on, that is not of its declared kind. -/
def kindError? (token : UInt32) (index : Nat) : List Value → List ScalarKind → Option CallError
  | v :: args, k :: params =>
    if v.kind = .scalar k then kindError? token (index + 1) args params
    else some (.argumentKind token index k v.kind)
  | _, _ => none

/-- The arguments are as many as the native declares and, where it declares kinds, of those kinds
in their order. -/
def Native.Accepts (n : Native) (args : List Value) : Prop :=
  args.length = n.arity ∧
    ∀ s, n.signature? = some s → args.map Value.kind = s.params.map ValueKind.scalar

/-- The error of the first argument that is not of the kind that the native declares for it. -/
def Native.kindError? (n : Native) (token : UInt32) (args : List Value) : Option CallError :=
  n.signature?.bind fun s => InternalCall.kindError? token 0 args s.params

variable {σ α β : Type}

/-- Runs a routine on the payloads of the arguments. -/
def Routine.serve (r : Routine α β) (payload? : Value → Option α)
    (result : β → Except CallError Value) (args : List Value) : Exec σ (Except CallError Value) := do
  Exec.record (.call r.name args)
  match r.run (args.filterMap payload?) with
  | .ok b => return result b
  | .error message => Exec.panic (.native message)

variable [ManagedContext σ]

/-- Runs the native on arguments that it accepts. -/
def Native.serve (n : Native) (o : CallOptions) (token : UInt32) (reentry : Reentry σ)
    (args : List Value) : Exec σ (Except CallError Value) :=
  match n with
  | .allInteger _ r => r.serve Value.int? (fun i => .ok (.int i)) args
  | .integerVoid _ r => r.serve Value.int? (fun _ => .ok .void) args
  | .mixed s r => r.serve Value.scalar? (o.mixedResult token s.ret) args
  | .returnsHandle _ r => r.serve Value.int? (fun h => .ok (.handle h)) args
  | .managed _ r => do return (← r.call reentry args).mapError .managed

/-- Runs the native, unless an argument is of the wrong kind. -/
def Native.perform (n : Native) (o : CallOptions) (token : UInt32) (reentry : Reentry σ)
    (args : List Value) : Exec σ (Except CallError Value) :=
  match n.kindError? token args with
  | some e => return .error e
  | none => n.serve o token reentry args

/-- The events of opening a frame: the push, the take and, if the take found an error, a warning. -/
def Frame.openingEvents (mark : FrameMark) (stale? : Option ManagedError) : List Event :=
  [.push mark, .takePending stale?] ++ stale?.toList.map fun stale =>
    .log .warn s!"discarding managed error pending before icall: {stale.text}"

/-- The outcome of a wrapped call: an error of the call itself comes before a pending one. -/
def wrappedOutcome (result : Except CallError Value) (pending? : Option ManagedError) :
    Except CallError Value :=
  match result, pending? with
  | .error e, _ => .error e
  | .ok _, some raised => .error (.managed raised)
  | .ok v, none => .ok v

/-- The run of a body seen from outside the frame that was opened for it. A result is followed by a
take and the pop, a panic by the pop alone; nothing follows the end of the process. -/
def Run.inFrame (mark : FrameMark) (stale? : Option ManagedError) :
    Run σ (Except CallError Value) → Run σ (Except CallError Value)
  | ⟨.returned result, c, trace⟩ =>
    let left := ManagedContext.takePending c
    ⟨.returned (wrappedOutcome result left.1), ManagedContext.popFrame mark left.2,
      Frame.openingEvents mark stale? ++ (trace ++ [.takePending left.1, .pop mark])⟩
  | ⟨.panicked p, c, trace⟩ =>
    ⟨.panicked p, ManagedContext.popFrame mark c,
      Frame.openingEvents mark stale? ++ (trace ++ [.pop mark])⟩
  | ⟨.aborted e, c, trace⟩ => ⟨.aborted e, c, Frame.openingEvents mark stale? ++ trace⟩
  | ⟨.exhausted, c, trace⟩ => ⟨.exhausted, c, Frame.openingEvents mark stale? ++ trace⟩

/-- A body in a frame. It starts with the slot that opening the frame emptied; if the context cannot
open one, the body is not run. -/
def framed (body : Exec σ (Except CallError Value)) : Exec σ (Except CallError Value) := fun c =>
  match ManagedContext.pushFrame c with
  | .error message => ⟨.panicked (.context message), c, []⟩
  | .ok (mark, opened) =>
    let found := ManagedContext.takePending opened
    (body found.2).inFrame mark found.1

theorem framed_of_error {body : Exec σ (Except CallError Value)} {c : σ} {message : String}
    (refuses : ManagedContext.pushFrame c = .error message) :
    framed body c = ⟨.panicked (.context message), c, []⟩ := by
  unfold framed
  rw [refuses]

theorem framed_of_ok {body : Exec σ (Except CallError Value)} {c opened : σ} {mark : FrameMark}
    (opens : ManagedContext.pushFrame c = .ok (mark, opened)) :
    framed body c =
      (body (ManagedContext.takePending opened).2).inFrame mark
        (ManagedContext.takePending opened).1 := by
  unfold framed
  rw [opens]

/-- The context opens a frame. -/
def Frame.Opens (c : σ) : Prop := ∃ mark opened, ManagedContext.pushFrame c = .ok (mark, opened)

/-- A call under the convention gets as far as its native: a wrapped call needs a frame. -/
def Convention.Begins (k : Convention) (c : σ) : Prop := k = .wrapped → Frame.Opens c

@[simp] theorem Convention.begins_raw (c : σ) : Convention.raw.Begins c := by
  rintro ⟨⟩

@[simp] theorem Convention.begins_wrapped_iff {c : σ} :
    Convention.wrapped.Begins c ↔ Frame.Opens c := by
  constructor
  · intro begins
    exact begins rfl
  · intro opens _
    exact opens

/-- A context opens a frame or panics. -/
theorem Frame.opens_or_refuses (c : σ) :
    Frame.Opens c ∨ ∃ message, ManagedContext.pushFrame c = .error message := by
  cases h : ManagedContext.pushFrame c with
  | error message => exact .inr ⟨message, rfl⟩
  | ok opened => exact .inl ⟨opened.1, opened.2, h⟩

theorem Frame.not_opens_iff {c : σ} :
    ¬ Frame.Opens c ↔ ∃ message, ManagedContext.pushFrame c = .error message := by
  constructor
  · exact (Frame.opens_or_refuses c).resolve_left
  · rintro ⟨message, refuses⟩ ⟨mark, opened, opens⟩
    rw [refuses] at opens
    cases opens

/-- A detached context opens a frame below the largest depth. -/
theorem Frame.opens_detached_iff {c : DetachedContext} :
    Frame.Opens c ↔ c.depth < DetachedContext.maxDepth := by
  constructor
  · rintro ⟨mark, opened, opens⟩
    by_contra full
    rw [DetachedContext.pushFrame_of_not_lt full] at opens
    cases opens
  · exact fun room => ⟨_, _, DetachedContext.pushFrame_of_lt room⟩

/-- The meaning of calling an entry. -/
def Entry.perform (e : Entry) (o : CallOptions) (reentry : Reentry σ) (args : List Value) :
    Exec σ (Except CallError Value) :=
  if args.length ≠ e.native.arity then return .error (.arity e.token e.native.arity args.length)
  else do
    if o.traceCalls then
      Exec.log .trace (e.traceLine args)
    match e.convention with
    | .raw => e.native.perform o e.token reentry args
    | .wrapped => framed (e.native.perform o e.token reentry args)

end InternalCall
