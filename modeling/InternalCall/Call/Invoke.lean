import InternalCall.Call.Frame
import InternalCall.Call.Slots
import InternalCall.Native.Run
import InternalCall.Table.Store

/-!
# Calling an entry

A call is refused when the number of its arguments is not the native's arity;
nothing has happened then. Otherwise it runs under the entry's convention: a raw
call goes straight to the routine, a wrapped call runs in a handle frame and
reports a managed error, be it raised by the routine or left pending.
-/

namespace InternalCall

variable {σ : Type}

/-- How calls are checked and reported. -/
structure CallOptions where
  /-- Whether the result of a mixed native is checked against its declared kind. -/
  checkReturnKinds : Bool := false
  /-- Whether each call is logged. -/
  traceCalls : Bool := false
deriving DecidableEq, Repr, Inhabited

/-- The result of a mixed native as a value. A native that declares no result has its scalar
dropped. -/
def CallOptions.mixedResult (o : CallOptions) (token : UInt32) (ret : ReturnKind) (out : Scalar) :
    Except CallError Value :=
  match ret with
  | .void => .ok .void
  | .scalar declared =>
    if o.checkReturnKinds && out.kind != declared then
      .error (.returnKind token declared out.kind)
    else .ok (.scalar out)

namespace Entry

/-- Calls a native on scalars: marshals the arguments, runs the routine and converts its result. -/
def callScalar (e : Entry) (o : CallOptions) (args : List Value) :
    Exec σ (Except CallError Value) := do
  match e.native with
  | .allInteger _ routine =>
    match ← marshalInts e.token args with
    | .error err => return .error err
    | .ok ints => return .ok (.int (← routine.call Value.int ints))
  | .integerVoid _ routine =>
    match ← marshalInts e.token args with
    | .error err => return .error err
    | .ok ints =>
      routine.call Value.int ints
      return .ok .void
  | .returnsHandle _ routine =>
    match ← marshalInts e.token args with
    | .error err => return .error err
    | .ok ints => return .ok (.handle (← routine.call Value.int ints))
  | .mixed signature routine =>
    match ← marshalScalars e.token signature.params args with
    | .error err => return .error err
    | .ok scalars =>
      return o.mixedResult e.token signature.ret (← routine.call Value.scalar scalars)
  | .managed _ _ => Exec.panic .managedOnScalarPath

variable [ManagedContext σ]

/-- What a wrapped call runs inside its frame. -/
def callInFrame (e : Entry) (o : CallOptions) (reentry : Reentry σ) (args : List Value) :
    Exec σ (Except CallError Value) :=
  match e.native with
  | .managed _ routine => do
    match ← routine.call reentry args with
    | .ok v => return .ok v
    | .error raised => return .error (.managed raised)
  | _ => e.callScalar o args

/-- Calls the native in a handle frame. An error of the call itself comes before one that was left
pending. -/
def callWrapped (e : Entry) (o : CallOptions) (reentry : Reentry σ) (args : List Value) :
    Exec σ (Except CallError Value) := do
  match ← Frame.within (e.callInFrame o reentry args) with
  | (.error err, _) => return .error err
  | (.ok _, some raised) => return .error (.managed raised)
  | (.ok v, none) => return .ok v

/-- The line that reports a call. -/
def traceLine (e : Entry) (args : List Value) : String :=
  s!"icall {e.token} ({e.convention.text}, {e.native.describe}) with {args.length} arg(s)"

/-- Calls the entry with the arguments. -/
def invoke (e : Entry) (o : CallOptions) (reentry : Reentry σ) (args : List Value) :
    Exec σ (Except CallError Value) := do
  if args.length ≠ e.native.arity then
    return .error (.arity e.token e.native.arity args.length)
  if o.traceCalls then
    Exec.log .trace (e.traceLine args)
  match e.convention with
  | .raw => e.callScalar o args
  | .wrapped => e.callWrapped o reentry args

end Entry

end InternalCall
