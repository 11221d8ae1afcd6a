import InternalCall.Call.Invoke

/-!
# Settings

The knobs of a dispatch table. What a settings file does not mention keeps the
value given here.
-/

namespace InternalCall

/-- The name of the action in a settings file. -/
def FatalAction.name : FatalAction → String
  | abort => "abort"
  | panic => "panic"

/-- The action that a name in a settings file stands for. -/
def FatalAction.ofName? (name : String) : Option FatalAction :=
  if name = "abort" then some abort else if name = "panic" then some panic else none

/-- Whether results are checked where nothing is said about it. Builds differ in this: a build for
debugging checks them, which is the one that is described here, a build for release does not. -/
def Settings.checkReturnKindsIfMissing : Bool := true

/-- The knobs of a dispatch table. -/
structure Settings where
  /-- What a fatal error does to the process. -/
  onUnresolved : FatalAction := .abort
  /-- Whether the results of mixed natives are checked against their declared kind. -/
  checkReturnKinds : Bool := Settings.checkReturnKindsIfMissing
  /-- Whether each call is logged. -/
  traceCalls : Bool := false
deriving DecidableEq, Repr, Inhabited

/-- The settings that concern a single call. -/
def Settings.callOptions (s : Settings) : CallOptions := ⟨s.checkReturnKinds, s.traceCalls⟩

/-- The settings in listings. -/
def Settings.describe (s : Settings) : String :=
  let action := match s.onUnresolved with
    | .abort => "Abort"
    | .panic => "Panic"
  s!"DispatchConfig \x7b on_unresolved: {action}, check_return_kinds: {s.checkReturnKinds}, trace_calls: {s.traceCalls} \x7d"

end InternalCall
