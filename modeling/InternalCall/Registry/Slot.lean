import InternalCall.Registry.Basic

/-!
# The registry slot

The place where a process keeps its registry. It starts empty, is filled at most
once and keeps what it was filled with. Installing is a computation on the slot.
-/

namespace InternalCall

/-- The place for the registry of a process. -/
structure Slot where
  /-- The installed registry. -/
  installed? : Option Registry := none

namespace Slot

/-- Whether a registry is installed. -/
def isFilled (s : Slot) : Bool := s.installed?.isSome

/-- The slot after a registry was put into it, which only an empty slot allows. -/
def fill (s : Slot) (r : Registry) : Except BuildError Slot :=
  match s.installed? with
  | none => .ok ⟨some r⟩
  | some _ => .error .alreadyInitialized

/-- Puts a registry into the slot. -/
def install (r : Registry) : Exec Slot (Except BuildError Registry) := do
  match (← Exec.get).fill r with
  | .error e => return .error e
  | .ok filled =>
    Exec.set filled
    return .ok r

/-- Builds a registry and puts it into the slot. The records are checked first, also when the slot
is already filled. -/
def load (records : List Record) (settings : Settings) :
    Exec Slot (Except BuildError Registry) := do
  match ← Registry.load records settings with
  | .error e => return .error e
  | .ok r => install r

/-- Builds a registry and puts it into the slot; a failure is fatal, as the settings that were
handed over say. -/
def loadOrEscalate (records : List Record) (settings : Settings) : Exec Slot Registry := do
  match ← load records settings with
  | .error e => (FatalError.build e).escalate settings.onUnresolved
  | .ok r => return r

end Slot

end InternalCall
