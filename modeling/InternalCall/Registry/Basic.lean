import InternalCall.Settings
import InternalCall.Table.Resolver

/-!
# The registry

A registry is a store together with the settings under which its entries are
called. Dispatching a token resolves it and calls the entry; a routine that is
called may dispatch again. How many dispatches may be under way at once is
given by an allowance, and a run that would need more is cut short.
-/

namespace InternalCall

/-- A dispatch table that is ready for use. -/
structure Registry where
  /-- The entries. -/
  store : Store
  /-- The settings under which they are called. -/
  settings : Settings

namespace Registry

variable {σ : Type}

/-- The registry of the records, or the reason why they are no table. -/
def build (records : List Record) (settings : Settings) : Except BuildError Registry := do
  return ⟨← Store.build records, settings⟩

/-- The line that reports a registry that was built. -/
def buildLine (r : Registry) : String :=
  s!"icall registry built: {r.store.size} entries ({r.store.countConvention .wrapped} wrapped, {r.store.countConvention .raw} raw)"

/-- Builds a registry and logs it. -/
def load (records : List Record) (settings : Settings) : Exec σ (Except BuildError Registry) := do
  match build records settings with
  | .error e => return .error e
  | .ok r =>
    Exec.log .debug r.buildLine
    return .ok r

/-- The number of entries. -/
def size (r : Registry) : Nat := r.store.size

/-- Whether there is no entry. -/
def isEmpty (r : Registry) : Bool := r.store.isEmpty

/-- The view of the registry through its tokens. -/
def resolver (r : Registry) : Resolver := ⟨r.store, r.settings.onUnresolved⟩

/-- How the registry's entries are called. -/
def callOptions (r : Registry) : CallOptions := r.settings.callOptions

/-- The registry in listings. -/
def describe (r : Registry) : String :=
  s!"IcallRegistry \x7b store: {r.store.describe}, config: {r.settings.describe} \x7d"

/-- Resolves the token at a live call site and calls the entry. At most `allowance` dispatches may
be under way at once, this one included. -/
def dispatch [ManagedContext σ] (r : Registry) : (allowance : Nat) → Reentry σ
  | 0 => Reentry.none
  | allowance + 1 => fun token args => do
    let e ← r.resolver.resolveCallSite token
    e.invoke r.callOptions (r.dispatch allowance) args

end Registry

end InternalCall
