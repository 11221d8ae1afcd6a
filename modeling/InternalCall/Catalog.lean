import InternalCall.Native.Basic

/-!
# The catalog of natives

The runtime registers every native that it offers under the symbol that headers
use for it. Registering a symbol again replaces what was registered before.
-/

namespace InternalCall

/-- Natives by symbol. -/
structure Catalog where
  /-- The registered natives, the latest first. -/
  entries : List (String × Native) := []
  /-- No symbol occurs twice. -/
  distinct : entries.Pairwise fun e e' => e.1 ≠ e'.1 := by exact .nil

namespace Catalog

/-- Registers a native under a symbol. -/
def register (c : Catalog) (symbol : String) (native : Native) : Catalog where
  entries := (symbol, native) :: c.entries.filter fun e => e.1 != symbol
  distinct := by
    refine List.pairwise_cons.mpr ⟨fun e he same => ?_, c.distinct.filter _⟩
    have other : (e.1 != symbol) = true := (List.mem_filter.mp he).2
    exact bne_iff_ne.mp other same.symm

/-- The native that is registered under the symbol. -/
def get? (c : Catalog) (symbol : String) : Option Native := c.entries.lookup symbol

/-- Whether a native is registered under the symbol. -/
def contains (c : Catalog) (symbol : String) : Bool := (c.get? symbol).isSome

/-- The number of registered symbols. -/
def size (c : Catalog) : Nat := c.entries.length

/-- Whether nothing is registered. -/
def isEmpty (c : Catalog) : Bool := c.entries.isEmpty

/-- The catalog after the registrations in their order. -/
def ofList (registrations : List (String × Native)) : Catalog :=
  registrations.foldl (fun c r => c.register r.1 r.2) {}

end Catalog

end InternalCall
