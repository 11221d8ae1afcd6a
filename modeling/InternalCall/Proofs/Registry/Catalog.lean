import InternalCall.Catalog
import InternalCall.Proofs.Lookup
import Mathlib.Data.Finset.Card
import Mathlib.Data.List.Induction

/-!
# The last registration counts

A catalog holds the native that was registered last under a symbol. Earlier
registrations of the symbol and all registrations of other symbols leave no trace
in what it answers. It holds each symbol once, so its size is the number of
distinct symbols.
-/

namespace InternalCall

/-- The native of the last registration under the symbol: the first that is met from the back. -/
def lastRegistered? (registrations : List (String × Native)) (symbol : String) : Option Native :=
  registrations.reverse.lookup symbol

/-- The last registration answers for its own symbol, and for any other those before it do. -/
theorem lastRegistered?_snoc (registrations : List (String × Native)) (symbol other : String)
    (native : Native) :
    lastRegistered? (registrations ++ [(other, native)]) symbol =
      if symbol = other then some native else lastRegistered? registrations symbol := by
  rw [lastRegistered?, List.reverse_append, List.reverse_singleton, List.singleton_append,
    List.lookup_cons]
  by_cases h : symbol = other
  · rw [if_pos h, beq_iff_eq.mpr h]
  · rw [if_neg h, beq_eq_false_iff_ne.mpr h]
    rfl

/-- A registration is the last one under its symbol if those after it are under other symbols. -/
theorem lastRegistered?_eq_some_iff {registrations : List (String × Native)} {symbol : String}
    {native : Native} :
    lastRegistered? registrations symbol = some native ↔
      ∃ before after, registrations = before ++ (symbol, native) :: after ∧
        ∀ r ∈ after, r.1 ≠ symbol :=
  lookup_reverse_eq_some_iff

namespace Catalog

/-- A registration answers for its symbol and changes nothing for the others. -/
theorem get?_register (c : Catalog) (symbol other : String) (native : Native) :
    (c.register other native).get? symbol =
      if symbol = other then some native else c.get? symbol := by
  rw [get?, register, List.lookup_cons]
  by_cases h : symbol = other
  · rw [if_pos h, beq_iff_eq.mpr h]
  · rw [if_neg h, beq_eq_false_iff_ne.mpr h]
    exact lookup_filter (· != other) (bne_iff_ne.mpr h) c.entries

theorem ofList_snoc (registrations : List (String × Native)) (symbol : String) (native : Native) :
    ofList (registrations ++ [(symbol, native)]) =
      (ofList registrations).register symbol native := by
  rw [ofList, List.foldl_append]
  rfl

/-- A catalog answers with the native that was registered last under the symbol. -/
theorem get?_ofList (registrations : List (String × Native)) (symbol : String) :
    (ofList registrations).get? symbol = lastRegistered? registrations symbol := by
  induction registrations using List.reverseRecOn with
  | nil => rfl
  | append_singleton registrations last ih =>
      rw [ofList_snoc, get?_register, lastRegistered?_snoc, ih]

/-! ## The registered symbols -/

/-- The symbols under which natives are held. -/
def symbols (c : Catalog) : List String := c.entries.map Prod.fst

/-- A catalog contains exactly the symbols under which it holds natives. -/
theorem contains_iff {c : Catalog} {symbol : String} :
    c.contains symbol = true ↔ symbol ∈ c.symbols := by
  rw [contains, get?, List.lookup_isSome_iff, symbols, List.mem_map]
  exact exists_congr fun e => and_congr_right fun _ => beq_iff_eq.trans eq_comm

/-- The symbols after a registration are the registered one and the others that were there. -/
theorem symbols_register (c : Catalog) (symbol : String) (native : Native) :
    (c.register symbol native).symbols = symbol :: c.symbols.filter (· != symbol) := by
  rw [symbols, register, List.map_cons, symbols, List.filter_map]
  rfl

theorem nodup_symbols (c : Catalog) : c.symbols.Nodup :=
  List.pairwise_map.mpr c.distinct

theorem mem_symbols_ofList {registrations : List (String × Native)} {symbol : String} :
    symbol ∈ (ofList registrations).symbols ↔ symbol ∈ registrations.map Prod.fst := by
  induction registrations using List.reverseRecOn with
  | nil => rfl
  | append_singleton registrations last ih =>
      rw [ofList_snoc, symbols_register, List.mem_cons, List.mem_filter, ih, List.map_append,
        List.mem_append, List.map_singleton, List.mem_singleton]
      by_cases h : symbol = last.1 <;> simp [h]

/-- The size of a catalog is the number of distinct symbols that were registered. -/
theorem size_ofList (registrations : List (String × Native)) :
    (ofList registrations).size = (registrations.map Prod.fst).toFinset.card := by
  have same : (ofList registrations).symbols.toFinset = (registrations.map Prod.fst).toFinset := by
    ext symbol
    rw [List.mem_toFinset, List.mem_toFinset, mem_symbols_ofList]
  rw [← same, List.toFinset_card_of_nodup (nodup_symbols _), symbols,
    List.length_map, size]

end Catalog

end InternalCall
