import InternalCall.Toml.Item
import InternalCall.Toml.Key

/-!
# Growing tables

Tables grow entry by entry. An entry is never replaced, and the form of a table
says what may still be added: a header may name a table that was only passed
through by headers, and a dotted key passes through tables that only keys and
headers passed through. A name that stands for tables in double brackets leads
into the last of them.
-/

namespace InternalCall.Toml

namespace Entries

/-- The entries with that of the name exchanged. -/
def exchange (name : String) (item : Item) (entries : Entries) : Entries :=
  entries.map fun e => if e.1 = name then (name, item) else e

/-- Exchanging an entry leaves the names as they are. -/
@[simp] theorem names_exchange (name : String) (item : Item) (entries : Entries) :
    (exchange name item entries).names = entries.names := by
  simp only [names, exchange, List.map_map]
  apply List.map_congr_left
  intro e _
  by_cases h : e.1 = name <;> simp [h]

/-- A name under which nothing is found can be added without becoming a second one. -/
theorem nodup_names_append {entries : Entries} {name : String} (item : Item)
    (h : entries.names.Nodup) (fresh : entries.lookup name = none) :
    (names (entries ++ [(name, item)])).Nodup := by
  have absent : ∀ other ∈ entries.names, other ≠ name := by
    intro other ho he
    obtain ⟨e, hm, rfl⟩ := List.mem_map.mp ho
    have := List.lookup_eq_none_iff.mp fresh e hm
    simp [he] at this
  simp only [names, List.map_append, List.map_cons, List.map_nil] at *
  refine List.nodup_append.mpr ⟨h, by simp, ?_⟩
  intro other ho last hl
  rw [List.mem_singleton.mp hl]
  exact absent other ho

/-- Adds an entry under a new name. -/
def add? (name : String) (item : Item) (entries : Entries) : Option Entries :=
  match entries.lookup name with
  | none => some (entries ++ [(name, item)])
  | some _ => none

/-- Whether a path of the form may pass through a table of the other form. -/
def mayPass (form through : TableForm) : Bool :=
  through != .inline && (form != .dotted || through.takesDotted)

/-- Changes the table at the end of a path. Tables that are missing on the way are made, of the
form given. -/
def change? (form : TableForm) (f : TableForm → Entries → Option Entries) :
    List String → TableForm → Entries → Option Entries
  | [], here, entries => f here entries
  | name :: path, _, entries =>
    match entries.lookup name with
    | none => do
      let inner ← change? form f path form []
      return entries ++ [(name, .table form inner)]
    | some (.table through inner) => do
      guard (mayPass form through)
      let inner ← change? form f path through inner
      return exchange name (.table through inner) entries
    | some (.tables elements) => do
      let last ← elements.getLast?
      let last ← change? form f path .header last
      return exchange name (.tables (elements.dropLast ++ [last])) entries
    | some _ => none

/-- Assigns an item to a key. A dotted key ends in a table that dotted keys have made, and a key
without dots in any other. -/
def assign? (key : Key) (item : Item) : TableForm → Entries → Option Entries :=
  change? .dotted (fun form entries => do
    guard ((form == .dotted) != key.path.isEmpty)
    add? key.name item entries) key.path

/-- Opens the table that a header names. -/
def openTable? (name : String) (entries : Entries) : Option Entries :=
  match entries.lookup name with
  | none => some (entries ++ [(name, .table .header [])])
  | some (.table .implied inner) => some (exchange name (.table .header inner) entries)
  | some _ => none

/-- Opens a further table under the name that a header gives in double brackets. -/
def openElement? (name : String) (entries : Entries) : Option Entries :=
  match entries.lookup name with
  | none => some (entries ++ [(name, .tables [[]])])
  | some (.tables elements) => some (exchange name (.tables (elements ++ [[]])) entries)
  | some _ => none

end Entries

end InternalCall.Toml
