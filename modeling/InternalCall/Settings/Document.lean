import InternalCall.Settings
import InternalCall.Toml.Document

/-!
# Settings documents

A settings document is a TOML document with at most three entries. Each has one
name and one kind of item; anything else makes the document no settings, so a
mistake is never passed over. What holds for a name without an entry is said name by
name.
-/

namespace InternalCall

open Toml (Item Entries)

/-- Whether the item is an array or a table without content. -/
def Toml.Item.isVacant : Item → Bool
  | .array items => items.isEmpty
  | .table _ entries => entries.isEmpty
  | _ => false

/-- The action that an item stands for: its name, or a table whose only entry has that name and a
vacant item. -/
def FatalAction.ofItem? : Item → Option FatalAction
  | .string name => ofName? name
  | .table _ [(name, item)] => if item.isVacant then ofName? name else none
  | _ => none

/-- The truth value that an item stands for. -/
def Toml.Item.boolean? : Item → Option Bool
  | .boolean b => some b
  | _ => none

namespace Settings

/-- The name of the entry for `onUnresolved`. -/
def onUnresolvedName : String := "on-unresolved"

/-- The name of the entry for `checkReturnKinds`. -/
def checkReturnKindsName : String := "check-return-kinds"

/-- The name of the entry for `traceCalls`. -/
def traceCallsName : String := "trace-calls"

/-- The names that entries may have. -/
def names : List String := [onUnresolvedName, checkReturnKindsName, traceCallsName]

/-- The action without an entry for `onUnresolved`: the first one. -/
def onUnresolvedIfMissing : FatalAction := default

/-- Whether calls are logged without an entry for `traceCalls`: like any flag that is not set. -/
def traceCallsIfMissing : Bool := default

/-- What the entry of the name says, or the given value if there is no such entry. -/
def entryOr {α : Type} (entries : Entries) (name : String) (read : Item → Option α)
    (ifMissing : α) : Option α :=
  match entries.lookup name with
  | some item => read item
  | none => some ifMissing

/-- The settings that the entries of a document give. -/
def ofEntries? (entries : Entries) : Option Settings := do
  guard (entries.all fun e => e.1 ∈ names)
  let onUnresolved ←
    entryOr entries onUnresolvedName FatalAction.ofItem? onUnresolvedIfMissing
  let checkReturnKinds ←
    entryOr entries checkReturnKindsName Item.boolean? checkReturnKindsIfMissing
  let traceCalls ← entryOr entries traceCallsName Item.boolean? traceCallsIfMissing
  return { onUnresolved, checkReturnKinds, traceCalls }

/-- Reads the text of a settings document. -/
def parse (text : String) : Option Settings := (Toml.parse text).bind ofEntries?

end Settings

end InternalCall
