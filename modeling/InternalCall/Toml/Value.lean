import InternalCall.Toml.Number
import InternalCall.Toml.Table

/-!
# Values

A value is a string, a bare value, an array or a table between braces. Arrays may
go over several lines, tables between braces may not. Brackets nest up to a limit,
so that a reader is never led into unbounded depth.
-/

namespace InternalCall.Toml

open Reader

/-- How deep brackets may nest. -/
def nestingLimit : Nat := 79

/-- An array of the items. A comma may follow the last one. -/
def array (item : Reader Item) : Reader Item := do
  char '['
  let items ← separated (gap *> item <* gap)
  unless items.isEmpty do
    discard (optional (char ','))
  gap
  char ']'
  return .array items

/-- A key, an equals sign and the item that is assigned. -/
def assignment (item : Reader Item) : Reader (Key × Item) := do
  let k ← key
  char '='
  spaces
  return (k, ← item)

/-- A table between braces. -/
def inlineTable (item : Reader Item) : Reader Item := do
  char '\x7b'
  let pairs ← separated (assignment item <* spaces)
  spaces
  char '\x7d'
  let entries ← pairs.foldlM (fun entries pair => Entries.assign? pair.1 pair.2 .inline entries) []
  return .table .inline entries

/-- A value with brackets nested up to a depth. -/
def valueWithin : Nat → Reader Item
  | 0 => Item.string <$> quoted <|> bareValue
  | depth + 1 =>
    Item.string <$> quoted <|> bareValue <|> array (valueWithin depth) <|>
      inlineTable (valueWithin depth)

/-- A value. -/
def value : Reader Item := valueWithin nestingLimit

end InternalCall.Toml
