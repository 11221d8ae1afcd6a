import InternalCall.Toml.Value

/-!
# Documents

A document is a list of lines. A line assigns a value to a key, names the table
that the next assignments go to, or says nothing. A document that breaks a rule
in any line is none.
-/

namespace InternalCall.Toml

open Reader

/-- What a line says. -/
inductive Statement where
  /-- The item is assigned to the key. -/
  | assign (key : Key) (item : Item)
  /-- The next assignments go to the table. -/
  | table (key : Key)
  /-- The next assignments go to a further table under the key. -/
  | element (key : Key)
deriving Inhabited

/-- A key in double brackets. -/
def elementHeader : Reader Statement := do
  exactly ['[', '[']
  let k ← key
  exactly [']', ']']
  return .element k

/-- A key in brackets. -/
def tableHeader : Reader Statement := do
  char '['
  let k ← key
  char ']'
  return .table k

/-- What a line says. -/
def statement : Reader Statement :=
  elementHeader <|> tableHeader <|> do
    let (k, item) ← assignment value
    return .assign k item

/-- A line, which says something or not. -/
def line : Reader (Option Statement) := do
  spaces
  let s ← optional statement
  lineEnd
  return s

/-- The statements of a text. A byte order mark at its front is passed over. -/
def statements? (text : List Char) : Option (List Statement) := do
  let lines ← all (do discard (optional (char '\uFEFF')); many line) text
  return lines.filterMap id

/-- A document as far as it has been read. -/
structure Draft where
  /-- The entries. -/
  entries : Entries := []
  /-- The names that lead to the table that assignments go to. -/
  current : List String := []

namespace Draft

/-- Adds what a line says. -/
def add? (d : Draft) : Statement → Option Draft
  | .assign key item => do
    let entries ← Entries.change? .implied (Entries.assign? key item) d.current .header d.entries
    return { d with entries }
  | .table key => do
    let opening := fun _ => Entries.openTable? key.name
    return ⟨← Entries.change? .implied opening key.path .header d.entries, key.names⟩
  | .element key => do
    let opening := fun _ => Entries.openElement? key.name
    return ⟨← Entries.change? .implied opening key.path .header d.entries, key.names⟩

end Draft

/-- The entries that statements make. -/
def entries? (statements : List Statement) : Option Entries := do
  return (← statements.foldlM Draft.add? {}).entries

/-- Reads a document. -/
def parse (text : String) : Option Entries := (statements? text.toList).bind entries?

end InternalCall.Toml
