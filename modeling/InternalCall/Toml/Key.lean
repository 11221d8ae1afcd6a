import InternalCall.Toml.Quoted

/-!
# Keys

A key names an entry of a table. A dotted key leads to it through further
tables.
-/

namespace InternalCall.Toml

open Reader

/-- A key. -/
structure Key where
  /-- The names of the tables that lead to the entry. -/
  path : List String
  /-- The name of the entry. -/
  name : String
deriving DecidableEq, Repr, Inhabited

namespace Key

/-- The names of the path and of the entry. -/
def names (k : Key) : List String := k.path ++ [k.name]

/-- The key of a first name and the names that follow it. -/
def ofNames (first : String) : List String → Key
  | [] => ⟨[], first⟩
  | next :: rest => { ofNames next rest with path := first :: (ofNames next rest).path }

/-- The names of a key are those that it was made of. -/
@[simp] theorem names_ofNames (first : String) (rest : List String) :
    (ofNames first rest).names = first :: rest := by
  induction rest generalizing first with
  | nil => rfl
  | cons next rest ih => simpa [ofNames, names] using ih next

/-- The number of names that a key must stay below. -/
def nameLimit : Nat := 80

end Key

/-- Whether the character may stand in a name without quotes. -/
def isBare (c : Char) : Bool := c.isAlphanum || c == '_' || c == '-'

/-- A single name. -/
def name : Reader String :=
  (do return String.ofList (← someRun isBare)) <|> basicString <|> literalString

/-- A single name with the spaces around it. -/
def spacedName : Reader String := do
  spaces
  let n ← name
  spaces
  return n

/-- A key. -/
def key : Reader Key := do
  let first ← spacedName
  let rest ← many do char '.'; spacedName
  guard (rest.length + 1 < Key.nameLimit)
  return .ofNames first rest

end InternalCall.Toml
