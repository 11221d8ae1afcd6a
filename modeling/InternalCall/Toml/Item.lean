/-!
# Items

What a document holds: strings, numbers, dates, truth values, arrays and tables.
A table remembers how it came to be, because that decides whether later lines may
add to it. Numbers with a fraction and dates are kept as they are written.
-/

namespace InternalCall.Toml

/-- How a table came to be. -/
inductive TableForm where
  /-- It was written between braces, and is complete. -/
  | inline
  /-- It has a header of its own, or is the document itself. -/
  | header
  /-- It was passed through by a header. -/
  | implied
  /-- It was passed through by a dotted key. -/
  | dotted
deriving DecidableEq, Repr, Inhabited

/-- Whether a dotted key may pass through a table of the form. -/
def TableForm.takesDotted : TableForm → Bool
  | inline | header => false
  | implied | dotted => true

/-- An item of a document. -/
inductive Item where
  /-- A string. -/
  | string (text : String)
  /-- An integer. -/
  | integer (n : Int64)
  /-- A number with a fraction or an exponent, an infinity or no number, as written. -/
  | float (text : String)
  /-- A truth value. -/
  | boolean (b : Bool)
  /-- A date, a time of day or both, as written. -/
  | dateTime (text : String)
  /-- An array. -/
  | array (items : List Item)
  /-- A table, with its entries by name. -/
  | table (form : TableForm) (entries : List (String × Item))
  /-- The tables whose headers stand in double brackets, with their entries by name. -/
  | tables (elements : List (List (String × Item)))
deriving Inhabited

/-- The entries of a table by name; no name occurs twice. -/
abbrev Entries := List (String × Item)

/-- The names of the entries, in the order in which they were added. -/
def Entries.names (entries : Entries) : List String := entries.map Prod.fst

end InternalCall.Toml
