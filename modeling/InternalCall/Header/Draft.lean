import InternalCall.Header.Basic
import InternalCall.Header.Error

/-!
# Tables in the making

While a header is read, the arrays of each assembly fill up. When all lines are
read, a draft becomes a table if its three arrays are there, are equally long and
agree with the comments between the symbols.
-/

namespace InternalCall.Header

/-- A symbol of an array of symbols, with the token that the comment before it announced. -/
structure Func where
  /-- The token that the last comment since the previous symbol announced. -/
  comment? : Option UInt32
  /-- The symbol. -/
  symbol : String
deriving DecidableEq, Repr, Inhabited

/-- What has been read of an assembly's table so far. An array is absent until it is opened. -/
structure Draft where
  /-- The name of the assembly. -/
  name : String
  /-- The tokens. -/
  indexes? : Option (Array UInt32) := none
  /-- The symbols. -/
  funcs? : Option (Array Func) := none
  /-- The flag bytes. -/
  flags? : Option (Array UInt8) := none
deriving DecidableEq, Repr, Inhabited

namespace Draft

/-- Whether the array has been opened. -/
def hasArray (d : Draft) : ArrayKind → Bool
  | .indexes => d.indexes?.isSome
  | .funcs => d.funcs?.isSome
  | .flags => d.flags?.isSome

/-- The draft with the array opened and still empty. -/
def openArray (d : Draft) : ArrayKind → Draft
  | .indexes => { d with indexes? := some #[] }
  | .funcs => { d with funcs? := some #[] }
  | .flags => { d with flags? := some #[] }

/-- The draft with a token added to its open array of tokens. -/
def addIndex (d : Draft) (token : UInt32) : Draft :=
  { d with indexes? := d.indexes?.map (·.push token) }

/-- The draft with a symbol added to its open array of symbols. -/
def addFunc (d : Draft) (f : Func) : Draft := { d with funcs? := d.funcs?.map (·.push f) }

/-- The draft with a flag byte added to its open array of flag bytes. -/
def addFlag (d : Draft) (flags : UInt8) : Draft :=
  { d with flags? := d.flags?.map (·.push flags) }

/-- The array, or the error that it is missing. -/
def require {α : Type} (d : Draft) (array : ArrayKind) : Option α → Except HeaderError α
  | some a => .ok a
  | none => .error (.missingArray d.name array)

/-- The entries that the items of the three arrays make, position by position from `index` on. -/
def entriesFrom (d : Draft) (prototypes : String → Option Signature) (index : Nat) :
    List (UInt32 × Func × UInt8) → Except HeaderError (List TableEntry)
  | [] => return []
  | (token, f, flags) :: rest => do
    if let some comment := f.comment? then
      if comment ≠ token then throw (.tokenCommentMismatch d.name index comment token)
    let es ← entriesFrom d prototypes (index + 1) rest
    return ⟨token, f.symbol, prototypes f.symbol, flags⟩ :: es

/-- The finished table. -/
def finish (d : Draft) (prototypes : String → Option Signature) :
    Except HeaderError AssemblyTable := do
  let indexes ← d.require .indexes d.indexes?
  let funcs ← d.require .funcs d.funcs?
  let flags ← d.require .flags d.flags?
  unless indexes.size = funcs.size ∧ indexes.size = flags.size do
    throw (.lengthMismatch d.name indexes.size funcs.size flags.size)
  let items := indexes.toList.zip (funcs.toList.zip flags.toList)
  return ⟨d.name, (← d.entriesFrom prototypes 0 items).toArray⟩

end Draft

/-- The drafts with one for the assembly among them; a new one goes to the end. -/
def mention (assembly : String) (drafts : List Draft) : List Draft :=
  if drafts.any (·.name == assembly) then drafts else drafts ++ [{ name := assembly }]

/-- The drafts with that of the assembly changed. -/
def change (assembly : String) (f : Draft → Draft) (drafts : List Draft) : List Draft :=
  drafts.map fun d => if d.name = assembly then f d else d

/-- Whether the array of the assembly has been opened. -/
def hasArray (assembly : String) (array : ArrayKind) (drafts : List Draft) : Bool :=
  drafts.any fun d => d.name == assembly && d.hasArray array

end InternalCall.Header
