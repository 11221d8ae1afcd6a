import InternalCall.Header.Draft
import InternalCall.Header.Line
import InternalCall.Header.Prototype

/-!
# Reading a header

A header is read line by line. Blank lines are passed over. Arrays of several
assemblies may follow each other in any order and prototypes may stand before or
after the use of their symbols, so tables are put together only after the last
line; the first line that does not fit ends the reading.
-/

namespace InternalCall.Header

open Text

/-- What has been read so far. -/
structure Progress where
  /-- The tables in the making, by first mention of their assembly. -/
  drafts : List Draft := []
  /-- The prototypes, the latest first. -/
  prototypes : List (String × Signature) := []
  /-- The array that the next line belongs to. -/
  openArray? : Option (String × ArrayKind) := none
  /-- The token that a comment announced for the next symbol. -/
  comment? : Option UInt32 := none
deriving DecidableEq, Repr, Inhabited

namespace Progress

/-- The prototype that was given last for the symbol. -/
def prototype? (p : Progress) (symbol : String) : Option Signature := p.prototypes.lookup symbol

/-- The error that the line does not fit. -/
def unexpected {α : Type} (number : Nat) (line : List Char) : Except HeaderError α :=
  .error (.unexpectedLine number (String.ofList line))

/-- Adds a line inside an array of the assembly. -/
def readInside (p : Progress) (assembly : String) (array : ArrayKind) (number : Nat)
    (line : List Char) : Except HeaderError Progress :=
  if isClosing line then .ok { p with openArray? := none, comment? := none }
  else
    match array with
    | .indexes =>
      match (item? line).bind uint32? with
      | some token => .ok { p with drafts := change assembly (·.addIndex token) p.drafts }
      | none => unexpected number line
    | .flags =>
      match (item? line).bind uint8? with
      | some flags => .ok { p with drafts := change assembly (·.addFlag flags) p.drafts }
      | none => unexpected number line
    | .funcs =>
      match tokenComment? line with
      | some token => .ok { p with comment? := some token }
      | none =>
        match item? line with
        | some symbol =>
          let f : Func := ⟨p.comment?, String.ofList symbol⟩
          .ok { p with drafts := change assembly (·.addFunc f) p.drafts, comment? := none }
        | none => unexpected number line

/-- Adds a line outside any array. -/
def readOutside (p : Progress) (number : Nat) (line : List Char) : Except HeaderError Progress :=
  match Line.ofText? line with
  | some (.declaration assembly) => .ok { p with drafts := mention assembly p.drafts }
  | some (.opening assembly array) =>
    if hasArray assembly array p.drafts then unexpected number line
    else .ok { p with
      drafts := change assembly (·.openArray array) (mention assembly p.drafts)
      openArray? := some (assembly, array) }
  | some (.prototype ret symbol params) =>
    match readPrototype ret params with
    | .ok signature => .ok { p with prototypes := (symbol, signature) :: p.prototypes }
    | .error type => .error (.unknownType number type)
  | some .ignored => .ok p
  | none => unexpected number line

/-- Adds the line with the number. -/
def read (p : Progress) (number : Nat) (line : List Char) : Except HeaderError Progress :=
  let line := trim line
  if line.isEmpty then .ok p
  else
    match p.openArray? with
    | some (assembly, array) => p.readInside assembly array number line
    | none => p.readOutside number line

/-- Adds lines, the first of which has the number. -/
def readAll (p : Progress) (number : Nat) : List (List Char) → Except HeaderError Progress
  | [] => .ok p
  | line :: rest =>
    match p.read number line with
    | .ok next => next.readAll (number + 1) rest
    | .error e => .error e

/-- The header that all lines together make. -/
def finish (p : Progress) : Except HeaderError Header :=
  match p.openArray? with
  | some (assembly, array) => .error (.unterminated assembly array)
  | none => do return ⟨← p.drafts.mapM (·.finish p.prototype?)⟩

end Progress

/-- Reads the text of a header. -/
def parse (text : String) : Except HeaderError Header := do
  (← Progress.readAll {} 1 (lines text.toList)).finish

end InternalCall.Header
