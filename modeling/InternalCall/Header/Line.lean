import InternalCall.Header.Error
import InternalCall.Text.Blank
import InternalCall.Text.Numeral
import InternalCall.Text.Word

/-!
# Lines of a header

What a single trimmed line of a header says. Outside an array a line declares a
table, opens an array, gives a prototype or is ignored. Inside an array of symbols
a line is a symbol or a comment with the token of the next symbol; inside the
other two it is a number.
-/

namespace InternalCall.Header

open Text

/-- What a line outside an array says. -/
inductive Line where
  /-- The header holds a table for the assembly. -/
  | declaration (assembly : String)
  /-- An array of the assembly's table follows. -/
  | opening (assembly : String) (array : ArrayKind)
  /-- The symbol has the prototype. -/
  | prototype (ret symbol : String) (params : List Char)
  /-- A comment, or a preprocessor line of no interest. -/
  | ignored
deriving DecidableEq, Repr

/-- The text after a literal at its start. -/
def afterLiteral? (literal : String) (text : List Char) : Option (List Char) :=
  literal.toList.isPrefixOf? text

/-- The non-empty run of word characters at the start, and the text after it. -/
def word? (text : List Char) : Option (List Char × List Char) :=
  if (splitWord text).1.isEmpty then none else some (splitWord text)

/-- The assembly of a table declaration: `#define`, `ICALL_TABLE_` with the name, and `1`. -/
def declaration? (line : List Char) : Option (List Char) := do
  let rest ← skipSomeBlanks? (← afterLiteral? "#define" line)
  let (name, rest) ← word? (← afterLiteral? "ICALL_TABLE_" rest)
  let rest ← skipSomeBlanks? rest
  guard (rest = ['1'])
  return name

/-- The text after the element type of an array. -/
def elementType? (text : List Char) : Option (List Char) :=
  afterLiteral? "int" text <|> afterLiteral? "uint8_t" text <|> do
    afterLiteral? "*" (skipBlanks (← afterLiteral? "void" text))

/-- The ending of the name of an array of the kind. -/
def arrayEnding (array : ArrayKind) : List Char := "_icall_".toList ++ array.name.toList

/-- The assembly and the kind of array that the name of an array is made of. -/
def splitArrayName? (name : List Char) : Option (List Char × ArrayKind) :=
  [ArrayKind.indexes, .funcs, .flags].findSome? fun array => do
    let assembly ← (arrayEnding array).isSuffixOf? name
    guard !assembly.isEmpty
    return (assembly, array)

/-- The assembly and the kind of an array that the line opens: `static`, the element type, the name
of the array, `[]`, `=` and an opening brace. -/
def opening? (line : List Char) : Option (List Char × ArrayKind) := do
  let rest ← skipSomeBlanks? (← afterLiteral? "static" line)
  let (name, rest) ← word? (skipBlanks (← elementType? rest))
  let rest ← afterLiteral? "[]" (skipBlanks rest)
  let rest ← afterLiteral? "=" (skipBlanks rest)
  guard (skipBlanks rest = ['\x7b'])
  splitArrayName? name

/-- The return types that a prototype may start with. -/
def returnTypes : List String := ["void", "int", "int64_t", "double"]

/-- The return type, the symbol and the text between the parentheses of a prototype. -/
def prototype? (line : List Char) : Option (List Char × List Char × List Char) := do
  let (ret, rest) ← word? line
  guard (String.ofList ret ∈ returnTypes)
  let (symbol, rest) ← word? (← skipSomeBlanks? rest)
  let rest ← afterLiteral? "(" (skipBlanks rest)
  guard (rest.dropWhile (· != ')') = [')', ';'])
  return (ret, symbol, rest.takeWhile (· != ')'))

/-- Whether the line is a comment or a preprocessor line. -/
def isIgnored (line : List Char) : Bool :=
  (afterLiteral? "//" line).isSome || (afterLiteral? "#" line).isSome

/-- What the line says outside an array. -/
def Line.ofText? (line : List Char) : Option Line :=
  match declaration? line with
  | some assembly => some (.declaration (String.ofList assembly))
  | none =>
    match opening? line with
    | some (assembly, array) => some (.opening (String.ofList assembly) array)
    | none =>
      match prototype? line with
      | some (ret, symbol, params) =>
        some (.prototype (String.ofList ret) (String.ofList symbol) params)
      | none => if isIgnored line then some .ignored else none

/-- Whether the line ends an array. -/
def isClosing (line : List Char) : Bool := line = ['\x7d', ';']

/-- The word of an item: a word, possibly with a comma after it. -/
def item? (line : List Char) : Option (List Char) := do
  let (word, rest) ← word? line
  guard (rest = [] ∨ rest = [','])
  return word

/-- The token that a comment inside an array of symbols announces: `//`, `token` and a number,
possibly with a comma after it. -/
def tokenComment? (line : List Char) : Option UInt32 := do
  let rest ← afterLiteral? "token" (skipBlanks (← afterLiteral? "//" line))
  uint32? (← item? (← skipSomeBlanks? rest))

end InternalCall.Header
