import InternalCall.Toml.Gap

/-!
# Quoted strings

A string stands between single quotes as it is, or between double quotes with
escapes. Each has a form with tripled quotes that goes over several lines; there
a line end right after the opening quotes does not count, and up to two quotes
may stand next to each other, also right before the closing ones.
-/

namespace InternalCall.Toml

open Reader

/-- The value of a hexadecimal digit. -/
def hexDigit? (c : Char) : Option Nat :=
  if c.isDigit then some (c.toNat - '0'.toNat)
  else if 'a' ≤ c ∧ c ≤ 'f' then some (10 + (c.toNat - 'a'.toNat))
  else if 'A' ≤ c ∧ c ≤ 'F' then some (10 + (c.toNat - 'A'.toNat))
  else none

/-- The character whose code point is written with so many hexadecimal digits. -/
def codePoint (digits : Nat) : Reader Char := do
  let ds ← times (charOf fun c => (hexDigit? c).isSome) digits
  let n := (ds.filterMap hexDigit?).foldl (fun n d => 16 * n + d) 0
  guard n.isValidChar
  return Char.ofNat n

/-- A character that is written as an escape. -/
def escape : Reader Char := do
  char '\\'
  match ← charOf fun _ => true with
  | 'b' => return '\x08'
  | 't' => return '\t'
  | 'n' => return '\n'
  | 'f' => return '\x0C'
  | 'r' => return '\r'
  | '"' => return '"'
  | '\\' => return '\\'
  | 'u' => codePoint 4
  | 'U' => codePoint 8
  | _ => failure

/-- A character between double quotes that stands for itself. -/
def basicChar : Reader Char := charOf fun c => isPrintable c && c != '"' && c != '\\'

/-- A character between single quotes. -/
def literalChar : Reader Char := charOf fun c => isPrintable c && c != '\''

/-- A string between double quotes on one line. -/
def basicString : Reader String := do
  char '"'
  let content ← many (basicChar <|> escape)
  char '"'
  return String.ofList content

/-- A string between single quotes on one line. -/
def literalString : Reader String := do
  char '\''
  let content ← many literalChar
  char '\''
  return String.ofList content

/-- A backslash at the end of a line, which stands for nothing, as do the blanks and line ends that
follow it. -/
def continuation : Reader (List Char) := do
  char '\\'
  spaces
  newline
  discard (many (discard (someRun isSpace) <|> newline))
  return []

/-- A line end inside a string. -/
def lineBreak : Reader (List Char) := do
  newline
  return ['\n']

/-- A character as a piece of a string. -/
def piece (r : Reader Char) : Reader (List Char) := do return [← r]

/-- One or two quotes inside a string over several lines. -/
def innerQuotes (quote : Char) : Reader (List Char) := do
  let quotes ← someRun (· == quote)
  guard (quotes.length < 3)
  return quotes

/-- The quotes that close a string over several lines. Of up to five quotes the first ones belong to
the string. -/
def closingQuotes (quote : Char) : Reader (List Char) := do
  let quotes ← someRun (· == quote)
  guard (3 ≤ quotes.length ∧ quotes.length ≤ 5)
  return quotes.drop 3

/-- A string between tripled quotes. -/
def multiline (quote : Char) (content : Reader (List Char)) : Reader String := do
  exactly [quote, quote, quote]
  discard (optional newline)
  let pieces ← many (content <|> innerQuotes quote)
  let last ← closingQuotes quote
  return String.ofList (pieces.flatten ++ last)

/-- A string in any of the four forms. -/
def quoted : Reader String :=
  multiline '"' (piece basicChar <|> piece escape <|> continuation <|> lineBreak) <|> basicString
    <|> multiline '\'' (piece literalChar <|> lineBreak) <|> literalString

end InternalCall.Toml
