import InternalCall.Toml.Reader

/-!
# Gaps and line ends

What may stand between the parts of a document: spaces and tabs, comments and
line ends. A control character other than the tab is allowed nowhere.
-/

namespace InternalCall.Toml

open Reader

/-- Whether the character may stand in a comment, or in a string that it does not delimit. -/
def isPrintable (c : Char) : Bool := c == '\t' || 0x20 ≤ c.toNat && c.toNat != 0x7F

/-- Whether the character separates the parts of a line. -/
def isSpace (c : Char) : Bool := c == ' ' || c == '\t'

/-- Spaces and tabs, possibly none. -/
def spaces : Reader Unit := discard (run isSpace)

/-- A line feed, possibly after a carriage return. -/
def newline : Reader Unit := exactly ['\n'] <|> exactly ['\r', '\n']

/-- A comment, which reaches to the end of the line. -/
def comment : Reader Unit := do
  char '#'
  discard (run isPrintable)

/-- The end of a line: spaces, possibly a comment, and the end of the line or of the text. -/
def lineEnd : Reader Unit := do
  spaces
  discard (optional comment)
  newline <|> ending

/-- Any number of spaces, line ends and comments. -/
def gap : Reader Unit := discard (many (discard (someRun isSpace) <|> newline <|> comment))

end InternalCall.Toml
