import InternalCall.Text.CodeRange

/-!
# Blanks

A blank is a character with the Unicode property White_Space, which has had the
same 25 members since version 6.3 of the standard. Lines of a header are read
without the blanks at their two ends.
-/

namespace InternalCall.Text

/-- The code points with the property White_Space. -/
def blankRanges : List (Nat × Nat) :=
  [(0x09, 0x0D), (0x20, 0x20), (0x85, 0x85), (0xA0, 0xA0), (0x1680, 0x1680), (0x2000, 0x200A),
   (0x2028, 0x2029), (0x202F, 0x202F), (0x205F, 0x205F), (0x3000, 0x3000)]

/-- Whether the character is a blank. -/
def isBlank (c : Char) : Bool := inRanges blankRanges c

/-- The text without its leading blanks. -/
def skipBlanks (text : List Char) : List Char := text.dropWhile isBlank

/-- The text without the blanks at its two ends. -/
def trim (text : List Char) : List Char := (skipBlanks (skipBlanks text).reverse).reverse

/-- The text after one or more leading blanks, or `none` if it starts with no blank. -/
def skipSomeBlanks? : List Char → Option (List Char)
  | [] => none
  | c :: rest => if isBlank c then some (skipBlanks rest) else none

end InternalCall.Text
