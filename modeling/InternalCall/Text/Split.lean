/-!
# Splitting at a separator

A text is cut at each occurrence of a separator character; the pieces between
are kept, also the empty ones, so a text with `n` separators has `n + 1` pieces.
Lines are the pieces between line feeds. A carriage return before a line feed
stays in its line; it is a blank and goes when the line is trimmed.
-/

namespace InternalCall.Text

/-- Puts a character in front of the first piece, or opens a new first piece at a separator. -/
def consPiece (separator c : Char) (pieces : List (List Char)) : List (List Char) :=
  if c = separator then [] :: pieces
  else
    match pieces with
    | [] => [[c]]
    | piece :: rest => (c :: piece) :: rest

/-- The pieces of a text between the separators. -/
def splitAt (separator : Char) (text : List Char) : List (List Char) :=
  text.foldr (consPiece separator) [[]]

@[simp] theorem splitAt_nil (separator : Char) : splitAt separator [] = [[]] := rfl

@[simp] theorem splitAt_cons (separator c : Char) (text : List Char) :
    splitAt separator (c :: text) = consPiece separator c (splitAt separator text) := rfl

/-- The lines of a text, the last of them possibly empty. -/
def lines (text : List Char) : List (List Char) := splitAt '\n' text

end InternalCall.Text
