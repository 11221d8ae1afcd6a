/-!
# Styled text

Reports are made of pieces of text, each of which may have a style. On a terminal
that shows colors a styled piece is written between escape sequences; elsewhere
only its text is.
-/

namespace InternalCall.Inspector

/-- A color of the terminal. -/
inductive Color where
  /-- Red. -/
  | red
  /-- Green. -/
  | green
  /-- Yellow. -/
  | yellow
  /-- Cyan. -/
  | cyan
  /-- White. -/
  | white
deriving DecidableEq, Repr, Inhabited

/-- The number of the color in an escape sequence. -/
def Color.number : Color → String
  | red => "31"
  | green => "32"
  | yellow => "33"
  | cyan => "36"
  | white => "37"

/-- A style of text. -/
structure Style where
  /-- The color, if it is not the terminal's own. -/
  color? : Option Color
  /-- Whether the text is bold. -/
  bold : Bool
deriving DecidableEq, Repr, Inhabited

namespace Style

/-- Good news. -/
def success : Style := ⟨some .green, true⟩

/-- Bad news. -/
def failure : Style := ⟨some .red, true⟩

/-- Something odd. -/
def warning : Style := ⟨some .yellow, true⟩

/-- A value that stands out. -/
def info : Style := ⟨some .cyan, false⟩

/-- A label. -/
def dim : Style := ⟨some .white, false⟩

/-- A heading. -/
def heading : Style := ⟨none, true⟩

/-- The escape sequence with the number. -/
def sequence (number : String) : String := "\x1b[" ++ number ++ "m"

/-- The escape sequences before a text of the style. -/
def opening (s : Style) : String :=
  sequence "0" ++ (if s.bold then sequence "1" else "") ++
    match s.color? with
    | some c => sequence c.number
    | none => ""

end Style

/-- A piece of text. -/
structure Piece where
  /-- The style, if the piece has one. -/
  style? : Option Style
  /-- The text. -/
  text : String
deriving DecidableEq, Repr, Inhabited

/-- The text without a style. -/
def plain (text : String) : Piece := ⟨none, text⟩

/-- The text in the style. -/
def styled (style : Style) (text : String) : Piece := ⟨some style, text⟩

/-- A piece as it is written. -/
def Piece.render (colored : Bool) (p : Piece) : String :=
  match colored, p.style? with
  | true, some style => style.opening ++ p.text ++ Style.sequence "0"
  | _, _ => p.text

/-- Pieces as they are written, one after the other. -/
def render (colored : Bool) (pieces : List Piece) : String :=
  String.join (pieces.map (Piece.render colored))

/-- Whether a report is written in color: never if `NO_COLOR` is set, otherwise as the choice says,
and without a firm choice if the terminal is known and not a dumb one. -/
def isColored (env : String → Option String) (choice? : Option String) : Bool :=
  if (env "NO_COLOR").isSome then false
  else if choice? = some "always" then true
  else if choice? = some "never" then false
  else
    match env "TERM" with
    | some terminal => terminal != "dumb"
    | none => false

end InternalCall.Inspector
