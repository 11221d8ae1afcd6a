/-!
# Readers

A reader takes a value off the front of a text or refuses the text. Refusals
carry no reason: the only answer to a document that is not TOML is that it is
none. Of two readers joined by `<|>` the second one reads the same text again
when the first has refused it.
-/

namespace InternalCall.Toml

/-- Takes a value off the front of a text, or refuses the text. -/
abbrev Reader := StateT (List Char) Option

namespace Reader

variable {α : Type}

/-- A character of the class. -/
def charOf (p : Char → Bool) : Reader Char
  | [] => none
  | c :: rest => if p c then some (c, rest) else none

/-- The given character. -/
def char (c : Char) : Reader Unit := discard (charOf (· == c))

/-- The given characters, one after the other. -/
def exactly (word : List Char) : Reader Unit := fun text =>
  (word.isPrefixOf? text).map fun rest => ((), rest)

/-- The longest run of characters of the class, possibly empty. -/
def run (p : Char → Bool) : Reader (List Char) := fun text =>
  some (text.takeWhile p, text.dropWhile p)

/-- The longest run of characters of the class, which must not be empty. -/
def someRun (p : Char → Bool) : Reader (List Char) := do
  return (← charOf p) :: (← run p)

/-- The end of the text. -/
def ending : Reader Unit
  | [] => some ((), [])
  | _ :: _ => none

/-- Reads as often as the reader accepts the text and takes something off it. -/
def repeated (r : Reader α) (text : List Char) : List α × List Char :=
  match r text with
  | none => ([], text)
  | some (a, rest) =>
    if rest.length < text.length then
      let (more, rest) := repeated r rest
      (a :: more, rest)
    else ([], text)
termination_by text.length

/-- Any number of values. -/
def many (r : Reader α) : Reader (List α) := fun text => some (repeated r text)

/-- Values separated by commas, possibly none. -/
def separated (r : Reader α) : Reader (List α) := do
  match ← optional r with
  | none => return []
  | some a => return a :: (← many do char ','; r)

/-- As many values as are asked for. -/
def times (r : Reader α) : Nat → Reader (List α)
  | 0 => return []
  | n + 1 => do return (← r) :: (← times r n)

/-- The characters that a reader takes off the text. -/
def taken (r : Reader α) : Reader (List Char) := fun text => do
  let (_, rest) ← r text
  return (text.take (text.length - rest.length), rest)

/-- The value of the whole text. -/
def all (r : Reader α) (text : List Char) : Option α := do
  let (a, rest) ← r text
  guard rest.isEmpty
  return a

end Reader

end InternalCall.Toml
