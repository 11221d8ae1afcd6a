/-!
# Reading files

What can come of reading a text file. The texts of the failures are those of the
operating system and of the decoder.
-/

namespace InternalCall

/-- Why a file could not be read as text. -/
inductive ReadError where
  /-- There is no such file. -/
  | notFound
  /-- A directory stands in its place. -/
  | isDirectory
  /-- The bytes of the file are not valid UTF-8. -/
  | notUtf8
  /-- Anything else, in the words of the operating system. -/
  | other (message : String)
deriving DecidableEq, Repr

/-- The failure in words. -/
def ReadError.message : ReadError → String
  | notFound => "No such file or directory (os error 2)"
  | isDirectory => "Is a directory (os error 21)"
  | notUtf8 => "stream did not contain valid UTF-8"
  | other message => message

/-- The text of a file, or why there is none. -/
abbrev FileText := Except ReadError String

/-- The text that the bytes of a file encode. -/
def FileText.ofBytes (bytes : ByteArray) : FileText :=
  match String.fromUTF8? bytes with
  | some text => .ok text
  | none => .error .notUtf8

end InternalCall
