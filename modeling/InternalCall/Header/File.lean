import InternalCall.FileAccess
import InternalCall.Header.Reader

/-!
# Header files

A header is usually read from a file, which adds the failures of reading it.
-/

namespace InternalCall

/-- Why a file gives no header. -/
inductive HeaderFileError where
  /-- The file could not be read. -/
  | unreadable (e : ReadError)
  /-- The text is no header. -/
  | malformed (e : HeaderError)
deriving DecidableEq, Repr

/-- The error in words. -/
def HeaderFileError.message : HeaderFileError → String
  | unreadable e => "Failed to read table header: " ++ e.message
  | malformed e => e.message

/-- The error in words, followed by what caused it. -/
def HeaderFileError.chain : HeaderFileError → List String
  | unreadable e => [(unreadable e).message, e.message]
  | malformed e => [e.message]

/-- The header in a file. -/
def Header.ofFile (file : FileText) : Except HeaderFileError Header := do
  let text ← file.mapError .unreadable
  (parse text).mapError .malformed

end InternalCall
