import InternalCall.FileAccess
import InternalCall.Settings.Document

/-!
# Settings files

Settings are read from a file. Why a document is refused is not reported any
further than that it is.
-/

namespace InternalCall

/-- Why a file gives no settings. -/
inductive SettingsFileError where
  /-- The file could not be read. -/
  | unreadable (e : ReadError)
  /-- The text is no settings document. -/
  | malformed
deriving DecidableEq, Repr

namespace SettingsFileError

/-- What the refusal of a document is called. -/
def refusal : String := "TOML parse error"

/-- The error in words. -/
def message : SettingsFileError → String
  | unreadable e => "Failed to read config file: " ++ e.message
  | malformed => "Failed to parse config: " ++ refusal

/-- The error in words, followed by what caused it. -/
def chain : SettingsFileError → List String
  | unreadable e => [(unreadable e).message, e.message]
  | malformed => [malformed.message, refusal]

end SettingsFileError

/-- The settings in a file. -/
def Settings.ofFile (file : FileText) : Except SettingsFileError Settings := do
  let text ← file.mapError .unreadable
  match parse text with
  | some s => return s
  | none => throw .malformed

end InternalCall
