import InternalCall.Header.File
import InternalCall.Settings.File

/-!
# Failures of an inspection

Why a command of the inspector fails, and how that is reported: the failure
itself and then what caused it, numbered if there is more than one cause.
-/

namespace InternalCall.Inspector

/-- Why a command fails. -/
inductive InspectionError where
  /-- The settings file gives no settings. -/
  | settings (path : String) (e : SettingsFileError)
  /-- The file gives no header. -/
  | header (path : String) (e : HeaderFileError)
  /-- The header has no tables. -/
  | noTables (path : String)
  /-- Some of the tables are not valid. -/
  | invalidTables (failed total : Nat)
  /-- The header has no table for the assembly. -/
  | noTable (assembly : String)
  /-- The table is not valid. -/
  | invalidTable (e : BuildError)
  /-- No entry of the assembly's table has the token. -/
  | noEntry (token : UInt32) (assembly : String)
deriving DecidableEq, Repr

namespace InspectionError

/-- The failure in words. -/
def message : InspectionError → String
  | settings path _ => s!"invalid dispatch config {path}"
  | header path _ => s!"failed to read {path}"
  | noTables path => s!"{path} declares no icall tables"
  | invalidTables failed total => s!"{failed} of {total} tables failed validation"
  | noTable assembly => "no icall table for assembly '" ++ assembly ++ "'"
  | invalidTable e => e.message
  | noEntry token assembly => s!"icall token {token} is not in the {assembly} table"

/-- What caused the failure, the nearest cause first. -/
def causes : InspectionError → List String
  | settings _ e => e.chain
  | header _ e => e.chain
  | _ => []

/-- The lines of several causes, numbered from `n` on. -/
def numbered (n : Nat) : List String → List String
  | [] => []
  | cause :: rest => s!"    {n}: {cause}\n" :: numbered (n + 1) rest

/-- The report of the failure. -/
def report (e : InspectionError) : String :=
  "Error: " ++ e.message ++ "\n" ++
    match e.causes with
    | [] => ""
    | [cause] => "\nCaused by:\n    " ++ cause ++ "\n"
    | causes => "\nCaused by:\n" ++ String.join (numbered 0 causes)

end InspectionError

end InternalCall.Inspector
