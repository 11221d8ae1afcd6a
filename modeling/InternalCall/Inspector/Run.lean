import InternalCall.Inspector.Arguments
import InternalCall.Inspector.Check
import InternalCall.Inspector.Info
import InternalCall.Inspector.Lookup
import InternalCall.Inspector.Stats

/-!
# Running the inspector

A run of the inspector turns arguments, files and the environment into what is
written and an exit code. Reports may come before a failure: a check that fails
has reported on every table.
-/

namespace InternalCall.Inspector

/-- What the inspector can see of the world. -/
structure Surroundings where
  /-- The files by their paths. -/
  file : String → FileText
  /-- The variables of the environment by their names. -/
  env : String → Option String

/-- What a run leaves behind. -/
structure Outcome where
  /-- The exit code: 0 for success, 1 for failure, 2 for arguments that are not understood. -/
  code : UInt32
  /-- What is written to standard output. -/
  output : String
  /-- What is written to standard error. -/
  errors : String
deriving DecidableEq, Repr, Inhabited

/-- The report of a command, and why it failed if it did. -/
structure Report where
  /-- What is reported. -/
  pieces : List Piece := []
  /-- The failure. -/
  failure? : Option InspectionError := none
deriving DecidableEq, Repr, Inhabited

namespace Report

/-- The report that nothing but the failure is known. -/
def ofError (e : InspectionError) : Report := { failure? := some e }

/-- The report that a computation gives, or its failure. -/
def ofExcept : Except InspectionError Report → Report
  | .ok r => r
  | .error e => ofError e

/-- What a run leaves behind after the report. -/
def outcome (colored : Bool) (r : Report) : Outcome :=
  match r.failure? with
  | none => ⟨0, render colored r.pieces, ""⟩
  | some e => ⟨1, render colored r.pieces, e.report⟩

end Report

namespace Surroundings

/-- The header in the file at the path. -/
def header (s : Surroundings) (path : String) : Except InspectionError Header :=
  (Header.ofFile (s.file path)).mapError (.header path)

/-- The settings in the file at the path. -/
def settings (s : Surroundings) (path : String) : Except InspectionError Settings :=
  (Settings.ofFile (s.file path)).mapError (.settings path)

end Surroundings

namespace Command

/-- The report of the command. -/
def run (s : Surroundings) : Command → Report
  | .check path config? => .ofExcept do
    if let some config := config? then
      discard (s.settings config)
    let h ← s.header path
    return ⟨verdicts h, checkFailure? path h⟩
  | .lookup path token assembly => .ofExcept do
    let h ← s.header path
    let e ← findEntry h token assembly
    return { pieces := describeEntry e }
  | .stats path => .ofExcept do
    let h ← s.header path
    return { pieces := describeHeader h }
  | .info => { pieces := describeEnvironment s.env }

/-- The paths of the files that the command reads. -/
def paths : Command → List String
  | .check header config? => config?.toList ++ [header]
  | .lookup header _ _ | .stats header => [header]
  | .info => []

end Command

/-- How the inspector is called. -/
def usage : String := "Usage: icall [--color <WHEN>] check|lookup|stats|info ...\n"

/-- Runs the inspector on a request; without one it says how it is called. -/
def run (s : Surroundings) : Option Request → Outcome
  | none => ⟨2, "", usage⟩
  | some .version => ⟨0, s!"icall {version}\n", ""⟩
  | some (.run color? command) => (command.run s).outcome (isColored s.env color?)

end InternalCall.Inspector
