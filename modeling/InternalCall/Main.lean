import InternalCall.Inspector.Run

/-!
# The inspector as a program

Gathers the files and variables that a request needs, runs the inspector and
writes what it leaves behind.
-/

namespace InternalCall.Inspector

/-- The failure of reading a file. -/
def readError : IO.Error → ReadError
  | .noFileOrDirectory .. => .notFound
  | .inappropriateType .. => .isDirectory
  | e => .other (toString e)

/-- Reads a file as text. -/
def readText (path : String) : IO FileText := do
  try
    return FileText.ofBytes (← IO.FS.readBinFile path)
  catch e =>
    return .error (readError e)

/-- The variables of the environment that the inspector asks for. -/
def askedVariables : List String := ["TERM"] ++ shownVariables

/-- What the inspector needs to see for a request. -/
def gather (request? : Option Request) : IO Surroundings := do
  let paths := match request? with
    | some (.run _ command) => command.paths
    | _ => []
  let files ← paths.mapM fun path => return (path, ← readText path)
  let values ← askedVariables.mapM fun name => return (name, ← IO.getEnv name)
  return ⟨fun path => (files.lookup path).getD (.error .notFound),
    fun name => (values.lookup name).join⟩

/-- Runs the inspector on the arguments and writes what it leaves behind. -/
def program (args : List String) : IO UInt32 := do
  let request? := Request.ofArgs? none args
  let outcome := run (← gather request?) request?
  IO.print outcome.output
  IO.eprint outcome.errors
  return outcome.code

end InternalCall.Inspector

/-- Runs the inspector. -/
def main (args : List String) : IO UInt32 := InternalCall.Inspector.program args
