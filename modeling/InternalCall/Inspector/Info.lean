import InternalCall.Convention
import InternalCall.Inspector.Style
import InternalCall.Native.Basic

/-!
# About the inspector

The version of the inspector, the limits of calls and the variables of the
environment that are looked at where calls are logged and reports are colored.
-/

namespace InternalCall.Inspector

/-- The version. -/
def version : String := "0.1.0"

/-- The variables that are shown. -/
def shownVariables : List String := ["ICALL_LOG", "NO_COLOR"]

/-- The line of a variable. -/
def variableLine (env : String → Option String) (name : String) : Piece :=
  plain ("  " ++ name ++ " = " ++ (env name).getD "(default)" ++ "\n")

/-- The report on the inspector and its environment. -/
def describeEnvironment (env : String → Option String) : List Piece :=
  [plain s!"icall v{version}\n", plain "\n", plain s!"Max arity:    {maxArity}\n",
    plain s!"Flags:        wrapped = {Convention.wrapped.flag}, raw = {Convention.raw.flag}\n",
    plain "\n", plain "Environment:\n"] ++ shownVariables.map (variableLine env)

end InternalCall.Inspector
