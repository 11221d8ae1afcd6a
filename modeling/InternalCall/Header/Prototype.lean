import InternalCall.Signature
import InternalCall.Text.Blank
import InternalCall.Text.Split

/-!
# Prototypes

A prototype gives the return type of a symbol and, between parentheses, the
types of its parameters, separated by commas. A parameter that is blank or `void`
stands for no parameter at all.
-/

namespace InternalCall

/-- The return slot that a type name stands for. -/
def ReturnKind.ofCName? (name : String) : Option ReturnKind :=
  if name = "void" then some .void else (ScalarKind.ofCName? name).map .scalar

namespace Header

/-- The type names between the parentheses of a prototype, trimmed. -/
def paramNames (params : List Char) : List String :=
  (Text.splitAt ',' params).map fun slot => String.ofList (Text.trim slot)

/-- Whether the name stands for no parameter. -/
def isNoParam (name : String) : Bool := name = "" || name = "void"

/-- The kind that the name of a parameter type stands for, or the name itself if it is unknown. -/
def paramKind (name : String) : Except String ScalarKind :=
  match ScalarKind.ofCName? name with
  | some k => .ok k
  | none => .error name

/-- The signature of a prototype, or the first type name that is unknown. -/
def readPrototype (ret : String) (params : List Char) : Except String Signature := do
  let some ret := ReturnKind.ofCName? ret | throw ret
  let params ← ((paramNames params).filter fun name => !isNoParam name).mapM paramKind
  return ⟨params, ret⟩

end Header

end InternalCall
