import InternalCall.Inspector.Error
import InternalCall.Inspector.Style

/-!
# Looking up a token

A token is looked up in the table of one assembly. The search presumes that the
table is in order, so a table that is not valid is not searched.
-/

namespace InternalCall.Inspector

/-- The entry that has the token in the table of the assembly. -/
def findEntry (h : Header) (token : UInt32) (assembly : String) :
    Except InspectionError TableEntry := do
  let some t := h.table? assembly | throw (.noTable assembly)
  t.validate.mapError .invalidTable
  let some e := t.lookup? token | throw (.noEntry token assembly)
  return e

/-- The convention of an entry in a report. -/
def conventionPiece (e : TableEntry) : Piece :=
  match e.convention? with
  | some c => styled .info c.text
  | none => styled .warning ("unknown (" ++ Text.hexByte e.flags ++ ")")

/-- The declared signature of an entry in a report. -/
def signatureText (e : TableEntry) : String :=
  match e.signature? with
  | some s => s!"{s.text} [{s.classOf.text}]"
  | none => "(undeclared)"

/-- The report on an entry. -/
def describeEntry (e : TableEntry) : List Piece :=
  [styled .heading e.symbol, plain "\n",
    styled .dim "  token:      ", plain s!"{e.token}", plain "\n",
    styled .dim "  convention: ", conventionPiece e, plain "\n",
    styled .dim "  signature:  ", plain (signatureText e), plain "\n"]

end InternalCall.Inspector
