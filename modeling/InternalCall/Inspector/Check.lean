import InternalCall.Inspector.Error
import InternalCall.Inspector.Style

/-!
# Checking a header

Every table of a header is validated and reported on, also after one has failed.
The check fails if there is no table at all or if any of them fails.
-/

namespace InternalCall.Inspector

/-- The number of tables that are not valid. -/
def countInvalid (h : Header) : Nat := h.tables.countP fun t => !t.validate.isOk

/-- The line about a table. -/
def verdict (t : AssemblyTable) : List Piece :=
  match t.validate with
  | .ok () => [styled .success "  ok   ", plain s!"{t.name} ({t.size} entries)", plain "\n"]
  | .error e => [styled .failure "  FAIL ", plain s!"{t.name}: {e.message}", plain "\n"]

/-- The lines about the tables of a header. -/
def verdicts (h : Header) : List Piece := h.tables.flatMap verdict

/-- The failure of the check of a header, if it fails. -/
def checkFailure? (path : String) (h : Header) : Option InspectionError :=
  if h.tables.isEmpty then some (.noTables path)
  else if countInvalid h = 0 then none
  else some (.invalidTables (countInvalid h) h.tables.length)

end InternalCall.Inspector
