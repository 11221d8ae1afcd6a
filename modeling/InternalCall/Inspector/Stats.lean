import InternalCall.Header.Summary
import InternalCall.Inspector.Style

/-!
# Statistics of a header

The summary of each table, and the totals over all tables. Counts of zero are
shown for the two conventions only.
-/

namespace InternalCall.Inspector

/-- The classes in the order in which they are listed. -/
def listedClasses : List SignatureClass := [.allInteger, .mixed, .returnsHandle, .managed]

/-- A text filled up with spaces to the width. -/
def padded (width : Nat) (text : String) : String :=
  text ++ String.ofList (List.replicate (width - text.length) ' ')

/-- The line of a count that is shown only if it is not zero. -/
def countLine (label : String) (n : Nat) : List Piece :=
  if n = 0 then []
  else [styled .dim ("  " ++ padded 14 (label ++ ":")), plain s!"{n}\n"]

/-- The lines of a summary. -/
def describeSummary (s : TableSummary) : List Piece :=
  [plain s!"  wrapped:      {s.wrapped}\n", plain s!"  raw:          {s.raw}\n"] ++
  (if s.unknownFlags = 0 then [] else [styled .warning s!"  unknown flag: {s.unknownFlags}\n"]) ++
  listedClasses.flatMap (fun c => countLine c.text (s.declared c)) ++
  countLine "undeclared" s.undeclared

/-- The lines of a table. -/
def describeTable (t : AssemblyTable) : List Piece :=
  [styled .heading t.name, plain s!" ({t.size} entries)", plain "\n"] ++ describeSummary t.summary

/-- The statistics of a header. -/
def describeHeader (h : Header) : List Piece :=
  h.tables.flatMap describeTable ++
  [plain s!"\n{h.tables.length} tables, {h.entryCount} entries\n"]

end InternalCall.Inspector
