import InternalCall.Header.Basic

/-!
# Writing a header

The layout in which a header is written: for each table its declaration, the
array of tokens, a prototype for each entry that has one, the array of symbols
with a comment before each that repeats its token, and the array of flag bytes.
Items stand on lines of their own, each followed by a comma.
-/

namespace InternalCall

namespace TableEntry

/-- The line of the entry in the array of tokens. -/
def indexLine (e : TableEntry) : String := s!"{e.token},"

/-- The prototype of the entry. -/
def prototypeLine? (e : TableEntry) : Option String :=
  e.signature?.map fun s =>
    s.ret.cName ++ " " ++ e.symbol ++ " (" ++ Signature.paramText s.params ++ ");"

/-- The lines of the entry in the array of symbols. -/
def funcLines (e : TableEntry) : List String := [s!"// token {e.token},", e.symbol ++ ","]

/-- The line of the entry in the array of flag bytes. -/
def flagLine (e : TableEntry) : String := s!"{e.flags},"

end TableEntry

/-- The lines of a table. -/
def AssemblyTable.lines (t : AssemblyTable) : List String :=
  let entries := t.entries.toList
  ["#define ICALL_TABLE_" ++ t.name ++ " 1", "",
    "static int " ++ t.name ++ "_icall_indexes [] = \x7b"] ++
  entries.map TableEntry.indexLine ++ ["\x7d;"] ++
  entries.filterMap TableEntry.prototypeLine? ++
  ["static void *" ++ t.name ++ "_icall_funcs [] = \x7b"] ++
  entries.flatMap TableEntry.funcLines ++ ["\x7d;"] ++
  ["static uint8_t " ++ t.name ++ "_icall_flags [] = \x7b"] ++
  entries.map TableEntry.flagLine ++ ["\x7d;"]

/-- The text of a header. -/
def Header.render (h : Header) : String :=
  String.join ((h.tables.flatMap AssemblyTable.lines).map (· ++ "\n"))

end InternalCall
