import InternalCall.Header.Basic

/-!
# Summaries of tables

A summary counts the entries of a table twice over: by the convention that their
flag byte selects, and by the class of their declared signature. Entries whose
flag byte selects nothing, or that declare no signature, are counted apart.
-/

namespace InternalCall

/-- The counts of a table's entries. -/
structure TableSummary where
  /-- The entries that are called wrapped. -/
  wrapped : Nat := 0
  /-- The entries that are called raw. -/
  raw : Nat := 0
  /-- The entries whose flag byte selects no convention. -/
  unknownFlags : Nat := 0
  /-- The entries that declare a signature of the class. -/
  declared : SignatureClass → Nat := fun _ => 0
  /-- The entries that declare no signature. -/
  undeclared : Nat := 0

namespace TableSummary

/-- Counts one more entry by its convention. -/
def addConvention (s : TableSummary) : Option Convention → TableSummary
  | some .wrapped => { s with wrapped := s.wrapped + 1 }
  | some .raw => { s with raw := s.raw + 1 }
  | none => { s with unknownFlags := s.unknownFlags + 1 }

/-- Counts one more entry by its signature. -/
def addSignature (s : TableSummary) : Option Signature → TableSummary
  | some g => { s with
      declared := fun c => if c = g.classOf then s.declared c + 1 else s.declared c }
  | none => { s with undeclared := s.undeclared + 1 }

/-- Counts one more entry. -/
def add (s : TableSummary) (e : TableEntry) : TableSummary :=
  (s.addConvention e.convention?).addSignature e.signature?

end TableSummary

/-- The counts of the table's entries. -/
def AssemblyTable.summary (t : AssemblyTable) : TableSummary :=
  t.entries.foldl TableSummary.add {}

end InternalCall
