import InternalCall.Convention
import InternalCall.Signature
import InternalCall.Table.Error
import InternalCall.Table.Order
import InternalCall.Table.Search

/-!
# Headers

The tool that assigns tokens writes a header with one table for each assembly.
Read back, a header is a list of tables, and a table is a list of entries that
name their natives by symbol. A table can be validated and searched without the
natives it names.
-/

namespace InternalCall

/-- An entry of a table, before its symbol is linked. -/
structure TableEntry where
  /-- The assigned token. -/
  token : UInt32
  /-- The symbol of the native. -/
  symbol : String
  /-- The declared prototype of the symbol, if there is one. -/
  signature? : Option Signature
  /-- The flag byte. -/
  flags : UInt8
deriving DecidableEq, Repr, Inhabited

/-- The convention that the flag byte selects. -/
def TableEntry.convention? (e : TableEntry) : Option Convention := Convention.ofFlag? e.flags

/-- The table of one assembly. -/
structure AssemblyTable where
  /-- The name of the assembly. -/
  name : String
  /-- The entries in their written order. -/
  entries : Array TableEntry
deriving DecidableEq, Repr, Inhabited

namespace AssemblyTable

/-- The number of entries. -/
def size (t : AssemblyTable) : Nat := t.entries.size

/-- Whether there is no entry. -/
def isEmpty (t : AssemblyTable) : Bool := t.entries.isEmpty

/-- The first entry, counted from `index` on, whose flag byte selects no convention. -/
def firstUnknownFlag? (index : Nat) : List TableEntry → Option BuildError
  | [] => none
  | e :: rest =>
    match e.convention? with
    | none => some (.unknownFlag index e.token e.flags)
    | some _ => firstUnknownFlag? (index + 1) rest

/-- The rules on order and flags that a store would apply. The order of the whole table is looked
at before any flag. -/
def validate (t : AssemblyTable) : Except BuildError Unit :=
  match firstDisorder? (t.entries.toList.map TableEntry.token) with
  | some d => .error (.unsorted d.index d.previous d.token)
  | none =>
    match firstUnknownFlag? 0 t.entries.toList with
    | some e => .error e
    | none => .ok ()

/-- The entry that has the token. The table must be in order. -/
def lookup? (t : AssemblyTable) (token : UInt32) : Option TableEntry :=
  searchByToken TableEntry.token t.entries token

end AssemblyTable

/-- The tables of a header. -/
structure Header where
  /-- The tables, in the order in which their assemblies are first mentioned. -/
  tables : List AssemblyTable
deriving DecidableEq, Repr, Inhabited

namespace Header

/-- The table of the assembly. -/
def table? (h : Header) (assembly : String) : Option AssemblyTable :=
  h.tables.find? fun t => t.name == assembly

/-- The number of entries in all tables. -/
def entryCount (h : Header) : Nat := h.tables.foldr (fun t n => t.size + n) 0

end Header

end InternalCall
