import InternalCall.Native.Basic
import InternalCall.Table.Error
import InternalCall.Table.Order

/-!
# The entry store

A store is built once from the records of a table and not changed afterwards.
Records are checked in their order, each by five rules; the first record that
breaks a rule, and of its rules the first, is the reason why there is no store.
Nothing is sorted: a table out of order is refused.
-/

namespace InternalCall

/-- A record of a table as it is handed over. -/
structure Record where
  /-- The token that call sites use. -/
  token : UInt32
  /-- The entry point, if there is one. -/
  native? : Option Native
  /-- The flag byte. -/
  flags : UInt8

/-- The record of a native that is there. -/
def Record.ofNative (token : UInt32) (native : Native) (convention : Convention) : Record :=
  ⟨token, some native, convention.flag⟩

/-- A checked entry of a table. -/
structure Entry where
  /-- The token that call sites use. -/
  token : UInt32
  /-- The entry point. -/
  native : Native
  /-- How the native is called. -/
  convention : Convention

/-- The record that the entry was made from. -/
def Entry.toRecord (e : Entry) : Record := .ofNative e.token e.native e.convention

/-- The entry that a record makes at its position, after the token before it. -/
def Record.check (index : Nat) (previous? : Option UInt32) (r : Record) :
    Except BuildError Entry := do
  if let some previous := notExceeded? previous? r.token then
    throw (.unsorted index previous r.token)
  let some native := r.native? | throw (.nullEntry index r.token)
  let some convention := Convention.ofFlag? r.flags | throw (.unknownFlag index r.token r.flags)
  if maxArity < native.arity then
    throw (.arityTooLarge index r.token native.arity maxArity)
  unless native.supports convention do
    throw (.conventionMismatch index r.token convention)
  return ⟨r.token, native, convention⟩

/-- The entries that the records make, where the first record stands at `index`. -/
def Record.checkAll (index : Nat) (previous? : Option UInt32) :
    List Record → Except BuildError (List Entry)
  | [] => return []
  | r :: rest => do
    let e ← r.check index previous?
    let es ← checkAll (index + 1) (some r.token) rest
    return e :: es

/-- A table that has been checked. -/
structure Store where
  /-- The entries, by ascending token. -/
  entries : Array Entry

namespace Store

/-- The store of the records, or the reason why they are no table. -/
def build (records : List Record) : Except BuildError Store := do
  return ⟨(← Record.checkAll 0 none records).toArray⟩

/-- The store of three sequences, whose elements at one position belong together. Sequences of
different lengths are refused before anything else is looked at. -/
def ofSequences (tokens : List UInt32) (natives : List (Option Native)) (flags : List UInt8) :
    Except BuildError Store :=
  if tokens.length = natives.length ∧ tokens.length = flags.length then
    build (((tokens.zip natives).zip flags).map fun ((token, native?), flags) =>
      ⟨token, native?, flags⟩)
  else throw (.lengthMismatch tokens.length natives.length flags.length)

/-- The number of entries. -/
def size (s : Store) : Nat := s.entries.size

/-- Whether there is no entry. -/
def isEmpty (s : Store) : Bool := s.entries.isEmpty

/-- The entry at the position. -/
def get? (s : Store) (index : Nat) : Option Entry := s.entries[index]?

/-- The tokens of the entries, in their order. -/
def tokens (s : Store) : List UInt32 := s.entries.toList.map Entry.token

/-- The number of entries that are called with the convention. -/
def countConvention (s : Store) (c : Convention) : Nat :=
  s.entries.toList.countP fun e => e.convention == c

/-- The store in listings. -/
def describe (s : Store) : String := s!"EntryStore \x7b count: {s.size} \x7d"

end Store

end InternalCall
