import InternalCall.Catalog
import InternalCall.Header.Basic
import InternalCall.Registry.Basic

/-!
# Linking a table

Linking replaces the symbols of a table by the natives registered under them. A
native whose shape disagrees with the declared prototype is refused; order and
flags are left to the store. After linking only tokens count.
-/

namespace InternalCall

/-- Why a table cannot be linked. -/
inductive LinkError where
  /-- No native is registered under the symbol. -/
  | unknownSymbol (token : UInt32) (symbol : String)
  /-- The registered native disagrees with the declared prototype. -/
  | signatureMismatch (token : UInt32) (symbol : String) (declared registered : Signature)
  /-- The linked records are no table. -/
  | build (e : BuildError)
deriving DecidableEq, Repr

/-- The error in words. -/
def LinkError.message : LinkError → String
  | unknownSymbol token symbol => s!"Unknown native symbol for token {token}: {symbol}"
  | signatureMismatch token symbol declared registered =>
    s!"Native `{symbol}` (token {token}) is registered as {registered.text}, table declares {declared.text}"
  | build e => e.message

/-- Whether a slot declared as one kind may be registered as another. Prototypes spell addresses as
native integers, so a slot declared as such also takes an address. -/
def ScalarKind.accepts (declared registered : ScalarKind) : Bool :=
  declared == registered || declared == .int && registered == .handle

/-- Whether a return slot declared as one kind may be registered as another. -/
def ReturnKind.accepts : ReturnKind → ReturnKind → Bool
  | void, void => true
  | scalar declared, scalar registered => declared.accepts registered
  | _, _ => false

/-- Whether a declared prototype may be registered with the other signature. -/
def Signature.accepts (declared registered : Signature) : Bool :=
  declared.ret.accepts registered.ret && declared.arity == registered.arity &&
    (declared.params.zip registered.params).all fun (d, r) => d.accepts r

/-- The record of the entry, with the native registered under its symbol. A managed native has no
signature to compare. -/
def TableEntry.link (e : TableEntry) (catalog : Catalog) : Except LinkError Record := do
  let some native := catalog.get? e.symbol | throw (.unknownSymbol e.token e.symbol)
  if let (some declared, some registered) := (e.signature?, native.signature?) then
    unless declared.accepts registered do
      throw (.signatureMismatch e.token e.symbol declared registered)
  return ⟨e.token, some native, e.flags⟩

/-- The records of the table, or the error of the first entry that cannot be linked. -/
def AssemblyTable.link (t : AssemblyTable) (catalog : Catalog) : Except LinkError (List Record) :=
  t.entries.toList.mapM (·.link catalog)

namespace Registry

/-- The registry of a linked table. -/
def ofTable (t : AssemblyTable) (catalog : Catalog) (settings : Settings) :
    Except LinkError Registry := do
  let records ← t.link catalog
  (build records settings).mapError .build

/-- The line that reports a table that was linked. -/
def linkLine (t : AssemblyTable) (records : List Record) : String :=
  s!"linked icall table `{t.name}` ({records.length} entries)"

/-- Links a table and builds its registry, logging both. -/
def loadTable {σ : Type} (t : AssemblyTable) (catalog : Catalog) (settings : Settings) :
    Exec σ (Except LinkError Registry) := do
  match t.link catalog with
  | .error e => return .error e
  | .ok records =>
    Exec.log .debug (linkLine t records)
    return (← load records settings).mapError .build

end Registry

end InternalCall
