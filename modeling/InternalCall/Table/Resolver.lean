import InternalCall.Run.Basic
import InternalCall.Table.Search
import InternalCall.Table.Store

/-!
# Resolving tokens

A token names the one entry that has it, and a token that no entry has is
reported and never replaced. At a live call site there is nobody to report a
miss to, so it is escalated.
-/

namespace InternalCall

/-- A view of a store through the tokens of its entries. -/
structure Resolver where
  /-- The store that is searched. -/
  store : Store
  /-- What a miss at a live call site does to the process. -/
  onMiss : FatalAction

namespace Resolver

/-- The number of tokens that can be resolved. -/
def size (r : Resolver) : Nat := r.store.size

/-- Whether no token can be resolved. -/
def isEmpty (r : Resolver) : Bool := r.store.isEmpty

/-- The entry that has the token. -/
def resolve (r : Resolver) (token : UInt32) : Except NotFound Entry :=
  match searchByToken Entry.token r.store.entries token with
  | some e => .ok e
  | none => .error ⟨token⟩

/-- Whether an entry has the token. -/
def contains (r : Resolver) (token : UInt32) : Bool := (r.resolve token).isOk

/-- The entries that have the tokens, in the order of the tokens. The first token without an entry
is reported. -/
def link (r : Resolver) (tokens : List UInt32) : Except NotFound (List Entry) :=
  tokens.mapM r.resolve

/-- The entry for a live call site. A miss is fatal. -/
def resolveCallSite {σ : Type} (r : Resolver) (token : UInt32) : Exec σ Entry :=
  match r.resolve token with
  | .ok e => return e
  | .error miss => (FatalError.notFound miss).escalate r.onMiss

end Resolver

end InternalCall
