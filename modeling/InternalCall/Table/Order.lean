/-!
# The order of tokens

The tokens of a table ascend strictly. A list of tokens that does not has a
first position whose token fails to exceed the one before it.
-/

namespace InternalCall

/-- A position at which tokens stop ascending. -/
structure Disorder where
  /-- The position of the later token. -/
  index : Nat
  /-- The token before it. -/
  previous : UInt32
  /-- The token that fails to exceed it. -/
  token : UInt32
deriving DecidableEq, Repr

/-- The previous token, if there is one and the token fails to exceed it. -/
def notExceeded? (previous? : Option UInt32) (token : UInt32) : Option UInt32 :=
  previous?.filter fun previous => token ≤ previous

/-- The first position at which the tokens stop ascending, counted from `index` on. -/
def firstDisorderFrom? (index : Nat) (previous? : Option UInt32) : List UInt32 → Option Disorder
  | [] => none
  | token :: rest =>
    match notExceeded? previous? token with
    | some previous => some ⟨index, previous, token⟩
    | none => firstDisorderFrom? (index + 1) (some token) rest

/-- The first position at which the tokens stop ascending. -/
def firstDisorder? (tokens : List UInt32) : Option Disorder := firstDisorderFrom? 0 none tokens

end InternalCall
