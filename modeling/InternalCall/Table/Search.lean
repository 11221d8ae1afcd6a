/-!
# Search by token

Entries in ascending order of their tokens are searched by halving the range in
which the token can still stand.
-/

namespace InternalCall

variable {α : Type}

/-- The element whose key is the token, among those at positions from `lo` up to, but not
including, `hi`. -/
def searchBetween (key : α → UInt32) (xs : Array α) (token : UInt32) (lo hi : Nat)
    (bound : hi ≤ xs.size) : Option α :=
  if h : lo < hi then
    let middle := lo + (hi - lo) / 2
    have inside : middle < xs.size := by omega
    let x := xs[middle]
    if key x = token then some x
    else if key x < token then searchBetween key xs token (middle + 1) hi bound
    else searchBetween key xs token lo middle (by omega)
  else none
termination_by hi - lo

/-- The element whose key is the token. The keys must ascend strictly. -/
def searchByToken (key : α → UInt32) (xs : Array α) (token : UInt32) : Option α :=
  searchBetween key xs token 0 xs.size (Nat.le_refl _)

end InternalCall
