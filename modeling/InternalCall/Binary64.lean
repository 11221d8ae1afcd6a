/-!
# Double-precision numbers

A double is carried through a call as its 64 bits and never computed with. The
only question ever asked of two of them is whether they are numerically equal,
which the bits decide: a NaN equals nothing, and the two zeros equal each other.
-/

namespace InternalCall

/-- A double-precision number in the binary64 interchange format. -/
structure Binary64 where
  /-- The sign, exponent and fraction, most significant bit first. -/
  bits : UInt64
deriving DecidableEq, Repr, Inhabited

namespace Binary64

/-- The bits without the sign. -/
def magnitude (x : Binary64) : UInt64 := x.bits &&& 0x7FFFFFFFFFFFFFFF

/-- Whether the bits are a NaN: the exponent is all ones and the fraction is not zero. -/
def isNaN (x : Binary64) : Bool := 0x7FF0000000000000 < x.magnitude

/-- Numerical equality. -/
def numEq (x y : Binary64) : Bool :=
  !x.isNaN && !y.isNaN && (x.bits == y.bits || x.magnitude == 0 && y.magnitude == 0)

end Binary64

end InternalCall
