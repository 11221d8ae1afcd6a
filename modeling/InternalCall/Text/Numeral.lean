/-!
# Numerals

Decimal numerals of fixed-width unsigned numbers, written with ASCII digits, and
the two-digit hexadecimal form in which messages show a flag byte.
-/

namespace InternalCall.Text

/-- The value of an ASCII decimal digit. -/
def digit? (c : Char) : Option Nat :=
  if c.isDigit then some (c.toNat - '0'.toNat) else none

/-- The number that a non-empty run of ASCII digits denotes; leading zeros are allowed. -/
def decimal? (text : List Char) : Option Nat :=
  if text.isEmpty then none
  else text.foldl (fun n? c => do return 10 * (← n?) + (← digit? c)) (some 0)

/-- The number below `bound` that the digits denote. -/
def decimalBelow? (bound : Nat) (text : List Char) : Option Nat :=
  match decimal? text with
  | some n => if n < bound then some n else none
  | none => none

/-- The 32-bit number that the digits denote. -/
def uint32? (text : List Char) : Option UInt32 :=
  (decimalBelow? UInt32.size text).map UInt32.ofNat

/-- The 8-bit number that the digits denote. -/
def uint8? (text : List Char) : Option UInt8 :=
  (decimalBelow? UInt8.size text).map UInt8.ofNat

/-- The lower-case hexadecimal digit of a number below sixteen. -/
def hexDigit (n : Nat) : Char :=
  if n < 10 then Char.ofNat ('0'.toNat + n) else Char.ofNat ('a'.toNat + (n - 10))

/-- A byte as `0x` and two hexadecimal digits. -/
def hexByte (b : UInt8) : String :=
  String.ofList ['0', 'x', hexDigit (b.toNat / 16), hexDigit (b.toNat % 16)]

example : hexByte 9 = "0x09" := by decide

end InternalCall.Text
