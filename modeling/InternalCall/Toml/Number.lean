import InternalCall.Toml.Item
import InternalCall.Toml.Quoted

/-!
# Numbers, dates and truth values

The values that are written without quotes and brackets. Digits may be grouped by
underscores, each of which stands between two digits. Dates follow the calendar.
-/

namespace InternalCall.Toml

open Reader

/-- Digits of the class, grouped by underscores. -/
def grouped (isDigit : Char → Bool) : Reader (List Char) := do
  let first ← charOf isDigit
  let rest ← many (charOf isDigit <|> do char '_'; charOf isDigit)
  return first :: rest

/-- A sign; it is true for a minus. -/
def sign : Reader Bool := (do char '-'; return true) <|> (do char '+'; return false)

/-- Decimal digits without a leading zero. -/
def decimalDigits : Reader (List Char) := do
  let digits ← grouped Char.isDigit
  guard (digits.head? != some '0' ∨ digits.length = 1)
  return digits

/-- The number that digits denote to a base. -/
def digitsValue (base : Nat) (digits : List Char) : Nat :=
  (digits.filterMap hexDigit?).foldl (fun n d => base * n + d) 0

/-- The integer, if 64 bits can hold it. -/
def integerItem (n : Int) : Reader Item := do
  guard (Int64.minValue.toInt ≤ n ∧ n ≤ Int64.maxValue.toInt)
  return .integer (Int64.ofInt n)

/-- An integer in the base that two characters announce. -/
def basedInteger (mark : List Char) (base : Nat) : Reader Item := do
  exactly mark
  let digits ← grouped fun c => (hexDigit? c).any (· < base)
  integerItem (digitsValue base digits)

/-- An integer. -/
def integer : Reader Item :=
  basedInteger ['0', 'x'] 16 <|> basedInteger ['0', 'o'] 8 <|> basedInteger ['0', 'b'] 2 <|> do
    let negative ← optional sign
    let n := digitsValue 10 (← decimalDigits)
    integerItem (if negative = some true then -n else n)

/-- The fraction of a number. -/
def fraction : Reader Unit := do
  char '.'
  discard (grouped Char.isDigit)

/-- The exponent of a number. -/
def exponent : Reader Unit := do
  char 'e' <|> char 'E'
  discard (optional sign)
  discard (grouped Char.isDigit)

/-- A number with a fraction or an exponent, an infinity or no number. -/
def float : Reader Item := do
  let text ← taken do
    discard (optional sign)
    exactly ['i', 'n', 'f'] <|> exactly ['n', 'a', 'n'] <|> do
      discard decimalDigits
      exponent <|> do
        fraction
        discard (optional exponent)
  return .float (String.ofList text)

/-- A number between the bounds, written with so many decimal digits. -/
def calendarNumber (digits low high : Nat) : Reader Nat := do
  let n := digitsValue 10 (← times (charOf Char.isDigit) digits)
  guard (low ≤ n ∧ n ≤ high)
  return n

/-- The number of days of a month. -/
def daysOfMonth (year month : Nat) : Nat :=
  if month = 2 then
    if year % 4 = 0 ∧ (year % 100 ≠ 0 ∨ year % 400 = 0) then 29 else 28
  else if month ∈ [4, 6, 9, 11] then 30
  else 31

/-- A day of the calendar. -/
def date : Reader Unit := do
  let year ← calendarNumber 4 0 9999
  char '-'
  let month ← calendarNumber 2 1 12
  char '-'
  discard (calendarNumber 2 1 (daysOfMonth year month))

/-- A time of day. -/
def timeOfDay : Reader Unit := do
  discard (calendarNumber 2 0 23)
  char ':'
  discard (calendarNumber 2 0 59)
  char ':'
  discard (calendarNumber 2 0 60)
  discard (optional do char '.'; someRun Char.isDigit)

/-- The distance of a time of day from the zero meridian. -/
def timeOffset : Reader Unit :=
  discard (charOf fun c => c == 'Z' || c == 'z') <|> do
    discard sign
    discard (calendarNumber 2 0 23)
    char ':'
    discard (calendarNumber 2 0 59)

/-- A day, a time of day, or both with or without the distance from the zero meridian. -/
def dateTime : Reader Item := do
  let text ← taken do
    timeOfDay <|> do
      date
      discard (optional do
        discard (charOf fun c => c == 'T' || c == 't' || c == ' ')
        timeOfDay
        optional timeOffset)
  return .dateTime (String.ofList text)

/-- A truth value. -/
def boolean : Reader Item :=
  (do exactly ['t', 'r', 'u', 'e']; return .boolean true) <|>
    (do exactly ['f', 'a', 'l', 's', 'e']; return .boolean false)

/-- A value that is written without quotes and brackets. -/
def bareValue : Reader Item := dateTime <|> float <|> integer <|> boolean

end InternalCall.Toml
