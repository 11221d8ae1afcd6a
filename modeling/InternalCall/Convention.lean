/-!
# Calling conventions

A table entry carries a flag byte that selects how its native is called. Only
two bytes select a convention.
-/

namespace InternalCall

/-- How a native is called. -/
inductive Convention where
  /-- Inside a handle frame; managed values may cross and managed errors come back. -/
  | wrapped
  /-- Directly; only scalars cross and no managed error can arise. -/
  | raw
deriving DecidableEq, Repr, Inhabited

namespace Convention

/-- The flag byte that selects the convention. -/
def flag : Convention → UInt8
  | wrapped => 0
  | raw => 4

/-- The convention that a flag byte selects. -/
def ofFlag? (b : UInt8) : Option Convention :=
  if b = 0 then some wrapped else if b = 4 then some raw else none

/-- A convention's flag byte selects the convention. -/
@[simp] theorem ofFlag?_flag (c : Convention) : ofFlag? c.flag = some c := by
  cases c <;> decide

/-- No byte but the convention's own selects it. -/
theorem ofFlag?_eq_some_iff {b : UInt8} {c : Convention} : ofFlag? b = some c ↔ b = c.flag := by
  constructor
  · intro h
    unfold ofFlag? at h
    split at h
    · cases h; assumption
    · split at h
      · cases h; assumption
      · cases h
  · rintro rfl
    exact ofFlag?_flag c

/-- A byte that is neither of the two flag bytes selects nothing. -/
theorem ofFlag?_eq_none_iff {b : UInt8} : ofFlag? b = none ↔ b ≠ 0 ∧ b ≠ 4 := by
  unfold ofFlag?
  split
  next h => simp [h]
  next h =>
    split
    next h' => simp [h']
    next h' => simp [h, h']

/-- The name of the convention in reports and messages. -/
def text : Convention → String
  | wrapped => "wrapped"
  | raw => "raw"

end Convention

end InternalCall
