import InternalCall.Proofs.Text.Runs
import InternalCall.Text.Numeral

/-!
# What numerals denote

A numeral is a non-empty run of ASCII digits, and it denotes its positional
value. Reading a fixed-width number gives the number that the numeral denotes,
and fails exactly when there is none; the printed form of a number denotes it.
-/

namespace InternalCall.Text

/-- The text is a decimal numeral for the number. -/
def Denotes (text : List Char) (n : Nat) : Prop :=
  (text ≠ [] ∧ ∀ c ∈ text, c.isDigit = true) ∧ Nat.ofDigitChars 10 text 0 = n

/-- The step by which a numeral is read. -/
private def addDigit (n? : Option Nat) (c : Char) : Option Nat := do
  return 10 * (← n?) + (← digit? c)

private theorem foldl_addDigit_none (text : List Char) : text.foldl addDigit none = none := by
  induction text with
  | nil => rfl
  | cons c text ih => exact ih

private theorem foldl_addDigit_eq_some_iff {text : List Char} {m n : Nat} :
    text.foldl addDigit (some m) = some n ↔
      (∀ c ∈ text, c.isDigit = true) ∧ Nat.ofDigitChars 10 text m = n := by
  induction text generalizing m with
  | nil => simp
  | cons c text ih =>
      rw [List.foldl_cons, Nat.ofDigitChars_cons, List.forall_mem_cons]
      cases hc : c.isDigit with
      | true =>
          have hs : addDigit (some m) c = some (10 * m + (c.toNat - '0'.toNat)) := by
            simp [addDigit, digit?, hc]
          rw [hs, ih]
          simp
      | false =>
          have hs : addDigit (some m) c = none := by simp [addDigit, digit?, hc]
          rw [hs, foldl_addDigit_none]
          simp

/-- Reading succeeds exactly on numerals, with the number denoted. -/
theorem decimal?_eq_some_iff {text : List Char} {n : Nat} :
    decimal? text = some n ↔ Denotes text n := by
  cases text with
  | nil => simp [decimal?, Denotes]
  | cons c text =>
      change (c :: text).foldl addDigit (some 0) = some n ↔ _
      rw [foldl_addDigit_eq_some_iff, Denotes, and_assoc]
      exact (and_iff_right (List.cons_ne_nil c text)).symm

theorem decimalBelow?_eq_some_iff {bound n : Nat} {text : List Char} :
    decimalBelow? bound text = some n ↔ Denotes text n ∧ n < bound := by
  rw [decimalBelow?, ← decimal?_eq_some_iff]
  cases decimal? text with
  | none => simp
  | some m =>
      simp only [Option.some.injEq, Option.ite_none_right_eq_some]
      constructor
      · rintro ⟨hm, rfl⟩
        exact ⟨rfl, hm⟩
      · rintro ⟨rfl, hm⟩
        exact ⟨hm, rfl⟩

/-- A text reads as a 32-bit number exactly when it is a numeral for it. -/
theorem uint32?_eq_some_iff {text : List Char} {n : UInt32} :
    uint32? text = some n ↔ Denotes text n.toNat := by
  rw [uint32?, Option.map_eq_some_iff]
  constructor
  · rintro ⟨m, hm, rfl⟩
    obtain ⟨hd, hlt⟩ := decimalBelow?_eq_some_iff.mp hm
    rwa [UInt32.toNat_ofNat_of_lt' hlt]
  · intro hd
    exact ⟨n.toNat, decimalBelow?_eq_some_iff.mpr ⟨hd, n.toNat_lt⟩, UInt32.ofNat_toNat⟩

/-- A text reads as an 8-bit number exactly when it is a numeral for it. -/
theorem uint8?_eq_some_iff {text : List Char} {n : UInt8} :
    uint8? text = some n ↔ Denotes text n.toNat := by
  rw [uint8?, Option.map_eq_some_iff]
  constructor
  · rintro ⟨m, hm, rfl⟩
    obtain ⟨hd, hlt⟩ := decimalBelow?_eq_some_iff.mp hm
    rwa [UInt8.toNat_ofNat_of_lt' hlt]
  · intro hd
    exact ⟨n.toNat, decimalBelow?_eq_some_iff.mpr ⟨hd, n.toNat_lt⟩, UInt8.ofNat_toNat⟩

/-- The printed form of a number is a numeral for it. -/
theorem denotes_toDigits (n : Nat) : Denotes (Nat.toDigits 10 n) n := by
  refine ⟨⟨Nat.toDigits_ne_nil, ?_⟩, Nat.ofDigitChars_ten_toDigits⟩
  intro c hc
  exact Nat.isDigit_of_mem_toDigits (by decide) (by decide) hc

theorem isWord_of_isDigit {c : Char} (h : c.isDigit = true) : isWord c = true := by
  have hlt : c.toNat < 0x80 := Nat.lt_of_le_of_lt (Char.isDigit_iff_toNat.mp h).2 (by decide)
  rw [isWord, if_pos hlt, Char.isAlphanum, h, Bool.or_true, Bool.true_or]

/-- A numeral can stand where a name can. -/
theorem Denotes.word {text : List Char} {n : Nat} (h : Denotes text n) : Word text :=
  ⟨h.1.1, fun c hc => isWord_of_isDigit (h.1.2 c hc)⟩

end InternalCall.Text
