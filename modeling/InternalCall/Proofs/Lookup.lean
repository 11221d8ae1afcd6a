/-!
# Association lists

What is looked up under a key depends only on the pairs that have the key, and on
their order. From the back, the last of them is found.
-/

namespace InternalCall

variable {α β : Type} [BEq α] [LawfulBEq α] {key : α} {pairs : List (α × β)}

/-- Leaving out pairs of other keys does not change what is found. -/
theorem lookup_filter (keep : α → Bool) (kept : keep key = true) (pairs : List (α × β)) :
    (pairs.filter fun pair => keep pair.1).lookup key = pairs.lookup key := by
  induction pairs with
  | nil => rfl
  | cons pair rest ih =>
      obtain ⟨other, value⟩ := pair
      by_cases same : key = other
      · rw [List.filter_cons_of_pos (same ▸ kept), List.lookup_cons, List.lookup_cons,
          beq_iff_eq.mpr same]
      · have differs : (key == other) = false := beq_eq_false_iff_ne.mpr same
        cases h : keep other <;> simp [List.lookup_cons, h, differs, ih]

/-- A key that is given one value only, wherever it is given, is found with this value. -/
theorem lookup_eq_of_only {value? : Option β}
    (only : ∀ pair ∈ pairs, pair.1 = key → some pair.2 = value?)
    (given : ∀ value, value? = some value → (key, value) ∈ pairs) :
    pairs.lookup key = value? := by
  cases found : pairs.lookup key with
  | none =>
      cases value? with
      | none => rfl
      | some value =>
          have absent := List.lookup_eq_none_iff.mp found _ (given value rfl)
          simp at absent
  | some value =>
      obtain ⟨before, after, rfl, -⟩ := List.lookup_eq_some_iff.mp found
      exact only (key, value) (List.mem_append_right before List.mem_cons_self) rfl

/-- From the back, a pair is found if no pair after it has its key. -/
theorem lookup_reverse_eq_some_iff {value : β} :
    pairs.reverse.lookup key = some value ↔ ∃ before after,
      pairs = before ++ (key, value) :: after ∧ ∀ pair ∈ after, pair.1 ≠ key := by
  rw [List.lookup_eq_some_iff]
  constructor
  · rintro ⟨later, earlier, happ, hlater⟩
    refine ⟨earlier.reverse, later.reverse, ?_, fun pair hpair => ?_⟩
    · rw [← List.reverse_reverse pairs, happ, List.reverse_append, List.reverse_cons,
        List.append_assoc, List.singleton_append]
    · exact (bne_iff_ne.mp (hlater pair (List.mem_reverse.mp hpair))).symm
  · rintro ⟨before, after, rfl, hafter⟩
    refine ⟨after.reverse, before.reverse, ?_, fun pair hpair => ?_⟩
    · rw [List.reverse_append, List.reverse_cons, List.append_assoc, List.singleton_append]
    · exact bne_iff_ne.mpr (hafter pair (List.mem_reverse.mp hpair)).symm

end InternalCall
