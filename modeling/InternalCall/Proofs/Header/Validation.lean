import InternalCall.Header.Basic
import InternalCall.Proofs.Table.Search

/-!
# Validated tables

A table is valid exactly when its tokens ascend and every flag byte selects a
convention. The unknown flag byte that validation reports is the first. A valid
table can be searched by halving.
-/

namespace InternalCall.AssemblyTable

/-- There is no unknown flag byte exactly when each entry's byte selects a convention. -/
theorem firstUnknownFlag?_eq_none_iff {entries : List TableEntry} {index : Nat} :
    firstUnknownFlag? index entries = none ↔ ∀ e ∈ entries, e.convention? ≠ none := by
  induction entries generalizing index with
  | nil => simp [firstUnknownFlag?]
  | cons e rest ih =>
      rw [List.forall_mem_cons]
      cases h : e.convention? with
      | none => simp [firstUnknownFlag?, h]
      | some c => simp only [firstUnknownFlag?, h, ih, ne_eq, reduceCtorEq, not_false_eq_true,
          true_and]

/-- The unknown flag byte that is found is the first. -/
theorem firstUnknownFlag?_eq_some_iff {entries : List TableEntry} {index : Nat}
    {err : BuildError} :
    firstUnknownFlag? index entries = some err ↔ ∃ i e, entries[i]? = some e ∧
      e.convention? = none ∧ (∀ j f, entries[j]? = some f → f.convention? = none → i ≤ j) ∧
        err = .unknownFlag (index + i) e.token e.flags := by
  induction entries generalizing index with
  | nil => simp [firstUnknownFlag?]
  | cons first rest ih =>
      cases hc : first.convention? with
      | none =>
          rw [firstUnknownFlag?, hc]
          constructor
          · rintro ⟨⟩
            exact ⟨0, first, rfl, hc, fun j _ _ _ => Nat.zero_le j, rfl⟩
          · rintro ⟨i, e, he, -, least, rfl⟩
            cases Nat.le_zero.mp (least 0 first rfl hc)
            cases he
            rfl
      | some c =>
          simp only [firstUnknownFlag?, hc, ih]
          constructor
          · rintro ⟨i, e, he, hunknown, least, rfl⟩
            refine ⟨i + 1, e, he, hunknown, fun j f hf hf' => ?_, by
              rw [Nat.add_assoc, Nat.add_comm 1 i]⟩
            cases j with
            | zero =>
                cases hf
                rw [hc] at hf'
                cases hf'
            | succ j => exact Nat.succ_le_succ (least j f hf hf')
          · rintro ⟨i, e, he, hunknown, least, rfl⟩
            cases i with
            | zero =>
                cases he
                rw [hc] at hunknown
                cases hunknown
            | succ i =>
                refine ⟨i, e, he, hunknown, fun j f hf hf' => ?_, by
                  rw [Nat.add_assoc, Nat.add_comm 1 i]⟩
                exact Nat.le_of_succ_le_succ (least (j + 1) f hf hf')

/-- A table is valid exactly when its tokens ascend and each flag byte selects a convention. -/
theorem validate_eq_ok_iff {t : AssemblyTable} :
    t.validate = .ok () ↔
      Ascending (t.entries.toList.map TableEntry.token) ∧
        ∀ e ∈ t.entries.toList, e.convention? ≠ none := by
  have hflags := @firstUnknownFlag?_eq_none_iff t.entries.toList 0
  rw [← firstDisorder?_eq_none_iff, ← hflags, validate]
  cases firstDisorder? (t.entries.toList.map TableEntry.token) with
  | some d => simp
  | none => cases firstUnknownFlag? 0 t.entries.toList <;> simp

end InternalCall.AssemblyTable
