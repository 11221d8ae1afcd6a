import InternalCall.Proofs.Table.Store

/-!
# Where building a store fails

Building fails at the first record that breaks a rule, with the error of that
record's check at its position, after the token before it. The records in front
of it make a store of their own.
-/

namespace InternalCall

/-- Records are refused exactly at the first that fails its check, after those that pass theirs. -/
theorem Record.checkAll_eq_error_iff {records : List Record} {index : Nat}
    {previous? : Option UInt32} {err : BuildError} :
    Record.checkAll index previous? records = .error err ↔
      ∃ before r after, records = before ++ r :: after ∧
        (∃ entries, Record.checkAll index previous? before = .ok entries) ∧
        r.check (index + before.length)
          (previous?.toList ++ before.map Record.token).getLast? = .error err := by
  induction records generalizing index previous? with
  | nil => simp [Record.checkAll, pure, Except.pure]
  | cons r rest ih =>
      have hlast : previous?.toList.getLast? = previous? := by cases previous? <;> rfl
      have hgo : ∀ before : List Record,
          (previous?.toList ++ (r :: before).map Record.token).getLast? =
            ((some r.token).toList ++ before.map Record.token).getLast? := by
        intro before
        rw [List.map_cons, List.getLast?_append_cons]
        rfl
      simp only [Record.checkAll, bind_eq_error_iff, ih]
      constructor
      · rintro (hr | ⟨e, hr, ⟨before, r', after, rfl, ⟨entries, hbefore⟩, hr'⟩ | ⟨es, -, h⟩⟩)
        · exact ⟨[], r, rest, rfl, ⟨[], rfl⟩, by simpa [hlast] using hr⟩
        · refine ⟨r :: before, r', after, rfl, ⟨e :: entries, ?_⟩, ?_⟩
          · simp only [Record.checkAll, bind_eq_ok_iff]
            exact ⟨e, hr, entries, hbefore, rfl⟩
          · rw [hgo, List.length_cons, Nat.add_comm before.length, ← Nat.add_assoc]
            exact hr'
        · cases h
      · rintro ⟨before, r', after, happ, ⟨entries, hbefore⟩, hr'⟩
        cases before with
        | nil =>
            cases happ
            exact Or.inl (by simpa [hlast] using hr')
        | cons first before =>
            cases happ
            simp only [Record.checkAll, bind_eq_ok_iff] at hbefore
            obtain ⟨e, hr, es, hbefore, -⟩ := hbefore
            rw [hgo, List.length_cons, Nat.add_comm before.length, ← Nat.add_assoc] at hr'
            exact Or.inr ⟨e, hr, Or.inl ⟨before, r', after, rfl, ⟨es, hbefore⟩, hr'⟩⟩

/-- Building a store fails exactly at the first record that fails its check; those before it make a
store. -/
theorem Store.build_eq_error_iff {records : List Record} {err : BuildError} :
    Store.build records = .error err ↔
      ∃ before r after, records = before ++ r :: after ∧
        (∃ store, Store.build before = .ok store) ∧
        r.check before.length (before.map Record.token).getLast? = .error err := by
  have hbuild : ∀ records : List Record, (∃ store, Store.build records = .ok store) ↔
      ∃ entries, Record.checkAll 0 none records = .ok entries := by
    intro records
    rw [Store.build]
    cases Record.checkAll 0 none records <;> simp [bind, Except.bind, pure, Except.pure]
  have herror : Store.build records = .error err ↔ Record.checkAll 0 none records = .error err := by
    rw [Store.build]
    cases Record.checkAll 0 none records <;> simp [bind, Except.bind, pure, Except.pure]
  simp only [herror, Record.checkAll_eq_error_iff, hbuild, Nat.zero_add, Option.toList_none,
    List.nil_append]

/-- Only a token that fails to exceed the one before it is out of order. -/
theorem Record.notExceeded?_of_unsorted {r : Record} {index i : Nat} {previous? : Option UInt32}
    {previous token : UInt32} (h : r.check index previous? = .error (.unsorted i previous token)) :
    notExceeded? previous? r.token ≠ none := by
  rw [Record.check_eq] at h
  split at h
  next hp =>
    rw [hp]
    exact Option.some_ne_none _
  · cases h
  · cases h
  · split at h
    · cases h
    · split at h <;> cases h

/-- Only a flag byte that selects no convention is unknown. -/
theorem Record.flags_of_unknownFlag {r : Record} {index i : Nat} {previous? : Option UInt32}
    {token : UInt32} {flags : UInt8}
    (h : r.check index previous? = .error (.unknownFlag i token flags)) :
    Convention.ofFlag? r.flags = none := by
  rw [Record.check_eq] at h
  split at h
  · cases h
  · cases h
  · assumption
  · split at h
    · cases h
    · split at h <;> cases h

/-- Records in ascending order are never refused for their order. -/
theorem Store.build_ne_unsorted {records : List Record}
    (ascending : Ascending (records.map Record.token)) (index : Nat) (previous token : UInt32) :
    Store.build records ≠ .error (.unsorted index previous token) := by
  intro h
  obtain ⟨before, r, after, rfl, -, hcheck⟩ := Store.build_eq_error_iff.mp h
  apply Record.notExceeded?_of_unsorted hcheck
  cases hlast : (before.map Record.token).getLast? with
  | none => rfl
  | some last =>
      rw [List.map_append, List.map_cons] at ascending
      exact notExceeded?_some_eq_none_iff.mpr ((List.pairwise_append.mp ascending).2.2 last
        (List.mem_of_getLast? hlast) r.token List.mem_cons_self)

/-- Records whose flag bytes all select a convention are never refused for a flag byte. -/
theorem Store.build_ne_unknownFlag {records : List Record}
    (known : ∀ r ∈ records, Convention.ofFlag? r.flags ≠ none) (index : Nat) (token : UInt32)
    (flags : UInt8) : Store.build records ≠ .error (.unknownFlag index token flags) := by
  intro h
  obtain ⟨before, r, after, rfl, -, hcheck⟩ := Store.build_eq_error_iff.mp h
  exact known r (by simp) (Record.flags_of_unknownFlag hcheck)

end InternalCall
