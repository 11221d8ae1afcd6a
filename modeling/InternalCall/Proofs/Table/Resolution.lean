import InternalCall.Proofs.Header.Validation
import InternalCall.Proofs.Table.Search
import InternalCall.Proofs.Table.Store
import InternalCall.Table.Resolver

/-!
# Resolution is a scan

A token resolves to the entry at the one position whose record has it, and is
reported missing when no record has it: halving the range answers as a scan of
the records from the front would. The same holds of looking up a token in a
valid table.
-/

namespace InternalCall

/-- A token resolves only to an entry of the store that has it. -/
theorem Resolver.mem_of_resolve {resolver : Resolver} {token : UInt32} {e : Entry}
    (h : resolver.resolve token = .ok e) : e ∈ resolver.store.entries ∧ e.token = token := by
  unfold Resolver.resolve at h
  split at h
  next found =>
    cases h
    exact searchBetween_sound found
  · cases h

theorem Store.mem_tokens {store : Store} {token : UInt32} :
    token ∈ store.tokens ↔ ∃ e ∈ store.entries, e.token = token := by
  simp only [Store.tokens, List.mem_map, Array.mem_toList_iff]

/-! ## A store in order -/

section
variable {resolver : Resolver} {token : UInt32}
  (ascending : Ascending (resolver.store.entries.toList.map Entry.token))
include ascending

/-- A token resolves to an entry exactly when the entry is stored and has the token. -/
theorem Resolver.resolve_eq_ok_iff {e : Entry} :
    resolver.resolve token = .ok e ↔ e ∈ resolver.store.entries ∧ e.token = token := by
  rw [← searchByToken_eq_some_iff ascending, resolve]
  cases searchByToken Entry.token resolver.store.entries token <;> simp

/-- A token that does not resolve is one that the store lacks, and the miss names it. -/
theorem Resolver.resolve_eq_error_iff {miss : NotFound} :
    resolver.resolve token = .error miss ↔ token ∉ resolver.store.tokens ∧ miss = ⟨token⟩ := by
  have absent : searchByToken Entry.token resolver.store.entries token = none ↔
      token ∉ resolver.store.tokens := by
    rw [searchByToken_eq_none_iff ascending, Store.mem_tokens]
    simp
  rw [← absent, resolve]
  cases searchByToken Entry.token resolver.store.entries token <;> simp [eq_comm]

theorem Resolver.exists_resolve_iff :
    (∃ e, resolver.resolve token = .ok e) ↔ token ∈ resolver.store.tokens := by
  simp only [resolve_eq_ok_iff ascending, Store.mem_tokens]

end

/-! ## A store of records -/

section
variable {records : List Record} {store : Store} (built : Store.build records = .ok store)
include built

/-- The token of a record resolves to the entry that the record makes. -/
theorem Resolver.resolve_of_makes {onMiss : FatalAction} {i : Nat} {e : Entry}
    (he : store.get? i = some e) : (Resolver.mk store onMiss).resolve e.token = .ok e :=
  (Resolver.resolve_eq_ok_iff (Store.ascending_of_build built)).mpr
    ⟨Array.mem_of_getElem? he, rfl⟩

/-- A token that no record has is reported. -/
theorem Resolver.resolve_of_absent {onMiss : FatalAction} {token : UInt32}
    (absent : ∀ r ∈ records, r.token ≠ token) :
    (Resolver.mk store onMiss).resolve token = .error ⟨token⟩ := by
  have lacks : token ∉ store.tokens := by
    rw [Store.tokens_of_build built, List.mem_map]
    rintro ⟨r, hr, htoken⟩
    exact absent r hr htoken
  exact (Resolver.resolve_eq_error_iff (Store.ascending_of_build built)).mpr ⟨lacks, rfl⟩

/-- A token is contained exactly when a record has it. -/
theorem Resolver.contains_iff {onMiss : FatalAction} {token : UInt32} :
    (Resolver.mk store onMiss).contains token = true ↔ ∃ r ∈ records, r.token = token := by
  rw [Resolver.contains, isOk_iff, Resolver.exists_resolve_iff (Store.ascending_of_build built),
    Store.tokens_of_build built, List.mem_map]

end

/-- Resolution in a built store and lookup in a valid table are scans. A token of a record resolves
to the one entry that has it, which stands at the record's position with the record's native and
convention; any other token is reported. -/
theorem resolve_eq_scan :
    (∀ {records : List Record} {store : Store}, Store.build records = .ok store →
      ∀ (onMiss : FatalAction) (token : UInt32),
        (∀ (i : Nat) (r : Record), records[i]? = some r → r.token = token →
          ∃ e, store.get? i = some e ∧ e.token = token ∧ r.native? = some e.native ∧
            Convention.ofFlag? r.flags = some e.convention ∧
            (∀ (j : Nat) (f : Entry), store.get? j = some f → f.token = token → j = i) ∧
            (Resolver.mk store onMiss).resolve token = .ok e) ∧
        ((∀ r ∈ records, r.token ≠ token) →
          (Resolver.mk store onMiss).resolve token = .error ⟨token⟩) ∧
        ((Resolver.mk store onMiss).contains token = true ↔ ∃ r ∈ records, r.token = token)) ∧
    (∀ {t : AssemblyTable}, t.validate = .ok () → ∀ token : UInt32,
      t.lookup? token = (t.entries.toList.find? fun e => e.token == token) ∧
      ∀ (i j : Nat) (e f : TableEntry), t.entries[i]? = some e → t.entries[j]? = some f →
        e.token = f.token → i = j) := by
  refine ⟨fun {records store} built onMiss token => ⟨?_, ?_, ?_⟩, fun {t} valid token => ⟨?_, ?_⟩⟩
  · rintro i r hr rfl
    obtain ⟨e, he, hmakes⟩ := Store.exists_makes_at built hr
    refine ⟨e, he, hmakes.token_eq, hmakes.native_eq, hmakes.convention_eq, ?_, ?_⟩
    · intro j f hf htoken
      rw [Store.get?, ← Array.getElem?_toList] at he hf
      exact (Store.ascending_of_build built).position_eq hf he
        (htoken.trans hmakes.token_eq.symm)
    · rw [← hmakes.token_eq]
      exact Resolver.resolve_of_makes built he
  · exact Resolver.resolve_of_absent built
  · exact Resolver.contains_iff built
  · exact searchByToken_eq_find? (AssemblyTable.validate_eq_ok_iff.mp valid).1
  · intro i j e f he hf htoken
    rw [← Array.getElem?_toList] at he hf
    exact (AssemblyTable.validate_eq_ok_iff.mp valid).1.position_eq he hf htoken

/-- Both neighbours of a gap resolve, the token in the gap does not, and the table that lists the
same tokens answers alike. -/
theorem resolve_eq_scan_between_neighbours :
    let zero : Native := .allInteger 0 ⟨"zero", fun _ => .ok 0⟩
    let records : List Record := [.ofNative 100 zero .raw, .ofNative 200 zero .wrapped]
    let store : Store := ⟨#[⟨100, zero, .raw⟩, ⟨200, zero, .wrapped⟩]⟩
    let table : AssemblyTable := ⟨"corlib", #[⟨100, "a", none, 4⟩, ⟨200, "b", none, 0⟩]⟩
    Store.build records = .ok store ∧
      (∃ e, store.get? 1 = some e ∧ e.token = 200 ∧
        (Resolver.mk store .panic).resolve 200 = .ok e) ∧
      (Resolver.mk store .panic).resolve 150 = .error ⟨150⟩ ∧
      (Resolver.mk store .panic).contains 100 = true ∧
      table.validate = .ok () ∧ table.lookup? 200 = some ⟨200, "b", none, 0⟩ := by
  intro zero records store table
  have built : Store.build records = .ok store := rfl
  have valid : table.validate = .ok () := by decide
  have misses := (resolve_eq_scan.1 built .panic 150).2.1
  have contains := (resolve_eq_scan.1 built .panic 100).2.2
  obtain ⟨e, he, htoken, _, _, _, hresolve⟩ :=
    (resolve_eq_scan.1 built .panic 200).1 1 _ rfl rfl
  refine ⟨built, ⟨e, he, htoken, hresolve⟩, misses ?_, contains.mpr ?_, valid, ?_⟩
  · simp [records, Record.ofNative]
  · exact ⟨_, List.mem_cons_self, rfl⟩
  · rw [(resolve_eq_scan.2 valid 200).1]
    decide

end InternalCall
