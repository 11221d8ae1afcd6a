import InternalCall.Proofs.Except
import InternalCall.Proofs.Table.Order
import InternalCall.Table.Store

/-!
# What a built store holds

A store can be built exactly when the tokens ascend and each record makes an
entry by itself. The entries are then those of the records, position by
position: nothing is lost, added or moved.
-/

namespace InternalCall

/-- The record makes the entry: it has the entry's token and native, its flag byte selects the
entry's convention, and the native may be called so. -/
structure Record.Makes (r : Record) (e : Entry) : Prop where
  /-- The token is kept. -/
  token_eq : e.token = r.token
  /-- The native is there. -/
  native_eq : r.native? = some e.native
  /-- The flag byte selects the convention. -/
  convention_eq : Convention.ofFlag? r.flags = some e.convention
  /-- A call has slots for all parameters. -/
  arity_le : e.native.arity ≤ maxArity
  /-- Managed values cross wrapped calls only. -/
  supported : e.native.supports e.convention = true

/-- A raw entry that a record makes works on scalars. -/
theorem Record.Makes.isManaged_of_raw {r : Record} {e : Entry} (h : r.Makes e)
    (raw : e.convention = .raw) : e.native.isManaged = false := by
  have hs := h.supported
  rw [raw] at hs
  simpa [Native.supports] using hs

/-- A managed entry that a record makes is wrapped. -/
theorem Record.Makes.wrapped_of_managed {r : Record} {e : Entry} (h : r.Makes e)
    (managed : e.native.isManaged = true) : e.convention = .wrapped := by
  cases hc : e.convention with
  | wrapped => rfl
  | raw =>
      rw [h.isManaged_of_raw hc] at managed
      cases managed

/-- Only a managed native may not be called raw. -/
theorem Native.not_supports_iff {n : Native} {c : Convention} :
    ¬ n.supports c = true ↔ c = .raw ∧ n.isManaged = true := by
  cases c <;> simp [Native.supports]

/-- A native on scalars may be called with either convention. -/
theorem Native.supports_of_scalar {n : Native} (scalar : n.isManaged = false) (c : Convention) :
    n.supports c = true := by
  cases c with
  | wrapped => rfl
  | raw => rw [Native.supports, scalar, Bool.not_false]

/-- The check of a record rule by rule: order, native, flag byte, arity, convention. -/
theorem Record.check_eq (index : Nat) (previous? : Option UInt32) (r : Record) :
    r.check index previous? =
      match notExceeded? previous? r.token, r.native?, Convention.ofFlag? r.flags with
      | some previous, _, _ => .error (.unsorted index previous r.token)
      | none, none, _ => .error (.nullEntry index r.token)
      | none, some _, none => .error (.unknownFlag index r.token r.flags)
      | none, some native, some convention =>
        if maxArity < native.arity then
          .error (.arityTooLarge index r.token native.arity maxArity)
        else if native.supports convention then .ok ⟨r.token, native, convention⟩
        else .error (.conventionMismatch index r.token convention) := by
  unfold Record.check
  cases notExceeded? previous? r.token with
  | some previous => rfl
  | none =>
      cases r.native? with
      | none => rfl
      | some native =>
          cases Convention.ofFlag? r.flags with
          | none => rfl
          | some convention =>
              by_cases ha : maxArity < native.arity
              · simp only [ha, ite_true]
                rfl
              · by_cases hs : native.supports convention = true <;>
                  simp only [ha, hs, ite_true, ite_false] <;> rfl

/-- A record passes its check exactly when its token exceeds the one before and it makes the
entry. -/
theorem Record.check_eq_ok_iff {index : Nat} {previous? : Option UInt32} {r : Record} {e : Entry} :
    r.check index previous? = .ok e ↔ notExceeded? previous? r.token = none ∧ r.Makes e := by
  rw [Record.check_eq]
  constructor
  · intro h
    split at h
    · cases h
    · cases h
    · cases h
    next native convention hp hn hc =>
      split at h
      · cases h
      next ha =>
        split at h
        next hs =>
          cases h
          exact ⟨hp, rfl, hn, hc, Nat.le_of_not_lt ha, hs⟩
        · cases h
  · rintro ⟨hp, htoken, hn, hc, ha, hs⟩
    rw [hp, hn, hc]
    dsimp only
    rw [if_neg (Nat.not_lt.mpr ha), if_pos hs, ← htoken]

/-- Records pass their checks one after the other exactly when the tokens ascend, also from the
one before them, and each record makes the entry at its position. -/
theorem Record.checkAll_eq_ok_iff {records : List Record} {index : Nat}
    {previous? : Option UInt32} {entries : List Entry} :
    Record.checkAll index previous? records = .ok entries ↔
      (previous?.toList ++ records.map Record.token).IsChain (· < ·) ∧
        List.Forall₂ Record.Makes records entries := by
  induction records generalizing index previous? entries with
  | nil =>
      have hchain : (previous?.toList ++ ([] : List Record).map Record.token).IsChain (· < ·) := by
        cases previous? <;> simp
      rw [Record.checkAll, pure_eq_ok_iff, List.forall₂_nil_left_iff, eq_comm]
      exact ⟨fun h => ⟨hchain, h⟩, fun h => h.2⟩
  | cons r rest ih =>
      rw [List.map_cons, isChain_from_iff]
      simp only [Record.checkAll, bind_eq_ok_iff, pure_eq_ok_iff, Record.check_eq_ok_iff, ih,
        Option.toList_some, List.cons_append, List.nil_append, List.forall₂_cons_left_iff]
      constructor
      · rintro ⟨e, ⟨hp, he⟩, es, ⟨hchain, hes⟩, rfl⟩
        exact ⟨⟨hp, hchain⟩, e, es, he, hes, rfl⟩
      · rintro ⟨⟨hp, hchain⟩, e, es, he, hes, rfl⟩
        exact ⟨e, ⟨hp, he⟩, es, ⟨hchain, hes⟩, rfl⟩

/-- A store is built exactly when the tokens ascend and each record makes the entry at its
position. -/
theorem Store.build_eq_ok_iff {records : List Record} {store : Store} :
    Store.build records = .ok store ↔
      Ascending (records.map Record.token) ∧
        List.Forall₂ Record.Makes records store.entries.toList := by
  obtain ⟨entries⟩ := store
  simp only [Store.build, bind_eq_ok_iff, pure_eq_ok_iff, Record.checkAll_eq_ok_iff,
    Option.toList_none, List.nil_append, ← ascending_iff_isChain]
  constructor
  · rintro ⟨es, ⟨hasc, hes⟩, he⟩
    cases he
    exact ⟨hasc, hes⟩
  · rintro ⟨hasc, hes⟩
    exact ⟨entries.toList, ⟨hasc, hes⟩, by simp⟩

/-- Entries keep the tokens of the records that make them. -/
theorem tokens_of_makes {records : List Record} {entries : List Entry}
    (h : List.Forall₂ Record.Makes records entries) :
    entries.map Entry.token = records.map Record.token :=
  (map_eq_map_of_forall₂ h fun _ _ makes => makes.token_eq.symm).symm

/-- A store that was built has the tokens of its records. -/
theorem Store.tokens_of_build {records : List Record} {store : Store}
    (built : Store.build records = .ok store) : store.tokens = records.map Record.token :=
  tokens_of_makes (Store.build_eq_ok_iff.mp built).2

/-- The entries of a store that was built ascend by their tokens. -/
theorem Store.ascending_of_build {records : List Record} {store : Store}
    (built : Store.build records = .ok store) :
    Ascending (store.entries.toList.map Entry.token) := by
  have same : store.entries.toList.map Entry.token = records.map Record.token :=
    Store.tokens_of_build built
  rw [same]
  exact (Store.build_eq_ok_iff.mp built).1

/-- Every entry of a store that was built is made by a record. -/
theorem Store.exists_makes_of_mem {records : List Record} {store : Store}
    (built : Store.build records = .ok store) {e : Entry} (he : e ∈ store.entries) :
    ∃ r : Record, r.Makes e := by
  have hmakes := (Store.build_eq_ok_iff.mp built).2
  obtain ⟨r, -, makes⟩ := exists_of_mem_of_forall₂ hmakes.flip (Array.mem_def.mp he)
  exact ⟨r, makes⟩

/-- The entry at a record's position is the one that the record makes. -/
theorem Store.exists_makes_at {records : List Record} {store : Store}
    (built : Store.build records = .ok store) {i : Nat} {r : Record} (hr : records[i]? = some r) :
    ∃ e, store.get? i = some e ∧ r.Makes e := by
  have hmakes := (Store.build_eq_ok_iff.mp built).2
  obtain ⟨hi, rfl⟩ := List.getElem?_eq_some_iff.mp hr
  have hi' : i < store.entries.toList.length := hmakes.length_eq ▸ hi
  refine ⟨store.entries.toList[i], ?_, List.Forall₂.get hmakes hi hi'⟩
  rw [Store.get?, ← Array.getElem?_toList, List.getElem?_eq_getElem hi']

/-- The store was built, from records or from three sequences. -/
inductive Store.IsBuilt (store : Store) : Prop where
  /-- From records. -/
  | ofRecords {records : List Record} (built : Store.build records = .ok store)
  /-- From three sequences of one length. -/
  | ofSequences {tokens : List UInt32} {natives : List (Option Native)} {flags : List UInt8}
      (built : Store.ofSequences tokens natives flags = .ok store)

namespace Store.IsBuilt

variable {store : Store} (h : store.IsBuilt)
include h

/-- A store of three sequences is a store of records too. -/
theorem exists_build : ∃ records, Store.build records = .ok store := by
  cases h with
  | ofRecords built => exact ⟨_, built⟩
  | ofSequences built =>
      unfold Store.ofSequences at built
      split at built
      · exact ⟨_, built⟩
      · cases built

theorem exists_makes {e : Entry} (he : e ∈ store.entries) : ∃ r : Record, r.Makes e := by
  obtain ⟨records, built⟩ := h.exists_build
  exact Store.exists_makes_of_mem built he

theorem ascending : Ascending (store.entries.toList.map Entry.token) := by
  obtain ⟨records, built⟩ := h.exists_build
  exact Store.ascending_of_build built

end Store.IsBuilt

end InternalCall
