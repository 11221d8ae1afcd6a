import InternalCall.Proofs.Table.Failure

/-!
# The rules of a table

Five rules stand between a list of records and a store: the tokens ascend, every
native is there, every flag byte selects a convention, no native has more
parameters than a call has slots, and every native may be called with its
convention. Each is stated here on the records alone, apart from the order in
which they are checked. Records that break no rule make a store; otherwise the
error is that of the first position at which any rule is broken, and of the rules
broken there the first.
-/

namespace InternalCall

/-- A rule on the records of a table. -/
inductive Rule where
  /-- The token exceeds the one before it. -/
  | order
  /-- There is a native. -/
  | presence
  /-- The flag byte selects a convention. -/
  | flagByte
  /-- A call has a slot for each parameter. -/
  | arity
  /-- The native may be called with the convention. -/
  | convention
deriving DecidableEq, Repr

/-- The place of the rule among those that a record can break. -/
def Rule.rank : Rule → Nat
  | order => 0
  | presence => 1
  | flagByte => 2
  | arity => 3
  | convention => 4

theorem Rule.rank_injective : Function.Injective Rule.rank := by
  intro a b h
  cases a <;> cases b <;> simp [Rule.rank] at h ⊢

/-! ## The rules that a record breaks -/

/-- The record breaks the rule where it stands, at the position and after the token, and the error
reports it. -/
inductive Record.Breaks (index : Nat) (previous? : Option UInt32) (r : Record) :
    Rule → BuildError → Prop where
  /-- The token does not exceed the one before it. -/
  | order {previous : UInt32} (after : previous? = some previous) (notAbove : r.token ≤ previous) :
      Breaks index previous? r .order (.unsorted index previous r.token)
  /-- There is no native. -/
  | presence (missing : r.native? = none) :
      Breaks index previous? r .presence (.nullEntry index r.token)
  /-- The flag byte is neither that of the wrapped nor that of the raw convention. -/
  | flagByte (notWrapped : r.flags ≠ 0) (notRaw : r.flags ≠ 4) :
      Breaks index previous? r .flagByte (.unknownFlag index r.token r.flags)
  /-- The native has more parameters than a call has slots. -/
  | arity {native : Native} (present : r.native? = some native)
      (tooMany : maxArity < native.arity) :
      Breaks index previous? r .arity (.arityTooLarge index r.token native.arity maxArity)
  /-- The native is managed, and the flag byte is that of the raw convention. -/
  | convention {native : Native} (present : r.native? = some native)
      (managed : native.isManaged = true) (raw : r.flags = 4) :
      Breaks index previous? r .convention (.conventionMismatch index r.token .raw)

section
variable {index : Nat} {previous? : Option UInt32} {r : Record} {err err' : BuildError}

/-- A rule is broken in one way only. -/
theorem Record.Breaks.error_unique {rule : Rule} (h : r.Breaks index previous? rule err)
    (h' : r.Breaks index previous? rule err') : err = err' := by
  cases h with
  | order after _ =>
      cases h' with
      | order after' _ => rw [Option.some.inj (after.symm.trans after')]
  | presence _ =>
      cases h' with
      | presence _ => rfl
  | flagByte _ _ =>
      cases h' with
      | flagByte _ _ => rfl
  | arity present _ =>
      cases h' with
      | arity present' _ => rw [Option.some.inj (present.symm.trans present')]
  | convention _ _ _ =>
      cases h' with
      | convention _ _ _ => rfl

/-- A token that exceeds the one before it is in order. -/
theorem Record.not_breaks_order (above : notExceeded? previous? r.token = none) :
    ¬ r.Breaks index previous? .order err := by
  intro h
  cases h with
  | order after notAbove =>
      rw [notExceeded?_eq_some_iff.mpr ⟨after, notAbove⟩] at above
      cases above

/-- A native that is there is not missing. -/
theorem Record.not_breaks_presence {native : Native} (present : r.native? = some native) :
    ¬ r.Breaks index previous? .presence err := by
  intro h
  cases h with
  | presence missing =>
      rw [present] at missing
      cases missing

/-- A flag byte that selects a convention is known. -/
theorem Record.not_breaks_flagByte {c : Convention} (known : Convention.ofFlag? r.flags = some c) :
    ¬ r.Breaks index previous? .flagByte err := by
  intro h
  cases h with
  | flagByte notWrapped notRaw =>
      rw [Convention.ofFlag?_eq_none_iff.mpr ⟨notWrapped, notRaw⟩] at known
      cases known

/-- Parameters for which there are slots are not too many. -/
theorem Record.not_breaks_arity {native : Native} (present : r.native? = some native)
    (fits : native.arity ≤ maxArity) : ¬ r.Breaks index previous? .arity err := by
  intro h
  cases h with
  | arity present' tooMany =>
      rw [present] at present'
      cases present'
      exact absurd fits (Nat.not_le.mpr tooMany)

/-- A native that supports its convention may be called with it. -/
theorem Record.not_breaks_convention {native : Native} {c : Convention}
    (present : r.native? = some native) (known : Convention.ofFlag? r.flags = some c)
    (supported : native.supports c = true) : ¬ r.Breaks index previous? .convention err := by
  intro h
  cases h with
  | convention present' managed raw =>
      rw [present] at present'
      cases present'
      rw [raw] at known
      cases known
      rw [Native.supports, managed] at supported
      cases supported

/-- A record that passes its check breaks no rule. -/
theorem Record.not_breaks_of_check {e : Entry} (passes : r.check index previous? = .ok e)
    (rule : Rule) : ¬ r.Breaks index previous? rule err := by
  obtain ⟨above, makes⟩ := Record.check_eq_ok_iff.mp passes
  cases rule with
  | order => exact Record.not_breaks_order above
  | presence => exact Record.not_breaks_presence makes.native_eq
  | flagByte => exact Record.not_breaks_flagByte makes.convention_eq
  | arity => exact Record.not_breaks_arity makes.native_eq makes.arity_le
  | convention =>
      exact Record.not_breaks_convention makes.native_eq makes.convention_eq makes.supported

/-- A record that fails its check breaks the rule that the error reports, and none that comes
before that rule. -/
theorem Record.breaks_of_check (fails : r.check index previous? = .error err) :
    ∃ rule, r.Breaks index previous? rule err ∧
      ∀ other err', r.Breaks index previous? other err' → rule.rank ≤ other.rank := by
  rw [Record.check_eq] at fails
  split at fails
  next previous hp =>
    cases fails
    obtain ⟨after, notAbove⟩ := notExceeded?_eq_some_iff.mp hp
    exact ⟨.order, .order after notAbove, fun _ _ _ => Nat.zero_le _⟩
  next hp hn =>
    cases fails
    refine ⟨.presence, .presence hn, fun other err' h => ?_⟩
    cases other with
    | order => exact absurd h (Record.not_breaks_order hp)
    | _ => decide
  next native hp hn hc =>
    cases fails
    obtain ⟨notWrapped, notRaw⟩ := Convention.ofFlag?_eq_none_iff.mp hc
    refine ⟨.flagByte, .flagByte notWrapped notRaw, fun other err' h => ?_⟩
    cases other with
    | order => exact absurd h (Record.not_breaks_order hp)
    | presence => exact absurd h (Record.not_breaks_presence hn)
    | _ => decide
  next native convention hp hn hc =>
    split at fails
    next tooMany =>
      cases fails
      refine ⟨.arity, .arity hn tooMany, fun other err' h => ?_⟩
      cases other with
      | order => exact absurd h (Record.not_breaks_order hp)
      | presence => exact absurd h (Record.not_breaks_presence hn)
      | flagByte => exact absurd h (Record.not_breaks_flagByte hc)
      | _ => decide
    next fits =>
      split at fails
      · cases fails
      next unsupported =>
        cases fails
        obtain ⟨rfl, managed⟩ := Native.not_supports_iff.mp unsupported
        refine ⟨.convention, .convention hn managed (Convention.ofFlag?_eq_some_iff.mp hc),
          fun other err' h => ?_⟩
        cases other with
        | order => exact absurd h (Record.not_breaks_order hp)
        | presence => exact absurd h (Record.not_breaks_presence hn)
        | flagByte => exact absurd h (Record.not_breaks_flagByte hc)
        | arity => exact absurd h (Record.not_breaks_arity hn (Nat.le_of_not_lt fits))
        | convention => decide

end

/-! ## The faults of a list of records -/

/-- The record at the position breaks the rule, and the error reports it. -/
def Fault (records : List Record) (i : Nat) (rule : Rule) (err : BuildError) : Prop :=
  ∃ r, records[i]? = some r ∧ r.Breaks i (tokenBefore? (records.map Record.token) i) rule err

/-- The error reports the first fault of the records. -/
structure FirstFault (records : List Record) (i : Nat) (rule : Rule) (err : BuildError) : Prop where
  /-- The record at the position breaks the rule. -/
  fault : Fault records i rule err
  /-- No rule is broken at an earlier position. -/
  position_le : ∀ j other err', Fault records j other err' → i ≤ j
  /-- No rule that comes before is broken at the position. -/
  rank_le : ∀ other err', Fault records i other err' → rule.rank ≤ other.rank

/-- There is at most one first fault. -/
theorem FirstFault.error_unique {records : List Record} {i i' : Nat} {rule rule' : Rule}
    {err err' : BuildError} (h : FirstFault records i rule err)
    (h' : FirstFault records i' rule' err') : err = err' := by
  obtain ⟨r, hr, breaks⟩ := h.fault
  obtain ⟨r', hr', breaks'⟩ := h'.fault
  have position : i = i' :=
    Nat.le_antisymm (h.position_le _ _ _ h'.fault) (h'.position_le _ _ _ h.fault)
  subst position
  have same : rule = rule' := Rule.rank_injective
    (Nat.le_antisymm (h.rank_le _ _ h'.fault) (h'.rank_le _ _ h.fault))
  subst same
  cases Option.some.inj (hr.symm.trans hr')
  exact breaks.error_unique breaks'

/-- The faults of records do not depend on what follows them. -/
theorem fault_append_iff {before after : List Record} {i : Nat} (hi : i < before.length)
    {rule : Rule} {err : BuildError} :
    Fault (before ++ after) i rule err ↔ Fault before i rule err := by
  have hi' : i ≤ (before.map Record.token).length := by
    rw [List.length_map]
    exact Nat.le_of_lt hi
  rw [Fault, Fault, List.getElem?_append_left hi, List.map_append, tokenBefore?_append hi']

/-- The faults of a record that stands after others. -/
theorem fault_length_iff {before after : List Record} {r : Record} {rule : Rule}
    {err : BuildError} :
    Fault (before ++ r :: after) before.length rule err ↔
      r.Breaks before.length (before.map Record.token).getLast? rule err := by
  have hbefore : tokenBefore? ((before ++ r :: after).map Record.token) before.length =
      (before.map Record.token).getLast? := by
    rw [List.map_append, tokenBefore?_append (by simp), ← List.length_map (f := Record.token),
      tokenBefore?_length]
  have hr : (before ++ r :: after)[before.length]? = some r := by simp
  rw [Fault, hbefore, hr]
  constructor
  · rintro ⟨_, ⟨⟩, breaks⟩
    exact breaks
  · exact fun breaks => ⟨r, rfl, breaks⟩

/-- Records with ascending tokens that make entries by themselves have no fault. -/
theorem not_fault_of_makes {records : List Record}
    (ascending : Ascending (records.map Record.token)) (kept : ∀ r ∈ records, ∃ e, r.Makes e)
    (i : Nat) (rule : Rule) (err : BuildError) : ¬ Fault records i rule err := by
  rintro ⟨r, hr, breaks⟩
  obtain ⟨e, makes⟩ := kept r (List.mem_of_getElem? hr)
  have above : notExceeded? (tokenBefore? (records.map Record.token) i) r.token = none := by
    rw [Option.eq_none_iff_forall_not_mem]
    intro previous h
    obtain ⟨hprevious, notAbove⟩ := notExceeded?_eq_some_iff.mp h
    have htoken : (records.map Record.token)[i]? = some r.token := by
      rw [List.getElem?_map, hr, Option.map_some]
    exact ascending.not_in ⟨i, previous, r.token⟩ ⟨htoken, hprevious, notAbove⟩
  exact Record.not_breaks_of_check (Record.check_eq_ok_iff.mpr ⟨above, makes⟩) rule breaks

/-- The records of a store ascend by their tokens and make entries by themselves. -/
theorem Store.makes_of_build {records : List Record} {store : Store}
    (built : Store.build records = .ok store) :
    Ascending (records.map Record.token) ∧ ∀ r ∈ records, ∃ e, r.Makes e := by
  refine ⟨(Store.build_eq_ok_iff.mp built).1, fun r hr => ?_⟩
  obtain ⟨i, hi⟩ := List.mem_iff_getElem?.mp hr
  obtain ⟨e, -, makes⟩ := Store.exists_makes_at built hi
  exact ⟨e, makes⟩

/-- The records of a store have no fault. -/
theorem Store.not_fault_of_build {records : List Record} {store : Store}
    (built : Store.build records = .ok store) (i : Nat) (rule : Rule) (err : BuildError) :
    ¬ Fault records i rule err :=
  not_fault_of_makes (Store.makes_of_build built).1 (Store.makes_of_build built).2 i rule err

/-- If there is no store, the error reports the first fault. -/
theorem Store.firstFault_of_build {records : List Record} {err : BuildError}
    (failed : Store.build records = .error err) : ∃ i rule, FirstFault records i rule err := by
  obtain ⟨before, r, after, rfl, ⟨store, built⟩, fails⟩ := Store.build_eq_error_iff.mp failed
  obtain ⟨rule, breaks, first⟩ := Record.breaks_of_check fails
  refine ⟨before.length, rule, fault_length_iff.mpr breaks, fun j other err' h => ?_,
    fun other err' h => first other err' (fault_length_iff.mp h)⟩
  -- a fault before the culprit would be one of the records that made a store by themselves
  by_contra hlt
  exact Store.not_fault_of_build built j other err'
    ((fault_append_iff (Nat.lt_of_not_le hlt)).mp h)

/-- There is no store exactly when the records have a first fault, and the error reports that. -/
theorem Store.build_eq_error_iff_firstFault {records : List Record} {err : BuildError} :
    Store.build records = .error err ↔ ∃ i rule, FirstFault records i rule err := by
  refine ⟨Store.firstFault_of_build, ?_⟩
  rintro ⟨i, rule, first⟩
  cases hb : Store.build records with
  | ok store => exact absurd first.fault (Store.not_fault_of_build hb i rule err)
  | error err' =>
      obtain ⟨i', rule', first'⟩ := Store.firstFault_of_build hb
      rw [first'.error_unique first]

/-- There is a store exactly of records that ascend by their tokens and make entries by
themselves. -/
theorem Store.exists_build_iff {records : List Record} :
    (∃ store, Store.build records = .ok store) ↔
      Ascending (records.map Record.token) ∧ ∀ r ∈ records, ∃ e, r.Makes e := by
  refine ⟨fun ⟨_, built⟩ => Store.makes_of_build built, fun ⟨ascending, kept⟩ => ?_⟩
  cases hb : Store.build records with
  | ok store => exact ⟨store, rfl⟩
  | error err =>
      obtain ⟨i, rule, first⟩ := Store.firstFault_of_build hb
      exact absurd first.fault (not_fault_of_makes ascending kept i rule err)

/-- Every entry of a store is called with one of the two conventions. -/
theorem Store.countConvention_add (store : Store) :
    store.countConvention .wrapped + store.countConvention .raw = store.size := by
  have other : ∀ e : Entry,
      (e.convention == .raw) = decide (¬ (e.convention == .wrapped) = true) := by
    intro e
    cases e.convention <;> rfl
  simp only [Store.countConvention, Store.size, other, ← Array.length_toList]
  exact (List.length_eq_countP_add_countP _).symm

/-- A record makes some entry exactly when it keeps the rules on the native and the flag byte. -/
theorem Record.exists_makes_iff {r : Record} :
    (∃ e, r.Makes e) ↔ (r.flags = 0 ∨ r.flags = 4) ∧ ∃ native, r.native? = some native ∧
      native.arity ≤ maxArity ∧ (native.isManaged = true → r.flags ≠ 4) := by
  constructor
  · rintro ⟨e, makes⟩
    have flags := Convention.ofFlag?_eq_some_iff.mp makes.convention_eq
    refine ⟨?_, e.native, makes.native_eq, makes.arity_le, fun managed => ?_⟩
    · cases hc : e.convention with
      | wrapped => exact Or.inl (by rw [flags, hc]; rfl)
      | raw => exact Or.inr (by rw [flags, hc]; rfl)
    · rw [flags, makes.wrapped_of_managed managed]
      decide
  · rintro ⟨hflags, native, hnative, fits, wrapped⟩
    rcases hflags with h | h
    · exact ⟨⟨r.token, native, .wrapped⟩, rfl, hnative, by rw [h]; rfl, fits, rfl⟩
    · have scalar : native.isManaged = false := Bool.eq_false_iff.mpr fun managed => wrapped managed h
      exact ⟨⟨r.token, native, .raw⟩, rfl, hnative, by rw [h]; rfl, fits,
        Native.supports_of_scalar scalar .raw⟩

/-- A store is built exactly from records that keep all rules. It holds their tokens, natives and
conventions position by position, and each entry is counted under one of the two conventions. From
other records none is built, and the error reports the first fault. -/
theorem Store.build_obeys_rules (records : List Record) :
    ((∃ store, Store.build records = .ok store) ↔
      (records.map Record.token).Pairwise (· < ·) ∧ ∀ r ∈ records,
        (r.flags = 0 ∨ r.flags = 4) ∧ ∃ native, r.native? = some native ∧
          native.arity ≤ maxArity ∧ (native.isManaged = true → r.flags ≠ 4)) ∧
    (∀ store, Store.build records = .ok store →
      List.Forall₂ (fun (r : Record) (e : Entry) => e.token = r.token ∧
          r.native? = some e.native ∧ r.flags = e.convention.flag)
        records store.entries.toList ∧
      store.countConvention .wrapped + store.countConvention .raw = store.size) ∧
    ∀ err, Store.build records = .error err ↔ ∃ i rule, FirstFault records i rule err := by
  refine ⟨?_, fun store built => ⟨?_, store.countConvention_add⟩,
    fun err => Store.build_eq_error_iff_firstFault⟩
  · simp only [Store.exists_build_iff, Record.exists_makes_iff, Ascending]
  · refine (Store.build_eq_ok_iff.mp built).2.imp fun r e makes => ?_
    exact ⟨makes.token_eq, makes.native_eq, Convention.ofFlag?_eq_some_iff.mp makes.convention_eq⟩

/-- Two faulty records, each of which breaks two rules, after two that make a store: the error is on
the flag byte of the first, which comes before its arity. -/
theorem Store.build_obeys_rules_two_faulty :
    let wide : Native := .managed 9 ⟨"wide", fun _ => .ret .void⟩
    let zero : Native := .allInteger 0 ⟨"zero", fun _ => .ok 0⟩
    let fine : List Record := [.ofNative 5 zero .raw, .ofNative 7 zero .wrapped]
    let faulty : List Record := fine ++ [⟨8, some wide, 3⟩, ⟨2, none, 0⟩]
    (∃ store, Store.build fine = .ok store ∧ store.size = 2 ∧
      store.countConvention .wrapped + store.countConvention .raw = 2) ∧
    Store.build faulty = .error (.unknownFlag 2 8 3) ∧
    ∃ i rule, FirstFault faulty i rule (.unknownFlag 2 8 3) := by
  intro wide zero fine faulty
  have failed : Store.build faulty = .error (.unknownFlag 2 8 3) := rfl
  have kept : ∃ store, Store.build fine = .ok store := by
    refine (Store.build_obeys_rules fine).1.mpr ⟨by decide, fun r hr => ?_⟩
    simp only [fine, List.mem_cons, List.not_mem_nil, or_false] at hr
    rcases hr with rfl | rfl
    · exact ⟨Or.inr rfl, zero, rfl, Nat.zero_le _, nofun⟩
    · exact ⟨Or.inl rfl, zero, rfl, Nat.zero_le _, nofun⟩
  obtain ⟨store, built⟩ := kept
  obtain ⟨entries, counts⟩ := (Store.build_obeys_rules fine).2.1 store built
  have size : store.size = 2 := entries.length_eq.symm
  exact ⟨⟨store, built, size, size ▸ counts⟩, failed,
    ((Store.build_obeys_rules faulty).2.2 _).mp failed⟩

end InternalCall
