import InternalCall.Proofs.Header.Validation
import InternalCall.Proofs.Table.Rules

/-!
# Validation and construction share their rules

A table can be validated before its symbols are linked, and a store is built
after. Both hold the entries to the same two rules: tokens ascend, and every flag
byte selects a convention. Whatever natives are put in the place of the symbols,
as long as they break no rule of their own, a table is valid exactly when it makes
a store. The two differ in one point only. Validation looks at the order of the
whole table first, construction looks at one record after the other; so if an
unknown flag byte comes before the first token out of order, each reports the
fault that it meets first.
-/

namespace InternalCall

namespace AssemblyTable

/-- The records of the table with natives in the place of the symbols. -/
def recordsWith (t : AssemblyTable) (native : Nat → Native) : List Record :=
  t.entries.toList.mapIdx fun i e => ⟨e.token, some (native i), e.flags⟩

/-- The tokens of the table first stop ascending there. -/
structure FirstDisorder (t : AssemblyTable) (d : Disorder) : Prop where
  /-- The tokens stop ascending there. -/
  occurs : d.In (t.entries.toList.map TableEntry.token)
  /-- They do not stop ascending before. -/
  least : ∀ d' : Disorder, d'.In (t.entries.toList.map TableEntry.token) → d.index ≤ d'.index

/-- The entry at the position is the first whose flag byte selects no convention. -/
structure FirstUnknownFlag (t : AssemblyTable) (j : Nat) (e : TableEntry) : Prop where
  /-- The entry stands at the position. -/
  stands : t.entries[j]? = some e
  /-- Its flag byte selects no convention. -/
  unknown : e.convention? = none
  /-- The flag byte of every entry before it does. -/
  least : ∀ j' f, t.entries[j']? = some f → f.convention? = none → j ≤ j'

variable {t : AssemblyTable} {native : Nat → Native} {err : BuildError}

theorem FirstDisorder.unique {d d' : Disorder} (h : t.FirstDisorder d)
    (h' : t.FirstDisorder d') : d = d' :=
  h.occurs.unique h'.occurs (Nat.le_antisymm (h.least d' h'.occurs) (h'.least d h.occurs))

theorem FirstUnknownFlag.unique {j j' : Nat} {e e' : TableEntry} (h : t.FirstUnknownFlag j e)
    (h' : t.FirstUnknownFlag j' e') : j = j' ∧ e = e' := by
  have same : j = j' := Nat.le_antisymm (h.least j' e' h'.stands h'.unknown)
    (h'.least j e h.stands h.unknown)
  subst same
  exact ⟨rfl, Option.some.inj (h.stands.symm.trans h'.stands)⟩

theorem firstDisorder?_eq_some_iff_first {d : Disorder} :
    firstDisorder? (t.entries.toList.map TableEntry.token) = some d ↔ t.FirstDisorder d :=
  firstDisorder?_eq_some_iff.trans ⟨fun h => ⟨h.1, h.2⟩, fun h => ⟨h.occurs, h.least⟩⟩

theorem firstUnknownFlag?_eq_some_iff_first :
    firstUnknownFlag? 0 t.entries.toList = some err ↔
      ∃ j e, t.FirstUnknownFlag j e ∧ err = .unknownFlag j e.token e.flags := by
  simp only [firstUnknownFlag?_eq_some_iff, Array.getElem?_toList, Nat.zero_add]
  constructor
  · rintro ⟨j, e, stands, unknown, least, rfl⟩
    exact ⟨j, e, ⟨stands, unknown, least⟩, rfl⟩
  · rintro ⟨j, e, ⟨stands, unknown, least⟩, rfl⟩
    exact ⟨j, e, stands, unknown, least, rfl⟩

/-- Validation reports the first disorder or, if there is none, the first unknown flag byte. -/
theorem validate_eq_error_iff :
    t.validate = .error err ↔
      (∃ d, t.FirstDisorder d ∧ err = .unsorted d.index d.previous d.token) ∨
        (∀ d, ¬ t.FirstDisorder d) ∧
          ∃ j e, t.FirstUnknownFlag j e ∧ err = .unknownFlag j e.token e.flags := by
  simp only [← firstDisorder?_eq_some_iff_first, ← firstUnknownFlag?_eq_some_iff_first, validate]
  cases firstDisorder? (t.entries.toList.map TableEntry.token) with
  | some d => simp [eq_comm]
  | none => cases firstUnknownFlag? 0 t.entries.toList <;> simp

/-! ## The faults of the records of a table -/

theorem getElem?_recordsWith {i : Nat} :
    (t.recordsWith native)[i]? =
      t.entries[i]?.map fun e => ⟨e.token, some (native i), e.flags⟩ := by
  rw [recordsWith, List.getElem?_mapIdx, Array.getElem?_toList]

/-- The records have the tokens of the table. -/
theorem tokens_recordsWith :
    (t.recordsWith native).map Record.token = t.entries.toList.map TableEntry.token := by
  apply List.ext_getElem?
  intro i
  rw [List.getElem?_map, getElem?_recordsWith, Option.map_map, List.getElem?_map,
    Array.getElem?_toList]
  rfl

/-- The natives have no more parameters than a call has slots and may be called with the conventions
of the entries. -/
def Suits (t : AssemblyTable) (native : Nat → Native) : Prop :=
  ∀ i e, t.entries[i]? = some e → (native i).arity ≤ maxArity ∧
    ∀ c, e.convention? = some c → (native i).supports c = true

/-- Tokens out of order and unknown flag bytes are the only faults of the records. -/
theorem fault_recordsWith_iff (suits : t.Suits native) {i : Nat} {rule : Rule} :
    Fault (t.recordsWith native) i rule err ↔
      (rule = .order ∧ ∃ d : Disorder, d.In (t.entries.toList.map TableEntry.token) ∧
        d.index = i ∧ err = .unsorted i d.previous d.token) ∨
      (rule = .flagByte ∧ ∃ e, t.entries[i]? = some e ∧ e.convention? = none ∧
        err = .unknownFlag i e.token e.flags) := by
  rw [Fault, getElem?_recordsWith, tokens_recordsWith]
  constructor
  · rintro ⟨r, hr, breaks⟩
    obtain ⟨e, he, rfl⟩ := Option.map_eq_some_iff.mp hr
    obtain ⟨fits, supported⟩ := suits i e he
    have htoken : (t.entries.toList.map TableEntry.token)[i]? = some e.token := by
      rw [List.getElem?_map, Array.getElem?_toList, he, Option.map_some]
    cases breaks with
    | @order previous after notAbove =>
        exact Or.inl ⟨rfl, ⟨i, previous, e.token⟩, ⟨htoken, after, notAbove⟩, rfl, rfl⟩
    | flagByte notWrapped notRaw =>
        exact Or.inr ⟨rfl, e, he, Convention.ofFlag?_eq_none_iff.mpr ⟨notWrapped, notRaw⟩, rfl⟩
    | presence missing => cases missing
    | arity present tooMany =>
        cases present
        exact absurd fits (Nat.not_le.mpr tooMany)
    | convention present managed raw =>
        cases present
        have hraw : e.convention? = some .raw := Convention.ofFlag?_eq_some_iff.mpr raw
        exact absurd (supported .raw hraw) (Native.not_supports_iff.mpr ⟨rfl, managed⟩)
  · rintro (⟨rfl, d, occurs, rfl, rfl⟩ | ⟨rfl, e, he, unknown, rfl⟩)
    · obtain ⟨e, he, htoken⟩ : ∃ e, t.entries[d.index]? = some e ∧ e.token = d.token := by
        have h := occurs.token_eq
        rw [List.getElem?_map, Array.getElem?_toList] at h
        exact Option.map_eq_some_iff.mp h
      refine ⟨_, Option.map_eq_some_iff.mpr ⟨e, he, rfl⟩, ?_⟩
      rw [← htoken]
      exact .order occurs.previous_eq (htoken ▸ occurs.notAbove)
    · obtain ⟨notWrapped, notRaw⟩ := Convention.ofFlag?_eq_none_iff.mp unknown
      exact ⟨_, Option.map_eq_some_iff.mpr ⟨e, he, rfl⟩, .flagByte notWrapped notRaw⟩

/-- What construction reports is the first disorder or the first unknown flag byte, whichever comes
first; at one position the disorder does. -/
theorem firstOfBoth_of_build (suits : t.Suits native)
    (failed : Store.build (t.recordsWith native) = .error err) :
    (∃ d, t.FirstDisorder d ∧ (∀ j e, t.FirstUnknownFlag j e → d.index ≤ j) ∧
      err = .unsorted d.index d.previous d.token) ∨
    ∃ j e, t.FirstUnknownFlag j e ∧ (∀ d, t.FirstDisorder d → j < d.index) ∧
      err = .unknownFlag j e.token e.flags := by
  obtain ⟨i, rule, fault, position_le, rank_le⟩ := Store.firstFault_of_build failed
  have disordered : ∀ d : Disorder, d.In (t.entries.toList.map TableEntry.token) →
      Fault (t.recordsWith native) d.index .order (.unsorted d.index d.previous d.token) :=
    fun d occurs => (fault_recordsWith_iff suits).mpr (Or.inl ⟨rfl, d, occurs, rfl, rfl⟩)
  have unknown_le : ∀ j e, t.entries[j]? = some e → e.convention? = none → i ≤ j :=
    fun j e stands unknown => position_le j .flagByte _ ((fault_recordsWith_iff suits).mpr
      (Or.inr ⟨rfl, e, stands, unknown, rfl⟩))
  rcases (fault_recordsWith_iff suits).mp fault with ⟨rfl, d, occurs, rfl, rfl⟩ |
    ⟨rfl, e, stands, unknown, rfl⟩
  · have first : t.FirstDisorder d :=
      ⟨occurs, fun d' occurs' => position_le _ _ _ (disordered d' occurs')⟩
    exact Or.inl ⟨d, first, fun j e h => unknown_le j e h.stands h.unknown, rfl⟩
  · refine Or.inr ⟨i, e, ⟨stands, unknown, unknown_le⟩, fun d first => ?_, rfl⟩
    -- at the same position the order would have been reported, which comes before the flag byte
    refine Nat.lt_of_le_of_ne (position_le _ _ _ (disordered d first.occurs)) ?_
    rintro rfl
    exact absurd (rank_le _ _ (disordered d first.occurs)) (by decide)

/-- Construction accepts the tables that validation accepts. -/
theorem exists_build_recordsWith_iff (suits : t.Suits native) :
    (∃ store, Store.build (t.recordsWith native) = .ok store) ↔ t.validate = .ok () := by
  rw [Store.exists_build_iff, tokens_recordsWith, validate_eq_ok_iff]
  refine and_congr_right fun _ => ⟨fun makes e he => ?_, fun known r hr => ?_⟩
  · obtain ⟨i, hi⟩ := List.mem_iff_getElem?.mp he
    rw [Array.getElem?_toList] at hi
    have hr : (t.recordsWith native)[i]? = some ⟨e.token, some (native i), e.flags⟩ := by
      rw [getElem?_recordsWith, hi, Option.map_some]
    obtain ⟨f, hf⟩ := makes _ (List.mem_of_getElem? hr)
    rw [TableEntry.convention?, hf.convention_eq]
    exact Option.some_ne_none _
  · obtain ⟨i, hi⟩ := List.mem_iff_getElem?.mp hr
    rw [getElem?_recordsWith] at hi
    obtain ⟨e, he, rfl⟩ := Option.map_eq_some_iff.mp hi
    obtain ⟨c, hc⟩ := Option.ne_none_iff_exists'.mp
      (known e (Array.mem_def.mp (Array.mem_of_getElem? he)))
    obtain ⟨fits, supported⟩ := suits i e he
    exact ⟨⟨e.token, native i, c⟩, rfl, rfl, hc, fits, supported c hc⟩

/-- Construction reports the first disorder if no unknown flag byte comes before it, and the first
unknown flag byte if that comes before every disorder. -/
theorem build_recordsWith_eq_error_iff (suits : t.Suits native) :
    Store.build (t.recordsWith native) = .error err ↔
      (∃ d, t.FirstDisorder d ∧ (∀ j e, t.FirstUnknownFlag j e → d.index ≤ j) ∧
        err = .unsorted d.index d.previous d.token) ∨
      ∃ j e, t.FirstUnknownFlag j e ∧ (∀ d, t.FirstDisorder d → j < d.index) ∧
        err = .unknownFlag j e.token e.flags := by
  refine ⟨firstOfBoth_of_build suits, fun reported => ?_⟩
  cases hb : Store.build (t.recordsWith native) with
  | ok store =>
      have sound := Store.not_fault_of_build hb
      rcases reported with ⟨d, disorder, -, rfl⟩ | ⟨j, e, unknown, -, rfl⟩
      · exact absurd ((fault_recordsWith_iff suits).mpr
          (Or.inl ⟨rfl, d, disorder.occurs, rfl, rfl⟩)) (sound _ _ _)
      · exact absurd ((fault_recordsWith_iff suits).mpr
          (Or.inr ⟨rfl, e, unknown.stands, unknown.unknown, rfl⟩)) (sound _ _ _)
  | error err' =>
      rcases reported with ⟨d, disorder, first, rfl⟩ | ⟨j, e, unknown, first, rfl⟩ <;>
        rcases firstOfBoth_of_build suits hb with ⟨d', disorder', first', rfl⟩ |
          ⟨j', e', unknown', first', rfl⟩
      · rw [disorder.unique disorder']
      · exact absurd (first j' e' unknown') (Nat.not_le.mpr (first' d disorder))
      · exact absurd (first' j e unknown) (Nat.not_le.mpr (first d' disorder'))
      · obtain ⟨rfl, rfl⟩ := unknown.unique unknown'
        rfl

/-- A table is valid exactly when, with natives that break no rule of their own, it makes a store. If
it is not, both report the same error, unless an unknown flag byte comes before the first disorder;
then validation reports the disorder and construction the flag byte. -/
theorem validate_agrees_with_build (t : AssemblyTable) (native : Nat → Native)
    (suits : t.Suits native) :
    (t.validate = .ok () ↔ ∃ store, Store.build (t.recordsWith native) = .ok store) ∧
    (∀ d j e, t.FirstDisorder d → t.FirstUnknownFlag j e → j < d.index →
      t.validate = .error (.unsorted d.index d.previous d.token) ∧
      Store.build (t.recordsWith native) = .error (.unknownFlag j e.token e.flags)) ∧
    ((∀ d j e, t.FirstDisorder d → t.FirstUnknownFlag j e → d.index ≤ j) →
      ∀ err, t.validate = .error err ↔ Store.build (t.recordsWith native) = .error err) := by
  refine ⟨(exists_build_recordsWith_iff suits).symm, fun d j e disorder unknown before => ⟨?_, ?_⟩,
    fun together err => ?_⟩
  · exact validate_eq_error_iff.mpr (Or.inl ⟨d, disorder, rfl⟩)
  · have first : ∀ d', t.FirstDisorder d' → j < d'.index := by
      intro d' disorder'
      rwa [disorder'.unique disorder]
    exact (build_recordsWith_eq_error_iff suits).mpr (Or.inr ⟨j, e, unknown, first, rfl⟩)
  · rw [validate_eq_error_iff, build_recordsWith_eq_error_iff suits]
    constructor
    · rintro (⟨d, disorder, rfl⟩ | ⟨ordered, j, e, unknown, rfl⟩)
      · exact Or.inl ⟨d, disorder, fun j e => together d j e disorder, rfl⟩
      · exact Or.inr ⟨j, e, unknown, fun d disorder => absurd disorder (ordered d), rfl⟩
    · rintro (⟨d, disorder, -, rfl⟩ | ⟨j, e, unknown, first, rfl⟩)
      · exact Or.inl ⟨d, disorder, rfl⟩
      · have ordered : ∀ d, ¬ t.FirstDisorder d := fun d disorder =>
          Nat.not_lt.mpr (together d j e disorder unknown) (first d disorder)
        exact Or.inr ⟨ordered, j, e, unknown, rfl⟩

/-- The second flag byte is unknown and the third token out of order: validation reports the token,
construction the flag byte. -/
theorem validate_agrees_with_build_flag_before_disorder :
    let t : AssemblyTable := ⟨"core", #[⟨5, "core_a", none, 4⟩, ⟨9, "core_b", none, 7⟩,
      ⟨8, "core_c", none, 0⟩]⟩
    let native : Nat → Native := fun _ => .allInteger 8 ⟨"routine", fun _ => .ok 0⟩
    t.Suits native ∧ t.validate = .error (.unsorted 2 9 8) ∧
      Store.build (t.recordsWith native) = .error (.unknownFlag 1 9 7) := by
  intro t native
  have suits : t.Suits native := by
    intro i e _
    exact ⟨by decide, fun c _ => by cases c <;> rfl⟩
  have disorder : t.FirstDisorder ⟨2, 9, 8⟩ := firstDisorder?_eq_some_iff_first.mp rfl
  have unknown : t.FirstUnknownFlag 1 ⟨9, "core_b", none, 7⟩ := by
    refine ⟨rfl, rfl, fun j f hf hunknown => ?_⟩
    cases j with
    | zero =>
        cases hf
        cases hunknown
    | succ j => exact Nat.le_add_left 1 j
  exact ⟨suits, (validate_agrees_with_build t native suits).2.1 _ _ _ disorder unknown (by decide)⟩

end AssemblyTable

end InternalCall
