import InternalCall.Settings.Document
import InternalCall.Proofs.Lookup
import InternalCall.Proofs.Toml.Names
import Mathlib.Data.List.Nodup
import Mathlib.Data.List.Perm.Basic
import Mathlib.Data.Option.Basic

/-!
# What settings documents give

A document is read into a table of entries in which no name occurs twice. The table
gives settings exactly if it has no names but the three that are known and each of
them stands for a value, and then a setting is the value under its name or, without
an entry, its default. This speaks of the entries of the table and not of their
order, and the only tables that give nothing have an unknown name or an item that
stands for no value.
-/

namespace InternalCall

open Toml (Item Entries)

/-! ## What items stand for -/

/-- The item names the action: by the name of the action, or as a table whose only entry has this
name and nothing in it. -/
inductive NamesAction : Item → FatalAction → Prop where
  | string {action : FatalAction} : NamesAction (.string action.name) action
  | table {form : Toml.TableForm} {action : FatalAction} {item : Item} :
      item.isVacant = true → NamesAction (.table form [(action.name, item)]) action

/-- The item is the truth value. -/
inductive IsBoolean : Item → Bool → Prop where
  | boolean {b : Bool} : IsBoolean (.boolean b) b

theorem FatalAction.ofName?_eq_some_iff {name : String} {action : FatalAction} :
    ofName? name = some action ↔ name = action.name := by
  constructor
  · intro h
    rw [ofName?] at h
    split at h
    · next ha =>
        cases h
        exact ha
    · split at h
      · next hp =>
          cases h
          exact hp
      · cases h
  · rintro rfl
    cases action <;> decide

theorem FatalAction.ofItem?_eq_some_iff {item : Item} {action : FatalAction} :
    ofItem? item = some action ↔ NamesAction item action := by
  constructor
  · intro h
    rw [ofItem?.eq_def] at h
    split at h
    · obtain rfl := ofName?_eq_some_iff.mp h
      exact .string
    · split at h
      · next vacant =>
          obtain rfl := ofName?_eq_some_iff.mp h
          exact .table vacant
      · cases h
    · cases h
  · intro h
    cases h with
    | string => exact ofName?_eq_some_iff.mpr rfl
    | table vacant =>
        rw [ofItem?, if_pos vacant]
        exact ofName?_eq_some_iff.mpr rfl

theorem Toml.Item.boolean?_eq_some_iff {item : Item} {b : Bool} :
    item.boolean? = some b ↔ IsBoolean item b := by
  constructor
  · intro h
    rw [boolean?.eq_def] at h
    split at h
    · cases h
      exact .boolean
    · cases h
  · rintro ⟨⟩
    rfl

namespace Settings

/-! ## What the entries give -/

/-- The value is what the item under the name stands for, or the given one if nothing stands under
the name. -/
def ValueOf {α : Type} (entries : Entries) (name : String) (StandsFor : Item → α → Prop)
    (ifMissing value : α) : Prop :=
  (∃ item, (name, item) ∈ entries ∧ StandsFor item value) ∨
    (name ∉ entries.names ∧ value = ifMissing)

/-- The entries give the settings. -/
structure Gives (entries : Entries) (s : Settings) : Prop where
  /-- No entry has an unknown name. -/
  known : ∀ e ∈ entries,
    e.1 = "on-unresolved" ∨ e.1 = "check-return-kinds" ∨ e.1 = "trace-calls"
  /-- The action is named, or the default. -/
  onUnresolved : ValueOf entries "on-unresolved" NamesAction
    ({} : Settings).onUnresolved s.onUnresolved
  /-- It is said whether results are checked, or this is the default. -/
  checkReturnKinds : ValueOf entries "check-return-kinds" IsBoolean
    ({} : Settings).checkReturnKinds s.checkReturnKinds
  /-- It is said whether calls are logged, or this is the default. -/
  traceCalls : ValueOf entries "trace-calls" IsBoolean ({} : Settings).traceCalls s.traceCalls

/-- What holds without an entry, name by name, is what holds by default. -/
theorem ifMissing_eq_default :
    onUnresolvedIfMissing = ({} : Settings).onUnresolved ∧
      checkReturnKindsIfMissing = ({} : Settings).checkReturnKinds ∧
      traceCallsIfMissing = ({} : Settings).traceCalls :=
  ⟨rfl, rfl, rfl⟩

variable {entries entries' : Entries}

/-- Among distinct names, an item is found under its name alone. -/
theorem lookup_eq_some_iff_mem (distinct : entries.names.Nodup) {name : String} {item : Item} :
    entries.lookup name = some item ↔ (name, item) ∈ entries := by
  constructor
  · intro h
    obtain ⟨before, after, rfl, -⟩ := List.lookup_eq_some_iff.mp h
    exact List.mem_append_right before List.mem_cons_self
  · intro h
    refine lookup_eq_of_only (fun e he hname => ?_) fun other ho => Option.some.inj ho ▸ h
    rw [List.inj_on_of_nodup_map distinct he h hname]

theorem lookup_eq_none_iff_not_mem {name : String} :
    entries.lookup name = none ↔ name ∉ entries.names := by
  rw [List.lookup_eq_none_iff, Toml.Entries.names, List.mem_map]
  constructor
  · rintro h ⟨e, he, rfl⟩
    simpa using h e he
  · intro h e he
    exact bne_iff_ne.mpr fun same => h ⟨e, he, same.symm⟩

/-- An entry or its absence decides a setting. -/
theorem entryOr_eq_some_iff {α : Type} (distinct : entries.names.Nodup) {name : String}
    {read : Item → Option α} {StandsFor : Item → α → Prop} {ifMissing value : α}
    (reads : ∀ item, read item = some value ↔ StandsFor item value) :
    entryOr entries name read ifMissing = some value ↔
      ValueOf entries name StandsFor ifMissing value := by
  rw [entryOr, ValueOf]
  cases found : entries.lookup name with
  | none =>
      have absent := lookup_eq_none_iff_not_mem.mp found
      have none_given : ∀ item, (name, item) ∉ entries := fun item h =>
        absent (List.mem_map_of_mem h)
      simp [absent, none_given, eq_comm]
  | some item =>
      have given := (lookup_eq_some_iff_mem distinct).mp found
      have present : name ∈ entries.names := List.mem_map_of_mem given
      constructor
      · intro h
        exact .inl ⟨item, given, (reads item).mp h⟩
      · rintro (⟨other, hother, h⟩ | ⟨absent, -⟩)
        · rw [(lookup_eq_some_iff_mem distinct).mpr hother] at found
          cases found
          exact (reads item).mpr h
        · exact absurd present absent

/-- A table with distinct names gives the settings that its entries give, and no others. -/
theorem ofEntries?_eq_some_iff (distinct : entries.names.Nodup) {s : Settings} :
    ofEntries? entries = some s ↔ Gives entries s := by
  obtain ⟨hunresolved, hchecks, htraces⟩ := ifMissing_eq_default
  have action : ∀ a : FatalAction,
      entryOr entries onUnresolvedName FatalAction.ofItem? onUnresolvedIfMissing = some a ↔
        ValueOf entries "on-unresolved" NamesAction ({} : Settings).onUnresolved a :=
    hunresolved ▸ fun _ => entryOr_eq_some_iff distinct fun _ => FatalAction.ofItem?_eq_some_iff
  have checks : ∀ b : Bool,
      entryOr entries checkReturnKindsName Item.boolean? checkReturnKindsIfMissing = some b ↔
        ValueOf entries "check-return-kinds" IsBoolean ({} : Settings).checkReturnKinds b :=
    hchecks ▸ fun _ => entryOr_eq_some_iff distinct fun _ => Item.boolean?_eq_some_iff
  have traces : ∀ b : Bool,
      entryOr entries traceCallsName Item.boolean? traceCallsIfMissing = some b ↔
        ValueOf entries "trace-calls" IsBoolean ({} : Settings).traceCalls b :=
    htraces ▸ fun _ => entryOr_eq_some_iff distinct fun _ => Item.boolean?_eq_some_iff
  have known : (entries.all fun e => e.1 ∈ names) = true ↔ ∀ e ∈ entries,
      e.1 = "on-unresolved" ∨ e.1 = "check-return-kinds" ∨ e.1 = "trace-calls" := by
    simp [names, onUnresolvedName, checkReturnKindsName, traceCallsName]
  by_cases hknown : (entries.all fun e => e.1 ∈ names) = true
  · rw [ofEntries?, guard, if_pos hknown, pure_bind]
    simp only [bind, pure, Option.bind_eq_some_iff, action, checks, traces, Option.some.injEq]
    constructor
    · rintro ⟨a, ha, c, hc, t, ht, rfl⟩
      exact ⟨known.mp hknown, ha, hc, ht⟩
    · rintro ⟨-, ha, hc, ht⟩
      exact ⟨_, ha, _, hc, _, ht, rfl⟩
  · rw [ofEntries?, guard, if_neg hknown]
    constructor
    · intro h
      cases h
    · intro h
      exact absurd (known.mpr h.known) hknown

/-- What the entries give does not depend on their order. -/
theorem Gives.perm {s : Settings} (same : entries.Perm entries') (h : Gives entries s) :
    Gives entries' s := by
  have value : ∀ {α : Type} {name : String} {StandsFor : Item → α → Prop} {ifMissing v : α},
      ValueOf entries name StandsFor ifMissing v → ValueOf entries' name StandsFor ifMissing v := by
    rintro α name StandsFor ifMissing v (⟨item, hi, hv⟩ | ⟨absent, hv⟩)
    · exact .inl ⟨item, same.mem_iff.mp hi, hv⟩
    · exact .inr ⟨mt (same.map Prod.fst).mem_iff.mpr absent, hv⟩
  exact ⟨fun e he => h.known e (same.mem_iff.mpr he), value h.onUnresolved,
    value h.checkReturnKinds, value h.traceCalls⟩

/-- The entry has a known name and, written out plainly, a value for it. -/
def Plain (e : String × Item) : Prop :=
  (e.1 = "on-unresolved" ∧ (e.2 = .string "abort" ∨ e.2 = .string "panic")) ∨
    ((e.1 = "check-return-kinds" ∨ e.1 = "trace-calls") ∧ ∃ b, e.2 = .boolean b)

theorem Plain.exists_namesAction {item : Item} (h : Plain ("on-unresolved", item)) :
    ∃ action, NamesAction item action := by
  rcases h with ⟨-, rfl | rfl⟩ | ⟨hname, -⟩
  · exact ⟨.abort, FatalAction.ofItem?_eq_some_iff.mp rfl⟩
  · exact ⟨.panic, FatalAction.ofItem?_eq_some_iff.mp rfl⟩
  · exact absurd hname (by simp)

theorem Plain.exists_isBoolean {name : String} {item : Item} (h : Plain (name, item))
    (other : name ≠ "on-unresolved") : ∃ b, IsBoolean item b := by
  rcases h with ⟨hname, -⟩ | ⟨-, b, rfl⟩
  · exact absurd hname other
  · exact ⟨b, .boolean⟩

theorem exists_valueOf {α : Type} {name : String} {StandsFor : Item → α → Prop} (ifMissing : α)
    (stands : ∀ item, (name, item) ∈ entries → ∃ value, StandsFor item value) :
    ∃ value, ValueOf entries name StandsFor ifMissing value := by
  by_cases given : name ∈ entries.names
  · obtain ⟨⟨_, item⟩, he, rfl⟩ := List.mem_map.mp given
    obtain ⟨value, hv⟩ := stands item he
    exact ⟨value, .inl ⟨item, he, hv⟩⟩
  · exact ⟨ifMissing, .inr ⟨given, rfl⟩⟩

/-- Plain entries give settings. -/
theorem exists_gives (plain : ∀ e ∈ entries, Plain e) : ∃ s, Gives entries s := by
  have known : ∀ e ∈ entries,
      e.1 = "on-unresolved" ∨ e.1 = "check-return-kinds" ∨ e.1 = "trace-calls" :=
    fun e he => (plain e he).imp And.left And.left
  obtain ⟨a, ha⟩ := exists_valueOf ({} : Settings).onUnresolved fun item he =>
    (plain ("on-unresolved", item) he).exists_namesAction
  obtain ⟨c, hc⟩ := exists_valueOf ({} : Settings).checkReturnKinds fun item he =>
    (plain ("check-return-kinds", item) he).exists_isBoolean (by decide)
  obtain ⟨t, ht⟩ := exists_valueOf ({} : Settings).traceCalls fun item he =>
    (plain ("trace-calls", item) he).exists_isBoolean (by decide)
  exact ⟨⟨a, c, t⟩, known, ha, hc, ht⟩

/-- A table of distinct names gives settings exactly if its entries do: it has no names but the
three, whether calls are logged and results are checked is said by truth values, the action is
named, and a setting without an entry has its default. A text gives settings exactly if it is a
document whose table, in which no name occurs twice, gives them. Documents with the same entries in
another order give the same, and a document with plain entries under these names gives settings. -/
theorem parse_gives_entries :
    (∀ entries : Entries, entries.names.Nodup →
      ∀ s, ofEntries? entries = some s ↔ Gives entries s) ∧
    ∀ text,
      (∀ s, parse text = some s ↔
        ∃ entries, Toml.parse text = some entries ∧ entries.names.Nodup ∧ Gives entries s) ∧
      (∀ text' entries entries', Toml.parse text = some entries →
        Toml.parse text' = some entries' → entries.Perm entries' → parse text' = parse text) ∧
      (∀ entries, Toml.parse text = some entries → (∀ e ∈ entries, Plain e) →
        ∃ s, parse text = some s) := by
  have read : ∀ {text s}, parse text = some s ↔
      ∃ entries, Toml.parse text = some entries ∧ entries.names.Nodup ∧ Gives entries s := by
    intro text s
    rw [parse, Option.bind_eq_some_iff]
    refine exists_congr fun entries => and_congr_right fun document => ?_
    have distinct := Toml.nodup_names_of_parse document
    rw [ofEntries?_eq_some_iff distinct, and_iff_right distinct]
  refine ⟨fun entries distinct s => ofEntries?_eq_some_iff distinct,
    fun text => ⟨fun s => read, ?_, ?_⟩⟩
  · intro text' entries entries' document document' same
    have distinct := Toml.nodup_names_of_parse document
    have distinct' := Toml.nodup_names_of_parse document'
    rw [parse, parse, document, document', Option.bind_some, Option.bind_some]
    refine Option.ext fun s => ?_
    rw [ofEntries?_eq_some_iff distinct, ofEntries?_eq_some_iff distinct']
    exact ⟨Gives.perm same.symm, Gives.perm same⟩
  · intro entries document plain
    obtain ⟨s, hs⟩ := exists_gives plain
    exact ⟨s, read.mpr ⟨entries, document, Toml.nodup_names_of_parse document, hs⟩⟩

/-- The action is the only key of a table, and nothing is said about checking results. -/
example :
    parse "trace-calls = true\non-unresolved.panic = \x7b \x7d" = some ⟨.panic, true, true⟩ := by
  decide +kernel

end Settings

end InternalCall
