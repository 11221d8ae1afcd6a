import InternalCall.Proofs.Header.Printed
import InternalCall.Proofs.Header.Recognition
import InternalCall.Proofs.Lookup
import Mathlib.Data.List.Nodup

/-!
# Reading back what is written

The text of a header is spelled by the parts of its tables. These parts are
consistent, and they amount to the tables again, if the assemblies are distinct
and a symbol is declared alike wherever it occurs: the text gives one prototype for
all the entries of a symbol.
-/

namespace InternalCall.Header

open Text

/-- All entries of a header. -/
def entriesOf (h : Header) : List TableEntry := h.tables.flatMap fun t => t.entries.toList

/-- What a header needs to be read back from its text. -/
structure Readable (h : Header) : Prop where
  /-- The assemblies are distinct. -/
  distinct : (h.tables.map AssemblyTable.name).Nodup
  /-- Each table can be written. -/
  legible : ∀ t ∈ h.tables, Legible t
  /-- Equal symbols have the same signature, or both have none. -/
  shared : ∀ e ∈ entriesOf h, ∀ f ∈ entriesOf h, e.symbol = f.symbol → e.signature? = f.signature?

instance (h : Header) : Decidable (Readable h) :=
  decidable_of_iff ((h.tables.map AssemblyTable.name).Nodup ∧ (∀ t ∈ h.tables, Legible t) ∧
      ∀ e ∈ entriesOf h, ∀ f ∈ entriesOf h, e.symbol = f.symbol → e.signature? = f.signature?)
    ⟨fun h => ⟨h.1, h.2.1, h.2.2⟩, fun h => ⟨h.distinct, h.legible, h.shared⟩⟩

section Table

variable {t : AssemblyTable} {a : String} {α : Type}

/-- The prototypes among the parts of a table can be left out where they have no effect. -/
theorem filterMap_partsOf (f : Part → Option α) (hf : ∀ symbol s, f (.prototype symbol s) = none) :
    (partsOf t).filterMap f = [Part.declaration t.name,
      .block t.name (.indexes (t.entries.toList.map TableEntry.token)),
      .block t.name (.funcs (t.entries.toList.map announcedOf)),
      .block t.name (.flags (t.entries.toList.map TableEntry.flags))].filterMap f := by
  have hnil : (t.entries.toList.filterMap prototypeOf?).filterMap f = [] := by
    apply List.filterMap_eq_nil_iff.mpr
    intro part hp
    obtain ⟨e, -, he⟩ := List.mem_filterMap.mp hp
    obtain ⟨s, -, rfl⟩ := Option.map_eq_some_iff.mp he
    exact hf e.symbol s
  simp only [partsOf, List.filterMap_append, hnil, List.append_nil]
  simp only [← List.filterMap_append]
  rfl

/-- A table gives the items of its three arrays, and none to any other assembly. -/
theorem flatMap_items {f : Body → List α} : (partsOf t).flatMap (Part.items f a) =
    if t.name = a then f (.indexes (t.entries.toList.map TableEntry.token)) ++
      (f (.funcs (t.entries.toList.map announcedOf)) ++
        f (.flags (t.entries.toList.map TableEntry.flags)))
    else [] := by
  have hnil : (t.entries.toList.filterMap prototypeOf?).flatMap (Part.items f a) = [] := by
    apply List.flatMap_eq_nil_iff.mpr
    intro part hp
    obtain ⟨e, -, he⟩ := List.mem_filterMap.mp hp
    obtain ⟨s, -, rfl⟩ := Option.map_eq_some_iff.mp he
    rfl
  simp only [partsOf, List.flatMap_append, hnil, List.flatMap_singleton, Part.items]
  by_cases ha : t.name = a
  · simp only [ha, if_true, List.nil_append, List.append_nil, List.append_assoc]
  · simp only [ha, if_false, List.append_nil]

theorem filterMap_prototype? : (partsOf t).filterMap Part.prototype? =
    t.entries.toList.filterMap fun e => e.signature?.map (e.symbol, ·) := by
  have hp : (t.entries.toList.filterMap prototypeOf?).filterMap Part.prototype? =
      t.entries.toList.filterMap fun e => e.signature?.map (e.symbol, ·) := by
    rw [List.filterMap_filterMap]
    congr 1
    funext e
    rw [prototypeOf?]
    cases e.signature? <;> rfl
  simp only [partsOf, List.filterMap_append, hp]
  change [] ++ [] ++ _ ++ [] ++ [] = _
  simp only [List.nil_append, List.append_nil]

end Table

section Tables

variable {tables : List AssemblyTable} {t : AssemblyTable}

theorem arrays_partsOf : arrays (tables.flatMap partsOf) =
    tables.flatMap fun u => [ArrayKind.indexes, .funcs, .flags].map (u.name, ·) := by
  rw [arrays, List.filterMap_flatMap]
  congr 1
  funext u
  exact filterMap_partsOf Part.array? fun _ _ => rfl

theorem mem_arrays_partsOf (ht : t ∈ tables) (array : ArrayKind) :
    (t.name, array) ∈ arrays (tables.flatMap partsOf) := by
  rw [arrays_partsOf]
  refine List.mem_flatMap.mpr ⟨t, ht, List.mem_map_of_mem ?_⟩
  cases array <;> decide

theorem nodup_arrays_partsOf (h : (tables.map AssemblyTable.name).Nodup) :
    (arrays (tables.flatMap partsOf)).Nodup := by
  have he : arrays (tables.flatMap partsOf) =
      (tables.map AssemblyTable.name).product [ArrayKind.indexes, .funcs, .flags] := by
    rw [arrays_partsOf, List.product, List.flatMap_map]
  rw [he]
  exact h.product (by decide)

/-- A name of distinct names selects its own table. -/
theorem flatMap_of_distinct {α : Type} {f : AssemblyTable → List α}
    (h : (tables.map AssemblyTable.name).Nodup) (ht : t ∈ tables)
    (hf : ∀ u, u.name ≠ t.name → f u = []) : tables.flatMap f = f t := by
  induction tables with
  | nil => cases ht
  | cons u rest ih =>
      obtain ⟨hu, hrest⟩ := List.nodup_cons.mp h
      rw [List.flatMap_cons]
      rcases List.mem_cons.mp ht with rfl | ht
      · have hnil : rest.flatMap f = [] := by
          apply List.flatMap_eq_nil_iff.mpr
          intro v hv
          exact hf v fun he => hu (he ▸ List.mem_map_of_mem hv)
        rw [hnil, List.append_nil]
      · have hne : u.name ≠ t.name := fun he => hu (he ▸ List.mem_map_of_mem ht)
        rw [hf u hne, List.nil_append]
        exact ih hrest ht

theorem mentioned_partsOf (h : (tables.map AssemblyTable.name).Nodup) :
    mentioned (tables.flatMap partsOf) = tables.map AssemblyTable.name := by
  rw [mentioned, List.filterMap_flatMap]
  have hnames : ∀ u, (partsOf u).filterMap Part.assembly? = [u.name, u.name, u.name, u.name] :=
    fun _ => filterMap_partsOf Part.assembly? fun _ _ => rfl
  simp only [hnames]
  induction tables with
  | nil => rfl
  | cons u rest ih =>
      obtain ⟨hu, hrest⟩ := List.nodup_cons.mp h
      have hself : [u.name, u.name, u.name, u.name].eraseDups = [u.name] := by
        simp [List.eraseDups_cons]
      -- No later table mentions the assembly again.
      have hlater : (rest.flatMap fun v => [v.name, v.name, v.name, v.name]).removeAll
          [u.name, u.name, u.name, u.name] =
            rest.flatMap fun v => [v.name, v.name, v.name, v.name] := by
        apply List.filter_eq_self.mpr
        intro a ha
        obtain ⟨v, hv, hm⟩ := List.mem_flatMap.mp ha
        have hn : a = v.name := by simpa using hm
        have hne : a ≠ u.name := fun he => hu (he ▸ hn ▸ List.mem_map_of_mem hv)
        simpa using hne
      rw [List.flatMap_cons, List.eraseDups_append, hself, hlater, ih hrest, List.map_cons]
      rfl

variable (h : (tables.map AssemblyTable.name).Nodup) (ht : t ∈ tables)

include h ht

theorem itemsOf_partsOf {α : Type} {f : Body → List α} :
    itemsOf (tables.flatMap partsOf) f t.name =
      f (.indexes (t.entries.toList.map TableEntry.token)) ++
        (f (.funcs (t.entries.toList.map announcedOf)) ++
          f (.flags (t.entries.toList.map TableEntry.flags))) := by
  rw [itemsOf, List.flatMap_assoc, flatMap_of_distinct h ht]
  · rw [flatMap_items, if_pos rfl]
  · intro u hu
    rw [flatMap_items, if_neg hu]

theorem tokensOf_partsOf :
    tokensOf (tables.flatMap partsOf) t.name = t.entries.toList.map TableEntry.token :=
  (itemsOf_partsOf h ht).trans (List.append_nil _)

theorem symbolsOf_partsOf :
    symbolsOf (tables.flatMap partsOf) t.name = t.entries.toList.map announcedOf :=
  (itemsOf_partsOf h ht).trans (List.append_nil _)

theorem flagsOf_partsOf :
    flagsOf (tables.flatMap partsOf) t.name = t.entries.toList.map TableEntry.flags :=
  itemsOf_partsOf h ht

end Tables

/-- The last prototype of a symbol is the signature of any of its entries. -/
theorem prototypeOf_partsOf {h : Header} (hr : Readable h) {e : TableEntry}
    (he : e ∈ entriesOf h) :
    prototypeOf (h.tables.flatMap partsOf) e.symbol = e.signature? := by
  have hpairs : (h.tables.flatMap partsOf).filterMap Part.prototype? =
      (entriesOf h).filterMap fun f => f.signature?.map (f.symbol, ·) := by
    rw [List.filterMap_flatMap, entriesOf, List.filterMap_flatMap]
    simp only [filterMap_prototype?]
  have hpair : ∀ pair ∈ (entriesOf h).filterMap fun f => f.signature?.map (f.symbol, ·),
      pair.1 = e.symbol → some pair.2 = e.signature? := by
    intro pair hp hs
    obtain ⟨f, hf, hm⟩ := List.mem_filterMap.mp hp
    obtain ⟨s, hsig, rfl⟩ := Option.map_eq_some_iff.mp hm
    rw [← hr.shared f hf e he hs, hsig]
  rw [prototypeOf, hpairs]
  refine lookup_eq_of_only (fun pair hp => hpair pair (List.mem_reverse.mp hp)) fun s hs => ?_
  refine List.mem_reverse.mpr (List.mem_filterMap.mpr ⟨e, he, ?_⟩)
  rw [hs]
  rfl

/-- The parts of distinct tables amount to the tables again. -/
theorem tableOf_partsOf {h : Header} (hr : Readable h) {t : AssemblyTable} (ht : t ∈ h.tables) :
    tableOf (h.tables.flatMap partsOf) t.name = t := by
  have hentry : ∀ e ∈ t.entries.toList,
      entryOf (h.tables.flatMap partsOf) (e.token, announcedOf e, e.flags) = e := by
    intro e he
    have hs := prototypeOf_partsOf hr (List.mem_flatMap.mpr ⟨t, ht, he⟩)
    rw [entryOf, announcedOf, hs]
  rw [tableOf, tokensOf_partsOf hr.distinct ht, symbolsOf_partsOf hr.distinct ht,
    flagsOf_partsOf hr.distinct ht]
  simp only [List.zip_map', List.map_map]
  have hmap : t.entries.toList.map (entryOf (h.tables.flatMap partsOf) ∘
      fun e => (e.token, announcedOf e, e.flags)) = t.entries.toList :=
    (List.map_congr_left hentry).trans (List.map_id _)
  rw [hmap]

theorem ofParts_partsOf {h : Header} (hr : Readable h) : ofParts (h.tables.flatMap partsOf) = h := by
  have ht : (h.tables.map AssemblyTable.name).map (tableOf (h.tables.flatMap partsOf)) =
      h.tables := by
    rw [List.map_map]
    exact (List.map_congr_left fun t ht => tableOf_partsOf hr ht).trans (List.map_id _)
  rw [ofParts, mentioned_partsOf hr.distinct, ht]

/-- Every table gives its three arrays once, and announces each symbol with its own token. -/
theorem consistent_partsOf {h : Header} (hr : Readable h) :
    Consistent (h.tables.flatMap partsOf) := by
  refine ⟨nodup_arrays_partsOf hr.distinct, ?_⟩
  intro assembly ha
  rw [mentioned_partsOf hr.distinct] at ha
  obtain ⟨t, ht, rfl⟩ := List.mem_map.mp ha
  have hsymbols := symbolsOf_partsOf hr.distinct ht
  have htokens := tokensOf_partsOf hr.distinct ht
  refine ⟨mem_arrays_partsOf ht, ?_, ?_⟩
  · rw [hsymbols, htokens, flagsOf_partsOf hr.distinct ht]
    simp only [List.length_map, and_self]
  · intro position s comment hs hc
    rw [hsymbols, List.getElem?_map] at hs
    obtain ⟨e, he, rfl⟩ := Option.map_eq_some_iff.mp hs
    rw [htokens, List.getElem?_map, he]
    exact hc

/-- A header whose assemblies are distinct and have proper names, whose symbols are proper names
and are declared alike wherever they occur, and whose natives return no addresses is read back from
its text without change. -/
theorem parse_render {h : Header} (hr : Readable h) : parse h.render = .ok h := by
  have hs := spells_render hr.legible
  have := parse_of_spells hs (consistent_partsOf hr)
  rwa [ofParts_partsOf hr] at this

/-- A header with the name of one array in the name of an assembly, symbols that look like types
and numbers, a symbol in two tables, tokens out of order and an empty table. -/
def crowdedHeader : Header where
  tables := [
    ⟨"a_icall_flags", #[⟨7, "int", some ⟨[.int, .handle], .void⟩, 4⟩, ⟨3, "42", none, 255⟩]⟩,
    ⟨"a", #[⟨0, "int", some ⟨[.int, .handle], .void⟩, 0⟩, ⟨4294967295, "token", none, 9⟩]⟩,
    ⟨"_", #[]⟩]

theorem parse_render_crowdedHeader :
    Readable crowdedHeader ∧ parse crowdedHeader.render = .ok crowdedHeader := by
  have hr : Readable crowdedHeader := by decide
  exact ⟨hr, parse_render hr⟩

end InternalCall.Header
