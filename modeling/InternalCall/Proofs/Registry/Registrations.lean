import InternalCall.Proofs.Registry.Catalog
import InternalCall.Proofs.Except
import InternalCall.Registry.Link

/-!
# Only the last registrations decide

Linking a table asks the catalog for the symbols that the table names and for
nothing else. So histories of registrations with the same last registration under
each of these symbols link the table alike, in whatever order they registered,
what they replaced and what else they offer.
-/

namespace InternalCall

/-- Linking an entry asks the catalog for the entry's symbol only. -/
theorem TableEntry.link_congr {e : TableEntry} {catalog catalog' : Catalog}
    (agree : catalog.get? e.symbol = catalog'.get? e.symbol) :
    e.link catalog = e.link catalog' := by
  rw [link, link, agree]

variable {t : AssemblyTable} {catalog catalog' : Catalog}
  (agree : ∀ e ∈ t.entries, catalog.get? e.symbol = catalog'.get? e.symbol)
include agree

/-- Linking a table asks the catalog for the symbols that the table names only. -/
theorem AssemblyTable.link_congr : t.link catalog = t.link catalog' :=
  mapM_congr fun e he => TableEntry.link_congr (agree e (Array.mem_def.mpr he))

theorem Registry.ofTable_congr (settings : Settings) :
    ofTable t catalog settings = ofTable t catalog' settings := by
  rw [ofTable, ofTable, AssemblyTable.link_congr agree]

/-- Loading a table does not show which of the catalogs it was linked against. -/
theorem Registry.loadTable_congr {σ : Type} (settings : Settings) :
    (loadTable t catalog settings : Exec σ _) = loadTable t catalog' settings := by
  rw [loadTable, loadTable, AssemblyTable.link_congr agree]

omit agree

/-- Registrations count no further than the last under each symbol. Two histories that agree on the
last registration under every symbol that a table names link it alike, to the same records or the same
error, and give the same registry or error with the same log. A catalog has as many natives as distinct
symbols were registered, contains exactly these, and answers with the native of the last registration. -/
theorem Catalog.last_registrations_decide :
    (∀ (t : AssemblyTable) (registrations registrations' : List (String × Native)),
      (∀ e ∈ t.entries, lastRegistered? registrations e.symbol =
        lastRegistered? registrations' e.symbol) →
      t.link (.ofList registrations) = t.link (.ofList registrations') ∧
      ∀ settings,
        Registry.ofTable t (.ofList registrations) settings =
          Registry.ofTable t (.ofList registrations') settings ∧
        ∀ {σ : Type} (s : σ), Registry.loadTable t (.ofList registrations) settings s =
          Registry.loadTable t (.ofList registrations') settings s) ∧
    ∀ registrations : List (String × Native),
      (Catalog.ofList registrations).size = (registrations.map Prod.fst).toFinset.card ∧
      ∀ symbol,
        ((Catalog.ofList registrations).contains symbol = true ↔
          symbol ∈ registrations.map Prod.fst) ∧
        ∀ native, (Catalog.ofList registrations).get? symbol = some native ↔
          ∃ before after, registrations = before ++ (symbol, native) :: after ∧
            ∀ r ∈ after, r.1 ≠ symbol := by
  refine ⟨fun t registrations registrations' same => ?_, fun registrations =>
    ⟨size_ofList registrations, fun symbol => ⟨contains_iff.trans mem_symbols_ofList,
      fun native => ?_⟩⟩⟩
  · have agree : ∀ e ∈ t.entries, (ofList registrations).get? e.symbol =
        (ofList registrations').get? e.symbol := by
      intro e he
      rw [get?_ofList, get?_ofList, same e he]
    exact ⟨AssemblyTable.link_congr agree, fun settings =>
      ⟨Registry.ofTable_congr agree settings, fun s =>
        congrFun (Registry.loadTable_congr agree settings) s⟩⟩
  · rw [get?_ofList]
    exact lastRegistered?_eq_some_iff

/-- Two histories that order, replace and offer differently but end on the same natives for the two
symbols of a table, and on none for a third: the table gives one registry, and with the third symbol
one error. -/
theorem Catalog.last_registrations_decide_reordered :
    let old : Native := .allInteger 1 ⟨"old", fun _ => .ok 0⟩
    let new : Native := .returnsHandle 1 ⟨"new", fun _ => .ok ⟨4096⟩⟩
    let echo : Native := .managed 2 ⟨"echo", fun args => .ret (args.headD .void)⟩
    let history : List (String × Native) := [("get", old), ("set", echo), ("get", new)]
    let other : List (String × Native) :=
      [("get", echo), ("put", old), ("get", new), ("set", old), ("set", echo)]
    let sound : List TableEntry := [⟨7, "get", some (.allInt 1), 4⟩, ⟨9, "set", none, 0⟩]
    let faulty : List TableEntry := sound ++ [⟨11, "gone", none, 0⟩]
    let linked : AssemblyTable := ⟨"corlib", sound.toArray⟩
    let stopped : AssemblyTable := ⟨"corlib", faulty.toArray⟩
    (∀ e ∈ stopped.entries, lastRegistered? other e.symbol = lastRegistered? history e.symbol) ∧
      linked.link (.ofList other) = .ok [⟨7, some new, 4⟩, ⟨9, some echo, 0⟩] ∧
      Registry.ofTable linked (.ofList other) {} = .ok ⟨⟨#[⟨7, new, .raw⟩, ⟨9, echo, .wrapped⟩]⟩, {}⟩ ∧
      Registry.ofTable stopped (.ofList other) {} = .error (.unknownSymbol 11 "gone") ∧
      (ofList other).size = 3 := by
  intro old new echo history other sound faulty linked stopped
  have last : ∀ e ∈ stopped.entries,
      lastRegistered? other e.symbol = lastRegistered? history e.symbol := by
    intro e he
    simp only [stopped, faulty, sound, List.mem_toArray, List.mem_append, List.mem_cons,
      List.not_mem_nil, or_false] at he
    rcases he with (rfl | rfl) | rfl <;> rfl
  have part : ∀ e ∈ linked.entries, e ∈ stopped.entries := by
    intro e he
    exact List.mem_toArray.mpr (List.mem_append_left _ (List.mem_toArray.mp he))
  obtain ⟨links, registries⟩ := Catalog.last_registrations_decide.1 linked other history
    fun e he => last e (part e he)
  obtain ⟨-, errors⟩ := Catalog.last_registrations_decide.1 stopped other history last
  refine ⟨last, links.trans rfl, (registries {}).1.trans rfl, (errors {}).1.trans rfl, ?_⟩
  rw [(Catalog.last_registrations_decide.2 other).1]
  decide

end InternalCall
