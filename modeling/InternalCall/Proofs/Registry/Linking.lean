import InternalCall.Proofs.Call.ContextUse
import InternalCall.Proofs.Registry.Catalog
import InternalCall.Proofs.Registry.Dispatch
import InternalCall.Proofs.Table.Failure
import InternalCall.Registry.Link

/-!
# Linking keeps tokens and symbols together

A linked table gives a registry exactly when every symbol is registered, every
native fits its prototype and the records make a store. The entries of the store
are then those of the table, position by position: each has the token of its
table entry, the native registered under its symbol and the convention of its
flag byte. So looking up a token in the table and resolving it in the registry
lead to the same entry.
-/

namespace InternalCall

/-! ## One entry -/

/-- The native has the shape that the entry declares. A managed native has no shape to compare. -/
def TableEntry.Fits (e : TableEntry) (native : Native) : Prop :=
  ∀ declared registered, e.signature? = some declared → native.signature? = some registered →
    declared.accepts registered = true

/-- The entry of a store stands for the entry of a table: it has its token, the native that is
registered under its symbol, and the convention that its flag byte selects. -/
structure TableEntry.BoundTo (catalog : Catalog) (e : TableEntry) (f : Entry) : Prop where
  /-- The token is kept. -/
  token_eq : f.token = e.token
  /-- The native is the one under the symbol. -/
  native_eq : catalog.get? e.symbol = some f.native
  /-- The convention is that of the flag byte. -/
  convention_eq : e.convention? = some f.convention

/-- Linking an entry is refused for a symbol that is not registered or for a native that does not
fit; otherwise it puts the native in the place of the symbol. -/
theorem TableEntry.link_cases (e : TableEntry) (catalog : Catalog) :
    (catalog.get? e.symbol = none ∧ e.link catalog = .error (.unknownSymbol e.token e.symbol)) ∨
    (∃ native, catalog.get? e.symbol = some native ∧ e.Fits native ∧
      e.link catalog = .ok ⟨e.token, some native, e.flags⟩) ∨
    ∃ native declared registered, catalog.get? e.symbol = some native ∧
      e.signature? = some declared ∧ native.signature? = some registered ∧
      declared.accepts registered = false ∧
      e.link catalog = .error (.signatureMismatch e.token e.symbol declared registered) := by
  unfold TableEntry.link
  cases hc : catalog.get? e.symbol with
  | none => exact Or.inl ⟨rfl, rfl⟩
  | some native =>
      refine Or.inr ?_
      cases hd : e.signature? with
      | none => exact Or.inl ⟨native, rfl, by simp [TableEntry.Fits, hd], rfl⟩
      | some declared =>
          cases hr : native.signature? with
          | none =>
              refine Or.inl ⟨native, rfl, by simp [TableEntry.Fits, hr], ?_⟩
              simp only [hr]
              rfl
          | some registered =>
              cases ha : declared.accepts registered with
              | true =>
                  refine Or.inl ⟨native, rfl, by simp [TableEntry.Fits, hd, hr, ha], ?_⟩
                  simp only [hr, ha]
                  rfl
              | false =>
                  refine Or.inr ⟨native, declared, registered, rfl, rfl, hr, ha, ?_⟩
                  simp only [hr, ha]
                  rfl

/-- An entry is linked exactly when a native that fits is registered under its symbol. -/
theorem TableEntry.link_eq_ok_iff {e : TableEntry} {catalog : Catalog} {r : Record} :
    e.link catalog = .ok r ↔
      ∃ native, catalog.get? e.symbol = some native ∧ e.Fits native ∧
        r = ⟨e.token, some native, e.flags⟩ := by
  rcases e.link_cases catalog with ⟨hc, hl⟩ | ⟨native, hc, hfits, hl⟩ |
    ⟨native, declared, registered, hc, hd, hr, ha, hl⟩
  · simp [hc, hl]
  · simp [hc, hl, hfits, eq_comm]
  · have hfits : ¬ e.Fits native := fun h => by simp [h declared registered hd hr] at ha
    simp [hc, hl, hfits]

/-- Linking an entry is no matter of the rules of a store. -/
theorem TableEntry.link_ne_build (e : TableEntry) (catalog : Catalog) (err : BuildError) :
    e.link catalog ≠ .error (.build err) := by
  rcases e.link_cases catalog with ⟨-, hl⟩ | ⟨_, -, -, hl⟩ | ⟨_, _, _, -, -, -, -, hl⟩ <;> simp [hl]

/-- A linked record that makes an entry binds the entry of the table to it. -/
theorem TableEntry.boundTo_of_makes {catalog : Catalog} {e : TableEntry} {r : Record} {f : Entry}
    (linked : e.link catalog = .ok r) (makes : r.Makes f) : e.BoundTo catalog f := by
  obtain ⟨native, hnative, -, rfl⟩ := TableEntry.link_eq_ok_iff.mp linked
  have hf : native = f.native := Option.some.inj makes.native_eq
  exact ⟨makes.token_eq, hf ▸ hnative, makes.convention_eq⟩

/-! ## A table -/

variable {t : AssemblyTable} {catalog : Catalog}

theorem AssemblyTable.link_ne_build (t : AssemblyTable) (catalog : Catalog) (err : BuildError) :
    t.link catalog ≠ .error (.build err) := by
  intro h
  obtain ⟨-, e, -, -, -, he⟩ := mapM_eq_error_iff.mp h
  exact e.link_ne_build catalog err he

/-- Linked records have the tokens and the flag bytes of the table. -/
theorem AssemblyTable.tokens_flags_of_link {records : List Record}
    (linked : t.link catalog = .ok records) :
    records.map Record.token = t.entries.toList.map TableEntry.token ∧
      records.map Record.flags = t.entries.toList.map TableEntry.flags := by
  have hlinked := mapM_eq_ok_iff.mp linked
  have kept : ∀ (e : TableEntry) (r : Record), e.link catalog = .ok r →
      e.token = r.token ∧ e.flags = r.flags := by
    intro e r he
    obtain ⟨native, -, -, rfl⟩ := TableEntry.link_eq_ok_iff.mp he
    exact ⟨rfl, rfl⟩
  exact ⟨(map_eq_map_of_forall₂ hlinked fun e r he => (kept e r he).1).symm,
    (map_eq_map_of_forall₂ hlinked fun e r he => (kept e r he).2).symm⟩

/-- Position by position, the entries of a table are bound to those that its records make. -/
theorem AssemblyTable.boundTo_of_makes {records : List Record} {entries : List Entry}
    (linked : t.link catalog = .ok records) (makes : List.Forall₂ Record.Makes records entries) :
    List.Forall₂ (TableEntry.BoundTo catalog) t.entries.toList entries := by
  have hlinked := mapM_eq_ok_iff.mp linked
  clear linked
  generalize t.entries.toList = es at hlinked ⊢
  induction hlinked generalizing entries with
  | nil =>
      cases makes
      exact .nil
  | cons he _ ih =>
      cases makes with
      | cons hf hrest => exact .cons (TableEntry.boundTo_of_makes he hf) (ih hrest)

/-- Bound entries have the tokens of the table. -/
theorem tokens_of_boundTo {es : List TableEntry} {fs : List Entry}
    (bound : List.Forall₂ (TableEntry.BoundTo catalog) es fs) :
    fs.map Entry.token = es.map TableEntry.token :=
  (map_eq_map_of_forall₂ bound fun _ _ hb => hb.token_eq.symm).symm

/-! ## A registry -/

namespace Registry

variable {settings : Settings} {registry : Registry}

/-- The registry of a table is that of its linked records. -/
theorem ofTable_eq_ok_iff : ofTable t catalog settings = .ok registry ↔
    ∃ records, t.link catalog = .ok records ∧ build records settings = .ok registry := by
  rw [ofTable, bind_eq_ok_iff]
  refine exists_congr fun records => and_congr_right fun _ => ?_
  cases build records settings <;> simp [Except.mapError]

/-- There is no registry of a table exactly when it cannot be linked, or its linked records are
refused by the rules of a store. -/
theorem ofTable_eq_error_iff {err : LinkError} : ofTable t catalog settings = .error err ↔
    t.link catalog = .error err ∨
      ∃ records e, t.link catalog = .ok records ∧ Store.build records = .error e ∧
        err = .build e := by
  rw [ofTable]
  cases t.link catalog with
  | error err' => simp [bind, Except.bind]
  | ok records =>
      have hbuild : ∀ e, build records settings = .error e ↔ Store.build records = .error e := by
        intro e
        rw [build]
        cases Store.build records <;> simp [bind, Except.bind, pure, Except.pure]
      simp only [reduceCtorEq, false_or, Except.ok.injEq, exists_and_left, exists_eq_left',
        ← hbuild]
      show (build records settings).mapError LinkError.build = .error err ↔ _
      cases build records settings <;> simp [Except.mapError, eq_comm]

/-- What loading records logs: the registry, if they make one. -/
def loadEvents (records : List Record) (settings : Settings) : List Event :=
  match build records settings with
  | .ok registry => [.log .debug registry.buildLine]
  | .error _ => []

theorem isLog_loadEvents (records : List Record) (settings : Settings) :
    ∀ ev ∈ loadEvents records settings, ev.isLog = true := by
  unfold loadEvents
  cases build records settings <;> simp [Event.isLog]

/-- Loading records yields their registry, or the error, and does nothing else but log. -/
theorem load_apply {σ : Type} (records : List Record) (settings : Settings) (s : σ) :
    load records settings s =
      ⟨.returned (build records settings), s, loadEvents records settings⟩ := by
  unfold load loadEvents
  cases build records settings <;> rfl

/-- Loading a table yields its registry, or the error, and does nothing else but log. -/
theorem loadTable_apply {σ : Type} (t : AssemblyTable) (catalog : Catalog) (settings : Settings)
    (s : σ) : ∃ lines, (∀ ev ∈ lines, ev.isLog = true) ∧
      loadTable t catalog settings s = ⟨.returned (ofTable t catalog settings), s, lines⟩ := by
  unfold loadTable ofTable
  cases t.link catalog with
  | error err => exact ⟨[], by simp, rfl⟩
  | ok records =>
      refine ⟨.log .debug (linkLine t records) :: loadEvents records settings,
        List.forall_mem_cons.mpr ⟨rfl, isLog_loadEvents records settings⟩, ?_⟩
      simp only [Exec.bind_apply, Exec.log_apply, Run.andThen_returned, load_apply, Exec.pure_apply,
        Run.after_mk, List.append_nil, List.singleton_append]
      rfl

/-! ## From table to registry -/

section
variable (linked : ofTable t catalog settings = .ok registry)
include linked

/-- The entries of the registry are those of the table, position by position. -/
theorem boundTo_of_ofTable : List.Forall₂ (TableEntry.BoundTo catalog) t.entries.toList
    registry.store.entries.toList := by
  obtain ⟨records, hlink, hbuild⟩ := ofTable_eq_ok_iff.mp linked
  exact AssemblyTable.boundTo_of_makes hlink (Store.build_eq_ok_iff.mp (build_eq_ok hbuild).1).2

theorem ascending_of_ofTable : Ascending (registry.store.entries.toList.map Entry.token) := by
  obtain ⟨records, -, hbuild⟩ := ofTable_eq_ok_iff.mp linked
  exact Store.ascending_of_build (build_eq_ok hbuild).1

/-- A table that gives a registry is valid. -/
theorem validate_of_ofTable : t.validate = .ok () := by
  have bound := boundTo_of_ofTable linked
  refine AssemblyTable.validate_eq_ok_iff.mpr ⟨?_, fun e he => ?_⟩
  · rw [← tokens_of_boundTo bound]
    exact ascending_of_ofTable linked
  · obtain ⟨f, -, hb⟩ := exists_of_mem_of_forall₂ bound he
    rw [hb.convention_eq]
    exact Option.some_ne_none _

/-- A token resolves to an entry exactly when the entry is stored and has the token. -/
theorem resolve_eq_ok_iff_of_ofTable {token : UInt32} {f : Entry} :
    registry.resolver.resolve token = .ok f ↔ f ∈ registry.store.entries ∧ f.token = token :=
  Resolver.resolve_eq_ok_iff (ascending_of_ofTable linked)

/-- An entry that is found in the table under the token is bound to the entry to which the token
resolves. -/
theorem resolve_of_lookup? {token : UInt32} {e : TableEntry} (found : t.lookup? token = some e) :
    ∃ f, registry.resolver.resolve token = .ok f ∧ f.token = token ∧ e.BoundTo catalog f := by
  obtain ⟨he, rfl⟩ := searchBetween_sound found
  obtain ⟨f, hf, hb⟩ := exists_of_mem_of_forall₂ (boundTo_of_ofTable linked) (Array.mem_def.mp he)
  exact ⟨f, (resolve_eq_ok_iff_of_ofTable linked).mpr ⟨Array.mem_def.mpr hf, hb.token_eq⟩,
    hb.token_eq, hb⟩

/-- A token that resolves is found in the table. -/
theorem lookup?_of_resolve {token : UInt32} {f : Entry}
    (resolved : registry.resolver.resolve token = .ok f) : ∃ e, t.lookup? token = some e := by
  obtain ⟨hf, rfl⟩ := (resolve_eq_ok_iff_of_ofTable linked).mp resolved
  have hmem : f.token ∈ t.entries.toList.map TableEntry.token := by
    rw [← tokens_of_boundTo (boundTo_of_ofTable linked)]
    exact List.mem_map_of_mem (Array.mem_def.mp hf)
  obtain ⟨e, he, htoken⟩ := List.mem_map.mp hmem
  have hasc := (AssemblyTable.validate_eq_ok_iff.mp (validate_of_ofTable linked)).1
  exact ⟨e, (searchByToken_eq_some_iff hasc).mpr ⟨Array.mem_def.mpr he, htoken⟩⟩

end

/-- A valid table is never refused for the order of its tokens or for a flag byte, whatever the
catalog holds. -/
theorem ofTable_ne_of_valid (valid : t.validate = .ok ()) (catalog : Catalog)
    (settings : Settings) :
    (∀ index previous token,
      ofTable t catalog settings ≠ .error (.build (.unsorted index previous token))) ∧
    ∀ index token flags,
      ofTable t catalog settings ≠ .error (.build (.unknownFlag index token flags)) := by
  obtain ⟨ascending, known⟩ := AssemblyTable.validate_eq_ok_iff.mp valid
  have refused : ∀ err, ofTable t catalog settings = .error (.build err) →
      ∃ records, t.link catalog = .ok records ∧ Store.build records = .error err := by
    intro err h
    rcases ofTable_eq_error_iff.mp h with hlink | ⟨records, err', hlink, hbuild, he⟩
    · exact absurd hlink (t.link_ne_build catalog err)
    · cases he
      exact ⟨records, hlink, hbuild⟩
  constructor
  · intro index previous token h
    obtain ⟨records, hlink, hbuild⟩ := refused _ h
    rw [← (AssemblyTable.tokens_flags_of_link hlink).1] at ascending
    exact Store.build_ne_unsorted ascending _ _ _ hbuild
  · intro index token flags h
    obtain ⟨records, hlink, hbuild⟩ := refused _ h
    refine Store.build_ne_unknownFlag (fun r hr => ?_) _ _ _ hbuild
    have hmem : r.flags ∈ t.entries.toList.map TableEntry.flags := by
      rw [← (AssemblyTable.tokens_flags_of_link hlink).2]
      exact List.mem_map_of_mem hr
    obtain ⟨e, he, hflags⟩ := List.mem_map.mp hmem
    rw [← hflags]
    exact known e he

/-- From a table to its registry, tokens keep their symbols. Loading a table only logs and yields
its registry. If there is one, the table is valid, the entries of the registry are those of the table
position by position, and a token is found in the table exactly when it resolves, to the entry with
the native that was registered last under the symbol and with the convention of the flag byte. There
is none exactly when linking fails, with that error whatever else is wrong with the table, or the
linked records are no store, with the error of the store. -/
theorem ofTable_keeps_symbols (t : AssemblyTable) (catalog : Catalog) (settings : Settings) :
    (∀ {σ : Type} (s : σ), ∃ lines, (∀ ev ∈ lines, ev.isLog = true) ∧
      loadTable t catalog settings s = ⟨.returned (ofTable t catalog settings), s, lines⟩) ∧
    (∀ registry, ofTable t catalog settings = .ok registry →
      t.validate = .ok () ∧ registry.size = t.size ∧ registry.settings = settings ∧
      List.Forall₂ (TableEntry.BoundTo catalog) t.entries.toList registry.store.entries.toList ∧
      ∀ token,
        ((∃ e, t.lookup? token = some e) ↔ ∃ f, registry.resolver.resolve token = .ok f) ∧
        ∀ e, t.lookup? token = some e → ∃ f, registry.resolver.resolve token = .ok f ∧
          f.token = token ∧ e.BoundTo catalog f ∧
          ∀ registrations, catalog = .ofList registrations →
            lastRegistered? registrations e.symbol = some f.native) ∧
    (∀ err, ofTable t catalog settings = .error err ↔
      t.link catalog = .error err ∨ ∃ records e, t.link catalog = .ok records ∧
        Store.build records = .error e ∧ err = .build e) ∧
    ∀ e, t.link catalog ≠ .error (.build e) := by
  refine ⟨loadTable_apply t catalog settings, fun registry linked => ?_,
    fun _ => ofTable_eq_error_iff, t.link_ne_build catalog⟩
  have bound := boundTo_of_ofTable linked
  obtain ⟨records, -, hbuild⟩ := ofTable_eq_ok_iff.mp linked
  refine ⟨validate_of_ofTable linked, ?_, (build_eq_ok hbuild).2, bound, fun token => ⟨?_, ?_⟩⟩
  · rw [size, Store.size, AssemblyTable.size, ← Array.length_toList, ← Array.length_toList]
    exact bound.length_eq.symm
  · constructor
    · rintro ⟨e, found⟩
      obtain ⟨f, resolved, -, -⟩ := resolve_of_lookup? linked found
      exact ⟨f, resolved⟩
    · rintro ⟨f, resolved⟩
      exact lookup?_of_resolve linked resolved
  · intro e found
    obtain ⟨f, resolved, htoken, hb⟩ := resolve_of_lookup? linked found
    refine ⟨f, resolved, htoken, hb, ?_⟩
    rintro registrations rfl
    rw [← Catalog.get?_ofList]
    exact hb.native_eq

/-- A symbol that was registered twice and its neighbour in the table: the token of the first
resolves to its second native, under the convention of its own flag byte. -/
theorem ofTable_keeps_symbols_registered_twice :
    let old : Native := .allInteger 1 ⟨"old", fun _ => .ok 0⟩
    let new : Native := .returnsHandle 1 ⟨"new", fun _ => .ok ⟨4096⟩⟩
    let echo : Native := .managed 2 ⟨"echo", fun args => .ret (args.headD .void)⟩
    let registrations : List (String × Native) := [("get", old), ("set", echo), ("get", new)]
    let t : AssemblyTable := ⟨"corlib", #[⟨7, "get", some (.allInt 1), 4⟩, ⟨9, "set", none, 0⟩]⟩
    let registry : Registry := ⟨⟨#[⟨7, new, .raw⟩, ⟨9, echo, .wrapped⟩]⟩, {}⟩
    Registry.ofTable t (.ofList registrations) {} = .ok registry ∧
      t.lookup? 7 = some ⟨7, "get", some (.allInt 1), 4⟩ ∧
      ∃ f, registry.resolver.resolve 7 = .ok f ∧ f.token = 7 ∧ f.convention = .raw ∧
        lastRegistered? registrations "get" = some f.native := by
  intro old new echo registrations t registry
  have linked : Registry.ofTable t (.ofList registrations) {} = .ok registry := rfl
  have found : t.lookup? 7 = some ⟨7, "get", some (.allInt 1), 4⟩ := by
    decide +kernel
  obtain ⟨-, -, -, -, resolves⟩ :=
    (ofTable_keeps_symbols t (.ofList registrations) {}).2.1 registry linked
  obtain ⟨f, resolved, htoken, bound, hlast⟩ := (resolves 7).2 _ found
  have hconvention : some f.convention = some .raw := bound.convention_eq.symm
  exact ⟨linked, found, f, resolved, htoken, Option.some.inj hconvention, hlast registrations rfl⟩

end Registry

end InternalCall
