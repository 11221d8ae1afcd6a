import InternalCall.Proofs.Call.Kinds
import InternalCall.Proofs.Registry.Linking

/-!
# What a prototype admits

A prototype is compared with the registered shape slot by slot. Each slot holds
the same kind on both sides, or an address where the prototype spells a native
integer; the other way round is refused. A table links exactly when each of its
entries names a registered native that its prototype admits, and linking stops at
the first entry that does not, whatever stands behind it.
-/

namespace InternalCall

/-! ## Slots and shapes -/

/-- What may be registered for a declared slot. -/
inductive ScalarKind.Admits : ScalarKind → ScalarKind → Prop
  /-- The declared kind. -/
  | same (k : ScalarKind) : Admits k k
  /-- An address, where the prototype spells a native integer. -/
  | address : Admits .int .handle

/-- What may be registered for a declared return slot. -/
inductive ReturnKind.Admits : ReturnKind → ReturnKind → Prop
  /-- Nothing for nothing. -/
  | void : Admits .void .void
  /-- A scalar for a scalar, by their kinds. -/
  | scalar {declared registered : ScalarKind} (slot : declared.Admits registered) :
      Admits (.scalar declared) (.scalar registered)

/-- What may be registered for a declared shape. -/
structure Signature.Admits (declared registered : Signature) : Prop where
  /-- The return slot is admitted. -/
  ret : declared.ret.Admits registered.ret
  /-- There are as many parameters as declared, and each is admitted by the one at its position. -/
  params : List.Forall₂ ScalarKind.Admits declared.params registered.params

theorem ScalarKind.accepts_iff {declared registered : ScalarKind} :
    declared.accepts registered = true ↔ declared.Admits registered := by
  rw [ScalarKind.accepts, Bool.or_eq_true, Bool.and_eq_true, beq_iff_eq, beq_iff_eq, beq_iff_eq]
  constructor
  · rintro (rfl | ⟨rfl, rfl⟩)
    · exact .same declared
    · exact .address
  · rintro (_ | _)
    · exact Or.inl rfl
    · exact Or.inr ⟨rfl, rfl⟩

theorem ReturnKind.accepts_iff {declared registered : ReturnKind} :
    declared.accepts registered = true ↔ declared.Admits registered := by
  constructor
  · intro accepted
    cases declared with
    | void =>
        cases registered with
        | void => exact .void
        | scalar r => cases accepted
    | scalar d =>
        cases registered with
        | void => cases accepted
        | scalar r => exact .scalar (ScalarKind.accepts_iff.mp accepted)
  · rintro (_ | slot)
    · rfl
    · exact ScalarKind.accepts_iff.mpr slot

/-- Pairing the parameters up cuts off the longer list; that it does not is what comparing their
number is for. -/
theorem Signature.accepts_iff {declared registered : Signature} :
    declared.accepts registered = true ↔ declared.Admits registered := by
  simp only [Signature.accepts, Signature.arity, Bool.and_eq_true, ReturnKind.accepts_iff,
    beq_iff_eq, List.all_eq_true, ScalarKind.accepts_iff]
  constructor
  · rintro ⟨⟨ret, length_eq⟩, slots⟩
    exact ⟨ret, List.forall₂_iff_zip.mpr ⟨length_eq, fun {d r} hmem => slots (d, r) hmem⟩⟩
  · rintro ⟨ret, params⟩
    obtain ⟨length_eq, slots⟩ := List.forall₂_iff_zip.mp params
    exact ⟨⟨ret, length_eq⟩, fun _ hmem => slots hmem⟩

/-! ## One entry -/

/-- The prototype of the entry, if it has one, admits the shape of the native. A managed native is
exempt. -/
def TableEntry.Admits (e : TableEntry) (native : Native) : Prop :=
  ∀ declared, e.signature? = some declared → native.isManaged = false →
    ∃ registered, native.signature? = some registered ∧ declared.Admits registered

/-- A native is registered under the symbol of the entry, and the entry admits it. -/
def TableEntry.Linkable (catalog : Catalog) (e : TableEntry) : Prop :=
  ∃ native, catalog.get? e.symbol = some native ∧ e.Admits native

/-- Why linking stops at the entry. -/
inductive TableEntry.StopsLink (catalog : Catalog) (e : TableEntry) : LinkError → Prop
  /-- Nothing is registered under its symbol. -/
  | unknown (absent : catalog.get? e.symbol = none) :
      StopsLink catalog e (.unknownSymbol e.token e.symbol)
  /-- Its prototype does not admit the shape that is registered. -/
  | mismatch {native : Native} {declared registered : Signature}
      (found : catalog.get? e.symbol = some native) (scalar : native.isManaged = false)
      (prototype : e.signature? = some declared) (shape : native.signature? = some registered)
      (refused : ¬ declared.Admits registered) :
      StopsLink catalog e (.signatureMismatch e.token e.symbol declared registered)

/-- A native with a shape on scalars is not managed. -/
theorem Native.isManaged_of_signature {n : Native} {s : Signature} (shape : n.signature? = some s) :
    n.isManaged = false := by
  cases n with
  | managed => cases shape
  | _ => rfl

/-- Comparing the shapes where both are known is admitting every native but a managed one. -/
theorem TableEntry.fits_iff_admits {e : TableEntry} {native : Native} :
    e.Fits native ↔ e.Admits native := by
  constructor
  · intro fits declared prototype scalar
    obtain ⟨registered, shape⟩ := Native.exists_signature scalar
    exact ⟨registered, shape, Signature.accepts_iff.mp (fits declared registered prototype shape)⟩
  · intro admits declared registered prototype shape
    obtain ⟨registered', shape', h⟩ :=
      admits declared prototype (Native.isManaged_of_signature shape)
    cases Option.some.inj (shape.symm.trans shape')
    exact Signature.accepts_iff.mpr h

theorem TableEntry.link_eq_ok_iff_admits {e : TableEntry} {catalog : Catalog} {r : Record} :
    e.link catalog = .ok r ↔ ∃ native, catalog.get? e.symbol = some native ∧ e.Admits native ∧
      r = ⟨e.token, some native, e.flags⟩ := by
  simp only [TableEntry.link_eq_ok_iff, TableEntry.fits_iff_admits]

theorem TableEntry.exists_link_iff {e : TableEntry} {catalog : Catalog} :
    (∃ r, e.link catalog = .ok r) ↔ e.Linkable catalog := by
  constructor
  · rintro ⟨r, linked⟩
    obtain ⟨native, found, admits, -⟩ := TableEntry.link_eq_ok_iff_admits.mp linked
    exact ⟨native, found, admits⟩
  · rintro ⟨native, found, admits⟩
    exact ⟨_, TableEntry.link_eq_ok_iff_admits.mpr ⟨native, found, admits, rfl⟩⟩

theorem TableEntry.link_eq_error_iff {e : TableEntry} {catalog : Catalog} {err : LinkError} :
    e.link catalog = .error err ↔ e.StopsLink catalog err := by
  constructor
  · intro failed
    rcases e.link_cases catalog with ⟨absent, hl⟩ | ⟨native, -, -, hl⟩ |
      ⟨native, declared, registered, found, prototype, shape, refused, hl⟩
    · cases hl.symm.trans failed
      exact .unknown absent
    · cases hl.symm.trans failed
    · cases hl.symm.trans failed
      exact .mismatch found (Native.isManaged_of_signature shape) prototype shape
        (by rw [← Signature.accepts_iff, refused]; exact Bool.false_ne_true)
  · rintro (absent | ⟨found, scalar, prototype, shape, refused⟩)
    · simp only [TableEntry.link, absent]
      rfl
    · have hfalse := Bool.eq_false_iff.mpr (mt Signature.accepts_iff.mp refused)
      simp only [TableEntry.link, found, prototype, shape, hfalse]
      rfl

/-! ## A table -/

/-- Every entry of a linked table is linkable. -/
theorem AssemblyTable.linkable_of_link {t : AssemblyTable} {catalog : Catalog}
    {records : List Record} (linked : t.link catalog = .ok records) {e : TableEntry}
    (he : e ∈ t.entries) : e.Linkable catalog := by
  obtain ⟨r, -, hr⟩ := exists_of_mem_of_forall₂ (mapM_eq_ok_iff.mp linked) (Array.mem_def.mp he)
  exact TableEntry.exists_link_iff.mp ⟨r, hr⟩

/-- A table is linked exactly when each of its entries is linkable. The records then have the tokens,
the natives and the flag bytes of the entries, position by position, in whatever order the tokens
are and whether or not the flag bytes are known. Otherwise the error is that of the first entry
that is not linkable. -/
theorem AssemblyTable.link_admits_exactly (t : AssemblyTable) (catalog : Catalog) :
    ((∃ records, t.link catalog = .ok records) ↔ ∀ e ∈ t.entries, e.Linkable catalog) ∧
    (∀ records, t.link catalog = .ok records ↔
      List.Forall₂ (fun e r => ∃ native, catalog.get? e.symbol = some native ∧ e.Admits native ∧
        r = ⟨e.token, some native, e.flags⟩) t.entries.toList records) ∧
    ∀ err, t.link catalog = .error err ↔
      ∃ before e after, t.entries.toList = before ++ e :: after ∧
        (∀ earlier ∈ before, earlier.Linkable catalog) ∧ e.StopsLink catalog err := by
  have hok : ∀ records, t.link catalog = .ok records ↔
      List.Forall₂ (fun e r => ∃ native, catalog.get? e.symbol = some native ∧ e.Admits native ∧
        r = ⟨e.token, some native, e.flags⟩) t.entries.toList records := by
    intro records
    simp only [AssemblyTable.link, mapM_eq_ok_iff, TableEntry.link_eq_ok_iff_admits]
  have herror : ∀ err, t.link catalog = .error err ↔
      ∃ before e after, t.entries.toList = before ++ e :: after ∧
        (∀ earlier ∈ before, earlier.Linkable catalog) ∧ e.StopsLink catalog err := by
    intro err
    simp only [AssemblyTable.link, mapM_eq_error_iff, TableEntry.exists_link_iff,
      TableEntry.link_eq_error_iff]
  refine ⟨?_, hok, herror⟩
  constructor
  · rintro ⟨records, linked⟩ e he
    exact AssemblyTable.linkable_of_link linked he
  · intro linkable
    cases linked : t.link catalog with
    | ok records => exact ⟨records, rfl⟩
    | error err =>
        obtain ⟨before, e, after, happ, -, stops⟩ := (herror err).mp linked
        have he : e ∈ t.entries := Array.mem_def.mpr (happ ▸ by simp)
        obtain ⟨r, hr⟩ := TableEntry.exists_link_iff.mpr (linkable e he)
        cases hr.symm.trans (TableEntry.link_eq_error_iff.mpr stops)

/-- Tokens out of order and flag bytes of no convention are linked, an address for a native integer
and a managed native with any prototype too. A native integer for an address stops linking, before
the symbol that is missing behind it. -/
theorem AssemblyTable.link_admits_exactly_until_first_fault :
    let alloc : Native := .returnsHandle 2 ⟨"alloc", fun _ => .ok ⟨4096⟩⟩
    let clone : Native := .managed 1 ⟨"clone", fun args => .ret (args.headD .void)⟩
    let peek : Native := .allInteger 1 ⟨"peek", fun _ => .ok 0⟩
    let catalog : Catalog := .ofList [("alloc", alloc), ("clone", clone), ("peek", peek)]
    let sound : List TableEntry := [⟨9, "alloc", some (.allInt 2), 255⟩,
      ⟨3, "clone", some (.intVoid 5), 7⟩, ⟨3, "peek", none, 4⟩]
    let faulty : List TableEntry := sound ++
      [⟨4, "peek", some ⟨[.handle], .scalar .int⟩, 4⟩, ⟨5, "gone", none, 4⟩]
    AssemblyTable.link ⟨"corlib", sound.toArray⟩ catalog =
        .ok [⟨9, some alloc, 255⟩, ⟨3, some clone, 7⟩, ⟨3, some peek, 4⟩] ∧
      AssemblyTable.link ⟨"corlib", faulty.toArray⟩ catalog =
        .error (.signatureMismatch 4 "peek" ⟨[.handle], .scalar .int⟩ (.allInt 1)) := by
  intro alloc clone peek catalog sound faulty
  have halloc : sound[0].Admits alloc := by
    rintro _ ⟨⟩ -
    exact ⟨.intHandle 2, rfl, .scalar .address, .cons (.same _) (.cons (.same _) .nil)⟩
  have hclone : sound[1].Admits clone := by
    rintro _ - ⟨⟩
  have hpeek : sound[2].Admits peek := by
    rintro _ ⟨⟩
  have hrefused : ¬ Signature.Admits ⟨[.handle], .scalar .int⟩ (.allInt 1) := by
    rintro ⟨-, _ | ⟨⟨⟩, -⟩⟩
  constructor
  · refine ((link_admits_exactly _ catalog).2.1 _).mpr ?_
    exact .cons ⟨alloc, rfl, halloc, rfl⟩ (.cons ⟨clone, rfl, hclone, rfl⟩
      (.cons ⟨peek, rfl, hpeek, rfl⟩ .nil))
  · refine ((link_admits_exactly _ catalog).2.2 _).mpr ⟨sound, _, [_], rfl, ?_, ?_⟩
    · simp only [sound, List.forall_mem_cons]
      exact ⟨⟨alloc, rfl, halloc⟩, ⟨clone, rfl, hclone⟩, ⟨peek, rfl, hpeek⟩, by simp⟩
    · exact .mismatch rfl rfl rfl rfl hrefused

end InternalCall
