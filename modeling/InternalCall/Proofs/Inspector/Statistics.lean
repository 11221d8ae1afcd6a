import InternalCall.Proofs.Inspector.Agreement
import Mathlib.Algebra.BigOperators.Group.Finset.Basic
import Mathlib.Algebra.GroupWithZero.Nat

/-!
# The statistics count every entry once

A summary is made by counting one entry after the other, once by the convention of
its flag byte and once by the class of its signature. So each of its counts is the
number of entries of that kind, and either way all entries are counted. A registry
of the table has as many entries of each convention as the summary says.
-/

namespace InternalCall

/-- The class of the declared signature. -/
def TableEntry.class? (e : TableEntry) : Option SignatureClass := e.signature?.map Signature.classOf

/-- Prototypes are of scalars, so no signature has the class of managed natives. -/
theorem Signature.classOf_ne_managed (g : Signature) : g.classOf ≠ .managed := by
  unfold classOf
  split
  · split <;> simp
  · simp

/-! ## Counting step by step -/

variable {α : Type}

/-- A count that goes up by one with each element that has the property ends as the number of such
elements. -/
theorem count_foldl {σ : Type} {step : σ → α → σ} {p : α → Prop} [DecidablePred p]
    (count : σ → Nat) (counts : ∀ s x, count (step s x) = count s + if p x then 1 else 0)
    (xs : List α) (s : σ) : count (xs.foldl step s) = count s + xs.countP p := by
  induction xs generalizing s with
  | nil => rfl
  | cons x rest ih =>
      rw [List.foldl_cons, ih, counts, List.countP_cons, Nat.add_assoc, Nat.add_comm (List.countP _ _)]
      simp only [decide_eq_true_eq]

/-- Counting elements by their values counts each of them once, if all values are counted. -/
theorem sum_countP_eq_length {β : Type} [DecidableEq β] {f : α → β} {values : Finset β}
    {xs : List α} (covered : ∀ x ∈ xs, f x ∈ values) :
    ∑ v ∈ values, xs.countP (fun x => f x = v) = xs.length := by
  have counted := Multiset.sum_count_eq_card (s := values) (m := Multiset.ofList (xs.map f))
    (by simpa using covered)
  simpa [List.count, List.countP_map, Function.comp_def, beq_eq_decide] using counted

namespace TableSummary

/-- The count of the entries with the convention, or with none. -/
def called (s : TableSummary) : Option Convention → Nat
  | some .wrapped => s.wrapped
  | some .raw => s.raw
  | none => s.unknownFlags

/-- The count of the entries that declare a signature of the class, or declare none. -/
def ofClass (s : TableSummary) : Option SignatureClass → Nat
  | some c => s.declared c
  | none => s.undeclared

theorem called_empty (c? : Option Convention) : ({} : TableSummary).called c? = 0 := by
  rcases c? with _ | _ | _ <;> rfl

theorem ofClass_empty (k? : Option SignatureClass) : ({} : TableSummary).ofClass k? = 0 := by
  cases k? <;> rfl

/-- Counting by convention adds one to the count of that convention and nothing to the others. -/
theorem called_addConvention (s : TableSummary) (c? other : Option Convention) :
    (s.addConvention c?).called other = s.called other + if c? = other then 1 else 0 := by
  rcases c? with _ | _ | _ <;> rcases other with _ | _ | _ <;> rfl

theorem called_addSignature (s : TableSummary) (g? : Option Signature) :
    (s.addSignature g?).called = s.called := by
  cases g? <;> rfl

/-- Counting by signature adds one to the count of its class and nothing to the others. -/
theorem ofClass_addSignature (s : TableSummary) (g? : Option Signature)
    (other : Option SignatureClass) :
    (s.addSignature g?).ofClass other =
      s.ofClass other + if g?.map Signature.classOf = other then 1 else 0 := by
  cases g? with
  | none => cases other <;> rfl
  | some g =>
      cases other with
      | none => rfl
      | some c =>
          by_cases h : c = g.classOf
          · simp [addSignature, ofClass, h]
          · simp [addSignature, ofClass, h, Ne.symm h]

theorem ofClass_addConvention (s : TableSummary) (c? : Option Convention) :
    (s.addConvention c?).ofClass = s.ofClass := by
  rcases c? with _ | _ | _ <;> rfl

/-- An entry is counted once by its convention. -/
theorem called_add (s : TableSummary) (e : TableEntry) (c? : Option Convention) :
    (s.add e).called c? = s.called c? + if e.convention? = c? then 1 else 0 := by
  rw [add, called_addSignature, called_addConvention]

/-- An entry is counted once by the class of its signature. -/
theorem ofClass_add (s : TableSummary) (e : TableEntry) (k? : Option SignatureClass) :
    (s.add e).ofClass k? = s.ofClass k? + if e.class? = k? then 1 else 0 := by
  rw [add, ofClass_addSignature, ofClass_addConvention, TableEntry.class?]

end TableSummary

namespace AssemblyTable

/-- The number of entries with the convention, or with a flag byte that selects none. -/
def countCalled (t : AssemblyTable) (c? : Option Convention) : Nat :=
  t.entries.toList.countP fun e => e.convention? = c?

/-- The number of entries that declare a signature of the class, or declare none. -/
def countClass (t : AssemblyTable) (k? : Option SignatureClass) : Nat :=
  t.entries.toList.countP fun e => e.class? = k?

/-- The summary counts the entries of each convention. -/
theorem called_summary (t : AssemblyTable) (c? : Option Convention) :
    t.summary.called c? = t.countCalled c? := by
  have counted := count_foldl (fun s : TableSummary => s.called c?)
    (fun s e => s.called_add e c?) t.entries.toList {}
  rw [TableSummary.called_empty, Nat.zero_add] at counted
  rw [summary, ← Array.foldl_toList]
  exact counted

/-- The summary counts the entries of each class. -/
theorem ofClass_summary (t : AssemblyTable) (k? : Option SignatureClass) :
    t.summary.ofClass k? = t.countClass k? := by
  have counted := count_foldl (fun s : TableSummary => s.ofClass k?)
    (fun s e => s.ofClass_add e k?) t.entries.toList {}
  rw [TableSummary.ofClass_empty, Nat.zero_add] at counted
  rw [summary, ← Array.foldl_toList]
  exact counted

/-- Every entry is counted under one convention, or as one of none. -/
theorem countCalled_add (t : AssemblyTable) :
    t.countCalled (some .wrapped) + t.countCalled (some .raw) + t.countCalled none = t.size := by
  have covered : ∀ e ∈ t.entries.toList,
      e.convention? ∈ ({some .wrapped, some .raw, none} : Finset (Option Convention)) := by
    intro e _
    rcases e.convention? with _ | _ | _ <;> decide
  have counted := sum_countP_eq_length covered
  rw [Finset.sum_insert (by decide), Finset.sum_insert (by decide), Finset.sum_singleton,
    ← Nat.add_assoc, Array.length_toList] at counted
  exact counted

/-- Every entry is counted under one class of signatures on scalars, or as one without a signature. -/
theorem countClass_add (t : AssemblyTable) :
    t.countClass (some .allInteger) + t.countClass (some .mixed) +
      t.countClass (some .returnsHandle) + t.countClass none = t.size := by
  have covered : ∀ e ∈ t.entries.toList, e.class? ∈
      ({some .allInteger, some .mixed, some .returnsHandle, none} :
        Finset (Option SignatureClass)) := by
    intro e _
    rw [TableEntry.class?]
    cases e.signature? with
    | none => decide
    | some g =>
        have scalar := g.classOf_ne_managed
        rw [Option.map_some]
        cases hg : g.classOf with
        | managed => exact absurd hg scalar
        | _ => decide
  have counted := sum_countP_eq_length covered
  rw [Finset.sum_insert (by decide), Finset.sum_insert (by decide), Finset.sum_insert (by decide),
    Finset.sum_singleton, ← Nat.add_assoc, ← Nat.add_assoc, Array.length_toList] at counted
  exact counted

/-- No entry is of the class of managed natives. -/
theorem countClass_managed (t : AssemblyTable) : t.countClass (some .managed) = 0 := by
  rw [countClass, List.countP_eq_zero]
  intro e _
  rw [decide_eq_true_eq, TableEntry.class?, Option.map_eq_some_iff]
  rintro ⟨g, -, hg⟩
  exact g.classOf_ne_managed hg

end AssemblyTable

/-- A registry of a table has as many entries of a convention as the table. -/
theorem Registry.countConvention_of_ofTable {t : AssemblyTable} {catalog : Catalog}
    {settings : Settings} {registry : Registry}
    (linked : ofTable t catalog settings = .ok registry) (c : Convention) :
    registry.store.countConvention c = t.countCalled (some c) := by
  have same : t.entries.toList.map TableEntry.convention? =
      registry.store.entries.toList.map fun f => some f.convention :=
    map_eq_map_of_forall₂ (boundTo_of_ofTable linked) fun _ _ bound => bound.convention_eq
  have counted := congrArg (List.countP (· = some c)) same
  rw [List.countP_map, List.countP_map] at counted
  rw [AssemblyTable.countCalled, Store.countConvention]
  simpa [Function.comp_def, beq_eq_decide] using counted.symm

/-! ## The printed statistics -/

/-- All entries of a header are counted by counting those of each table. -/
theorem Header.entryCount_eq_sum (h : Header) :
    h.entryCount = (h.tables.map AssemblyTable.size).sum := by
  rw [entryCount]
  induction h.tables with
  | nil => rfl
  | cons t rest ih => rw [List.foldr_cons, ih, List.map_cons, List.sum_cons]

namespace Inspector

/-- The lines of counts that are not zero, in the order of what they count. -/
theorem flatMap_countLine {α : Type} (label : α → String) (n : α → Nat) (xs : List α) :
    xs.flatMap (fun x => countLine (label x) (n x)) =
      (xs.filter fun x => n x ≠ 0).flatMap fun x =>
        [styled .dim ("  " ++ padded 14 (label x ++ ":")), plain s!"{n x}\n"] := by
  induction xs with
  | nil => rfl
  | cons x rest ih =>
      rw [List.flatMap_cons, ih]
      by_cases h : n x = 0 <;> simp [countLine, h]

/-- The lines of a table show the numbers of its entries. -/
theorem describeTable_eq (t : AssemblyTable) :
    describeTable t =
      [styled .heading t.name, plain s!" ({t.size} entries)", plain "\n",
        plain s!"  wrapped:      {t.countCalled (some .wrapped)}\n",
        plain s!"  raw:          {t.countCalled (some .raw)}\n"] ++
      (if t.countCalled none = 0 then []
        else [styled .warning s!"  unknown flag: {t.countCalled none}\n"]) ++
      (([.allInteger, .mixed, .returnsHandle].filter fun c => t.countClass (some c) ≠ 0).flatMap
        fun c => [styled .dim ("  " ++ padded 14 (c.text ++ ":")),
          plain s!"{t.countClass (some c)}\n"]) ++
      (if t.countClass none = 0 then []
        else [styled .dim ("  " ++ padded 14 "undeclared:"), plain s!"{t.countClass none}\n"]) := by
  have wrapped : t.summary.wrapped = t.countCalled (some .wrapped) :=
    t.called_summary (some .wrapped)
  have raw : t.summary.raw = t.countCalled (some .raw) := t.called_summary (some .raw)
  have unknown : t.summary.unknownFlags = t.countCalled none := t.called_summary none
  have declared : ∀ c, t.summary.declared c = t.countClass (some c) :=
    fun c => t.ofClass_summary (some c)
  have undeclared : t.summary.undeclared = t.countClass none := t.ofClass_summary none
  have listed : (listedClasses.filter fun c => t.countClass (some c) ≠ 0) =
      [.allInteger, .mixed, .returnsHandle].filter fun c => t.countClass (some c) ≠ 0 := by
    rw [show listedClasses = [.allInteger, .mixed, .returnsHandle] ++ [.managed] from rfl,
      List.filter_append, List.filter_singleton, t.countClass_managed]
    simp
  rw [describeTable, describeSummary, wrapped, raw, unknown, undeclared]
  simp only [declared]
  rw [flatMap_countLine SignatureClass.text fun c => t.countClass (some c), listed, countLine]
  simp only [List.append_assoc]
  rfl

/-- The statistics of a header that can be read are its description. -/
theorem Command.run_stats {s : Surroundings} {path text : String} (readable : s.file path = .ok text)
    {h : Header} (parsed : Header.parse text = .ok h) :
    (Command.stats path).run s = { pieces := describeHeader h } := by
  simp only [Command.run, Surroundings.header_eq readable, parsed]
  rfl

/-- The statistics count every entry once in each of two ways and agree with the registry. They list
the tables and then the sum of their sizes. For each table they show how many entries have the wrapped
and the raw convention and, if there are any, how many have a flag byte of none, how many declare a
signature of each class, in a fixed order, and how many declare none. The counts by convention and those
by class each add up to the number of entries. A registry of the table has as many wrapped and raw
entries as they show. -/
theorem statistics_count_every_entry (h : Header) :
    (∀ {s : Surroundings} {path text : String}, s.file path = .ok text →
      Header.parse text = .ok h → ∀ color?,
        run s (some (.run color? (.stats path))) =
          ⟨0, render (isColored s.env color?) (h.tables.flatMap describeTable ++
            [plain s!"\n{h.tables.length} tables, {(h.tables.map AssemblyTable.size).sum} entries\n"]),
            ""⟩) ∧
    ∀ t ∈ h.tables,
      describeTable t =
        [styled .heading t.name, plain s!" ({t.size} entries)", plain "\n",
          plain s!"  wrapped:      {t.countCalled (some .wrapped)}\n",
          plain s!"  raw:          {t.countCalled (some .raw)}\n"] ++
        (if t.countCalled none = 0 then []
          else [styled .warning s!"  unknown flag: {t.countCalled none}\n"]) ++
        (([.allInteger, .mixed, .returnsHandle].filter fun c => t.countClass (some c) ≠ 0).flatMap
          fun c => [styled .dim ("  " ++ padded 14 (c.text ++ ":")),
            plain s!"{t.countClass (some c)}\n"]) ++
        (if t.countClass none = 0 then []
          else [styled .dim ("  " ++ padded 14 "undeclared:"), plain s!"{t.countClass none}\n"]) ∧
      t.countCalled (some .wrapped) + t.countCalled (some .raw) + t.countCalled none = t.size ∧
      t.countClass (some .allInteger) + t.countClass (some .mixed) +
        t.countClass (some .returnsHandle) + t.countClass none = t.size ∧
      t.countClass (some .managed) = 0 ∧
      ∀ catalog settings registry, Registry.ofTable t catalog settings = .ok registry →
        registry.store.countConvention .wrapped = t.countCalled (some .wrapped) ∧
        registry.store.countConvention .raw = t.countCalled (some .raw) := by
  refine ⟨fun {s path text} readable parsed color? => ?_, fun t _ => ⟨describeTable_eq t,
    t.countCalled_add, t.countClass_add, t.countClass_managed, fun catalog settings registry linked =>
      ⟨Registry.countConvention_of_ofTable linked _, Registry.countConvention_of_ofTable linked _⟩⟩⟩
  rw [run, Command.run_stats readable parsed, describeHeader, Header.entryCount_eq_sum]
  rfl

/-- A table with both conventions and an entry without a signature, and one out of order with an
unknown flag byte and a mixed signature: the counts that are printed, and those of the registry. -/
theorem statistics_count_every_entry_two_tables :
    let corlib : AssemblyTable := ⟨"corlib", #[⟨3, "get", some (.allInt 1), 4⟩, ⟨7, "set", none, 0⟩]⟩
    let system : AssemblyTable := ⟨"system", #[⟨9, "time", some ⟨[], .scalar .long⟩, 0⟩,
      ⟨2, "put", some ⟨[.double], .void⟩, 9⟩]⟩
    let header : Header := ⟨[corlib, system]⟩
    let get : Native := .allInteger 1 ⟨"get", fun _ => .ok 0⟩
    let set : Native := .managed 2 ⟨"set", fun _ => .ret .void⟩
    let registry : Registry := ⟨⟨#[⟨3, get, .raw⟩, ⟨7, set, .wrapped⟩]⟩, {}⟩
    let s : Surroundings := ⟨fun _ => .ok header.render, fun _ => none⟩
    s.file "icalls.h" = .ok header.render ∧ Header.parse header.render = .ok header ∧
      (run s (some (.run none (.stats "icalls.h")))).output =
        "corlib (2 entries)\n  wrapped:      1\n  raw:          1\n" ++
        "  all-integer:  1\n  undeclared:   1\n" ++
        "system (2 entries)\n  wrapped:      1\n  raw:          0\n  unknown flag: 1\n" ++
        "  mixed:        2\n" ++
        "\n2 tables, 4 entries\n" ∧
      Registry.ofTable corlib (.ofList [("get", get), ("set", set)]) {} = .ok registry ∧
      registry.store.countConvention .raw = corlib.countCalled (some .raw) := by
  intro corlib system header get set registry s
  have readable : s.file "icalls.h" = .ok header.render := rfl
  have hr : Header.Readable header := by decide
  have parsed : Header.parse header.render = .ok header := by
    have hparse := Header.parse_of_spells (Header.spells_render hr.legible)
      (Header.consistent_partsOf hr)
    rwa [Header.ofParts_partsOf hr] at hparse
  have linked : Registry.ofTable corlib (.ofList [("get", get), ("set", set)]) {} = .ok registry :=
    rfl
  obtain ⟨prints, tables⟩ := statistics_count_every_entry header
  obtain ⟨-, -, -, -, agrees⟩ := tables corlib List.mem_cons_self
  refine ⟨readable, parsed, ?_, linked, (agrees _ _ _ linked).2⟩
  rw [prints readable parsed none]
  decide +kernel

end Inspector

end InternalCall
