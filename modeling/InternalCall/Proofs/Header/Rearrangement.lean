import InternalCall.Proofs.Header.Printed
import InternalCall.Proofs.Header.Recognition
import InternalCall.Proofs.Header.TopLevel
import InternalCall.Proofs.Lookup
import Mathlib.Data.List.Perm.Basic

/-!
# The order of declarations

Tables are put together after the last line, each from the arrays that are given
for its assembly, and a symbol has its last prototype. No array is given twice, so
the order of the top-level items matters in two ways only: which prototype of a
symbol is the last one, and which assembly is mentioned first. Rearranging the
items without crossing prototypes of one symbol keeps every table.
-/

namespace InternalCall.Header

/-! ## Parts in another order -/

/-- The same parts in another order, in which the prototypes of each symbol follow each other as
before. -/
structure Reordered (parts parts' : List Part) : Prop where
  /-- They are the same parts. -/
  perm : parts.Perm parts'
  /-- The prototypes of each symbol are in their order. -/
  prototypes_eq : ∀ symbol : String,
    (parts.filterMap Part.prototype?).filter (·.1 == symbol) =
      (parts'.filterMap Part.prototype?).filter (·.1 == symbol)

/-- A part that holds items of the assembly for an array gives the array. -/
theorem array?_of_items_ne_nil {α : Type} {f : Body → List α} {array : ArrayKind}
    (hf : ∀ body, body.array ≠ array → f body = []) {part : Part} {a : String}
    (h : part.items f a ≠ []) : part.array? = some (a, array) := by
  cases part with
  | block b body =>
      rw [Part.items] at h
      split at h
      · next hb =>
          have harray : body.array = array := by
            by_contra hne
            exact h (hf body hne)
          rw [Part.array?, hb, harray]
      · exact absurd rfl h
  | _ => exact absurd rfl h

/-- Items of an array that is given once come in the same order, wherever it is given. -/
theorem itemsOf_perm {α : Type} {f : Body → List α} {array : ArrayKind}
    (hf : ∀ body, body.array ≠ array → f body = []) {parts parts' : List Part}
    (perm : parts.Perm parts') (once : (arrays parts).Nodup) (a : String) :
    itemsOf parts f a = itemsOf parts' f a := by
  induction perm with
  | nil => rfl
  | @cons part rest rest' _ ih =>
      have hrest : (arrays rest).Nodup := by
        cases h : part.array? with
        | none => simpa only [arrays, List.filterMap_cons, h] using once
        | some given =>
            simp only [arrays, List.filterMap_cons, h] at once
            exact (List.nodup_cons.mp once).2
      simp only [itemsOf, List.flatMap_cons] at ih ⊢
      rw [ih hrest]
  | swap part part' rest =>
      -- Of two parts next to each other, only one can give the array.
      simp only [itemsOf, List.flatMap_cons]
      by_cases h : part.items f a = []
      · rw [h, List.nil_append, List.nil_append]
      · by_cases h' : part'.items f a = []
        · rw [h', List.nil_append, List.nil_append]
        · have harray := array?_of_items_ne_nil hf h
          have harray' := array?_of_items_ne_nil hf h'
          simp [arrays, harray, harray'] at once
  | trans left _ ihl ihr =>
      have hmiddle := (left.filterMap Part.array?).nodup_iff.mp once
      rw [ihl once, ihr hmiddle]

namespace Reordered

variable {parts parts' : List Part} (h : Reordered parts parts')
include h

theorem mem_arrays_iff {given : String × ArrayKind} : given ∈ arrays parts ↔ given ∈ arrays parts' :=
  (h.perm.filterMap Part.array?).mem_iff

theorem mem_mentioned_iff {a : String} : a ∈ mentioned parts ↔ a ∈ mentioned parts' := by
  rw [mentioned, mentioned, List.mem_eraseDups, List.mem_eraseDups]
  exact (h.perm.filterMap Part.assembly?).mem_iff

theorem prototypeOf_eq (symbol : String) : prototypeOf parts symbol = prototypeOf parts' symbol := by
  have kept : (symbol == symbol) = true := beq_self_eq_true symbol
  rw [prototypeOf, prototypeOf, ← lookup_filter (· == symbol) kept, List.filter_reverse,
    h.prototypes_eq, ← List.filter_reverse, lookup_filter (· == symbol) kept]

/-- Every assembly keeps its arrays. -/
theorem sameArrays (once : (arrays parts).Nodup) (a : String) : SameArrays parts parts' a where
  given _ := h.mem_arrays_iff
  tokens := itemsOf_perm (fun _ => Body.tokens_eq_nil) h.perm once a
  symbols := itemsOf_perm (fun _ => Body.symbols_eq_nil) h.perm once a
  flags := itemsOf_perm (fun _ => Body.bytes_eq_nil) h.perm once a

/-- Every assembly keeps its table. -/
theorem tableOf_eq (once : (arrays parts).Nodup) (a : String) :
    tableOf parts a = tableOf parts' a :=
  (h.sameArrays once a).tableOf_eq fun e _ => h.prototypeOf_eq e.symbol

/-- Parts that make a header make one in another order too. -/
theorem consistent (hc : Consistent parts) : Consistent parts' := by
  refine ⟨(h.perm.filterMap Part.array?).nodup_iff.mp hc.once, fun a ha => ?_⟩
  exact (h.sameArrays hc.once a).whole (hc.whole a (h.mem_mentioned_iff.mpr ha))

/-- The tables are the same, in another order. -/
theorem tables_perm (once : (arrays parts).Nodup) :
    (ofParts parts).tables.Perm (ofParts parts').tables := by
  have hmentioned : (mentioned parts).Perm (mentioned parts') :=
    (List.perm_ext_iff_of_nodup (nodup_mentioned parts) (nodup_mentioned parts')).mpr fun _ =>
      h.mem_mentioned_iff
  have htables : tableOf parts = tableOf parts' := funext (h.tableOf_eq once)
  rw [ofParts, ofParts, htables]
  exact hmentioned.map _

end Reordered

/-! ## Items in another order -/

/-- Whether the item gives a prototype of the symbol. -/
def declares (symbol : String) (item : Item) : Bool := (itemPrototype? item).any (·.1 == symbol)

/-- The items are the others in another order, in which the prototypes of each symbol follow each
other as before. -/
structure Rearranged (items items' : List Item) : Prop where
  /-- They are the same items. -/
  perm : items.Perm items'
  /-- The prototypes of each symbol are in their order. -/
  prototypes_eq : ∀ symbol, items.filter (declares symbol) = items'.filter (declares symbol)

/-- The order needs to be looked at for the declared symbols only. -/
theorem rearranged_iff {items items' : List Item} : Rearranged items items' ↔
    items.Perm items' ∧ ∀ pair ∈ items.filterMap itemPrototype?,
      items.filter (declares pair.1) = items'.filter (declares pair.1) := by
  refine ⟨fun h => ⟨h.perm, fun pair _ => h.prototypes_eq pair.1⟩, fun ⟨perm, h⟩ => ⟨perm, ?_⟩⟩
  intro symbol
  by_cases hs : ∃ pair ∈ items.filterMap itemPrototype?, pair.1 = symbol
  · obtain ⟨pair, hpair, rfl⟩ := hs
    exact h pair hpair
  · have hnil : items.filter (declares symbol) = [] := by
      refine List.filter_eq_nil_iff.mpr fun item hi hd => hs ?_
      obtain ⟨pair, hpair, heq⟩ := (Option.any_eq_true _ _).mp hd
      exact ⟨pair, List.mem_filterMap.mpr ⟨item, hi, hpair⟩, beq_iff_eq.mp heq⟩
    have hfilter := perm.filter (declares symbol)
    rw [hnil] at hfilter ⊢
    exact hfilter.nil_eq

instance (items items' : List Item) : Decidable (Rearranged items items') :=
  decidable_of_iff _ rearranged_iff.symm

theorem filter_prototypes (symbol : String) (items : List Item) :
    (items.filterMap itemPrototype?).filter (·.1 == symbol) =
      (items.filter (declares symbol)).filterMap itemPrototype? := by
  induction items with
  | nil => rfl
  | cons item rest ih =>
      cases hp : itemPrototype? item with
      | none =>
          have hno : declares symbol item = false := by rw [declares, hp]; rfl
          rw [List.filterMap_cons_none hp, List.filter_cons_of_neg (by simp [hno]), ih]
      | some pair =>
          have hpair : declares symbol item = (pair.1 == symbol) := by rw [declares, hp]; rfl
          rw [List.filterMap_cons_some hp, List.filter_cons, List.filter_cons, hpair, ih]
          split
          · rw [List.filterMap_cons_some hp]
          · rfl

/-- Items of parts that are rearranged are items of parts that are reordered. -/
theorem Rearranged.exists_parts {items items' : List Item} (rearranged : Rearranged items items')
    {parts : List Part} (h : List.Forall₂ PartLines items parts) :
    ∃ parts', List.Forall₂ PartLines items' parts' ∧ Reordered parts parts' := by
  obtain ⟨parts', h', perm⟩ := List.perm_comp_forall₂ rearranged.perm.symm h
  refine ⟨parts', h', perm.symm, fun symbol => ?_⟩
  rw [← (filterMap_items h).2, ← (filterMap_items h').2, filter_prototypes, filter_prototypes,
    rearranged.prototypes_eq]

/-- Items of a text in another order are the content of a text. -/
theorem exists_content_eq {text : String} {items' : List Item}
    (perm : (topItems (content text.toList)).Perm items') :
    ∃ text' : String, content text'.toList = items'.flatten := by
  have htidy : ∀ line ∈ items'.flatten, Tidy line := by
    intro line hl
    have hmem := (perm.flatten.mem_iff).mpr hl
    rw [flatten_topItems] at hmem
    exact tidy_of_mem_content hmem
  refine ⟨String.ofList (items'.flatten.flatMap (· ++ ['\n'])), ?_⟩
  rw [String.toList_ofList, content_flatMap_ended fun line hl => .inr (htidy line hl),
    filter_tidy htidy]

/-- The order of the top-level items of a header does not matter to its tables. The items of a text
that is read are its declarations, arrays, prototypes and ignored lines. If they are rearranged
without changing the order of the prototypes of any symbol, then there are texts with these items, and
each is read as the same tables: every assembly has the table that it had, and the tables are in the
order in which their assemblies are now first mentioned. -/
theorem parse_rearranged {text : String} {h : Header} (parsed : parse text = .ok h)
    {items' : List Item} (rearranged : Rearranged (topItems (content text.toList)) items') :
    (∀ item ∈ topItems (content text.toList), ∃ part, PartLines item part) ∧
    (∃ text' : String, content text'.toList = items'.flatten) ∧
    ∀ text' : String, content text'.toList = items'.flatten →
      topItems (content text'.toList) = items' ∧
      ∃ h', parse text' = .ok h' ∧ (∀ assembly, h'.table? assembly = h.table? assembly) ∧
        h'.tables.Perm h.tables ∧
        h'.tables.map AssemblyTable.name = (items'.filterMap itemAssembly?).eraseDups := by
  obtain ⟨parts, hspells, hc, rfl⟩ := exists_parts_of_parse parsed
  have hitems := spells_iff_topItems.mp hspells
  obtain ⟨parts', hitems', hparts⟩ := rearranged.exists_parts hitems
  refine ⟨exists_partLines hitems, exists_content_eq rearranged.perm, fun text' spelled => ?_⟩
  have hspells' : Spells (content text'.toList) parts' := by
    rw [spelled]
    exact spells_flatten hitems'
  have parsed' := parse_of_spells hspells' (hparts.consistent hc)
  have perm := (hparts.tables_perm hc.once).symm
  refine ⟨by rw [spelled, topItems_flatten hitems'], _, parsed', fun assembly => ?_, perm, ?_⟩
  · refine Option.ext fun t => ?_
    rw [table?_eq_some_iff (nodup_names_of_parse parsed'),
      table?_eq_some_iff (nodup_names_of_parse parsed), perm.mem_iff]
  · rw [names_ofParts, mentioned, (filterMap_items hitems').1]

/-- The arrays of two assemblies between each other, with two prototypes of one symbol and a line
that is ignored. Rearranged, the second assembly comes first, and the later prototype of the symbol
still counts. -/
theorem parse_rearranged_interleaved :
    let declaration := ["#define ICALL_TABLE_a 1".toList]
    let tokens := ["static int a_icall_indexes[]=\x7b".toList, "7".toList, closingLine]
    let symbols := ["static int a_icall_funcs[]=\x7b".toList, "// token 7".toList, "f".toList,
      closingLine]
    let flags := ["static int a_icall_flags[]=\x7b".toList, "4".toList, closingLine]
    let noTokens := ["static int b_icall_indexes[]=\x7b".toList, closingLine]
    let noSymbols := ["static int b_icall_funcs[]=\x7b".toList, closingLine]
    let noFlags := ["static int b_icall_flags[]=\x7b".toList, closingLine]
    let first := ["int f(int);".toList]
    let second := ["double f();".toList]
    let ignored := ["#".toList]
    let items : List Item := [declaration, noTokens, first, symbols, tokens, ignored, second, flags,
      noFlags, noSymbols]
    let items' : List Item := [noSymbols, first, flags, ignored, second, noFlags, tokens,
      declaration, noTokens, symbols]
    let text := String.ofList (items.flatten.flatMap (' ' :: · ++ ['\n']))
    let text' := String.ofList (items'.flatten.flatMap (· ++ ['\n', '\n']))
    let a : AssemblyTable := ⟨"a", #[⟨7, "f", some ⟨[], .scalar .double⟩, 4⟩]⟩
    let b : AssemblyTable := ⟨"b", #[]⟩
    parse text = .ok ⟨[a, b]⟩ ∧ Rearranged (topItems (content text.toList)) items' ∧
      content text'.toList = items'.flatten ∧
      ∃ h', parse text' = .ok h' ∧ h'.table? "a" = some a ∧ h'.table? "b" = some b ∧
        h'.tables.map AssemblyTable.name = ["b", "a"] := by
  intro declaration tokens symbols flags noTokens noSymbols noFlags first second ignored items
    items' text text' a b
  have facts : parse text = .ok ⟨[a, b]⟩ ∧ Rearranged (topItems (content text.toList)) items' ∧
      content text'.toList = items'.flatten ∧
      (items'.filterMap itemAssembly?).eraseDups = ["b", "a"] := by
    simp only [parse, text, text', String.toList_ofList]
    decide +kernel
  obtain ⟨parsed, rearranged, spelled, mentioned⟩ := facts
  obtain ⟨-, h', parsed', table?_eq, -, names⟩ :=
    (parse_rearranged parsed rearranged).2.2 text' spelled
  exact ⟨parsed, rearranged, spelled, h', parsed', table?_eq "a", table?_eq "b",
    names.trans mentioned⟩

end InternalCall.Header
