import InternalCall.Proofs.Header.Recognition
import InternalCall.Proofs.Header.TopLevel

/-!
# Headers one after the other

A header leaves nothing open behind it, so what a second text adds is read as if it
stood alone, if the two do not speak of the same things: no assembly is mentioned in
both, and no symbol that the one lists has a prototype in the other. Then the tables
of the second text follow those of the first.
-/

namespace InternalCall.Header

open Text

/-! ## Parts one after the other -/

section Parts

variable {parts parts' : List Part} {a symbol : String}

theorem arrays_append : arrays (parts ++ parts') = arrays parts ++ arrays parts' :=
  List.filterMap_append

theorem mentioned_append (h : ∀ a ∈ mentioned parts, a ∉ mentioned parts') :
    mentioned (parts ++ parts') = mentioned parts ++ mentioned parts' := by
  have hremove : (parts'.filterMap Part.assembly?).removeAll (parts.filterMap Part.assembly?) =
      parts'.filterMap Part.assembly? := by
    rw [List.removeAll, List.filter_eq_self]
    intro a ha
    have hnot : a ∉ parts.filterMap Part.assembly? := fun hm =>
      h a (List.mem_eraseDups.mpr hm) (List.mem_eraseDups.mpr ha)
    simpa using hnot
  rw [mentioned, List.filterMap_append, List.eraseDups_append, hremove, mentioned, mentioned]

/-- The items of an assembly are in the parts that mention it. -/
theorem itemsOf_filter {α : Type} {f : Body → List α} :
    itemsOf (parts.filter (·.assembly? == some a)) f a = itemsOf parts f a := by
  have hcons : ∀ part rest, itemsOf (part :: rest) f a = part.items f a ++ itemsOf rest f a :=
    fun _ _ => List.flatMap_cons
  induction parts with
  | nil => rfl
  | cons part rest ih =>
      by_cases hp : part.assembly? = some a
      · rw [List.filter_cons_of_pos (by simp [hp]), hcons, hcons, ih]
      · have hitems : part.items f a = [] := items_of_ne_block fun body hb => hp (by rw [hb]; rfl)
        rw [List.filter_cons_of_neg (by simp [hp]), ih, hcons, hitems, List.nil_append]

/-- The arrays of an assembly are given by the parts that mention it. -/
theorem mem_arrays_filter {array : ArrayKind} :
    (a, array) ∈ arrays (parts.filter (·.assembly? == some a)) ↔ (a, array) ∈ arrays parts := by
  simp only [arrays, List.mem_filterMap, List.mem_filter]
  constructor
  · rintro ⟨part, ⟨hp, -⟩, ha⟩
    exact ⟨part, hp, ha⟩
  · rintro ⟨part, hp, ha⟩
    cases part <;> cases ha
    exact ⟨_, ⟨hp, beq_iff_eq.mpr rfl⟩, rfl⟩

/-- Only parts that mention an assembly give it arrays. -/
theorem sameArrays_of_filter_eq (same : parts.filter (·.assembly? == some a) =
    parts'.filter (·.assembly? == some a)) : SameArrays parts parts' a where
  given array := by rw [← mem_arrays_filter, same, mem_arrays_filter]
  tokens := by rw [tokensOf, tokensOf, ← itemsOf_filter, same, itemsOf_filter]
  symbols := by rw [symbolsOf, symbolsOf, ← itemsOf_filter, same, itemsOf_filter]
  flags := by rw [flagsOf, flagsOf, ← itemsOf_filter, same, itemsOf_filter]

theorem filter_eq_nil_of_not_mem (h : a ∉ mentioned parts) :
    parts.filter (·.assembly? == some a) = [] := by
  rw [List.filter_eq_nil_iff]
  intro part hp ha
  exact h (mem_mentioned.mpr ⟨part, hp, beq_iff_eq.mp ha⟩)

/-- The arrays of an assembly that only the first parts mention are those of the first parts. -/
theorem sameArrays_append_left (h : a ∉ mentioned parts') :
    SameArrays parts (parts ++ parts') a := by
  apply sameArrays_of_filter_eq
  rw [List.filter_append, filter_eq_nil_of_not_mem h, List.append_nil]

/-- The arrays of an assembly that only the second parts mention are those of the second parts. -/
theorem sameArrays_append_right (h : a ∉ mentioned parts) :
    SameArrays parts' (parts ++ parts') a := by
  apply sameArrays_of_filter_eq
  rw [List.filter_append, filter_eq_nil_of_not_mem h, List.nil_append]

/-- The last prototype of a symbol is the last one in the second parts, if there is one. -/
theorem prototypeOf_append :
    prototypeOf (parts ++ parts') symbol =
      (prototypeOf parts' symbol).or (prototypeOf parts symbol) := by
  rw [prototypeOf, List.filterMap_append, List.reverse_append, List.lookup_append, prototypeOf,
    prototypeOf]

theorem prototypeOf_eq_none (h : symbol ∉ (parts.filterMap Part.prototype?).map Prod.fst) :
    prototypeOf parts symbol = none := by
  rw [prototypeOf, List.lookup_eq_none_iff]
  intro pair hp
  rw [bne_iff_ne]
  rintro rfl
  exact h (List.mem_map_of_mem (List.mem_reverse.mp hp))

/-- The parts make two headers that have no assembly in common, and neither declares a symbol that
the other lists. -/
structure Separate (parts parts' : List Part) : Prop where
  /-- No assembly is mentioned in both. -/
  assemblies : ∀ a ∈ mentioned parts, a ∉ mentioned parts'
  /-- The second parts declare no symbol that the first list. -/
  listedFirst : ∀ a ∈ mentioned parts, ∀ e ∈ (tableOf parts a).entries.toList,
    e.symbol ∉ (parts'.filterMap Part.prototype?).map Prod.fst
  /-- The first parts declare no symbol that the second list. -/
  listedSecond : ∀ a ∈ mentioned parts', ∀ e ∈ (tableOf parts' a).entries.toList,
    e.symbol ∉ (parts.filterMap Part.prototype?).map Prod.fst

namespace Separate

variable (h : Separate parts parts')
include h

theorem consistent (hc : Consistent parts) (hc' : Consistent parts') :
    Consistent (parts ++ parts') := by
  constructor
  · rw [arrays_append]
    refine hc.once.append hc'.once ?_
    rintro ⟨a, array⟩ hm hm'
    exact h.assemblies a (mem_mentioned_of_mem_arrays hm) (mem_mentioned_of_mem_arrays hm')
  · intro a ha
    rw [mentioned_append h.assemblies] at ha
    rcases List.mem_append.mp ha with ha | ha
    · exact (sameArrays_append_left (h.assemblies a ha)).whole (hc.whole a ha)
    · have hnot : a ∉ mentioned parts := fun hm => h.assemblies a hm ha
      exact (sameArrays_append_right hnot).whole (hc'.whole a ha)

/-- The tables of the first parts are followed by those of the second. -/
theorem ofParts_append :
    (ofParts (parts ++ parts')).tables = (ofParts parts).tables ++ (ofParts parts').tables := by
  have hfirst : ∀ a ∈ mentioned parts, tableOf (parts ++ parts') a = tableOf parts a := by
    intro a ha
    refine ((sameArrays_append_left (h.assemblies a ha)).tableOf_eq fun e he => ?_).symm
    rw [prototypeOf_append, prototypeOf_eq_none (h.listedFirst a ha e he), Option.none_or]
  have hsecond : ∀ a ∈ mentioned parts', tableOf (parts ++ parts') a = tableOf parts' a := by
    intro a ha
    have hnot : a ∉ mentioned parts := fun hm => h.assemblies a hm ha
    refine ((sameArrays_append_right hnot).tableOf_eq fun e he => ?_).symm
    rw [prototypeOf_append, prototypeOf_eq_none (h.listedSecond a ha e he), Option.or_none]
  rw [ofParts, mentioned_append h.assemblies, List.map_append, List.map_congr_left hfirst,
    List.map_congr_left hsecond]
  rfl

end Separate

end Parts

/-! ## Texts one after the other -/

/-- The assemblies that the text mentions. -/
def assembliesIn (text : String) : List String :=
  (topItems (content text.toList)).filterMap itemAssembly?

/-- The symbols that the text gives a prototype. -/
def declaredIn (text : String) : List String :=
  ((topItems (content text.toList)).filterMap itemPrototype?).map Prod.fst

/-- The symbols that the tables list. -/
def listed (h : Header) : List String :=
  h.tables.flatMap fun t => t.entries.toList.map TableEntry.symbol

/-- Two texts and what they are read as do not speak of the same things. A symbol that neither lists
may still have prototypes in both. -/
structure Apart (text text' : String) (h h' : Header) : Prop where
  /-- No assembly is mentioned in both texts. -/
  assemblies : ∀ a ∈ assembliesIn text, a ∉ assembliesIn text'
  /-- No symbol with a prototype in the first text is listed in the second. -/
  declaredFirst : ∀ symbol ∈ declaredIn text, symbol ∉ listed h'
  /-- No symbol with a prototype in the second text is listed in the first. -/
  declaredSecond : ∀ symbol ∈ declaredIn text', symbol ∉ listed h

theorem content_append_line (front rest : List Char) :
    content (front ++ '\n' :: rest) = content front ++ content rest := by
  rw [content, lines_append_line, List.map_append, List.filter_append, content, content]

/-- The content of two texts, the first of which ends its last line. -/
theorem content_append {text text' : String} (ended : text.toList.getLast? = some '\n') :
    content (text ++ text').toList = content text.toList ++ content text'.toList := by
  obtain ⟨front, hfront⟩ := List.getLast?_eq_some_iff.mp ended
  have hend : content (front ++ ['\n']) = content front := by
    rw [content_append_line]
    exact List.append_nil _
  rw [String.toList_append, hfront, List.append_assoc, hend, List.singleton_append,
    content_append_line]

theorem assembliesIn_of_spells {text : String} {parts : List Part} {a : String}
    (hs : Spells (content text.toList) parts) : a ∈ assembliesIn text ↔ a ∈ mentioned parts := by
  rw [assembliesIn, (filterMap_items (spells_iff_topItems.mp hs)).1, mentioned, List.mem_eraseDups]

theorem declaredIn_of_spells {text : String} {parts : List Part}
    (hs : Spells (content text.toList) parts) :
    declaredIn text = (parts.filterMap Part.prototype?).map Prod.fst := by
  rw [declaredIn, (filterMap_items (spells_iff_topItems.mp hs)).2]

theorem symbol_mem_listed {parts : List Part} {a : String} {e : TableEntry}
    (ha : a ∈ mentioned parts) (he : e ∈ (tableOf parts a).entries.toList) :
    e.symbol ∈ listed (ofParts parts) :=
  List.mem_flatMap.mpr ⟨tableOf parts a, List.mem_map_of_mem ha, List.mem_map_of_mem he⟩

/-- The parts of texts that are apart are separate. -/
theorem Apart.separate {text text' : String} {parts parts' : List Part}
    (h : Apart text text' (ofParts parts) (ofParts parts'))
    (hs : Spells (content text.toList) parts) (hs' : Spells (content text'.toList) parts') :
    Separate parts parts' := by
  refine ⟨fun a ha ha' => ?_, fun a ha e he hd => ?_, fun a ha e he hd => ?_⟩
  · exact h.assemblies a ((assembliesIn_of_spells hs).mpr ha) ((assembliesIn_of_spells hs').mpr ha')
  · rw [← declaredIn_of_spells hs'] at hd
    exact h.declaredSecond e.symbol hd (symbol_mem_listed ha he)
  · rw [← declaredIn_of_spells hs] at hd
    exact h.declaredFirst e.symbol hd (symbol_mem_listed ha he)

theorem entryCount_append (tables tables' : List AssemblyTable) :
    entryCount ⟨tables ++ tables'⟩ = entryCount ⟨tables⟩ + entryCount ⟨tables'⟩ := by
  have hcons : ∀ (t : AssemblyTable) (rest : List AssemblyTable),
      entryCount ⟨t :: rest⟩ = t.size + entryCount ⟨rest⟩ := fun _ _ => rfl
  induction tables with
  | nil => exact (Nat.zero_add _).symm
  | cons t rest ih => rw [List.cons_append, hcons, ih, hcons, Nat.add_assoc]

/-- The table of an assembly is the first that has its name. -/
theorem table?_append (tables tables' : List AssemblyTable) (a : String) :
    table? ⟨tables ++ tables'⟩ a = (table? ⟨tables⟩ a).or (table? ⟨tables'⟩ a) :=
  List.find?_append

/-- A header has no table of an assembly that its text does not mention. -/
theorem table?_eq_none {text : String} {h : Header} {a : String} (parsed : parse text = .ok h)
    (ha : a ∉ assembliesIn text) : h.table? a = none := by
  obtain ⟨parts, hs, -, rfl⟩ := exists_parts_of_parse parsed
  rw [Header.table?, List.find?_eq_none]
  intro t ht hname
  have hmem : t.name ∈ mentioned parts := by
    rw [← names_ofParts parts]
    exact List.mem_map_of_mem ht
  rw [beq_iff_eq.mp hname] at hmem
  exact ha ((assembliesIn_of_spells hs).mpr hmem)

/-- If two texts are read as headers, the first ends with a line feed, and they are apart, then the
one followed by the other is read as well: its tables are those of the first and then those of the
second, so the entries add up, and an assembly has the table that it has in the text that mentions
it. -/
theorem parse_append {text text' : String} {h h' : Header}
    (ended : text.toList.getLast? = some '\n') (parsed : parse text = .ok h)
    (parsed' : parse text' = .ok h') (apart : Apart text text' h h') :
    ∃ both, parse (text ++ text') = .ok both ∧ both.tables = h.tables ++ h'.tables ∧
      both.entryCount = h.entryCount + h'.entryCount ∧
      (∀ a ∉ assembliesIn text', both.table? a = h.table? a) ∧
      ∀ a ∉ assembliesIn text, both.table? a = h'.table? a := by
  obtain ⟨parts, hs, hc, rfl⟩ := exists_parts_of_parse parsed
  obtain ⟨parts', hs', hc', rfl⟩ := exists_parts_of_parse parsed'
  have separate := apart.separate hs hs'
  have hspells : Spells (content (text ++ text').toList) (parts ++ parts') := by
    rw [content_append ended]
    exact hs.append hs'
  have hboth : ofParts (parts ++ parts') = ⟨(ofParts parts).tables ++ (ofParts parts').tables⟩ :=
    congrArg Header.mk separate.ofParts_append
  have parsedBoth := parse_of_spells hspells (separate.consistent hc hc')
  rw [hboth] at parsedBoth
  refine ⟨_, parsedBoth, rfl, entryCount_append _ _, fun a ha => ?_, fun a ha => ?_⟩
  · rw [table?_append, table?_eq_none parsed' ha, Option.or_none]
  · rw [table?_append, table?_eq_none parsed ha, Option.none_or]

/-- Each text has the table of one assembly, and both give a prototype to a symbol that neither
lists. -/
theorem parse_append_two_headers :
    let text := String.ofList (["// first", "int h(int);",
      "static int a_icall_indexes[]=\x7b", "7", "\x7d;",
      "static void*a_icall_funcs[]=\x7b", "// token 7", "f", "\x7d;",
      "static uint8_t a_icall_flags[]=\x7b", "4", "\x7d;",
      "void f(void);"].flatMap (·.toList ++ ['\n']))
    let text' := String.ofList (["static int b_icall_indexes[]=\x7b", "5", "\x7d;",
      "void h(void);", "static void*b_icall_funcs[]=\x7b", "g", "\x7d;",
      "static uint8_t b_icall_flags[]=\x7b", "0", "\x7d;"].flatMap (·.toList ++ ['\r', '\n']))
    let h : Header := ⟨[⟨"a", #[⟨7, "f", some ⟨[], .void⟩, 4⟩]⟩]⟩
    let h' : Header := ⟨[⟨"b", #[⟨5, "g", none, 0⟩]⟩]⟩
    parse text = .ok h ∧ parse text' = .ok h' ∧
      ∃ both, parse (text ++ text') = .ok both ∧ both.tables = h.tables ++ h'.tables ∧
        both.entryCount = 2 ∧ both.table? "b" = h'.table? "b" := by
  intro text text' h h'
  have facts : parse text = .ok h ∧ parse text' = .ok h' ∧
      text.toList.getLast? = some '\n' ∧ "b" ∉ assembliesIn text ∧
      (∀ a ∈ assembliesIn text, a ∉ assembliesIn text') ∧
      (∀ symbol ∈ declaredIn text, symbol ∉ listed h') ∧
      ∀ symbol ∈ declaredIn text', symbol ∉ listed h := by
    simp only [parse, assembliesIn, declaredIn, text, text', String.toList_ofList]
    decide +kernel
  obtain ⟨parsed, parsed', ended, hb, assemblies, declaredFirst, declaredSecond⟩ := facts
  obtain ⟨both, hboth, tables, count, -, answers⟩ :=
    parse_append ended parsed parsed' ⟨assemblies, declaredFirst, declaredSecond⟩
  exact ⟨parsed, parsed', both, hboth, tables, count, answers "b" hb⟩

end InternalCall.Header
