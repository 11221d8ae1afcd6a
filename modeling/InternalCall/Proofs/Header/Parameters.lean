import InternalCall.Proofs.Header.Recognition

/-!
# Parameters of a prototype

The commas of a parameter list separate its slots. A slot that is blank or the word
`void` names no kind, and reading passes it over, wherever it stands. So the
parameters of a prototype are named by its other slots, in their order, and a slot
is lost exactly if there is one of these: a list with such slots is read as the
shorter list without them. That is meant for lists that are empty or `void` as a
whole, but an incomplete list is not refused either.
-/

namespace InternalCall.Header

open Text Progress

/-- The slots are what the commas of the parameter list separate. -/
def SlotsOf (params : List Char) (slots : List (List Char)) : Prop :=
  slots ≠ [] ∧ (∀ slot ∈ slots, ',' ∉ slot) ∧ [','].intercalate slots = params

/-- The slot is blank or the word `void`. -/
def Vacant (slot : List Char) : Prop :=
  String.ofList (trim slot) = "" ∨ String.ofList (trim slot) = "void"

instance (slot : List Char) : Decidable (Vacant slot) := instDecidableOr

/-! ## Slots and kinds -/

variable {slots : List (List Char)} {kinds : List ScalarKind} {meanings : List (Option ScalarKind)}

/-- A slot that names a kind is not vacant. -/
theorem NamesKind.not_vacant {slot : List Char} {kind : ScalarKind} (h : NamesKind slot kind) :
    ¬Vacant slot := by
  rintro (hv | hv)
  all_goals
    rw [NamesKind, hv] at h
    revert h
    cases kind <;> decide

/-- The kinds that slots stand for are named by those of them that are not vacant. -/
theorem forall₂_namesKind_filter
    (h : List.Forall₂ (fun slot meaning => SlotMeans (String.ofList (trim slot)) meaning)
      slots meanings) :
    List.Forall₂ NamesKind (slots.filter fun slot => ¬Vacant slot) meanings.reduceOption := by
  induction h with
  | nil => exact .nil
  | @cons slot meaning slots meanings hs _ ih =>
      generalize hname : String.ofList (trim slot) = name at hs
      cases hs with
      | empty =>
          rwa [List.filter_cons_of_neg (by simp [Vacant, hname]), List.reduceOption_cons_of_none]
      | void =>
          rwa [List.filter_cons_of_neg (by simp [Vacant, hname]), List.reduceOption_cons_of_none]
      | @named name kind hk =>
          have hn : NamesKind slot kind := by rwa [NamesKind, hname]
          rw [List.filter_cons_of_pos (by simpa using hn.not_vacant),
            List.reduceOption_cons_of_some]
          exact .cons hn ih

/-- A list of slots is read as the kinds that are named by those of its slots that are not vacant,
and it is read in the same way without the others. -/
theorem namesKind_of_paramsMean {params : List Char} (hs : SlotsOf params slots)
    (h : ParamsMean params kinds) :
    List.Forall₂ NamesKind (slots.filter fun slot => ¬Vacant slot) kinds ∧
      ParamsMean ([','].intercalate (slots.filter fun slot => ¬Vacant slot)) kinds := by
  obtain ⟨slots', meanings, hs', hm, rfl⟩ := h
  obtain rfl : slots' = slots :=
    (splitAt_eq_iff.mpr hs').symm.trans (splitAt_eq_iff.mpr hs)
  have hn := forall₂_namesKind_filter hm
  exact ⟨hn, paramsMean_of_namesKind (fun slot hmem => hs.2.1 slot (List.mem_filter.mp hmem).1) hn⟩

/-- Every slot names a parameter exactly if none is vacant. -/
theorem forall₂_namesKind_iff
    (h : List.Forall₂ NamesKind (slots.filter fun slot => ¬Vacant slot) kinds) :
    List.Forall₂ NamesKind slots kinds ↔ ∀ slot ∈ slots, ¬Vacant slot := by
  constructor
  · intro hall slot hslot
    obtain ⟨kind, -, hn⟩ := exists_of_mem_of_forall₂ hall hslot
    exact hn.not_vacant
  · intro hall
    rwa [List.filter_eq_self.mpr fun slot hslot => decide_eq_true (hall slot hslot)] at h

/-! ## Lines that give a prototype -/

section Lines

variable {line ret symbol params : List Char} {p q : Progress}

theorem PrototypeLine.paren_mem (h : PrototypeLine line ret symbol params) : '(' ∈ line := by
  obtain ⟨b₁, b₂, -, -, -, -, -, rfl⟩ := h
  simp

theorem PrototypeLine.not_item (h : PrototypeLine line ret symbol params) {item : List Char} :
    ¬ItemLine line item := by
  rintro ⟨hw, rfl | rfl⟩
  · exact hw.not_mem (by decide) h.paren_mem
  · rcases List.mem_append.mp h.paren_mem with hm | hm
    · exact hw.not_mem (by decide) hm
    · revert hm
      decide

/-- A line of this shape is read outside the arrays, as a prototype with a signature. -/
theorem Progress.Step.of_prototypeLine (hs : Step line p q)
    (shape : PrototypeLine line ret symbol params) :
    ∃ s, ReturnKind.ofCName? (String.ofList ret) = some s.ret ∧ ParamsMean params s.params ∧
      q = { p with prototypes := (String.ofList symbol, s) :: p.prototypes } := by
  cases hs with
  | declaration _ hd => exact absurd hd.comment shape.not_comment
  | opening _ ho => exact absurd ho shape.not_opening
  | ignored _ hc => exact absurd hc shape.not_comment
  | closing _ hc =>
      rw [hc] at shape
      rcases shape.head with hh | hh | hh <;> cases hh
  | token _ hn | flags _ hn =>
      obtain ⟨item, hi, -⟩ := hn
      exact absurd hi shape.not_item
  | comment _ ht =>
      rcases shape.head with hh | hh | hh <;> cases ht.head.symm.trans hh
  | symbol _ hi => exact absurd hi shape.not_item
  | @prototype ret' symbol' params' s _ hp hret hparams =>
      have same := (prototype?_eq_some_iff.mpr hp).symm.trans (prototype?_eq_some_iff.mpr shape)
      cases same
      exact ⟨s, hret, hparams, rfl⟩

/-- A step finds a symbol's prototype as before, unless the line gives one. -/
theorem Progress.Step.lookup_prototype (hs : Step line p q) {name : String}
    (fresh : ∀ ret params, ¬PrototypeLine line ret name.toList params) :
    q.prototype? name = p.prototype? name := by
  cases hs with
  | @prototype ret symbol params s _ hp =>
      have hne : (name == String.ofList symbol) = false := by
        rw [beq_eq_false_iff_ne]
        rintro rfl
        rw [String.toList_ofList] at fresh
        exact fresh ret params hp
      rw [prototype?, List.lookup_cons, hne]
      rfl
  | _ => rfl

theorem Progress.Reads.lookup_prototype {lines : List (List Char)} (h : Reads p lines q)
    {name : String}
    (fresh : ∀ line ∈ lines, ∀ ret params, ¬PrototypeLine line ret name.toList params) :
    q.prototype? name = p.prototype? name := by
  induction h with
  | nil => rfl
  | cons hs _ ih =>
      obtain ⟨hline, hrest⟩ := List.forall_mem_cons.mp fresh
      rw [ih hrest, hs.lookup_prototype hline]

end Lines

/-- An entry has the prototype that its symbol was given last. -/
theorem signature?_eq_prototype? {text : String} {h : Header} (parsed : parse text = .ok h)
    {p : Progress} (reads : Reads {} (content text.toList) p) {t : AssemblyTable}
    (ht : t ∈ h.tables) {e : TableEntry} (he : e ∈ t.entries) :
    e.signature? = p.prototype? e.symbol := by
  obtain ⟨q, hq, hf⟩ := parse_eq_ok_iff_reads.mp parsed
  obtain rfl := reads.unique hq
  obtain ⟨parts, -, -, rfl⟩ := reads_iff.mp ⟨reads, openArray?_of_finish hf⟩
  obtain ⟨-, rfl⟩ := finish_stateOf_eq_ok_iff.mp hf
  obtain ⟨a, -, rfl⟩ := List.mem_map.mp ht
  obtain ⟨item, -, rfl⟩ := List.mem_map.mp (List.mem_toArray.mp he)
  rfl

/-- A prototype in a text that is read gives its symbol a signature whose parameters are named, in
their order, by the slots that are neither blank nor `void`. So it has one parameter for each slot
exactly if there is no other slot. Otherwise the shorter list, without those slots, gives the same
signature. Entries of the symbol have the signature if no later prototype gives it another. -/
theorem parameters_keep_slots_iff {text : String} {h : Header} (parsed : parse text = .ok h)
    {front rest : List (List Char)} {line ret symbol params : List Char}
    (split : content text.toList = front ++ line :: rest)
    (shape : PrototypeLine line ret symbol params) {slots : List (List Char)}
    (hs : SlotsOf params slots) :
    ∃ p s, Reads {} front p ∧
      Step line p { p with prototypes := (String.ofList symbol, s) :: p.prototypes } ∧
      List.Forall₂ NamesKind (slots.filter fun slot => ¬Vacant slot) s.params ∧
      (List.Forall₂ NamesKind slots s.params ↔ ∀ slot ∈ slots, ¬Vacant slot) ∧
      readPrototype (String.ofList ret)
        ([','].intercalate (slots.filter fun slot => ¬Vacant slot)) = .ok s ∧
      ((∀ later ∈ rest, ∀ ret params, ¬PrototypeLine later ret symbol params) →
        ∀ t ∈ h.tables, ∀ e ∈ t.entries, e.symbol = String.ofList symbol →
          e.signature? = some s) := by
  obtain ⟨r, hr, -⟩ := parse_eq_ok_iff_reads.mp parsed
  have hreads := hr
  rw [split] at hreads
  obtain ⟨p, hfront, hrest⟩ := hreads.exists_between
  cases hrest with
  | cons hstep hlater =>
      obtain ⟨s, hret, hparams, rfl⟩ := hstep.of_prototypeLine shape
      obtain ⟨hnamed, hshort⟩ := namesKind_of_paramsMean hs hparams
      refine ⟨p, s, hfront, hstep, hnamed, forall₂_namesKind_iff hnamed,
        readPrototype_eq_ok_iff.mpr ⟨hret, hshort⟩, fun last t ht e he hsymbol => ?_⟩
      have fresh : ∀ later ∈ rest, ∀ ret params,
          ¬PrototypeLine later ret (String.ofList symbol).toList params := by
        rwa [String.toList_ofList]
      rw [signature?_eq_prototype? parsed hr ht he, hsymbol, hlater.lookup_prototype fresh,
        Progress.prototype?, List.lookup_cons_self]

/-- The second prototype of the symbol has four slots, of which the middle ones are empty and
`void`: it gives the symbol two parameters, as does the list of the other two. -/
theorem parameters_keep_slots_iff_two_of_four :
    let front := ["#define ICALL_TABLE_a 1", "void f (double);"].map String.toList
    let line := "int f (int,, void ,gpointer);".toList
    let rest := ["static int a_icall_indexes [] = \x7b", "7,", "\x7d;",
      "static void *a_icall_funcs [] = \x7b", "f,", "\x7d;",
      "static uint8_t a_icall_flags [] = \x7b", "0,", "\x7d;"].map String.toList
    let text := String.ofList ((front ++ line :: rest).flatMap (· ++ ['\n']))
    let slots := ["int", "", " void ", "gpointer"].map String.toList
    let s : Signature := ⟨[.int, .handle], .scalar .int⟩
    parse text = .ok ⟨[⟨"a", #[⟨7, "f", some s, 0⟩]⟩]⟩ ∧
      PrototypeLine line "int".toList "f".toList "int,, void ,gpointer".toList ∧
      SlotsOf "int,, void ,gpointer".toList slots ∧ ¬List.Forall₂ NamesKind slots s.params ∧
      readPrototype "int" "int,gpointer".toList = .ok s := by
  intro front line rest text slots s
  have parsed : parse text = .ok ⟨[⟨"a", #[⟨7, "f", some s, 0⟩]⟩]⟩ := by
    simp only [parse, text, String.toList_ofList]
    decide +kernel
  have split : content text.toList = front ++ line :: rest := by
    simp only [text, String.toList_ofList]
    decide +kernel
  have shape : PrototypeLine line "int".toList "f".toList "int,, void ,gpointer".toList :=
    prototype?_eq_some_iff.mp (by decide +kernel)
  have hs : SlotsOf "int,, void ,gpointer".toList slots := splitAt_eq_iff.mp (by decide)
  obtain ⟨p, t, -, -, -, every, short, entries⟩ := parameters_keep_slots_iff parsed split shape hs
  have last : ∀ later ∈ rest, ∀ ret params, ¬PrototypeLine later ret "f".toList params := by
    have absent : ∀ later ∈ rest, prototype? later = none := by decide +kernel
    exact fun later hl ret params =>
      prototype?_eq_none_iff.mp (absent later hl) ret "f".toList params
  obtain rfl : s = t := Option.some.inj (entries last _ (List.mem_singleton_self _) _
    (Array.mem_singleton.mpr rfl) rfl)
  refine ⟨parsed, shape, hs, ?_, short⟩
  rw [every]
  decide

/-- The parameter list is neither blank nor `void`, and its slots do not name the kinds one by
one. -/
def Incomplete (params : List Char) (kinds : List ScalarKind) : Prop :=
  ¬Vacant params ∧ ∃ slots, SlotsOf params slots ∧ ¬List.Forall₂ NamesKind slots kinds

/-- A prototype with an empty slot between two others and one with `void` between two others are
both read, and each gives its symbol two parameters. -/
theorem incomplete_parameters_are_read :
    let text := String.ofList (["#define ICALL_TABLE_a 1",
      "static int a_icall_indexes [] = \x7b", "1,", "2,", "\x7d;",
      "int f (int,,int);", "void g (int,void,double);",
      "static void *a_icall_funcs [] = \x7b", "f,", "g,", "\x7d;",
      "static uint8_t a_icall_flags [] = \x7b", "0,", "0,", "\x7d;"].flatMap (·.toList ++ ['\n']))
    parse text = .ok ⟨[⟨"a", #[⟨1, "f", some ⟨[.int, .int], .scalar .int⟩, 0⟩,
        ⟨2, "g", some ⟨[.int, .double], .void⟩, 0⟩]⟩]⟩ ∧
      PrototypeLine "int f (int,,int);".toList "int".toList "f".toList "int,,int".toList ∧
      Incomplete "int,,int".toList [.int, .int] ∧
      PrototypeLine "void g (int,void,double);".toList "void".toList "g".toList
        "int,void,double".toList ∧
      Incomplete "int,void,double".toList [.int, .double] := by
  intro text
  have lengths : ∀ {slots : List (List Char)} {kinds : List ScalarKind},
      slots.length ≠ kinds.length → ¬List.Forall₂ NamesKind slots kinds :=
    fun hne h => hne h.length_eq
  refine ⟨?_, prototype?_eq_some_iff.mp (by decide +kernel), ⟨by decide, _,
    splitAt_eq_iff.mp rfl, lengths (by decide)⟩, prototype?_eq_some_iff.mp (by decide +kernel),
    ⟨by decide, _, splitAt_eq_iff.mp rfl, lengths (by decide)⟩⟩
  simp only [parse, text, String.toList_ofList]
  decide +kernel

end InternalCall.Header
