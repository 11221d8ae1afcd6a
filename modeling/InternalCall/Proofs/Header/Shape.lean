import InternalCall.Header.Line
import InternalCall.Proofs.Text.Numeral
import Mathlib.Data.List.Basic
import Mathlib.Data.Option.Basic

/-!
# Shapes of lines

Each kind of line is a sequence of literals, names and blanks. Here the kinds are
given as such sequences, without a reading order, and each reader is shown to
accept exactly the lines of its shape. Where a line could be cut in several ways,
only one of them fits: a name goes as far as it can, and the three array endings
are different.
-/

namespace InternalCall.Header

open Text

/-- `#define`, `ICALL_TABLE_` with the name of the assembly, and `1`. -/
def DeclarationLine (line assembly : List Char) : Prop :=
  ∃ b₁ b₂, SomeBlanks b₁ ∧ Word assembly ∧ SomeBlanks b₂ ∧
    line = "#define".toList ++ b₁ ++ "ICALL_TABLE_".toList ++ assembly ++ b₂ ++ "1".toList

/-- The element type of an array: `int`, `uint8_t` or `void` and a star. -/
def ElementType (text : List Char) : Prop :=
  text = "int".toList ∨ text = "uint8_t".toList ∨
    ∃ b, Blanks b ∧ text = "void".toList ++ b ++ "*".toList

/-- `static`, an element type, the name of the array with its ending, `[]`, `=` and a brace. -/
def OpeningLine (line assembly : List Char) (array : ArrayKind) : Prop :=
  ∃ b₁ type b₂ b₃ b₄ b₅, SomeBlanks b₁ ∧ ElementType type ∧ Blanks b₂ ∧ Word assembly ∧
    Blanks b₃ ∧ Blanks b₄ ∧ Blanks b₅ ∧
    line = "static".toList ++ b₁ ++ type ++ b₂ ++ assembly ++ arrayEnding array ++
      b₃ ++ "[]".toList ++ b₄ ++ "=".toList ++ b₅ ++ "\x7b".toList

/-- A return type, the symbol, and in parentheses any text without a closing one. -/
def PrototypeLine (line ret symbol params : List Char) : Prop :=
  ∃ b₁ b₂, String.ofList ret ∈ returnTypes ∧ SomeBlanks b₁ ∧ Word symbol ∧ Blanks b₂ ∧
    ')' ∉ params ∧
    line = ret ++ b₁ ++ symbol ++ b₂ ++ "(".toList ++ params ++ ");".toList

/-- A line that starts as comments and preprocessor lines do. -/
def CommentLine (line : List Char) : Prop :=
  ∃ rest, line = "//".toList ++ rest ∨ line = "#".toList ++ rest

/-- A name, possibly with a comma after it. -/
def ItemLine (line item : List Char) : Prop :=
  Word item ∧ (line = item ∨ line = item ++ ",".toList)

/-- `//`, `token` and a numeral, possibly with a comma after it. -/
def TokenLine (line : List Char) (token : UInt32) : Prop :=
  ∃ b₁ b₂ item digits, Blanks b₁ ∧ SomeBlanks b₂ ∧ ItemLine item digits ∧
    Denotes digits token.toNat ∧ line = "//".toList ++ b₁ ++ "token".toList ++ b₂ ++ item

/-- What a line outside an array says, by its shape. -/
inductive Line.Shaped (line : List Char) : Line → Prop where
  | declaration {assembly : List Char} :
      DeclarationLine line assembly → Shaped line (.declaration (String.ofList assembly))
  | opening {assembly : List Char} {array : ArrayKind} :
      OpeningLine line assembly array → Shaped line (.opening (String.ofList assembly) array)
  | prototype {ret symbol params : List Char} : PrototypeLine line ret symbol params →
      Shaped line (.prototype (String.ofList ret) (String.ofList symbol) params)
  | ignored :
      CommentLine line → (∀ assembly, ¬DeclarationLine line assembly) → Shaped line .ignored

theorem afterLiteral?_eq_some_iff {literal : String} {text rest : List Char} :
    afterLiteral? literal text = some rest ↔ text = literal.toList ++ rest := by
  rw [afterLiteral?, List.isPrefixOf?_eq_some_iff_append_eq, eq_comm]

/-- A literal is not read where another character stands. -/
theorem afterLiteral?_of_head {literal : String} {text : List Char} {c d : Char}
    (hl : literal.toList.head? = some c) (ht : text.head? = some d) (h : c ≠ d) :
    afterLiteral? literal text = none := by
  cases ha : afterLiteral? literal text with
  | none => rfl
  | some rest =>
      obtain ⟨l, hl⟩ := List.head?_eq_some_iff.mp hl
      rw [afterLiteral?_eq_some_iff.mp ha, hl, List.cons_append, List.head?_cons] at ht
      exact absurd (Option.some.inj ht) h

/-- A word is read exactly where a name stops. -/
theorem word?_eq_some_iff {text w rest : List Char} :
    word? text = some (w, rest) ↔ Word w ∧ Stops isWord rest ∧ text = w ++ rest := by
  have hs : splitWord text = (text.takeWhile isWord, text.dropWhile isWord) := rfl
  constructor
  · intro h
    rw [word?] at h
    split at h
    · cases h
    · next hne =>
        obtain ⟨rfl, rfl⟩ := Prod.mk.inj (hs.symm.trans (Option.some.inj h))
        refine ⟨⟨?_, ?_⟩, stops_dropWhile text, List.takeWhile_append_dropWhile.symm⟩
        · intro he
          exact hne (by rw [hs, he]; rfl)
        · intro c hc
          exact List.all_eq_true.mp List.all_takeWhile c hc
  · rintro ⟨hw, hr, rfl⟩
    rw [takeWhile_append hw.2 hr, dropWhile_append hw.2 hr] at hs
    rw [word?, hs, if_neg (by simpa using hw.1)]

/-- An item is read exactly from a line that is a name, with a comma or without. -/
theorem item?_eq_some_iff {line item : List Char} :
    item? line = some item ↔ ItemLine line item := by
  simp only [item?, bind, pure, Option.bind_eq_some_iff, Option.guard_eq_some', Prod.exists,
    word?_eq_some_iff, Option.some.injEq]
  constructor
  · rintro ⟨w, rest, ⟨hw, -, rfl⟩, -, hr, rfl⟩
    refine ⟨hw, ?_⟩
    rcases hr with rfl | rfl
    · exact .inl (List.append_nil w)
    · exact .inr rfl
  · rintro ⟨hw, rfl | rfl⟩
    · exact ⟨line, [], ⟨hw, stops_nil, (List.append_nil line).symm⟩, (), .inl rfl, rfl⟩
    · exact ⟨item, ",".toList, ⟨hw, stops_cons.mpr (by decide), rfl⟩, (), .inr rfl, rfl⟩

/-- A token is read exactly from a comment that announces it. -/
theorem tokenComment?_eq_some_iff {line : List Char} {token : UInt32} :
    tokenComment? line = some token ↔ TokenLine line token := by
  simp only [tokenComment?, bind, Option.bind_eq_some_iff, afterLiteral?_eq_some_iff,
    skipBlanks_eq_iff, skipSomeBlanks?_eq_some_iff, item?_eq_some_iff, uint32?_eq_some_iff]
  constructor
  · rintro ⟨_, rfl, _, ⟨b₁, hb₁, -, rfl⟩, item, ⟨b₂, hb₂, -, rfl⟩, digits, hi, hd⟩
    exact ⟨b₁, b₂, item, digits, hb₁, hb₂, hi, hd, by simp only [List.append_assoc]⟩
  · rintro ⟨b₁, b₂, item, digits, hb₁, hb₂, hi, hd, rfl⟩
    have hs : Stops isBlank item := by
      rcases hi.2 with rfl | rfl
      · exact hi.1.stops
      · exact hi.1.stops_isBlank
    simp only [List.append_assoc]
    exact ⟨_, rfl, _, ⟨b₁, hb₁, .append (by decide) (by decide), rfl⟩, item, ⟨b₂, hb₂, hs, rfl⟩,
      digits, hi, hd⟩

/-- The assembly is read exactly from a declaration of its table. -/
theorem declaration?_eq_some_iff {line assembly : List Char} :
    declaration? line = some assembly ↔ DeclarationLine line assembly := by
  simp only [declaration?, bind, pure, Option.bind_eq_some_iff, afterLiteral?_eq_some_iff,
    skipSomeBlanks?_eq_some_iff, Option.guard_eq_some', Prod.exists, word?_eq_some_iff,
    Option.some.injEq]
  constructor
  · rintro ⟨_, rfl, _, ⟨b₁, hb₁, -, rfl⟩, _, rfl, w, _, ⟨hw, -, rfl⟩, _, ⟨b₂, hb₂, -, rfl⟩, -,
      rfl, rfl⟩
    exact ⟨b₁, b₂, hb₁, hw, hb₂, by simp only [List.append_assoc]; rfl⟩
  · rintro ⟨b₁, b₂, hb₁, hw, hb₂, rfl⟩
    simp only [List.append_assoc]
    exact ⟨_, rfl, _, ⟨b₁, hb₁, .append (by decide) (by decide), rfl⟩, _, rfl, assembly, _,
      ⟨hw, hb₂.stops_isWord, rfl⟩, _, ⟨b₂, hb₂, by decide, rfl⟩, (), rfl, rfl⟩

theorem elementType?_eq_some_iff {text rest : List Char} :
    elementType? text = some rest ↔ ∃ type, ElementType type ∧ text = type ++ rest := by
  have hv : (do afterLiteral? "*" (skipBlanks (← afterLiteral? "void" text))) = some rest ↔
      ∃ b, Blanks b ∧ text = "void".toList ++ b ++ "*".toList ++ rest := by
    simp only [bind, Option.bind_eq_some_iff, afterLiteral?_eq_some_iff, skipBlanks_eq_iff]
    constructor
    · rintro ⟨_, rfl, b, hb, -, rfl⟩
      exact ⟨b, hb, by simp only [List.append_assoc]⟩
    · rintro ⟨b, hb, rfl⟩
      simp only [List.append_assoc]
      exact ⟨_, rfl, b, hb, .append (by decide) (by decide), rfl⟩
  rw [elementType?, Option.orElse_eq_orElse, Option.orElse_eq_or, Option.orElse_eq_or,
    Option.or_eq_some_iff, Option.or_eq_some_iff, hv,
    afterLiteral?_eq_some_iff, afterLiteral?_eq_some_iff]
  constructor
  · rintro (h | ⟨-, h | ⟨-, b, hb, h⟩⟩)
    · exact ⟨_, .inl rfl, h⟩
    · exact ⟨_, .inr (.inl rfl), h⟩
    · exact ⟨_, .inr (.inr ⟨b, hb, rfl⟩), h⟩
  · rintro ⟨_, rfl | rfl | ⟨b, hb, rfl⟩, rfl⟩
    · exact .inl rfl
    · exact .inr ⟨afterLiteral?_of_head rfl rfl (by decide), .inl rfl⟩
    · exact .inr ⟨afterLiteral?_of_head rfl rfl (by decide),
        .inr ⟨afterLiteral?_of_head rfl rfl (by decide), b, hb, rfl⟩⟩

theorem ElementType.stops {type rest : List Char} (h : ElementType type) :
    Stops isBlank (type ++ rest) := by
  rcases h with rfl | rfl | ⟨b, hb, rfl⟩
  · exact .append (by decide) (by decide)
  · exact .append (by decide) (by decide)
  · simp only [List.append_assoc]
    exact .append (by decide) (by decide)

theorem word_arrayEnding (array : ArrayKind) : Word (arrayEnding array) := by
  cases array <;> decide

/-- The last letter but one of an array's ending. -/
private def endingLetter : ArrayKind → Char
  | .indexes => 'e'
  | .funcs => 'c'
  | .flags => 'g'

private theorem arrayEnding_eq (array : ArrayKind) :
    ∃ front, arrayEnding array = front ++ [endingLetter array, 's'] := by
  cases array with
  | indexes => exact ⟨"_icall_index".toList, by decide⟩
  | funcs => exact ⟨"_icall_fun".toList, by decide⟩
  | flags => exact ⟨"_icall_fla".toList, by decide⟩

/-- The endings of the three arrays are told apart by their last letter but one. -/
theorem arrayEnding_inj {a b : List Char} {j k : ArrayKind}
    (h : a ++ arrayEnding j = b ++ arrayEnding k) : j = k := by
  obtain ⟨front, hj⟩ := arrayEnding_eq j
  obtain ⟨front', hk⟩ := arrayEnding_eq k
  rw [hj, hk, ← List.append_assoc, ← List.append_assoc] at h
  have hl : endingLetter j = endingLetter k := by
    simpa using (List.append_inj' h rfl).2
  cases j <;> cases k <;> first | rfl | exact absurd hl (by decide)

/-- The name of an array is cut exactly into a non-empty name and the ending of a kind. -/
theorem splitArrayName?_eq_some_iff {name assembly : List Char} {array : ArrayKind} :
    splitArrayName? name = some (assembly, array) ↔
      assembly ≠ [] ∧ name = assembly ++ arrayEnding array := by
  have hcut : ∀ (kind : ArrayKind) (found : List Char × ArrayKind), (do
      let assembly ← (arrayEnding kind).isSuffixOf? name
      guard !assembly.isEmpty
      return (assembly, kind)) = some found ↔
        found.1 ≠ [] ∧ name = found.1 ++ arrayEnding found.2 ∧ kind = found.2 := by
    rintro kind ⟨a, k⟩
    simp only [bind, pure, Option.bind_eq_some_iff, List.isSuffixOf?_eq_some_iff_append_eq,
      Option.guard_eq_some', Bool.not_eq_true', List.isEmpty_eq_false_iff, Option.some.injEq,
      Prod.mk.injEq]
    constructor
    · rintro ⟨_, rfl, -, hne, rfl, rfl⟩
      exact ⟨hne, rfl, rfl⟩
    · rintro ⟨hne, rfl, rfl⟩
      exact ⟨a, rfl, (), hne, rfl, rfl⟩
  constructor
  · intro h
    obtain ⟨kind, -, hk⟩ := List.exists_of_findSome?_eq_some h
    obtain ⟨hne, hn, -⟩ := (hcut kind _).mp hk
    exact ⟨hne, hn⟩
  · rintro ⟨hne, rfl⟩
    cases hf : splitArrayName? (assembly ++ arrayEnding array) with
    | none =>
        have hm : array ∈ [ArrayKind.indexes, .funcs, .flags] := by cases array <;> decide
        have := (hcut array (assembly, array)).mpr ⟨hne, rfl, rfl⟩
        rw [List.findSome?_eq_none_iff.mp hf array hm] at this
        cases this
    | some found =>
        obtain ⟨kind, -, hk⟩ := List.exists_of_findSome?_eq_some hf
        obtain ⟨-, hn, -⟩ := (hcut kind _).mp hk
        have ha : array = found.2 := arrayEnding_inj hn
        rw [ha] at hn
        exact congrArg some (Prod.ext (List.append_cancel_right hn).symm ha.symm)

/-- An array is read exactly from a line that opens it. -/
theorem opening?_eq_some_iff {line assembly : List Char} {array : ArrayKind} :
    opening? line = some (assembly, array) ↔ OpeningLine line assembly array := by
  simp only [opening?, bind, Option.bind_eq_some_iff, afterLiteral?_eq_some_iff,
    skipSomeBlanks?_eq_some_iff, elementType?_eq_some_iff, Option.guard_eq_some', Prod.exists,
    word?_eq_some_iff, skipBlanks_eq_iff, splitArrayName?_eq_some_iff]
  constructor
  · rintro ⟨_, rfl, _, ⟨b₁, hb₁, -, rfl⟩, _, ⟨type, ht, rfl⟩, _, _,
      ⟨hw, -, b₂, hb₂, -, rfl⟩, _, ⟨b₃, hb₃, -, rfl⟩, _, ⟨b₄, hb₄, -, rfl⟩, -,
      ⟨b₅, hb₅, -, rfl⟩, hne, rfl⟩
    have ha : Word assembly := ⟨hne, fun c hc => hw.2 c (List.mem_append_left _ hc)⟩
    exact ⟨b₁, type, b₂, b₃, b₄, b₅, hb₁, ht, hb₂, ha, hb₃, hb₄, hb₅,
      by simp only [List.append_assoc]; rfl⟩
  · rintro ⟨b₁, type, b₂, b₃, b₄, b₅, hb₁, ht, hb₂, ha, hb₃, hb₄, hb₅, rfl⟩
    have hw : Word (assembly ++ arrayEnding array) := ha.append (word_arrayEnding array)
    simp only [List.append_assoc]
    refine ⟨_, rfl, _, ⟨b₁, hb₁, ht.stops, rfl⟩, _, ⟨type, ht, rfl⟩, assembly ++ arrayEnding array,
      _, ⟨hw, ?_, b₂, hb₂, hw.stops_isBlank, by simp only [List.append_assoc]; rfl⟩,
      _, ⟨b₃, hb₃, .append (by decide) (by decide), rfl⟩,
      _, ⟨b₄, hb₄, .append (by decide) (by decide), rfl⟩, (),
      ⟨b₅, hb₅, by decide, rfl⟩, ha.1, rfl⟩
    exact hb₃.stops_isWord (.append (by decide) (by decide))

theorem word_of_mem_returnTypes {ret : List Char} (h : String.ofList ret ∈ returnTypes) :
    Word ret := by
  have hall : ∀ s ∈ returnTypes, Word s.toList := by decide
  have := hall _ h
  rwa [String.toList_ofList] at this

/-- A text is cut at its first closing parenthesis. -/
private theorem params_iff {text params : List Char} :
    text.dropWhile (· != ')') = [')', ';'] ∧ text.takeWhile (· != ')') = params ↔
      ')' ∉ params ∧ text = params ++ ");".toList := by
  constructor
  · rintro ⟨hd, rfl⟩
    refine ⟨?_, ?_⟩
    · intro hm
      simpa using List.all_eq_true.mp List.all_takeWhile ')' hm
    · exact (hd ▸ List.takeWhile_append_dropWhile).symm
  · rintro ⟨hm, rfl⟩
    have hp : ∀ c ∈ params, (c != ')') = true := by
      intro c hc
      exact bne_iff_ne.mpr fun he => hm (he ▸ hc)
    exact ⟨dropWhile_append hp (by decide), takeWhile_append hp (by decide)⟩

/-- The parts of a prototype are read exactly from a line made of them. -/
theorem prototype?_eq_some_iff {line ret symbol params : List Char} :
    prototype? line = some (ret, symbol, params) ↔ PrototypeLine line ret symbol params := by
  simp only [prototype?, bind, pure, Option.bind_eq_some_iff, afterLiteral?_eq_some_iff,
    skipSomeBlanks?_eq_some_iff, Option.guard_eq_some', Prod.exists,
    word?_eq_some_iff, skipBlanks_eq_iff, Option.some.injEq, Prod.mk.injEq]
  constructor
  · rintro ⟨ret, _, ⟨-, -, rfl⟩, -, hret, _, ⟨b₁, hb₁, -, rfl⟩, symbol, _, ⟨hw, -, rfl⟩,
      text, ⟨b₂, hb₂, -, rfl⟩, -, hd, rfl, rfl, rfl⟩
    obtain ⟨hm, ht⟩ := params_iff.mp ⟨hd, rfl⟩
    refine ⟨b₁, b₂, hret, hb₁, hw, hb₂, hm, ?_⟩
    simp only [List.append_assoc]
    rw [← ht]
  · rintro ⟨b₁, b₂, hret, hb₁, hw, hb₂, hm, rfl⟩
    obtain ⟨hd, ht⟩ := params_iff.mpr ⟨hm, rfl⟩
    simp only [List.append_assoc]
    exact ⟨ret, _, ⟨word_of_mem_returnTypes hret, hb₁.stops_isWord, rfl⟩, (), hret, _,
      ⟨b₁, hb₁, hw.stops_isBlank, rfl⟩, symbol, _,
      ⟨hw, hb₂.stops_isWord (.append (by decide) (by decide)), rfl⟩, _,
      ⟨b₂, hb₂, .append (by decide) (by decide), rfl⟩, (), hd, rfl, rfl, ht⟩

theorem isIgnored_iff {line : List Char} : isIgnored line = true ↔ CommentLine line := by
  simp only [isIgnored, Bool.or_eq_true, Option.isSome_iff_exists, afterLiteral?_eq_some_iff,
    CommentLine, exists_or]

theorem OpeningLine.head {line assembly : List Char} {array : ArrayKind}
    (h : OpeningLine line assembly array) : line.head? = some 's' := by
  obtain ⟨b₁, type, b₂, b₃, b₄, b₅, -, -, -, -, -, -, -, rfl⟩ := h
  simp only [List.append_assoc]
  rfl

theorem PrototypeLine.head {line ret symbol params : List Char}
    (h : PrototypeLine line ret symbol params) :
    line.head? = some 'v' ∨ line.head? = some 'i' ∨ line.head? = some 'd' := by
  obtain ⟨b₁, b₂, hret, -, -, -, -, rfl⟩ := h
  have hall : ∀ s ∈ returnTypes, s.toList.head? = some 'v' ∨ s.toList.head? = some 'i' ∨
      s.toList.head? = some 'd' := by
    decide
  have hr := hall _ hret
  rw [String.toList_ofList] at hr
  have hne : ret ≠ [] := by
    rintro rfl
    rcases hr with h | h | h <;> cases h
  simp only [List.append_assoc]
  rwa [List.head?_append_of_ne_nil ret hne]

theorem CommentLine.head {line : List Char} (h : CommentLine line) :
    line.head? = some '/' ∨ line.head? = some '#' := by
  obtain ⟨rest, rfl | rfl⟩ := h
  · exact .inl rfl
  · exact .inr rfl

theorem DeclarationLine.comment {line assembly : List Char} (h : DeclarationLine line assembly) :
    CommentLine line := by
  obtain ⟨b₁, b₂, -, -, -, rfl⟩ := h
  exact ⟨"define".toList ++ b₁ ++ "ICALL_TABLE_".toList ++ assembly ++ b₂ ++ "1".toList,
    .inr (by simp only [List.append_assoc]; rfl)⟩

theorem OpeningLine.not_comment {line assembly : List Char} {array : ArrayKind}
    (h : OpeningLine line assembly array) : ¬CommentLine line := by
  intro hc
  rcases hc.head with he | he <;> rw [h.head] at he <;> cases he

theorem PrototypeLine.not_comment {line ret symbol params : List Char}
    (h : PrototypeLine line ret symbol params) : ¬CommentLine line := by
  intro hc
  rcases hc.head with he | he <;> rcases h.head with hh | hh | hh <;>
    · rw [hh] at he
      cases he

theorem PrototypeLine.not_opening {line ret symbol params assembly : List Char} {array : ArrayKind}
    (h : PrototypeLine line ret symbol params) : ¬OpeningLine line assembly array := by
  intro ho
  rcases h.head with hh | hh | hh <;>
    · rw [ho.head] at hh
      cases hh

theorem declaration?_eq_none_iff {line : List Char} :
    declaration? line = none ↔ ∀ assembly, ¬DeclarationLine line assembly := by
  simp only [Option.eq_none_iff_forall_ne_some, ne_eq, declaration?_eq_some_iff]

theorem opening?_eq_none_iff {line : List Char} :
    opening? line = none ↔ ∀ assembly array, ¬OpeningLine line assembly array := by
  simp only [Option.eq_none_iff_forall_ne_some, ne_eq, Prod.forall, opening?_eq_some_iff]

theorem prototype?_eq_none_iff {line : List Char} :
    prototype? line = none ↔ ∀ ret symbol params, ¬PrototypeLine line ret symbol params := by
  simp only [Option.eq_none_iff_forall_ne_some, ne_eq, Prod.forall, prototype?_eq_some_iff]

/-- What a line outside an array is taken for is what its shape says. The readers are tried in an
order, but no line has two of the shapes. -/
theorem Line.ofText?_eq_some_iff {text : List Char} {line : Line} :
    Line.ofText? text = some line ↔ Line.Shaped text line := by
  constructor
  · intro h
    rw [Line.ofText?] at h
    split at h
    · next hd =>
        cases h
        exact .declaration (declaration?_eq_some_iff.mp hd)
    · next hd =>
        split at h
        · next ho =>
            cases h
            exact .opening (opening?_eq_some_iff.mp ho)
        · split at h
          · next hp =>
              cases h
              exact .prototype (prototype?_eq_some_iff.mp hp)
          · split at h
            · next hi =>
                cases h
                exact .ignored (isIgnored_iff.mp hi) (declaration?_eq_none_iff.mp hd)
            · cases h
  · intro h
    cases h with
    | declaration h => rw [Line.ofText?, declaration?_eq_some_iff.mpr h]
    | opening h =>
        rw [Line.ofText?, declaration?_eq_none_iff.mpr fun _ h' => h.not_comment h'.comment,
          opening?_eq_some_iff.mpr h]
    | prototype h =>
        rw [Line.ofText?, declaration?_eq_none_iff.mpr fun _ h' => h.not_comment h'.comment,
          opening?_eq_none_iff.mpr fun _ _ => h.not_opening, prototype?_eq_some_iff.mpr h]
    | ignored h hn =>
        rw [Line.ofText?, declaration?_eq_none_iff.mpr hn,
          opening?_eq_none_iff.mpr fun _ _ h' => h'.not_comment h,
          prototype?_eq_none_iff.mpr fun _ _ _ h' => h'.not_comment h]
        exact if_pos (isIgnored_iff.mpr h)

end InternalCall.Header
