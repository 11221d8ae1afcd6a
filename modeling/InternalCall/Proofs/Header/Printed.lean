import InternalCall.Header.Layout
import InternalCall.Proofs.Header.Grammar
import InternalCall.Proofs.Text.Pieces
import Mathlib.Data.List.Induction

/-!
# The layout and the grammar

Each group of lines that is written for a table spells parts of the grammar, and
the lines keep clear of what a reader takes away from them: they hold no line feed
and no blank at either end.
-/

namespace InternalCall.Header

open Text

/-- The line is read as it is written. -/
structure Tidy (line : List Char) : Prop where
  /-- It is not blank. -/
  ne_nil : line ≠ []
  /-- It is one line. -/
  one : '\n' ∉ line
  /-- Trimming it changes nothing. -/
  trimmed : trim line = line

/-- The lines are tidy or empty, and those that are not empty spell the parts. -/
structure Printed (lines : List String) (parts : List Part) : Prop where
  tidy : ∀ line ∈ lines, line = "" ∨ Tidy line.toList
  spelled : Spells ((lines.map String.toList).filter fun line => !line.isEmpty) parts

/-- A line is tidy if it starts and ends with something other than a blank. -/
theorem tidy_append {front middle last : List Char} (hfront : front ≠ [])
    (hstart : Stops isBlank front) (hlast : last ≠ []) (hend : Stops isBlank last.reverse)
    (hone : '\n' ∉ front ++ middle ++ last) : Tidy (front ++ middle ++ last) := by
  refine ⟨?_, hone, ?_⟩
  · rw [List.append_assoc]
    exact List.append_ne_nil_of_left_ne_nil hfront _
  · apply trim_of_stops
    · rw [List.append_assoc]
      exact hstart.append hfront
    · rw [List.reverse_append]
      exact hend.append (mt List.reverse_eq_nil_iff.mp hlast)

/-- A name between two literals is tidy if the literals have no blank at the ends. -/
theorem tidy_between {front last : String} {w : List Char} (hw : Word w)
    (hfront : front.toList ≠ [] ∧ Stops isBlank front.toList ∧ '\n' ∉ front.toList)
    (hlast : last.toList ≠ [] ∧ Stops isBlank last.toList.reverse ∧ '\n' ∉ last.toList) :
    Tidy (front.toList ++ w ++ last.toList) := by
  apply tidy_append hfront.1 hfront.2.1 hlast.1 hlast.2.1
  simp only [List.mem_append, not_or]
  exact ⟨⟨hfront.2.2, hw.not_mem (by decide)⟩, hlast.2.2⟩

/-- A name with a comma after it is tidy. -/
theorem tidy_item {w : List Char} (hw : Word w) : Tidy (w ++ ",".toList) := by
  have hn : '\n' ∉ w ++ [] ++ ",".toList := by
    simp only [List.mem_append, not_or]
    exact ⟨⟨hw.not_mem (by decide), List.not_mem_nil⟩, by decide⟩
  have := tidy_append hw.1 hw.stops (by decide) (by decide) hn
  rwa [List.append_nil] at this

theorem filter_tidy {lines : List (List Char)} (h : ∀ line ∈ lines, Tidy line) :
    (lines.filter fun line => !line.isEmpty) = lines := by
  apply List.filter_eq_self.mpr
  intro line hl
  have := (h line hl).ne_nil
  simpa using this

namespace Printed

theorem nil : Printed [] [] := ⟨fun _ hl => absurd hl List.not_mem_nil, .nil⟩

theorem append {lines more : List String} {parts others : List Part} (hl : Printed lines parts)
    (hm : Printed more others) : Printed (lines ++ more) (parts ++ others) := by
  constructor
  · intro line hmem
    exact (List.mem_append.mp hmem).elim (hl.tidy line) (hm.tidy line)
  · rw [List.map_append, List.filter_append]
    exact hl.spelled.append hm.spelled

/-- Tidy lines print the part that they spell. -/
theorem of_partLines {lines : List String} {part : Part}
    (ht : ∀ line ∈ lines.map String.toList, Tidy line)
    (h : PartLines (lines.map String.toList) part) : Printed lines [part] := by
  constructor
  · intro line hl
    exact .inr (ht _ (List.mem_map_of_mem hl))
  · rw [filter_tidy ht]
    exact .single h

/-- An empty line prints nothing. -/
theorem empty_line : Printed [""] [] :=
  ⟨fun _ hl => .inl (List.mem_singleton.mp hl), .nil⟩

end Printed

/-- The lines that a text is read by are tidy. -/
theorem tidy_of_mem_content {text line : List Char} (h : line ∈ content text) : Tidy line := by
  obtain ⟨hl, hne⟩ := List.mem_filter.mp h
  obtain ⟨raw, hraw, rfl⟩ := List.mem_map.mp hl
  refine ⟨?_, fun hn => not_mem_of_mem_splitAt hraw (mem_of_mem_trim hn), trim_trim raw⟩
  intro he
  rw [he] at hne
  cases hne

/-- Lines that are tidy or empty and are each ended by a line feed are read as they are. -/
theorem content_flatMap_ended {lines : List (List Char)}
    (h : ∀ line ∈ lines, line = [] ∨ Tidy line) :
    content (lines.flatMap (· ++ ['\n'])) = lines.filter fun line => !line.isEmpty := by
  have hread : ∀ line ∈ lines, '\n' ∉ line ∧ trim line = line := by
    intro line hl
    rcases h line hl with rfl | ht
    · exact ⟨List.not_mem_nil, rfl⟩
    · exact ⟨ht.one, ht.trimmed⟩
  have htrim : lines.map trim = lines :=
    (List.map_congr_left fun line hl => (hread line hl).2).trans (List.map_id _)
  rw [content, lines_flatMap_ended fun line hl => (hread line hl).1, List.map_append,
    List.filter_append, htrim]
  exact List.append_nil _

/-- What is read from lines that are each ended by a line feed is what they print. -/
theorem spells_content {lines : List String} {parts : List Part} (h : Printed lines parts) :
    Spells (content (String.join (lines.map (· ++ "\n"))).toList) parts := by
  have htext : (String.join (lines.map (· ++ "\n"))).toList =
      (lines.map String.toList).flatMap (· ++ ['\n']) := by
    rw [String.toList_join, List.flatMap_map, List.flatMap_map]
    simp only [String.toList_append]
    rfl
  have htidy : ∀ line ∈ lines.map String.toList, line = [] ∨ Tidy line := by
    intro line hl
    obtain ⟨l, hm, rfl⟩ := List.mem_map.mp hl
    rcases h.tidy l hm with rfl | ht
    · exact .inl rfl
    · exact .inr ht
  rw [htext, content_flatMap_ended htidy]
  exact h.spelled

/-! ## The lines of an array -/

/-- The symbol of the entry, announced by its own token. -/
def announcedOf (e : TableEntry) : Announced := ⟨[e.token], e.symbol⟩

theorem toList_indexLine (e : TableEntry) :
    e.indexLine.toList = Nat.toDigits 10 e.token.toNat ++ ",".toList := by
  rw [TableEntry.indexLine, String.toList_append]
  exact congrArg (· ++ _) Nat.toList_repr

theorem toList_flagLine (e : TableEntry) :
    e.flagLine.toList = Nat.toDigits 10 e.flags.toNat ++ ",".toList := by
  rw [TableEntry.flagLine, String.toList_append]
  exact congrArg (· ++ _) Nat.toList_repr

theorem toList_funcLines (e : TableEntry) : e.funcLines.map String.toList =
    ["// token ".toList ++ Nat.toDigits 10 e.token.toNat ++ ",".toList,
      e.symbol.toList ++ ",".toList] := by
  have hdigits : (toString e.token).toList = Nat.toDigits 10 e.token.toNat := Nat.toList_repr
  simp only [TableEntry.funcLines, List.map_cons, List.map_nil, String.toList_append, hdigits]
  rfl

theorem numberLine_toDigits (n : Nat) : NumberLine (Nat.toDigits 10 n ++ ",".toList) n :=
  ⟨_, ⟨(denotes_toDigits n).word, .inr rfl⟩, denotes_toDigits n⟩

theorem tokenLine_toDigits (n : UInt32) :
    TokenLine ("// token ".toList ++ Nat.toDigits 10 n.toNat ++ ",".toList) n := by
  refine ⟨" ".toList, " ".toList, Nat.toDigits 10 n.toNat ++ ",".toList, _, by decide, by decide,
    ⟨(denotes_toDigits n.toNat).word, .inr rfl⟩, denotes_toDigits n.toNat, ?_⟩
  rw [List.append_assoc]
  rfl

theorem bodyLines_indexes (entries : List TableEntry) :
    BodyLines ((entries.map TableEntry.indexLine).map String.toList)
      (.indexes (entries.map TableEntry.token)) [] := by
  induction entries using List.reverseRecOn with
  | nil => exact @BodyLines.empty .indexes
  | append_singleton entries e ih =>
      rw [List.map_append, List.map_append, List.map_append]
      refine ih.token ?_
      rw [toList_indexLine]
      exact numberLine_toDigits e.token.toNat

theorem bodyLines_flags (entries : List TableEntry) :
    BodyLines ((entries.map TableEntry.flagLine).map String.toList)
      (.flags (entries.map TableEntry.flags)) [] := by
  induction entries using List.reverseRecOn with
  | nil => exact @BodyLines.empty .flags
  | append_singleton entries e ih =>
      rw [List.map_append, List.map_append, List.map_append]
      refine ih.flags ?_
      rw [toList_flagLine]
      exact numberLine_toDigits e.flags.toNat

theorem bodyLines_funcs {entries : List TableEntry}
    (h : ∀ e ∈ entries, Word e.symbol.toList) :
    BodyLines ((entries.flatMap TableEntry.funcLines).map String.toList)
      (.funcs (entries.map announcedOf)) [] := by
  induction entries using List.reverseRecOn with
  | nil => exact @BodyLines.empty .funcs
  | append_singleton entries e ih =>
      have hw := h e (by simp)
      have hi := ih fun x hx => h x (List.mem_append_left _ hx)
      have hs := (hi.comment (tokenLine_toDigits e.token)).symbol ⟨hw, .inr rfl⟩
      rw [String.ofList_toList, List.append_assoc] at hs
      rw [List.flatMap_append, List.map_append, List.map_append, List.flatMap_singleton,
        toList_funcLines]
      exact hs

/-! ## The lines of a table -/

/-- What a table needs to be written in the layout. -/
structure Legible (t : AssemblyTable) : Prop where
  /-- The assembly has a proper name. -/
  name : Word t.name.toList
  /-- So have the symbols. -/
  symbols : ∀ e ∈ t.entries.toList, Word e.symbol.toList
  /-- No prototype starts with the type of addresses. -/
  returns : ∀ e ∈ t.entries.toList, ∀ s ∈ e.signature?, s.ret ≠ .scalar .handle

instance (t : AssemblyTable) : Decidable (Legible t) :=
  decidable_of_iff (Word t.name.toList ∧ (∀ e ∈ t.entries.toList, Word e.symbol.toList) ∧
      ∀ e ∈ t.entries.toList, ∀ s ∈ e.signature?, s.ret ≠ .scalar .handle)
    ⟨fun h => ⟨h.1, h.2.1, h.2.2⟩, fun h => ⟨h.name, h.symbols, h.returns⟩⟩

/-- The part that the prototype of an entry is. -/
def prototypeOf? (e : TableEntry) : Option Part := e.signature?.map (.prototype e.symbol ·)

/-- The parts that are written for a table. -/
def partsOf (t : AssemblyTable) : List Part :=
  let entries := t.entries.toList
  [.declaration t.name] ++ [.block t.name (.indexes (entries.map TableEntry.token))] ++
    entries.filterMap prototypeOf? ++ [.block t.name (.funcs (entries.map announcedOf))] ++
    [.block t.name (.flags (entries.map TableEntry.flags))]

theorem printed_declaration {name : String} (h : Word name.toList) :
    Printed ["#define ICALL_TABLE_" ++ name ++ " 1"] [.declaration name] := by
  apply Printed.of_partLines
  · rw [List.map_singleton, List.forall_mem_singleton, String.toList_append, String.toList_append]
    exact tidy_between h (by decide) (by decide)
  · have hd : DeclarationLine ("#define ICALL_TABLE_" ++ name ++ " 1").toList name.toList := by
      refine ⟨" ".toList, " ".toList, by decide, h, by decide, ?_⟩
      simp only [String.toList_append, List.append_assoc]
      rfl
    have := PartLines.declaration hd
    rwa [String.ofList_toList] at this

/-- A printed opening line opens its array, and it is tidy. -/
theorem printed_opening {front last name : String} {type b : List Char} {array : ArrayKind}
    (h : Word name.toList) (ht : ElementType type) (hb : Blanks b)
    (hfront : front.toList = "static ".toList ++ type ++ b ∧ '\n' ∉ front.toList)
    (hlast : last.toList = arrayEnding array ++ " [] = \x7b".toList) :
    OpeningLine (front ++ name ++ last).toList name.toList array ∧
      Tidy (front ++ name ++ last).toList := by
  have hline : (front ++ name ++ last).toList = front.toList ++ name.toList ++ last.toList := by
    rw [String.toList_append, String.toList_append]
  rw [hline]
  constructor
  · have hstatic : "static ".toList = "static".toList ++ " ".toList := by decide
    have hbrackets : " [] = \x7b".toList =
        " ".toList ++ "[]".toList ++ " ".toList ++ "=".toList ++ " ".toList ++ "\x7b".toList := by
      decide
    refine ⟨" ".toList, type, b, " ".toList, " ".toList, " ".toList, by decide, ht, hb, h,
      by decide, by decide, by decide, ?_⟩
    rw [hfront.1, hlast, hstatic, hbrackets]
    simp only [List.append_assoc]
  · have hends : last.toList ≠ [] ∧ Stops isBlank last.toList.reverse ∧ '\n' ∉ last.toList := by
      rw [hlast]
      cases array <;> decide
    have hstart : front.toList ≠ [] ∧ Stops isBlank front.toList := by
      rw [hfront.1, List.append_assoc]
      exact ⟨List.append_ne_nil_of_left_ne_nil (by decide) _, .append (by decide) (by decide)⟩
    exact tidy_between h ⟨hstart.1, hstart.2, hfront.2⟩ hends

/-- An array is printed by its opening line, its items and the closing line. -/
theorem printed_array {front last name : String} {type b : List Char} {array : ArrayKind}
    {lines : List String} {body : Body} {pending : List UInt32} (h : Word name.toList)
    (ht : ElementType type) (hb : Blanks b)
    (hfront : front.toList = "static ".toList ++ type ++ b ∧ '\n' ∉ front.toList)
    (hlast : last.toList = arrayEnding array ++ " [] = \x7b".toList) (harray : body.array = array)
    (hlines : ∀ line ∈ lines.map String.toList, Tidy line)
    (hbody : BodyLines (lines.map String.toList) body pending) :
    Printed ([front ++ name ++ last] ++ lines ++ ["\x7d;"]) [.block name body] := by
  obtain ⟨hopening, htidy⟩ := printed_opening h ht hb hfront (harray ▸ hlast)
  have hclosing : Tidy "\x7d;".toList := ⟨by decide, by decide, by decide⟩
  apply Printed.of_partLines
  · rw [List.map_append, List.map_append]
    intro line hm
    rcases List.mem_append.mp hm with hm | hm
    · rcases List.mem_append.mp hm with hm | hm
      · rw [List.mem_singleton.mp hm]
        exact htidy
      · exact hlines line hm
    · rw [List.mem_singleton.mp hm]
      exact hclosing
  · have := PartLines.block hopening hbody
    rw [String.ofList_toList] at this
    rw [List.map_append, List.map_append]
    exact this

/-- A list of parameters has no line feed and no closing parenthesis. -/
theorem not_mem_paramText (kinds : List ScalarKind) :
    '\n' ∉ (Signature.paramText kinds).toList ∧ ')' ∉ (Signature.paramText kinds).toList := by
  have hnames : ∀ kind : ScalarKind, '\n' ∉ kind.cName.toList ∧ ')' ∉ kind.cName.toList := by
    intro kind
    cases kind <;> decide
  constructor
  · intro hm
    rcases mem_paramText hm with hc | ⟨kind, hk⟩
    · exact absurd hc (by decide)
    · exact (hnames kind).1 hk
  · intro hm
    rcases mem_paramText hm with hc | ⟨kind, hk⟩
    · exact absurd hc (by decide)
    · exact (hnames kind).2 hk

theorem cName_mem_returnTypes {ret : ReturnKind} (h : ret ≠ .scalar .handle) :
    ret.cName ∈ returnTypes := by
  cases ret with
  | void => decide
  | scalar kind =>
      cases kind with
      | handle => exact absurd rfl h
      | _ => decide

theorem printed_prototype {e : TableEntry} {s : Signature} (h : Word e.symbol.toList)
    (hs : s.ret ≠ .scalar .handle) :
    Printed [s.ret.cName ++ " " ++ e.symbol ++ " (" ++ Signature.paramText s.params ++ ");"]
      [.prototype e.symbol s] := by
  have hret : String.ofList s.ret.cName.toList ∈ returnTypes := by
    rw [String.ofList_toList]
    exact cName_mem_returnTypes hs
  have hw := word_of_mem_returnTypes hret
  obtain ⟨hn, hp⟩ := not_mem_paramText s.params
  have hl : (s.ret.cName ++ " " ++ e.symbol ++ " (" ++ Signature.paramText s.params ++
      ");").toList = s.ret.cName.toList ++
        (" ".toList ++ e.symbol.toList ++ " (".toList ++ (Signature.paramText s.params).toList) ++
        ");".toList := by
    simp only [String.toList_append, List.append_assoc]
  have hline : PrototypeLine (s.ret.cName ++ " " ++ e.symbol ++ " (" ++
      Signature.paramText s.params ++ ");").toList s.ret.cName.toList e.symbol.toList
      (Signature.paramText s.params).toList := by
    refine ⟨" ".toList, " ".toList, hret, by decide, h, by decide, hp, ?_⟩
    rw [hl]
    simp only [List.append_assoc]
    rfl
  apply Printed.of_partLines
  · rw [List.map_singleton, List.forall_mem_singleton, hl]
    apply tidy_append hw.1 hw.stops (by decide) (by decide)
    simp only [List.mem_append, not_or]
    exact ⟨⟨hw.not_mem (by decide), ⟨⟨by decide, h.not_mem (by decide)⟩, by decide⟩, hn⟩,
      by decide⟩
  · have := PartLines.prototype hline (by rw [String.ofList_toList, ReturnKind.ofCName?_cName])
      (paramsMean_paramText s.params)
    rwa [String.ofList_toList] at this

theorem printed_prototypes {entries : List TableEntry} (h : ∀ e ∈ entries, Word e.symbol.toList)
    (hs : ∀ e ∈ entries, ∀ s ∈ e.signature?, s.ret ≠ .scalar .handle) :
    Printed (entries.filterMap TableEntry.prototypeLine?) (entries.filterMap prototypeOf?) := by
  induction entries with
  | nil => exact .nil
  | cons e rest ih =>
      obtain ⟨he, hrest⟩ := List.forall_mem_cons.mp h
      obtain ⟨hse, hsrest⟩ := List.forall_mem_cons.mp hs
      have := ih hrest hsrest
      cases hsig : e.signature? with
      | none =>
          rw [List.filterMap_cons_none (by rw [TableEntry.prototypeLine?, hsig]; rfl),
            List.filterMap_cons_none (by rw [prototypeOf?, hsig]; rfl)]
          exact this
      | some s =>
          rw [List.filterMap_cons_some (by rw [TableEntry.prototypeLine?, hsig]; rfl),
            List.filterMap_cons_some (by rw [prototypeOf?, hsig]; rfl)]
          exact (printed_prototype he (hse s hsig)).append this

section Arrays

variable {t : AssemblyTable} (h : Legible t)

theorem tidy_numeral (n : Nat) : Tidy (Nat.toDigits 10 n ++ ",".toList) :=
  tidy_item (denotes_toDigits n).word

include h

theorem printed_indexes :
    Printed (["static int " ++ t.name ++ "_icall_indexes [] = \x7b"] ++
      t.entries.toList.map TableEntry.indexLine ++ ["\x7d;"])
      [.block t.name (.indexes (t.entries.toList.map TableEntry.token))] := by
  have htype : ElementType "int".toList := .inl rfl
  have hlast : "_icall_indexes [] = \x7b".toList = arrayEnding .indexes ++ " [] = \x7b".toList := by
    decide
  apply printed_array h.name htype (b := " ".toList) (by decide) (by decide) hlast ?_ ?_
    (bodyLines_indexes _)
  · rfl
  · rw [List.map_map, List.forall_mem_map]
    intro e _
    rw [Function.comp_apply, toList_indexLine]
    exact tidy_numeral e.token.toNat

theorem printed_funcs :
    Printed (["static void *" ++ t.name ++ "_icall_funcs [] = \x7b"] ++
      t.entries.toList.flatMap TableEntry.funcLines ++ ["\x7d;"])
      [.block t.name (.funcs (t.entries.toList.map announcedOf))] := by
  have htype : ElementType "void *".toList := .inr (.inr ⟨" ".toList, by decide, rfl⟩)
  have hlast : "_icall_funcs [] = \x7b".toList = arrayEnding .funcs ++ " [] = \x7b".toList := by
    decide
  apply printed_array h.name htype (b := []) (by decide) (by decide) hlast ?_ ?_
    (bodyLines_funcs h.symbols)
  · rfl
  · rw [List.map_flatMap]
    intro line hm
    obtain ⟨e, he, hl⟩ := List.mem_flatMap.mp hm
    rw [toList_funcLines] at hl
    rcases List.mem_pair.mp hl with rfl | rfl
    · exact tidy_between (denotes_toDigits e.token.toNat).word (by decide) (by decide)
    · exact tidy_item (h.symbols e he)

theorem printed_flags :
    Printed (["static uint8_t " ++ t.name ++ "_icall_flags [] = \x7b"] ++
      t.entries.toList.map TableEntry.flagLine ++ ["\x7d;"])
      [.block t.name (.flags (t.entries.toList.map TableEntry.flags))] := by
  have htype : ElementType "uint8_t".toList := .inr (.inl rfl)
  have hlast : "_icall_flags [] = \x7b".toList = arrayEnding .flags ++ " [] = \x7b".toList := by
    decide
  apply printed_array h.name htype (b := " ".toList) (by decide) (by decide) hlast ?_ ?_
    (bodyLines_flags _)
  · rfl
  · rw [List.map_map, List.forall_mem_map]
    intro e _
    rw [Function.comp_apply, toList_flagLine]
    exact tidy_numeral e.flags.toNat

/-- The lines of a table print its parts. -/
theorem printed_table : Printed t.lines (partsOf t) := by
  have hall := (((((printed_declaration h.name).append .empty_line).append
    (printed_indexes h)).append (printed_prototypes h.symbols h.returns)).append
    (printed_funcs h)).append (printed_flags h)
  rw [AssemblyTable.lines, partsOf]
  simp only [List.append_assoc] at hall ⊢
  exact hall

end Arrays

/-- The text of a header is spelled by the parts of its tables, one table after the other. -/
theorem spells_render {h : Header} (hl : ∀ t ∈ h.tables, Legible t) :
    Spells (content h.render.toList) (h.tables.flatMap partsOf) := by
  have hp : ∀ tables : List AssemblyTable, (∀ t ∈ tables, Legible t) →
      Printed (tables.flatMap AssemblyTable.lines) (tables.flatMap partsOf) := by
    intro tables hall
    induction tables with
    | nil => exact .nil
    | cons t rest ih =>
        obtain ⟨ht, hrest⟩ := List.forall_mem_cons.mp hall
        rw [List.flatMap_cons, List.flatMap_cons]
        exact (printed_table ht).append (ih hrest)
  exact spells_content (hp h.tables hl)

end InternalCall.Header
