import InternalCall.Header.Reader
import InternalCall.Proofs.Except
import InternalCall.Proofs.Header.Grammar
import Mathlib.Data.List.Induction
import Mathlib.Data.List.Nodup

/-!
# The state that parts leave

Between two parts the reader's state is a function of the parts read so far. This
function turns a further part into the change that the reader makes, and a draft
of it can be finished exactly when the parts are consistent about its assembly.
-/

namespace InternalCall

/-- The arrays that are looked for before the array. -/
def ArrayKind.earlier : ArrayKind → List ArrayKind
  | indexes => []
  | funcs => [.indexes]
  | flags => [.indexes, .funcs]

namespace Header

/-- The reader keeps only the last token announced for a symbol. -/
def Announced.func (s : Announced) : Func := ⟨s.comments.getLast?, s.symbol⟩

/-- The draft of the assembly after the parts. -/
def draftOf (parts : List Part) (assembly : String) : Draft where
  name := assembly
  indexes? :=
    if (assembly, .indexes) ∈ arrays parts then some (tokensOf parts assembly).toArray else none
  funcs? :=
    if (assembly, .funcs) ∈ arrays parts then
      some ((symbolsOf parts assembly).map Announced.func).toArray
    else none
  flags? :=
    if (assembly, .flags) ∈ arrays parts then some (flagsOf parts assembly).toArray else none

/-- The state of the reader after the parts. -/
def stateOf (parts : List Part) : Progress where
  drafts := (mentioned parts).map (draftOf parts)
  prototypes := (parts.filterMap Part.prototype?).reverse

variable {parts : List Part} {part : Part} {a : String} {array : ArrayKind}

@[simp] theorem draftOf_name : (draftOf parts a).name = a := rfl

/-! ## One part more -/

theorem arrays_snoc : arrays (parts ++ [part]) = arrays parts ++ part.array?.toList := by
  cases h : part.array? <;> simp [arrays, h]

theorem arrays_snoc_of_none (h : part.array? = none) :
    arrays (parts ++ [part]) = arrays parts := by
  rw [arrays_snoc, h, Option.toList_none, List.append_nil]

/-- A block keeps the arrays distinct exactly when its own is not yet given. -/
theorem nodup_arrays_block {body : Body} : (arrays (parts ++ [.block a body])).Nodup ↔
    (arrays parts).Nodup ∧ (a, body.array) ∉ arrays parts := by
  rw [arrays_snoc, List.nodup_append_comm]
  exact List.nodup_cons.trans and_comm

theorem itemsOf_snoc {α : Type} {f : Body → List α} :
    itemsOf (parts ++ [part]) f a = itemsOf parts f a ++ part.items f a := by
  simp [itemsOf]

theorem stateOf_prototypes_snoc : (stateOf (parts ++ [part])).prototypes =
    part.prototype?.toList ++ (stateOf parts).prototypes := by
  cases h : part.prototype? <;> simp [stateOf, h]

theorem mem_mentioned : a ∈ mentioned parts ↔ ∃ part ∈ parts, part.assembly? = some a := by
  rw [mentioned, List.mem_eraseDups, List.mem_filterMap]

theorem mentioned_snoc_of_none (h : part.assembly? = none) :
    mentioned (parts ++ [part]) = mentioned parts := by
  simp [mentioned, h]

theorem mentioned_snoc (h : part.assembly? = some a) :
    mentioned (parts ++ [part]) = if a ∈ mentioned parts then mentioned parts
      else mentioned parts ++ [a] := by
  have hs : (parts ++ [part]).filterMap Part.assembly? =
      parts.filterMap Part.assembly? ++ [a] := by
    simp [h]
  rw [mentioned, hs, mentioned, List.eraseDups_append]
  by_cases ha : a ∈ parts.filterMap Part.assembly?
  · rw [if_pos (List.mem_eraseDups.mpr ha), List.removeAll]
    simp only [List.filter_cons, List.elem_eq_mem, ha, decide_true, Bool.not_true,
      Bool.false_eq_true, if_false, List.filter_nil, List.eraseDups_nil, List.append_nil]
  · rw [if_neg (mt List.mem_eraseDups.mp ha), List.removeAll]
    simp only [List.filter_cons, List.elem_eq_mem, ha, decide_false, Bool.not_false, if_true,
      List.filter_nil, List.eraseDups_cons, List.eraseDups_nil]

/-- No assembly is listed twice. -/
theorem nodup_mentioned (parts : List Part) : (mentioned parts).Nodup := by
  induction parts using List.reverseRecOn with
  | nil => exact List.nodup_nil
  | append_singleton parts part ih =>
      cases h : part.assembly? with
      | none =>
          rw [mentioned_snoc_of_none h]
          exact ih
      | some a =>
          rw [mentioned_snoc h]
          split
          · exact ih
          next ha => exact ih.append (List.nodup_singleton a) (List.disjoint_singleton.mpr ha)

/-- An array is only given for an assembly that is mentioned. -/
theorem mem_mentioned_of_mem_arrays (h : (a, array) ∈ arrays parts) : a ∈ mentioned parts := by
  obtain ⟨part, hp, he⟩ := List.mem_filterMap.mp h
  refine mem_mentioned.mpr ⟨part, hp, ?_⟩
  cases part <;> cases he
  rfl

theorem items_of_ne_block {α : Type} {f : Body → List α} (h : ∀ body, part ≠ .block a body) :
    part.items f a = [] := by
  cases part with
  | block b body => exact if_neg fun he : b = a => h body (by rw [he])
  | _ => rfl

/-- What the arrays of an assembly hold changes only with a block of its own. -/
theorem draftOf_snoc (h : ∀ body, part ≠ .block a body) :
    draftOf (parts ++ [part]) a = draftOf parts a := by
  have harr : ∀ array, (a, array) ∈ arrays (parts ++ [part]) ↔ (a, array) ∈ arrays parts := by
    intro array
    rw [arrays_snoc, List.mem_append, or_iff_left]
    cases part with
    | block b body =>
        intro hm
        obtain rfl : b = a := (Prod.mk.inj (Option.some.inj (Option.mem_toList.mp hm))).1
        exact h body rfl
    | _ => exact List.not_mem_nil
  simp only [draftOf, harr, tokensOf, symbolsOf, flagsOf, itemsOf_snoc, items_of_ne_block h,
    List.append_nil]

theorem draftOf_declaration {b : String} :
    draftOf (parts ++ [.declaration b]) a = draftOf parts a :=
  draftOf_snoc fun _ he => nomatch he

/-- A block adds its items to those of its array. -/
theorem draftOf_indexes {tokens : List UInt32} :
    draftOf (parts ++ [.block a (.indexes tokens)]) a =
      { draftOf parts a with indexes? := some (tokensOf parts a ++ tokens).toArray } := by
  simp [draftOf, arrays_snoc, tokensOf, symbolsOf, flagsOf, itemsOf_snoc, Part.array?, Part.items,
    Body.array, Body.tokens, Body.symbols, Body.bytes]

theorem draftOf_funcs {symbols : List Announced} :
    draftOf (parts ++ [.block a (.funcs symbols)]) a =
      { draftOf parts a with
        funcs? := some ((symbolsOf parts a ++ symbols).map Announced.func).toArray } := by
  simp [draftOf, arrays_snoc, tokensOf, symbolsOf, flagsOf, itemsOf_snoc, Part.array?, Part.items,
    Body.array, Body.tokens, Body.symbols, Body.bytes]

theorem draftOf_flags {bytes : List UInt8} :
    draftOf (parts ++ [.block a (.flags bytes)]) a =
      { draftOf parts a with flags? := some (flagsOf parts a ++ bytes).toArray } := by
  simp [draftOf, arrays_snoc, tokensOf, symbolsOf, flagsOf, itemsOf_snoc, Part.array?, Part.items,
    Body.array, Body.tokens, Body.symbols, Body.bytes]

/-- An array that is not given has no items. -/
theorem itemsOf_eq_nil {α : Type} {f : Body → List α} (hf : ∀ body, body.array ≠ array → f body = [])
    (h : (a, array) ∉ arrays parts) : itemsOf parts f a = [] := by
  apply List.flatMap_eq_nil_iff.mpr
  intro part hp
  cases part with
  | block b body =>
      by_cases hb : b = a
      · rw [Part.items, if_pos hb]
        apply hf
        intro ha
        exact h (List.mem_filterMap.mpr ⟨_, hp, by rw [Part.array?, hb, ha]⟩)
      · exact if_neg hb
  | _ => rfl

theorem tokensOf_eq_nil (h : (a, .indexes) ∉ arrays parts) : tokensOf parts a = [] :=
  itemsOf_eq_nil (fun _ => Body.tokens_eq_nil) h

theorem symbolsOf_eq_nil (h : (a, .funcs) ∉ arrays parts) : symbolsOf parts a = [] :=
  itemsOf_eq_nil (fun _ => Body.symbols_eq_nil) h

theorem flagsOf_eq_nil (h : (a, .flags) ∉ arrays parts) : flagsOf parts a = [] :=
  itemsOf_eq_nil (fun _ => Body.bytes_eq_nil) h

/-- An assembly that has not been mentioned has an empty draft. -/
theorem draftOf_of_not_mem (h : a ∉ mentioned parts) : draftOf parts a = { name := a } := by
  have harr : ∀ array, (a, array) ∉ arrays parts := fun array ha => h (mem_mentioned_of_mem_arrays ha)
  simp only [draftOf, harr, if_false]

/-! ## The reader's changes -/

theorem any_drafts : (stateOf parts).drafts.any (·.name == a) = true ↔ a ∈ mentioned parts := by
  simp [stateOf, draftOf]

/-- A part that mentions no assembly leaves the drafts alone. -/
theorem drafts_snoc (h : part.assembly? = none) :
    (stateOf (parts ++ [part])).drafts = (stateOf parts).drafts := by
  have hd : draftOf (parts ++ [part]) = draftOf parts := by
    funext b
    refine draftOf_snoc fun body he => ?_
    rw [he] at h
    cases h
  simp only [stateOf, mentioned_snoc_of_none h, hd]

/-- Mentioning an assembly is what a part without an array does. -/
theorem mention_drafts : mention a (stateOf parts).drafts =
    (stateOf (parts ++ [.declaration a])).drafts := by
  have hd : draftOf (parts ++ [.declaration a]) = draftOf parts :=
    funext fun _ => draftOf_declaration
  have hm := @mentioned_snoc parts (.declaration a) a rfl
  rw [mention]
  simp only [any_drafts]
  by_cases ha : a ∈ mentioned parts
  · rw [if_pos ha]
    rw [if_pos ha] at hm
    simp only [stateOf, hm, hd]
  · rw [if_neg ha]
    rw [if_neg ha] at hm
    simp only [stateOf, hm, hd, List.map_append, List.map_cons, List.map_nil,
      draftOf_of_not_mem ha]

/-- A change to the draft of one assembly, when only the last part differs and speaks of it. -/
theorem change_drafts {before after : Part} {f : Draft → Draft}
    (hbefore : before.assembly? = some a) (hafter : after.assembly? = some a)
    (hf : f (draftOf (parts ++ [before]) a) = draftOf (parts ++ [after]) a) :
    change a f (stateOf (parts ++ [before])).drafts = (stateOf (parts ++ [after])).drafts := by
  have hm : mentioned (parts ++ [before]) = mentioned (parts ++ [after]) := by
    rw [mentioned_snoc hbefore, mentioned_snoc hafter]
  have hother : ∀ part : Part, part.assembly? = some a → ∀ b, b ≠ a →
      draftOf (parts ++ [part]) b = draftOf parts b := by
    intro part hp b hb
    refine draftOf_snoc fun body he => hb ?_
    rw [he] at hp
    exact Option.some.inj hp
  simp only [change, stateOf, hm, List.map_map]
  refine List.map_congr_left fun b _ => ?_
  by_cases hb : b = a
  · rw [Function.comp_apply, draftOf_name, if_pos hb, hb, hf]
  · rw [Function.comp_apply, draftOf_name, if_neg hb, hother before hbefore b hb,
      hother after hafter b hb]

/-- Whether an array is open or filled already is seen from the drafts. -/
theorem hasArray_drafts :
    hasArray a array (stateOf parts).drafts = true ↔ (a, array) ∈ arrays parts := by
  have hd : ∀ b, (draftOf parts b).hasArray array = true ↔ (b, array) ∈ arrays parts := by
    intro b
    cases array <;> simp [Draft.hasArray, draftOf]
  simp only [hasArray, stateOf, List.any_map, List.any_eq_true, Function.comp_apply,
    Bool.and_eq_true, beq_iff_eq, draftOf_name, hd]
  constructor
  · rintro ⟨b, -, rfl, hb⟩
    exact hb
  · intro h
    exact ⟨a, mem_mentioned_of_mem_arrays h, rfl, h⟩

/-- Opening an array begins an empty block. -/
theorem openArray_drafts (h : (a, array) ∉ arrays parts) :
    change a (·.openArray array) (mention a (stateOf parts).drafts) =
      (stateOf (parts ++ [.block a (.empty array)])).drafts := by
  rw [mention_drafts]
  refine change_drafts rfl rfl ?_
  rw [draftOf_declaration]
  cases array with
  | indexes => rw [Body.empty, draftOf_indexes, tokensOf_eq_nil h]; rfl
  | funcs => rw [Body.empty, draftOf_funcs, symbolsOf_eq_nil h]; rfl
  | flags => rw [Body.empty, draftOf_flags, flagsOf_eq_nil h]; rfl

theorem addIndex_drafts {tokens : List UInt32} {token : UInt32} :
    change a (·.addIndex token) (stateOf (parts ++ [.block a (.indexes tokens)])).drafts =
      (stateOf (parts ++ [.block a (.indexes (tokens ++ [token]))])).drafts := by
  refine change_drafts rfl rfl ?_
  rw [draftOf_indexes, draftOf_indexes]
  simp [Draft.addIndex]

theorem addFunc_drafts {symbols : List Announced} {s : Announced} :
    change a (·.addFunc s.func) (stateOf (parts ++ [.block a (.funcs symbols)])).drafts =
      (stateOf (parts ++ [.block a (.funcs (symbols ++ [s]))])).drafts := by
  refine change_drafts rfl rfl ?_
  rw [draftOf_funcs, draftOf_funcs]
  simp [Draft.addFunc]

theorem addFlag_drafts {bytes : List UInt8} {byte : UInt8} :
    change a (·.addFlag byte) (stateOf (parts ++ [.block a (.flags bytes)])).drafts =
      (stateOf (parts ++ [.block a (.flags (bytes ++ [byte]))])).drafts := by
  refine change_drafts rfl rfl ?_
  rw [draftOf_flags, draftOf_flags]
  simp [Draft.addFlag]

/-! ## Finishing -/

section Entries

variable {d : Draft} {prototypes : String → Option Signature} {index : Nat} {token : UInt32}
  {f : Func} {flags : UInt8} {rest : List (UInt32 × Func × UInt8)}

theorem entriesFrom_cons_of_agree (h : ∀ comment, f.comment? = some comment → comment = token) :
    d.entriesFrom prototypes index ((token, f, flags) :: rest) =
      (d.entriesFrom prototypes (index + 1) rest).map
        (⟨token, f.symbol, prototypes f.symbol, flags⟩ :: ·) := by
  rw [Draft.entriesFrom]
  cases hf : f.comment? with
  | none => cases d.entriesFrom prototypes (index + 1) rest <;> rfl
  | some comment =>
      simp only [h comment hf, ne_eq, not_true, if_false]
      cases d.entriesFrom prototypes (index + 1) rest <;> rfl

theorem entriesFrom_cons_of_differ {comment : UInt32} (hf : f.comment? = some comment)
    (h : comment ≠ token) :
    d.entriesFrom prototypes index ((token, f, flags) :: rest) =
      .error (.tokenCommentMismatch d.name index comment token) := by
  rw [Draft.entriesFrom]
  simp only [hf, ne_eq, h, not_false_eq_true, if_true]
  rfl

/-- The entries can be made exactly when no announced token differs from its own. -/
theorem entriesFrom_eq_ok_iff {items : List (UInt32 × Func × UInt8)} {entries : List TableEntry} :
    d.entriesFrom prototypes index items = .ok entries ↔
      (∀ item ∈ items, ∀ comment, item.2.1.comment? = some comment → comment = item.1) ∧
        entries = items.map fun item =>
          ⟨item.1, item.2.1.symbol, prototypes item.2.1.symbol, item.2.2⟩ := by
  induction items generalizing index entries with
  | nil =>
      rw [Draft.entriesFrom, pure_eq_ok_iff]
      simp [eq_comm]
  | cons item rest ih =>
      obtain ⟨token, f, flags⟩ := item
      rw [List.forall_mem_cons, List.map_cons]
      by_cases hc : ∀ comment, f.comment? = some comment → comment = token
      · rw [entriesFrom_cons_of_agree hc, and_iff_right hc]
        simp only [map_eq_ok_iff, ih]
        constructor
        · rintro ⟨_, ⟨hall, rfl⟩, rfl⟩
          exact ⟨hall, rfl⟩
        · rintro ⟨hall, rfl⟩
          exact ⟨_, ⟨hall, rfl⟩, rfl⟩
      · obtain ⟨comment, hf, hne⟩ : ∃ comment, f.comment? = some comment ∧ comment ≠ token := by
          simpa using hc
        rw [entriesFrom_cons_of_differ hf hne]
        simp only [reduceCtorEq, false_iff]
        exact fun h => hc h.1.1

end Entries

/-- The items of the three arrays, position by position, as the reader keeps them. -/
theorem zip_func {tokens : List UInt32} {symbols : List Announced} {bytes : List UInt8} :
    tokens.zip ((symbols.map Announced.func).zip bytes) =
      (tokens.zip (symbols.zip bytes)).map fun item => (item.1, item.2.1.func, item.2.2) := by
  rw [List.zip_map_left, List.zip_map_right]
  rfl

/-- Position by position, no announced token differs from its own exactly when this holds of the
items taken together. -/
theorem announced_iff {tokens : List UInt32} {symbols : List Announced} {bytes : List UInt8}
    (hs : tokens.length = symbols.length) (hb : tokens.length = bytes.length) :
    (∀ item ∈ tokens.zip (symbols.zip bytes), ∀ comment,
        item.2.1.comments.getLast? = some comment → comment = item.1) ↔
      ∀ (position : Nat) (s : Announced) (comment : UInt32), symbols[position]? = some s →
        s.comments.getLast? = some comment → tokens[position]? = some comment := by
  constructor
  · intro h position s comment hp hc
    obtain ⟨hlt, rfl⟩ := List.getElem?_eq_some_iff.mp hp
    have ht : position < tokens.length := hs ▸ hlt
    have hi : (tokens.zip (symbols.zip bytes))[position]? =
        some (tokens[position], symbols[position], bytes[position]) := by
      rw [List.getElem?_zip_eq_some, List.getElem?_zip_eq_some]
      exact ⟨List.getElem?_eq_getElem ht, hp, List.getElem?_eq_getElem (hb ▸ ht)⟩
    rw [h _ (List.mem_of_getElem? hi) comment hc]
    exact List.getElem?_eq_getElem ht
  · intro h item hm comment hc
    obtain ⟨position, hp⟩ := List.mem_iff_getElem?.mp hm
    obtain ⟨ht, hp⟩ := List.getElem?_zip_eq_some.mp hp
    obtain ⟨hs, -⟩ := List.getElem?_zip_eq_some.mp hp
    exact Option.some.inj ((h position _ comment hs hc).symm.trans ht)

/-- With arrays of one length, the entries can be made exactly when the announced tokens agree. -/
theorem entriesFrom_draftOf_eq_ok_iff {entries : List TableEntry}
    (hs : (tokensOf parts a).length = (symbolsOf parts a).length)
    (hf : (tokensOf parts a).length = (flagsOf parts a).length) :
    (draftOf parts a).entriesFrom (stateOf parts).prototype? 0
        ((tokensOf parts a).zip (((symbolsOf parts a).map Announced.func).zip (flagsOf parts a))) =
          .ok entries ↔
      (∀ (position : Nat) (s : Announced) (comment : UInt32),
        (symbolsOf parts a)[position]? = some s → s.comments.getLast? = some comment →
          (tokensOf parts a)[position]? = some comment) ∧
        entries = (tableOf parts a).entries.toList := by
  rw [entriesFrom_eq_ok_iff, zip_func, List.forall_mem_map, ← announced_iff hs hf, List.map_map,
    tableOf]
  rfl

/-- Either all arrays are given, or there is a first one that is missing. -/
theorem complete_or_missing (parts : List Part) (a : String) :
    (∀ array, (a, array) ∈ arrays parts) ∨
      ∃ array : ArrayKind, (∀ k ∈ array.earlier, (a, k) ∈ arrays parts) ∧
        (a, array) ∉ arrays parts := by
  by_cases hi : (a, .indexes) ∈ arrays parts
  · by_cases hs : (a, .funcs) ∈ arrays parts
    · by_cases hf : (a, .flags) ∈ arrays parts
      · left
        intro array
        cases array <;> assumption
      · exact .inr ⟨.flags, by simp [ArrayKind.earlier, hi, hs], hf⟩
    · exact .inr ⟨.funcs, by simp [ArrayKind.earlier, hi], hs⟩
  · exact .inr ⟨.indexes, by simp [ArrayKind.earlier], hi⟩

/-- A draft is not finished without the first array that is missing. -/
theorem finish_draftOf_of_missing {array : ArrayKind}
    (present : ∀ k ∈ array.earlier, (a, k) ∈ arrays parts) (absent : (a, array) ∉ arrays parts) :
    (draftOf parts a).finish (stateOf parts).prototype? = .error (.missingArray a array) := by
  cases array with
  | indexes => simp [Draft.finish, draftOf, Draft.require, absent, bind, Except.bind]
  | funcs =>
      simp only [ArrayKind.earlier, List.forall_mem_singleton] at present
      simp [Draft.finish, draftOf, Draft.require, present, absent, bind, Except.bind]
  | flags =>
      simp only [ArrayKind.earlier, List.forall_mem_cons] at present
      simp [Draft.finish, draftOf, Draft.require, present.1, present.2, absent, bind, Except.bind]

/-- With all arrays there, a draft is finished if they are of one length and the entries can be
made. -/
theorem finish_draftOf_of_complete (complete : ∀ array, (a, array) ∈ arrays parts) :
    (draftOf parts a).finish (stateOf parts).prototype? =
      if (tokensOf parts a).length = (symbolsOf parts a).length ∧
          (tokensOf parts a).length = (flagsOf parts a).length then
        ((draftOf parts a).entriesFrom (stateOf parts).prototype? 0 ((tokensOf parts a).zip
          (((symbolsOf parts a).map Announced.func).zip (flagsOf parts a)))).map
            fun entries => ⟨a, entries.toArray⟩
      else
        .error (.lengthMismatch a (tokensOf parts a).length (symbolsOf parts a).length
          (flagsOf parts a).length) := by
  have hi : (draftOf parts a).indexes? = some (tokensOf parts a).toArray :=
    if_pos (complete .indexes)
  have hs : (draftOf parts a).funcs? = some ((symbolsOf parts a).map Announced.func).toArray :=
    if_pos (complete .funcs)
  have hf : (draftOf parts a).flags? = some (flagsOf parts a).toArray := if_pos (complete .flags)
  rw [Draft.finish, hi, hs, hf]
  simp only [Draft.require, bind, Except.bind, List.size_toArray, List.length_map]
  split
  · cases (draftOf parts a).entriesFrom (stateOf parts).prototype? 0 ((tokensOf parts a).zip
      (((symbolsOf parts a).map Announced.func).zip (flagsOf parts a))) <;> rfl
  · rfl

/-- A draft can be finished exactly when the arrays of its assembly make a table, which it is. -/
theorem finish_draftOf_eq_ok_iff {t : AssemblyTable} :
    (draftOf parts a).finish (stateOf parts).prototype? = .ok t ↔
      Whole parts a ∧ tableOf parts a = t := by
  constructor
  · intro h
    rcases complete_or_missing parts a with complete | ⟨array, present, absent⟩
    · rw [finish_draftOf_of_complete complete] at h
      split at h
      · next balanced =>
          obtain ⟨entries, he, rfl⟩ := map_eq_ok_iff.mp h
          obtain ⟨announced, rfl⟩ := (entriesFrom_draftOf_eq_ok_iff balanced.1 balanced.2).mp he
          exact ⟨⟨complete, balanced, announced⟩, rfl⟩
      · cases h
    · rw [finish_draftOf_of_missing present absent] at h
      cases h
  · rintro ⟨hw, rfl⟩
    rw [finish_draftOf_of_complete hw.complete, if_pos hw.balanced]
    have hentries := (entriesFrom_draftOf_eq_ok_iff hw.balanced.1 hw.balanced.2).mpr
      ⟨hw.announced, rfl⟩
    exact map_eq_ok_iff.mpr ⟨_, hentries, rfl⟩

/-- The state after the parts can be finished exactly when each assembly has its table. -/
theorem finish_stateOf_eq_ok_iff {h : Header} :
    (stateOf parts).finish = .ok h ↔
      (∀ assembly ∈ mentioned parts, Whole parts assembly) ∧ ofParts parts = h := by
  have hf : (stateOf parts).finish = do return ⟨← (stateOf parts).drafts.mapM
      (·.finish (stateOf parts).prototype?)⟩ := rfl
  have htables : ∀ tables, (stateOf parts).drafts.mapM (·.finish (stateOf parts).prototype?) =
      .ok tables ↔ (∀ assembly ∈ mentioned parts, Whole parts assembly) ∧
        (mentioned parts).map (tableOf parts) = tables := by
    intro tables
    have hd : (stateOf parts).drafts = (mentioned parts).map (draftOf parts) := rfl
    rw [mapM_eq_ok_iff, hd, List.forall₂_map_left_iff]
    simp only [finish_draftOf_eq_ok_iff]
    rw [List.forall₂_and_left, ← List.forall₂_eq_eq_eq, List.forall₂_map_left_iff]
  rw [hf, bind_eq_ok_iff]
  simp only [htables, pure_eq_ok_iff]
  constructor
  · rintro ⟨_, ⟨hall, rfl⟩, rfl⟩
    exact ⟨hall, rfl⟩
  · rintro ⟨hall, rfl⟩
    exact ⟨_, ⟨hall, rfl⟩, rfl⟩

end Header

end InternalCall
