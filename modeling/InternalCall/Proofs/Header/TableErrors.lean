import InternalCall.Proofs.Header.LineErrors

/-!
# Errors of tables

When no line of a text fails, its lines are those of parts, possibly followed by an
array that is not closed. An open array is reported whatever else is wrong. Without
one, the error is the first flaw of the parts, and there is no error if they have
none.
-/

namespace InternalCall.Header

open Progress

/-- The lines are those of parts and of an array that is not closed. -/
inductive LeftOpen : List (List Char) → String → ArrayKind → Prop where
  | intro {front lines : List (List Char)} {parts : List Part} {line assembly : List Char}
      {body : Body} {pending : List UInt32} (spelled : Spells front parts)
      (opened : OpeningLine line assembly body.array) (inside : BodyLines lines body pending) :
      LeftOpen (front ++ line :: lines) (String.ofList assembly) body.array

variable {parts : List Part} {front rest : List (List Char)} {p : Progress}

theorem OpeningLine.unique {line a b : List Char} {j k : ArrayKind} (h : OpeningLine line a j)
    (h' : OpeningLine line b k) : a = b ∧ j = k := by
  have same := (opening?_eq_some_iff.mpr h).symm.trans (opening?_eq_some_iff.mpr h')
  exact Prod.mk.inj (Option.some.inj same)

/-- Between parts, an array is only opened if it has not been given. -/
theorem not_mem_arrays_of_step {line assembly : List Char} {array : ArrayKind}
    (hs : Step line (stateOf parts) p) (ho : OpeningLine line assembly array) :
    (String.ofList assembly, array) ∉ arrays parts := by
  cases hs with
  | declaration _ hd => exact absurd hd.comment ho.not_comment
  | opening _ ho' hh =>
      obtain ⟨rfl, rfl⟩ := ho.unique ho'
      rw [← hasArray_drafts, hh]
      exact Bool.false_ne_true
  | prototype _ hp => exact absurd ho hp.not_opening
  | ignored _ hc => exact absurd hc ho.not_comment
  | closing hn | token hn | flags hn | comment hn | symbol hn => cases hn

/-- After the lines of parts, reading goes on from what the parts amount to. -/
theorem reads_after_parts (hs : Spells front parts) (hn : (arrays parts).Nodup)
    (hr : Reads {} (front ++ rest) p) : Reads (stateOf parts) rest p := by
  obtain ⟨q, hfront, hrest⟩ := hr.exists_between
  rwa [(reads_parts hs hn).unique hfront]

/-- Parts whose lines can be passed over give no array twice. -/
theorem nodup_arrays_of_reads (hs : Spells front parts) (hr : Reads {} (front ++ rest) p) :
    (arrays parts).Nodup := by
  induction hs generalizing rest with
  | nil => exact List.nodup_nil
  | @snoc front lines parts part hs hp ih =>
      rw [List.append_assoc] at hr
      have hn := ih hr
      -- The line that opens the array of a block has been passed over, so the array is new.
      have hpart := reads_after_parts hs hn hr
      cases hp with
      | block ho =>
          cases hpart with
          | cons hstep _ => exact nodup_arrays_block.mpr ⟨hn, not_mem_arrays_of_step hstep ho⟩
      | declaration | prototype | ignored => rwa [arrays_snoc_of_none rfl]

/-- Lines that can be passed over are those of parts, possibly with an array that is left open. -/
theorem leftOpen_or_spells {lines : List (List Char)} (hr : Reads {} lines p) :
    (∃ assembly array, LeftOpen lines assembly array) ∨ ∃ parts, Spells lines parts := by
  cases stands_of_reads hr with
  | outside hs => exact .inr ⟨_, hs⟩
  | inside hs ho hb => exact .inl ⟨_, _, .intro hs ho hb⟩

/-- An array that is left open is what reading ends in. -/
theorem LeftOpen.openArray?_eq {lines : List (List Char)} {assembly : String} {array : ArrayKind}
    (h : LeftOpen lines assembly array) (hr : Reads {} lines p) :
    p.openArray? = some (assembly, array) := by
  cases h with
  | @intro front lines parts line assembly body pending hs ho hb =>
      cases reads_after_parts hs (nodup_arrays_of_reads hs hr) hr with
      | cons hstep hinside =>
          have hnot := not_mem_arrays_of_step hstep ho
          have hopen := Step.opening (p := stateOf parts) rfl ho
            (Bool.eq_false_iff.mpr (mt hasArray_drafts.mp hnot))
          rw [insideOf_empty hnot] at hopen
          obtain rfl := hopen.unique hstep
          obtain rfl := (reads_body hb).unique hinside
          rfl

/-- If every line of a text is accepted, then an array that is open at the end is reported before
anything else. Otherwise the error, if there is one, is that of the first assembly, in the order of
first mention, that has a flaw, whatever the assemblies after it are like. -/
theorem parse_error_of_tables {text : String} (accepted : ∀ number, ¬LineFails text number) :
    (∀ assembly array, LeftOpen (content text.toList) assembly array →
      parse text = .error (.unterminated assembly array)) ∧
    (∀ parts, Spells (content text.toList) parts →
      ∀ e, parse text = .error e ↔ FirstFlaw parts e) ∧
    ((∃ assembly array, LeftOpen (content text.toList) assembly array) ∨
      ∃ parts, Spells (content text.toList) parts) := by
  obtain ⟨p, hr⟩ := exists_reads_of_not_fails accepted
  refine ⟨fun assembly array hopen => ?_, fun parts hs e => ?_, leftOpen_or_spells hr⟩
  · rw [parse_of_reads hr, Progress.finish, hopen.openArray?_eq hr]
  · have hr' : Reads {} (content text.toList ++ []) p := by rwa [List.append_nil]
    cases reads_after_parts hs (nodup_arrays_of_reads hs hr') hr'
    rw [parse_of_reads hr, finish_stateOf_eq_error_iff]

/-- The blocks of two assemblies between each other. The second symbol of the one is announced with
another token than its own, and the other, which is mentioned later, lacks two arrays. -/
theorem parse_error_of_tables_both_flawed :
    let text := String.ofList (["#define ICALL_TABLE_b 1",
      "static int a_icall_indexes[]=\x7b", "7", "\x7d;",
      "static int b_icall_indexes[]=\x7b", "3", "4", "\x7d;",
      "static void*b_icall_funcs[]=\x7b", "// token 3", "f", "// token 4", "// token 5", "g", "\x7d;",
      "static uint8_t b_icall_flags[]=\x7b", "0", "4", "\x7d;"].flatMap (·.toList ++ ['\n']))
    let e : HeaderError := .tokenCommentMismatch "b" 1 5 4
    (∀ number, ¬LineFails text number) ∧ parse text = .error e ∧
      ∃ parts, Spells (content text.toList) parts ∧ FirstFlaw parts e := by
  intro text e
  have failed : parse text = .error (.tokenCommentMismatch "b" 1 5 4) := by
    simp only [parse, text, String.toList_ofList]
    decide +kernel
  obtain ⟨p, hr⟩ := exists_reads_of_parse_error failed rfl
  have accepted : ∀ number, ¬LineFails text number := fun number => not_fails_of_reads hr
  obtain ⟨hopen, hfirst, hforms⟩ := parse_error_of_tables accepted
  rcases hforms with ⟨assembly, array, h⟩ | ⟨parts, h⟩
  · rw [hopen assembly array h] at failed
    cases failed
  · exact ⟨accepted, failed, parts, h, (hfirst parts h e).mp failed⟩

end InternalCall.Header
