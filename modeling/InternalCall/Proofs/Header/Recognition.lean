import InternalCall.Proofs.Header.Assembly
import InternalCall.Proofs.Header.Steps

/-!
# Recognition of the grammar

Reading keeps track of the parts read so far and, inside an array, of the items
and announced tokens of its block. Every step prolongs the parts or that block,
and every way to spell a text is a way to read it. Hence a text is read exactly
when consistent parts spell its content, and what is read is what they amount to.
-/

namespace InternalCall.Header

open Progress

attribute [ext] Progress

/-- The state of the reader inside a block. -/
def insideOf (parts : List Part) (a : String) (body : Body) (pending : List UInt32) : Progress :=
  { stateOf (parts ++ [.block a body]) with
    openArray? := some (a, body.array)
    comment? := pending.getLast? }

section States

variable {parts : List Part} {a : String} {pending : List UInt32}

theorem prototypes_block {body : Body} :
    (stateOf (parts ++ [.block a body])).prototypes = (stateOf parts).prototypes :=
  stateOf_prototypes_snoc

theorem stateOf_declaration :
    { stateOf parts with drafts := mention a (stateOf parts).drafts } =
      stateOf (parts ++ [.declaration a]) :=
  Progress.ext mention_drafts (@stateOf_prototypes_snoc parts (.declaration a)).symm rfl rfl

theorem stateOf_prototype {symbol : String} {s : Signature} :
    { stateOf parts with prototypes := (symbol, s) :: (stateOf parts).prototypes } =
      stateOf (parts ++ [.prototype symbol s]) :=
  Progress.ext (drafts_snoc rfl).symm (@stateOf_prototypes_snoc parts (.prototype symbol s)).symm
    rfl rfl

theorem stateOf_ignored : stateOf parts = stateOf (parts ++ [.ignored]) :=
  Progress.ext (drafts_snoc rfl).symm (@stateOf_prototypes_snoc parts .ignored).symm rfl rfl

theorem insideOf_empty {array : ArrayKind} (h : (a, array) ∉ arrays parts) :
    { stateOf parts with
      drafts := change a (·.openArray array) (mention a (stateOf parts).drafts)
      openArray? := some (a, array) } = insideOf parts a (.empty array) [] := by
  refine Progress.ext (openArray_drafts h) prototypes_block.symm ?_ rfl
  cases array <;> rfl

theorem insideOf_closed {body : Body} :
    { insideOf parts a body pending with openArray? := none, comment? := none } =
      stateOf (parts ++ [.block a body]) :=
  rfl

theorem insideOf_token {tokens : List UInt32} {token : UInt32} :
    { insideOf parts a (.indexes tokens) pending with
      drafts := change a (·.addIndex token) (insideOf parts a (.indexes tokens) pending).drafts } =
      insideOf parts a (.indexes (tokens ++ [token])) pending :=
  Progress.ext addIndex_drafts (prototypes_block.trans prototypes_block.symm) rfl rfl

theorem insideOf_flags {bytes : List UInt8} {byte : UInt8} :
    { insideOf parts a (.flags bytes) pending with
      drafts := change a (·.addFlag byte) (insideOf parts a (.flags bytes) pending).drafts } =
      insideOf parts a (.flags (bytes ++ [byte])) pending :=
  Progress.ext addFlag_drafts (prototypes_block.trans prototypes_block.symm) rfl rfl

theorem insideOf_comment {symbols : List Announced} {token : UInt32} :
    { insideOf parts a (.funcs symbols) pending with comment? := some token } =
      insideOf parts a (.funcs symbols) (pending ++ [token]) :=
  Progress.ext rfl rfl rfl List.getLast?_concat.symm

theorem insideOf_symbol {symbols : List Announced} {symbol : String} :
    { insideOf parts a (.funcs symbols) pending with
      drafts := change a (·.addFunc ⟨(insideOf parts a (.funcs symbols) pending).comment?, symbol⟩)
        (insideOf parts a (.funcs symbols) pending).drafts
      comment? := none } = insideOf parts a (.funcs (symbols ++ [⟨pending, symbol⟩])) [] :=
  Progress.ext (addFunc_drafts (s := ⟨pending, symbol⟩))
    (prototypes_block.trans prototypes_block.symm) rfl rfl

end States

/-- What the lines read so far amount to: parts, possibly with a block that is still open. -/
inductive Stands : List (List Char) → Progress → Prop where
  | outside {lines : List (List Char)} {parts : List Part} :
      Spells lines parts → (arrays parts).Nodup → Stands lines (stateOf parts)
  | inside {front lines : List (List Char)} {parts : List Part} {line assembly : List Char}
      {body : Body} {pending : List UInt32} :
      Spells front parts → OpeningLine line assembly body.array → BodyLines lines body pending →
      (arrays parts).Nodup → (String.ofList assembly, body.array) ∉ arrays parts →
      Stands (front ++ line :: lines) (insideOf parts (String.ofList assembly) body pending)

theorem array_empty (array : ArrayKind) : (Body.empty array).array = array := by
  cases array <;> rfl

/-- Only symbols are announced. -/
theorem BodyLines.pending_eq_nil {lines : List (List Char)} {body : Body} {pending : List UInt32}
    (h : BodyLines lines body pending) (hb : body.array ≠ .funcs) : pending = [] := by
  cases h with
  | empty => rfl
  | token => rfl
  | flags => rfl
  | comment => exact absurd rfl hb
  | symbol => rfl

/-- Between parts, a step reads a part of one line or opens an array that was not given before. -/
theorem step_stateOf {parts : List Part} {line : List Char} {q : Progress}
    (hs : Step line (stateOf parts) q) :
    (∃ part, PartLines [line] part ∧ arrays (parts ++ [part]) = arrays parts ∧
      q = stateOf (parts ++ [part])) ∨
    ∃ assembly array, OpeningLine line assembly array ∧
      (String.ofList assembly, array) ∉ arrays parts ∧
      q = insideOf parts (String.ofList assembly) (.empty array) [] := by
  cases hs with
  | declaration _ hd =>
      exact .inl ⟨_, .declaration hd, arrays_snoc_of_none rfl, stateOf_declaration⟩
  | @opening assembly array _ ho hh =>
      have ha : (String.ofList assembly, array) ∉ arrays parts :=
        mt hasArray_drafts.mpr (by simpa using hh)
      exact .inr ⟨assembly, array, ho, ha, insideOf_empty ha⟩
  | prototype _ hp hret hparams =>
      exact .inl ⟨_, .prototype hp hret hparams, arrays_snoc_of_none rfl, stateOf_prototype⟩
  | ignored _ hc hd =>
      exact .inl ⟨_, .ignored hc hd, arrays_snoc_of_none rfl, stateOf_ignored⟩
  | closing ho | token ho | flags ho | comment ho | symbol ho => cases ho

/-- In a block, a step closes it or reads one more line of its array. -/
theorem step_insideOf {parts : List Part} {a : String} {lines : List (List Char)}
    {line : List Char} {body : Body} {pending : List UInt32} {q : Progress}
    (hb : BodyLines lines body pending) (hs : Step line (insideOf parts a body pending) q) :
    (line = closingLine ∧ q = stateOf (parts ++ [.block a body])) ∨
    ∃ body' pending', BodyLines (lines ++ [line]) body' pending' ∧ body'.array = body.array ∧
      q = insideOf parts a body' pending' := by
  cases hs with
  | declaration h | opening h | prototype h | ignored h => cases h
  | closing _ hc => exact .inl ⟨hc, insideOf_closed⟩
  | token h hi =>
      cases body with
      | indexes tokens =>
          cases h
          obtain rfl := hb.pending_eq_nil fun h => nomatch h
          exact .inr ⟨_, _, .token hb hi, rfl, insideOf_token⟩
      | funcs | flags => cases h
  | flags h hi =>
      cases body with
      | flags bytes =>
          cases h
          obtain rfl := hb.pending_eq_nil fun h => nomatch h
          exact .inr ⟨_, _, .flags hb hi, rfl, insideOf_flags⟩
      | funcs | indexes => cases h
  | comment h ht =>
      cases body with
      | funcs symbols =>
          cases h
          exact .inr ⟨_, _, .comment hb ht, rfl, insideOf_comment⟩
      | indexes | flags => cases h
  | symbol h hi =>
      cases body with
      | funcs symbols =>
          cases h
          exact .inr ⟨_, _, .symbol hb hi, rfl, insideOf_symbol⟩
      | indexes | flags => cases h

/-- A step prolongs what the lines before it amount to. -/
theorem Stands.step {lines : List (List Char)} {line : List Char} {p q : Progress}
    (hp : Stands lines p) (hs : Step line p q) : Stands (lines ++ [line]) q := by
  cases hp with
  | @outside _ parts hl hn =>
      rcases step_stateOf hs with ⟨part, hpart, harrays, rfl⟩ | ⟨assembly, array, ho, ha, rfl⟩
      · refine .outside (hl.snoc hpart) ?_
        rwa [harrays]
      · rw [← array_empty array] at ho ha
        exact .inside hl ho .empty hn ha
  | @inside front lines parts opening assembly body pending hl ho hb hn ha =>
      rw [List.append_assoc, List.cons_append]
      rcases step_insideOf hb hs with ⟨rfl, rfl⟩ | ⟨body', pending', hb', harray, rfl⟩
      · exact .outside (hl.snoc (.block ho hb)) (nodup_arrays_block.mpr ⟨hn, ha⟩)
      · rw [← harray] at ho ha
        exact .inside hl ho hb' hn ha

theorem Stands.reads {front rest : List (List Char)} {p q : Progress} (hp : Stands front p)
    (h : Reads p rest q) : Stands (front ++ rest) q := by
  induction h generalizing front with
  | nil => rwa [List.append_nil]
  | cons hs _ ih =>
      have := ih (hp.step hs)
      rwa [List.append_assoc] at this

/-- Lines that are read from the start on amount to parts, possibly with a block that is open. -/
theorem stands_of_reads {lines : List (List Char)} {p : Progress} (h : Reads {} lines p) :
    Stands lines p := by
  have hstart : Stands [] (stateOf []) := .outside .nil List.nodup_nil
  have := hstart.reads h
  rwa [List.nil_append] at this

/-- Reading the lines of a body, from an empty block on, gives the block this body. -/
theorem reads_body {parts : List Part} {a : String} {lines : List (List Char)} {body : Body}
    {pending : List UInt32} (h : BodyLines lines body pending) :
    Reads (insideOf parts a (.empty body.array) []) lines (insideOf parts a body pending) := by
  induction h with
  | @empty array =>
      rw [array_empty]
      exact .nil
  | token _ hi ih =>
      rw [← insideOf_token]
      exact ih.append (.single (.token rfl hi))
  | flags _ hi ih =>
      rw [← insideOf_flags]
      exact ih.append (.single (.flags rfl hi))
  | comment _ ht ih =>
      rw [← insideOf_comment]
      exact ih.append (.single (.comment rfl ht))
  | symbol _ hi ih =>
      rw [← insideOf_symbol]
      exact ih.append (.single (.symbol rfl hi))

/-- Reading the lines of a part adds the part, unless it gives an array again. -/
theorem reads_part {parts : List Part} {lines : List (List Char)} {part : Part}
    (h : PartLines lines part) (hn : (arrays (parts ++ [part])).Nodup) :
    Reads (stateOf parts) lines (stateOf (parts ++ [part])) := by
  cases h with
  | declaration hd =>
      rw [← stateOf_declaration]
      exact .single (.declaration rfl hd)
  | @block line assembly lines body pending ho hb =>
      have ha := (nodup_arrays_block.mp hn).2
      have hopen := Step.opening (p := stateOf parts) rfl ho
        (Bool.eq_false_iff.mpr (mt hasArray_drafts.mp ha))
      rw [insideOf_empty ha] at hopen
      have hclose : Step closingLine (insideOf parts (String.ofList assembly) body pending)
          (stateOf (parts ++ [.block (String.ofList assembly) body])) := .closing rfl rfl
      exact .cons hopen ((reads_body hb).append (.single hclose))
  | prototype hp hret hparams =>
      rw [← stateOf_prototype]
      exact .single (.prototype rfl hp hret hparams)
  | ignored hc hd =>
      rw [← stateOf_ignored]
      exact .single (.ignored rfl hc hd)

/-- Lines that parts spell can be read, if no array is given twice. -/
theorem reads_parts {lines : List (List Char)} {parts : List Part} (h : Spells lines parts)
    (hn : (arrays parts).Nodup) : Reads {} lines (stateOf parts) := by
  induction h with
  | nil => exact .nil
  | @snoc front lines parts part hf hp ih =>
      have hfront : (arrays parts).Nodup := by
        rw [arrays_snoc] at hn
        exact hn.of_append_left
      exact (ih hfront).append (reads_part hp hn)

/-- What is read up to the end of a part is what parts amount to that spell the lines. -/
theorem reads_iff {lines : List (List Char)} {p : Progress} :
    Reads {} lines p ∧ p.openArray? = none ↔
      ∃ parts, Spells lines parts ∧ (arrays parts).Nodup ∧ p = stateOf parts := by
  constructor
  · rintro ⟨hr, ho⟩
    cases stands_of_reads hr with
    | outside hl hn => exact ⟨_, hl, hn, rfl⟩
    | inside => cases ho
  · rintro ⟨parts, hl, hn, rfl⟩
    exact ⟨reads_parts hl hn, rfl⟩

theorem openArray?_of_finish {p : Progress} {h : Header} (hf : p.finish = .ok h) :
    p.openArray? = none := by
  rw [Progress.finish] at hf
  split at hf
  · cases hf
  · assumption

/-- What was read is what consistent parts amount to that spell the content. -/
theorem exists_parts_of_parse {text : String} {h : Header} (parsed : parse text = .ok h) :
    ∃ parts, Spells (content text.toList) parts ∧ Consistent parts ∧ ofParts parts = h := by
  obtain ⟨p, hr, hf⟩ := parse_eq_ok_iff_reads.mp parsed
  obtain ⟨parts, hs, hn, rfl⟩ := reads_iff.mp ⟨hr, openArray?_of_finish hf⟩
  obtain ⟨hw, hh⟩ := finish_stateOf_eq_ok_iff.mp hf
  exact ⟨parts, hs, ⟨hn, hw⟩, hh⟩

/-- The tables are those of the assemblies that are mentioned. -/
theorem names_ofParts (parts : List Part) :
    (ofParts parts).tables.map AssemblyTable.name = mentioned parts := by
  rw [ofParts, List.map_map]
  exact List.map_id _

/-- No two tables of a header that was read have the same name. -/
theorem nodup_names_of_parse {text : String} {h : Header} (parsed : parse text = .ok h) :
    (h.tables.map AssemblyTable.name).Nodup := by
  obtain ⟨parts, -, -, rfl⟩ := exists_parts_of_parse parsed
  rw [names_ofParts]
  exact nodup_mentioned parts

/-- Among tables of distinct names, the table of an assembly is the one that has its name. -/
theorem table?_eq_some_iff {h : Header} (distinct : (h.tables.map AssemblyTable.name).Nodup)
    {assembly : String} {t : AssemblyTable} :
    h.table? assembly = some t ↔ t ∈ h.tables ∧ t.name = assembly := by
  rw [Header.table?]
  constructor
  · intro found
    exact ⟨List.mem_of_find?_eq_some found, by simpa using List.find?_some found⟩
  · rintro ⟨ht, rfl⟩
    cases found : h.tables.find? fun u => u.name == t.name with
    | none =>
        have hne := List.find?_eq_none.mp found t ht
        simp at hne
    | some u =>
        have hu : u.name = t.name := by simpa using List.find?_some found
        rw [List.inj_on_of_nodup_map distinct (List.mem_of_find?_eq_some found) ht hu]

/-- A text that consistent parts spell is read as what they amount to. -/
theorem parse_of_spells {text : String} {parts : List Part}
    (hs : Spells (content text.toList) parts) (hc : Consistent parts) :
    parse text = .ok (ofParts parts) :=
  parse_eq_ok_iff_reads.mpr
    ⟨stateOf parts, reads_parts hs hc.once, finish_stateOf_eq_ok_iff.mpr ⟨hc.whole, rfl⟩⟩

/-- A text is read as a header exactly when its trimmed lines that are not blank are spelled by
consistent parts and the header is what these parts amount to: the tables of the assemblies in the
order of their first mention, each put together position by position from its three arrays, where a
symbol has the signature of its last prototype anywhere in the text. -/
theorem parse_eq_ok_iff {text : String} {h : Header} :
    parse text = .ok h ↔ ∃ parts,
      Spells (content text.toList) parts ∧ Consistent parts ∧ ofParts parts = h := by
  constructor
  · exact exists_parts_of_parse
  · rintro ⟨parts, hs, hc, rfl⟩
    exact parse_of_spells hs hc

end InternalCall.Header
