import InternalCall.Proofs.Header.Flaws
import InternalCall.Proofs.Header.Recognition

/-!
# Lines that fail

A line fails if it is not blank and allows no step from the state to which the
lines before it lead. Reading ends at the first line that fails, and the error is
that of this line and of nothing after it. Errors that blame no line arise only
when all lines have been passed over.
-/

namespace InternalCall

/-- The number of the line that the error blames. -/
def HeaderError.line? : HeaderError → Option Nat
  | unexpectedLine line _ => some line
  | unknownType line _ => some line
  | _ => none

namespace Header

open Text Progress

/-- The lines of the text, trimmed, the blank ones among them. -/
def trimmedLines (text : String) : List (List Char) := (lines text.toList).map trim

/-- The lines that are not blank. -/
def nonblank (lines : List (List Char)) : List (List Char) := lines.filter fun line => !line.isEmpty

/-- The line is not blank and allows no step from the state to which the lines before it lead. Its
number counts all lines of the text, from 1. -/
inductive FailsAt (text : String) : Nat → List Char → Progress → Prop where
  | intro {front rest : List (List Char)} {line : List Char} {p : Progress}
      (split : trimmedLines text = front ++ line :: rest) (reads : Reads {} (nonblank front) p)
      (ne_nil : line ≠ []) (refused : ∀ q, ¬Step line p q) : FailsAt text (front.length + 1) line p

/-- The line with the number fails. -/
def LineFails (text : String) (number : Nat) : Prop := ∃ line p, FailsAt text number line p

/-- Reading the text gives no error that blames a line. -/
def BlamesNoLine (text : String) : Prop := ∀ e, parse text = .error e → e.line? = none

/-- What is wrong with a line that allows no step. A prototype outside the arrays is blamed for its
leftmost type that is not supported, any other line as a whole. -/
inductive Blame (p : Progress) (line : List Char) (number : Nat) : HeaderError → Prop where
  | line (other : p.openArray? = none → ∀ ret symbol params, ¬PrototypeLine line ret symbol params) :
      Blame p line number (.unexpectedLine number (String.ofList line))
  | type {ret symbol params : List Char} {type : String} (outside : p.openArray? = none)
      (prototype : PrototypeLine line ret symbol params)
      (leftmost : LeftmostUnsupported params type) : Blame p line number (.unknownType number type)

theorem nonblank_append {front rest : List (List Char)} :
    nonblank (front ++ rest) = nonblank front ++ nonblank rest :=
  List.filter_append front rest

theorem nonblank_cons_of_ne_nil {line : List Char} {rest : List (List Char)} (h : line ≠ []) :
    nonblank (line :: rest) = line :: nonblank rest :=
  List.filter_cons_of_pos (by simpa using h)

theorem nonblank_trimmedLines (text : String) : nonblank (trimmedLines text) = content text.toList :=
  rfl

section Line

variable {p q : Progress} {line : List Char} {number : Nat} {e : HeaderError}

theorem Blame.line?_eq (h : Blame p line number e) : e.line? = some number := by
  cases h <;> rfl

theorem exists_ofCName?_of_mem_returnTypes {ret : String} (h : ret ∈ returnTypes) :
    ∃ r, ReturnKind.ofCName? ret = some r := by
  have hall : ∀ ret ∈ returnTypes, (ReturnKind.ofCName? ret).isSome = true := by decide
  exact Option.isSome_iff_exists.mp (hall ret h)

theorem readOutside_blames (ho : p.openArray? = none)
    (h : p.readOutside number line = .error e) : Blame p line number e := by
  rw [readOutside] at h
  split at h
  · cases h
  · next hl =>
      split at h
      · cases h
        cases Line.ofText?_eq_some_iff.mp hl with
        | opening hd => exact .line fun _ _ _ _ hp => hp.not_opening hd
      · cases h
  · next hl =>
      cases Line.ofText?_eq_some_iff.mp hl with
      | prototype hp =>
          obtain ⟨-, -, hret, -⟩ := id hp
          obtain ⟨r, hr⟩ := exists_ofCName?_of_mem_returnTypes hret
          split at h
          · cases h
          · next ht =>
              cases h
              exact .type ho hp ((readPrototype_eq_error_iff hr).mp ht)
  · cases h
  · next hl =>
      cases h
      refine .line fun _ ret symbol params hp => ?_
      rw [Line.ofText?_eq_some_iff.mpr (.prototype hp)] at hl
      cases hl

theorem readInside_blames {assembly : String} {array : ArrayKind}
    (ho : p.openArray? = some (assembly, array))
    (h : p.readInside assembly array number line = .error e) : Blame p line number e := by
  have hblame : Blame p line number (.unexpectedLine number (String.ofList line)) := by
    refine .line fun hnone => ?_
    rw [ho] at hnone
    cases hnone
  unfold readInside at h
  split at h
  · cases h
  · split at h
    · split at h
      · cases h
      · cases h
        exact hblame
    · split at h
      · cases h
      · cases h
        exact hblame
    · split at h
      · cases h
      · split at h
        · cases h
        · cases h
          exact hblame

/-- A line that is not added is not blank, allows no step and is blamed for it. -/
theorem read_eq_error (h : p.read number line = .error e) :
    trim line ≠ [] ∧ (∀ q, ¬Step (trim line) p q) ∧ Blame p (trim line) number e := by
  have hne : (trim line).isEmpty = false := by
    cases hb : (trim line).isEmpty with
    | false => rfl
    | true =>
        rw [read_of_isEmpty hb] at h
        cases h
  refine ⟨by simpa using hne, fun q hs => ?_, ?_⟩
  · rw [(read_eq_ok_iff hne).mpr hs] at h
    cases h
  · simp only [Progress.read, hne, Bool.false_eq_true, ↓reduceIte] at h
    split at h
    · next ho => exact readInside_blames ho h
    · next ho => exact readOutside_blames ho h

theorem read_trim : p.read number (trim line) = p.read number line := by
  rw [Progress.read, Progress.read, trim_trim]

theorem readAll_map_trim {lines : List (List Char)} :
    p.readAll number (lines.map trim) = p.readAll number lines := by
  induction lines generalizing p number with
  | nil => rfl
  | cons line rest ih => simp only [List.map_cons, readAll, read_trim, ih]

/-- Lines are added one stretch after the other. -/
theorem readAll_append {front rest : List (List Char)} :
    p.readAll number (front ++ rest) =
      p.readAll number front >>= fun q => q.readAll (number + front.length) rest := by
  induction front generalizing p number with
  | nil => rfl
  | cons line front ih =>
      rw [List.cons_append, readAll, readAll]
      cases p.read number line with
      | error e => rfl
      | ok q =>
          simp only [ih, List.length_cons, Nat.add_right_comm number 1, Nat.add_assoc]

/-- Lines are not added exactly because of the first one that is not. -/
theorem readAll_eq_error_iff {lines : List (List Char)} :
    p.readAll number lines = .error e ↔ ∃ front line rest q, lines = front ++ line :: rest ∧
      p.readAll number front = .ok q ∧ q.read (number + front.length) line = .error e := by
  constructor
  · intro h
    induction lines generalizing p number with
    | nil => cases h
    | cons line rest ih =>
        rw [readAll] at h
        split at h
        · next q hq =>
            obtain ⟨front, last, rest, r, rfl, hfront, hlast⟩ := ih h
            refine ⟨line :: front, last, rest, r, rfl, ?_, ?_⟩
            · rw [readAll, hq]
              exact hfront
            · rwa [List.length_cons, ← Nat.add_assoc, Nat.add_right_comm]
        · next hq =>
            cases h
            exact ⟨[], line, rest, p, rfl, rfl, hq⟩
  · rintro ⟨front, line, rest, q, rfl, hfront, hline⟩
    rw [readAll_append, hfront]
    change q.readAll (number + front.length) (line :: rest) = _
    rw [readAll, hline]

end Line

/-! ## Errors of a text -/

variable {text text' : String} {p : Progress} {e : HeaderError}

theorem parse_eq (text : String) :
    parse text = Progress.readAll {} 1 (trimmedLines text) >>= Progress.finish := by
  rw [trimmedLines, readAll_map_trim]
  rfl

theorem readAll_trimmedLines_eq_ok_iff :
    Progress.readAll {} 1 (trimmedLines text) = .ok p ↔ Reads {} (content text.toList) p := by
  rw [trimmedLines, readAll_map_trim, readAll_eq_ok_iff]
  rfl

theorem trim_of_mem_trimmedLines {line : List Char} (h : line ∈ trimmedLines text) :
    trim line = line := by
  obtain ⟨raw, -, rfl⟩ := List.mem_map.mp h
  exact trim_trim raw

/-- Lines that begin as others do, up to a line, are the same lines up to it. -/
theorem exists_split_of_take_eq {lines front rest : List (List Char)} {line : List Char}
    (same : lines.take (front.length + 1) = (front ++ line :: rest).take (front.length + 1)) :
    ∃ rest', lines = front ++ line :: rest' := by
  have htake : lines.take (front.length + 1) = front ++ [line] := by
    rw [same, List.take_length_add_append]
    rfl
  refine ⟨lines.drop (front.length + 1), ?_⟩
  rw [List.append_cons, ← htake, List.take_append_drop]

/-- The lines are not added because of a line that fails, and the error is for what is wrong with
it. It is the error of every text that begins with the same lines. -/
theorem fails_of_readAll (h : Progress.readAll {} 1 (trimmedLines text) = .error e) :
    ∃ number line p, FailsAt text number line p ∧ Blame p line number e ∧
      ∀ text', (trimmedLines text').take number = (trimmedLines text).take number →
        parse text' = .error e := by
  obtain ⟨front, line, rest, q, split, hfront, hline⟩ := readAll_eq_error_iff.mp h
  -- The lines are trimmed already, so they are read as they are.
  have htrim : ∀ l ∈ trimmedLines text, trim l = l := fun l hl => trim_of_mem_trimmedLines hl
  rw [split] at htrim
  have hself : front.map trim = front :=
    (List.map_congr_left fun l hl => htrim l (List.mem_append_left _ hl)).trans (List.map_id _)
  have hreads : Reads {} (nonblank front) q := by
    have := readAll_eq_ok_iff.mp hfront
    rwa [hself] at this
  obtain ⟨hne, hrefused, hblame⟩ := read_eq_error hline
  rw [htrim line (by simp)] at hne hrefused hblame
  rw [Nat.add_comm] at hblame
  refine ⟨_, line, q, .intro split hreads hne hrefused, hblame, fun text' same => ?_⟩
  rw [split] at same
  obtain ⟨rest', hsplit⟩ := exists_split_of_take_eq same
  have herror : Progress.readAll {} 1 (trimmedLines text') = .error e :=
    readAll_eq_error_iff.mpr ⟨front, line, rest', q, hsplit, hfront, hline⟩
  rw [parse_eq, herror]
  rfl

/-- Either a line fails or all lines can be passed over. -/
theorem exists_reads_of_not_fails (h : ∀ number, ¬LineFails text number) :
    ∃ p, Reads {} (content text.toList) p := by
  cases hr : Progress.readAll {} 1 (trimmedLines text) with
  | ok p => exact ⟨p, readAll_trimmedLines_eq_ok_iff.mp hr⟩
  | error e =>
      obtain ⟨number, line, p, hf, -⟩ := fails_of_readAll hr
      exact absurd ⟨line, p, hf⟩ (h number)

/-- When the error blames no line, all lines can be passed over. -/
theorem exists_reads_of_parse_error (failed : parse text = .error e) (hnone : e.line? = none) :
    ∃ p, Reads {} (content text.toList) p := by
  cases hr : Progress.readAll {} 1 (trimmedLines text) with
  | ok p => exact ⟨p, readAll_trimmedLines_eq_ok_iff.mp hr⟩
  | error e' =>
      rw [parse_eq, hr] at failed
      cases failed
      obtain ⟨number, line, p, -, hb, -⟩ := fails_of_readAll hr
      rw [hb.line?_eq] at hnone
      cases hnone

/-- No line fails among lines that can be passed over. -/
theorem not_fails_of_reads {number : Nat} (hr : Reads {} (content text.toList) p) :
    ¬LineFails text number := by
  rintro ⟨line, q, ⟨split, hreads, hne, hrefused⟩⟩
  rw [← nonblank_trimmedLines, split, nonblank_append, nonblank_cons_of_ne_nil hne] at hr
  obtain ⟨r, hfront, hrest⟩ := hr.exists_between
  obtain rfl := hfront.unique hreads
  cases hrest with
  | cons hs _ => exact hrefused _ hs

theorem Flaw.line?_eq_none {parts : List Part} {a : String} (h : Flaw parts a e) :
    e.line? = none := by
  cases h <;> rfl

theorem parse_of_reads (hr : Reads {} (content text.toList) p) : parse text = p.finish := by
  rw [parse_eq, readAll_trimmedLines_eq_ok_iff.mpr hr]
  rfl

/-- When all lines can be passed over, the error, if any, blames none of them. -/
theorem blamesNoLine_of_reads (hr : Reads {} (content text.toList) p) : BlamesNoLine text := by
  intro e h
  rw [parse_of_reads hr] at h
  have hstands := stands_of_reads hr
  generalize content text.toList = lines at hstands
  cases hstands with
  | outside =>
      obtain ⟨-, a, -, -, -, flaw⟩ := finish_stateOf_eq_error_iff.mp h
      exact flaw.line?_eq_none
  | inside =>
      cases h
      rfl

/-- A text of the first of lines that can be passed over has no line to blame. -/
theorem blamesNoLine_of_front {front rest : List (List Char)}
    (hr : Reads {} (nonblank (front ++ rest)) p) (hc : content text.toList = nonblank front) :
    BlamesNoLine text := by
  rw [nonblank_append] at hr
  obtain ⟨q, hfront, -⟩ := hr.exists_between
  rw [← hc] at hfront
  exact blamesNoLine_of_reads hfront

/-- The error for a line that fails is that of the first such line: every text with the same lines up
to it fails with the same error, whatever follows, and no text that has only lines before it has a
line to blame. Its number counts all lines, and it is for the whole trimmed line or, of a prototype,
for the leftmost type that is not supported. Errors that blame no line are for texts in which no
line fails. -/
theorem parse_error_blames_first (failed : parse text = .error e) :
    (∀ number, e.line? = some number →
      (∃ line p, FailsAt text number line p ∧ Blame p line number e) ∧
      (∀ text', (trimmedLines text').take number = (trimmedLines text).take number →
        parse text' = .error e) ∧
      ∀ text', ∀ count < number,
        content text'.toList = nonblank ((trimmedLines text).take count) → BlamesNoLine text') ∧
    (e.line? = none →
      (∀ number, ¬LineFails text number) ∧
      ∀ text' count, content text'.toList = nonblank ((trimmedLines text).take count) →
        BlamesNoLine text') := by
  constructor
  · intro number hnumber
    cases hr : Progress.readAll {} 1 (trimmedLines text) with
    | error e' =>
        rw [parse_eq, hr] at failed
        cases failed
        obtain ⟨number', line, p, hf, hb, hlocal⟩ := fails_of_readAll hr
        cases hb.line?_eq.symm.trans hnumber
        refine ⟨⟨line, p, hf, hb⟩, hlocal, fun text' count hlt hc => ?_⟩
        cases hf with
        | @intro front rest _ _ split hreads _ _ =>
            have htake : (trimmedLines text).take count = front.take count := by
              rw [split, List.take_append_of_le_length (by omega)]
            rw [← List.take_append_drop count front] at hreads
            exact blamesNoLine_of_front hreads (htake ▸ hc)
    | ok p =>
        rw [blamesNoLine_of_reads (readAll_trimmedLines_eq_ok_iff.mp hr) e failed] at hnumber
        cases hnumber
  · intro hnone
    obtain ⟨p, hr⟩ := exists_reads_of_parse_error failed hnone
    refine ⟨fun number => not_fails_of_reads hr, fun text' count hc => ?_⟩
    rw [← nonblank_trimmedLines, ← List.take_append_drop count (trimmedLines text)] at hr
    exact blamesNoLine_of_front hr hc

/-- The fourth line is a prototype in whose third and fourth places stand types that are not
supported. It is blamed for the third, also when the lines are spaced otherwise and something else
follows, and the three lines before it are not to blame. -/
theorem parse_error_blames_first_leftmost_type :
    let text := String.ofList (["", "#define ICALL_TABLE_a 1\r", " ",
      "int f (int, , float ,char);", "\x7d;"].flatMap (·.toList ++ ['\n']))
    let text' := String.ofList ([" ", "#define ICALL_TABLE_a 1", "",
      "\tint f (int, , float ,char);\r", "", "#define ICALL_TABLE_b 1"].flatMap
        (·.toList ++ ['\n']))
    let shorter := String.ofList "#define ICALL_TABLE_a 1\n\n".toList
    let e : HeaderError := .unknownType 4 "float"
    parse text = .error e ∧ (∃ line p, FailsAt text 4 line p ∧ Blame p line 4 e) ∧
      parse text' = .error e ∧ BlamesNoLine shorter := by
  intro text text' shorter e
  have facts : parse text = .error e ∧
      (trimmedLines text').take 4 = (trimmedLines text).take 4 ∧
      content shorter.toList = nonblank ((trimmedLines text).take 3) := by
    simp only [parse, trimmedLines, text, text', shorter, String.toList_ofList]
    decide +kernel
  obtain ⟨failed, same, front⟩ := facts
  obtain ⟨blamed, whatever, before⟩ := (parse_error_blames_first failed).1 4 rfl
  exact ⟨failed, blamed, whatever text' same, before shorter 3 (by decide) front⟩

end Header

end InternalCall
