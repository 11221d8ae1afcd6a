import InternalCall.Proofs.Header.LineErrors

/-!
# Spacing and comments

Blanks around a line, blank lines and, outside the arrays, comments and preprocessor
lines say nothing to a reader. A text is read as what is left without them, apart
from the number of a line that an error blames. So two texts that say the same are
read alike.
-/

namespace InternalCall

/-- The error with another number for the line that it blames. -/
def HeaderError.atLine (number : Nat) : HeaderError → HeaderError
  | unexpectedLine _ text => unexpectedLine number text
  | unknownType _ type => unknownType number type
  | e => e

@[simp] theorem HeaderError.atLine_atLine (e : HeaderError) (number number' : Nat) :
    (e.atLine number').atLine number = e.atLine number := by
  cases e <;> rfl

namespace Header

open Text Progress

/-- The line starts as a comment or a preprocessor line does, and declares no table. -/
def isRemark (line : List Char) : Bool := isIgnored line && (declaration? line).isNone

/-- Whether what follows the line stands inside an array, if the line itself does or does not. -/
def insideAfter (inside : Bool) (line : List Char) : Bool :=
  if inside then !isClosing line else (opening? line).isSome

/-- The lines without the remarks outside the arrays. The first line stands inside an array, or it
does not. -/
def withoutRemarks (inside : Bool) : List (List Char) → List (List Char)
  | [] => []
  | line :: rest =>
    if !inside && isRemark line then withoutRemarks inside rest
    else line :: withoutRemarks (insideAfter inside line) rest

/-- What the text says: its trimmed lines without the blank ones and without the remarks outside the
arrays. -/
def substance (text : String) : List (List Char) := withoutRemarks false (content text.toList)

/-- The result without regard to the number of the line that an error blames. -/
def unnumbered {α : Type} (x : Except HeaderError α) : Except HeaderError α :=
  x.mapError (·.atLine 0)

variable {p q : Progress} {line : List Char} {number number' : Nat}

theorem unnumbered_bind {α β : Type} (x : Except HeaderError α) (f : α → Except HeaderError β) :
    unnumbered (x >>= f) = unnumbered x >>= fun a => unnumbered (f a) := by
  cases x <;> rfl

theorem isRemark_iff :
    isRemark line = true ↔ CommentLine line ∧ ∀ assembly, ¬DeclarationLine line assembly := by
  simp only [isRemark, Bool.and_eq_true, isIgnored_iff, Option.isNone_iff_eq_none,
    declaration?_eq_none_iff]

/-! ## One line -/

theorem readOutside_eq_atLine : p.readOutside number line =
    (p.readOutside number' line).mapError (·.atLine number) := by
  rw [readOutside, readOutside]
  split
  · rfl
  · split <;> rfl
  · split <;> rfl
  · rfl
  · rfl

theorem readInside_eq_atLine {assembly : String} {array : ArrayKind} :
    p.readInside assembly array number line =
      (p.readInside assembly array number' line).mapError (·.atLine number) := by
  unfold readInside
  split
  · rfl
  · split
    · split <;> rfl
    · split <;> rfl
    · split
      · rfl
      · split <;> rfl

/-- Only the error of a line depends on its number. -/
theorem read_eq_atLine : p.read number line =
    (p.read number' line).mapError (·.atLine number) := by
  simp only [Progress.read]
  split
  · rfl
  · split
    · exact readInside_eq_atLine
    · exact readOutside_eq_atLine

/-- A remark outside the arrays changes nothing. -/
theorem read_of_isRemark (ho : p.openArray?.isSome = false) (hr : isRemark (trim line) = true) :
    p.read number line = .ok p := by
  obtain ⟨hc, hd⟩ := isRemark_iff.mp hr
  have hne : (trim line).isEmpty = false := by
    obtain ⟨rest, h | h⟩ := hc <;> simp [h]
  exact (read_eq_ok_iff hne).mpr (.ignored (by simpa using ho) hc hd)

/-- A step leads into an array or out of it by its line alone. -/
theorem Progress.Step.isSome_openArray? (hs : Step line p q) :
    q.openArray?.isSome = insideAfter p.openArray?.isSome line := by
  have hclosed : (∀ a k, ¬OpeningLine line a k) → (opening? line).isSome = false := by
    intro h
    rw [Option.isSome_eq_false_iff, Option.isNone_iff_eq_none]
    exact opening?_eq_none_iff.mpr h
  cases hs with
  | declaration ho hd =>
      simp [insideAfter, ho, hclosed fun _ _ h => h.not_comment hd.comment]
  | opening ho hd => simp [insideAfter, ho, opening?_eq_some_iff.mpr hd]
  | prototype ho hp => simp [insideAfter, ho, hclosed fun _ _ => hp.not_opening]
  | ignored ho hc => simp [insideAfter, ho, hclosed fun _ _ h => h.not_comment hc]
  | closing ho hl => simp [insideAfter, ho, isClosing_iff.mpr hl]
  | token ho hn | flags ho hn => simp [insideAfter, ho, hn.not_closing]
  | comment ho ht => simp [insideAfter, ho, ht.not_closing]
  | symbol ho hi => simp [insideAfter, ho, hi.not_closing]

/-! ## All lines -/

theorem withoutRemarks_cons_of_remark {inside : Bool} {rest : List (List Char)}
    (h : inside = false ∧ isRemark line = true) :
    withoutRemarks inside (line :: rest) = withoutRemarks inside rest :=
  if_pos (by simp [h.1, h.2])

theorem withoutRemarks_cons_of_not {inside : Bool} {rest : List (List Char)}
    (h : ¬(inside = false ∧ isRemark line = true)) :
    withoutRemarks inside (line :: rest) =
      line :: withoutRemarks (insideAfter inside line) rest :=
  if_neg (by simpa using h)

theorem nonblank_cons_nil {rest : List (List Char)} : nonblank ([] :: rest) = nonblank rest := rfl

/-- Lines are read as what they say is read, with other numbers. -/
theorem unnumbered_readAll (p : Progress) (number number' : Nat) (lines : List (List Char)) :
    unnumbered (p.readAll number lines) = unnumbered (p.readAll number'
      (withoutRemarks p.openArray?.isSome (nonblank (lines.map trim)))) := by
  induction lines generalizing p number number' with
  | nil => rfl
  | cons line rest ih =>
      rw [List.map_cons]
      by_cases hb : trim line = []
      · rw [hb, nonblank_cons_nil, readAll, read_of_isEmpty (by simp [hb])]
        exact ih p (number + 1) number'
      · rw [nonblank_cons_of_ne_nil hb]
        by_cases hr : p.openArray?.isSome = false ∧ isRemark (trim line) = true
        · rw [withoutRemarks_cons_of_remark hr, readAll, read_of_isRemark hr.1 hr.2]
          exact ih p (number + 1) number'
        · rw [withoutRemarks_cons_of_not hr, readAll, readAll, read_trim,
            @read_eq_atLine p _ number number']
          cases hread : p.read number' line with
          | error e => simp [unnumbered, Except.mapError]
          | ok q =>
              -- Both runs go on in one state, and the line says whether it is inside an array.
              have hs := (read_eq_ok_iff (by simpa using hb)).mp hread
              rw [← hs.isSome_openArray?]
              exact ih q (number + 1) (number' + 1)

/-- The layout of a text does not matter to a reader. If two texts have the same lines after
trimming, without the blank lines and without the comments and preprocessor lines outside the arrays
that declare no table, then both are read as the same header, or both fail with the same error, but
for the number of the line that it blames. -/
theorem parse_of_substance_eq {text text' : String} (same : substance text = substance text') :
    unnumbered (parse text) = unnumbered (parse text') := by
  have hread : ∀ text : String, unnumbered (parse text) =
      unnumbered (Progress.readAll {} 1 (substance text)) >>= fun p => unnumbered p.finish := by
    intro text
    have hlines := unnumbered_readAll {} 1 1 (lines text.toList)
    rw [parse, unnumbered_bind, hlines]
    rfl
  rw [hread, hread, same]

/-- Line ends, indentation, blank lines and remarks are different, and the comment that announces a
token stays. The same prototype is blamed in both texts, in lines of different numbers. -/
theorem parse_of_substance_eq_two_layouts :
    let text := String.ofList (["static void*a_icall_funcs[]=\x7b", "// token 3", "f", "\x7d;",
      "int f(int,float);"].flatMap (·.toList ++ ['\n']))
    let text' := String.ofList (["# 1", " static void*a_icall_funcs[]=\x7b", "", "\t// token 3",
      " ", "f", "\x7d; ", "// token 4", "#define ICALL_TABLE_", "int f(int,float);"].flatMap
        (·.toList ++ ['\r', '\n']))
    substance text = substance text' ∧ unnumbered (parse text) = unnumbered (parse text') ∧
      parse text = .error (.unknownType 5 "float") ∧
      parse text' = .error (.unknownType 10 "float") := by
  intro text text'
  have facts : substance text = substance text' ∧ parse text = .error (.unknownType 5 "float") ∧
      parse text' = .error (.unknownType 10 "float") := by
    simp only [parse, substance, text, text', String.toList_ofList]
    decide +kernel
  obtain ⟨same, failed, failed'⟩ := facts
  exact ⟨same, parse_of_substance_eq same, failed, failed'⟩

end Header

end InternalCall
