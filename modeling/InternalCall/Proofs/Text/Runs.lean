import InternalCall.Text.Blank
import InternalCall.Text.Word

/-!
# Runs of characters

A reader takes the longest run of blanks or of word characters, so what it takes
is determined by where the run stops. No character is both a blank and a word
character, hence a run of the one kind always stops at a run of the other.
-/

namespace InternalCall.Text

/-- The text does not start with a character of the kind. -/
def Stops (p : Char → Bool) (text : List Char) : Prop := ∀ c ∈ text.head?, p c = false

/-- A possibly empty text of blanks. -/
def Blanks (text : List Char) : Prop := ∀ c ∈ text, isBlank c = true

/-- One blank or more. -/
def SomeBlanks (text : List Char) : Prop := text ≠ [] ∧ Blanks text

/-- A name: one word character or more. -/
def Word (text : List Char) : Prop := text ≠ [] ∧ ∀ c ∈ text, isWord c = true

-- The bounded instances are named, since a universal statement over all characters can be decided
-- as well, at great length.
instance (p : Char → Bool) (text : List Char) : Decidable (Stops p text) :=
  Option.decidableForallMem text.head?

instance (text : List Char) : Decidable (Blanks text) :=
  List.decidableBAll (fun c => isBlank c = true) text

instance (text : List Char) : Decidable (SomeBlanks text) := instDecidableAnd

instance (text : List Char) : Decidable (Word text) :=
  @instDecidableAnd _ _ _ (List.decidableBAll (fun c => isWord c = true) text)

section Run

variable {p : Char → Bool} {run rest : List Char}

theorem stops_nil : Stops p [] := fun c hc => by cases hc

theorem stops_cons {c : Char} : Stops p (c :: rest) ↔ p c = false := by
  simp [Stops]

theorem stops_append (h : run ≠ []) : Stops p (run ++ rest) ↔ Stops p run := by
  cases run with
  | nil => exact absurd rfl h
  | cons c run => simp only [List.cons_append, stops_cons]

theorem Stops.append (h : Stops p run) (hne : run ≠ []) : Stops p (run ++ rest) :=
  (stops_append hne).mpr h

theorem Stops.of_append (h : Stops p (run ++ rest)) : Stops p run := by
  by_cases hne : run = []
  · rw [hne]
    exact stops_nil
  · exact (stops_append hne).mp h

/-- What is left after the longest run does not go on with it. -/
theorem stops_dropWhile (text : List Char) : Stops p (text.dropWhile p) := by
  induction text with
  | nil => exact stops_nil
  | cons c text ih =>
      cases hc : p c with
      | true => rwa [List.dropWhile_cons_of_pos hc]
      | false =>
          rw [List.dropWhile_cons_of_neg (by simp [hc]), stops_cons]
          exact hc

theorem takeWhile_append (h : ∀ c ∈ run, p c = true) (hr : Stops p rest) :
    (run ++ rest).takeWhile p = run := by
  have he : rest.takeWhile p = [] := by
    cases rest with
    | nil => rfl
    | cons c rest => exact List.takeWhile_cons_of_neg (by simp [stops_cons.mp hr])
  rw [List.takeWhile_append_of_pos h, he, List.append_nil]

theorem dropWhile_append (h : ∀ c ∈ run, p c = true) (hr : Stops p rest) :
    (run ++ rest).dropWhile p = rest := by
  rw [List.dropWhile_append_of_pos h]
  cases rest with
  | nil => rfl
  | cons c rest => exact List.dropWhile_cons_of_neg (by simp [stops_cons.mp hr])

end Run

private theorem ascii_disjoint : ∀ n < 128,
    isWord (Char.ofNat n) = true → isBlank (Char.ofNat n) = false := by
  decide +kernel

private theorem ranges_disjoint : ∀ w ∈ wordRanges, ∀ b ∈ blankRanges, w.2 < b.1 ∨ b.2 < w.1 := by
  decide +kernel

/-- No word character is a blank. -/
theorem isBlank_eq_false_of_isWord {c : Char} (h : isWord c = true) : isBlank c = false := by
  by_cases hc : c.toNat < 0x80
  · have := ascii_disjoint c.toNat hc
    rw [Char.ofNat_toNat] at this
    exact this h
  · rw [isWord, if_neg hc] at h
    obtain ⟨w, hw, hlo, hhi⟩ := inRanges_iff.mp h
    rw [Bool.eq_false_iff]
    intro hb
    obtain ⟨b, hb, hblo, hbhi⟩ := inRanges_iff.mp hb
    have := ranges_disjoint w hw b hb
    omega

theorem isWord_eq_false_of_isBlank {c : Char} (h : isBlank c = true) : isWord c = false := by
  cases hw : isWord c with
  | false => rfl
  | true => rw [isBlank_eq_false_of_isWord hw] at h; cases h

section Blank

variable {b rest text : List Char}

theorem SomeBlanks.stops_isWord (h : SomeBlanks b) : Stops isWord (b ++ rest) := by
  rw [stops_append h.1]
  intro c hc
  exact isWord_eq_false_of_isBlank (h.2 c (List.mem_of_mem_head? hc))

theorem Blanks.stops_isWord (h : Blanks b) (hr : Stops isWord rest) : Stops isWord (b ++ rest) := by
  cases b with
  | nil => exact hr
  | cons c b => exact SomeBlanks.stops_isWord ⟨List.cons_ne_nil c b, h⟩

theorem skipBlanks_append (h : Blanks b) (hr : Stops isBlank rest) :
    skipBlanks (b ++ rest) = rest :=
  dropWhile_append h hr

theorem skipBlanks_of_stops (h : Stops isBlank text) : skipBlanks text = text :=
  skipBlanks_append (b := []) (fun _ hc => nomatch hc) h

/-- Skipping blanks leaves exactly what follows a run of blanks that ends there. -/
theorem skipBlanks_eq_iff :
    skipBlanks text = rest ↔ ∃ b, Blanks b ∧ Stops isBlank rest ∧ text = b ++ rest := by
  constructor
  · rintro rfl
    refine ⟨text.takeWhile isBlank, ?_, stops_dropWhile text, ?_⟩
    · intro c hc
      exact List.all_eq_true.mp List.all_takeWhile c hc
    · exact List.takeWhile_append_dropWhile.symm
  · rintro ⟨b, hb, hr, rfl⟩
    exact skipBlanks_append hb hr

theorem skipSomeBlanks?_append (h : SomeBlanks b) (hr : Stops isBlank rest) :
    skipSomeBlanks? (b ++ rest) = some rest := by
  cases b with
  | nil => exact absurd rfl h.1
  | cons c b =>
      obtain ⟨hc, hb⟩ := List.forall_mem_cons.mp h.2
      rw [List.cons_append, skipSomeBlanks?, if_pos hc, skipBlanks_append hb hr]

/-- Skipping at least one blank leaves what follows a non-empty run of blanks. -/
theorem skipSomeBlanks?_eq_some_iff : skipSomeBlanks? text = some rest ↔
    ∃ b, SomeBlanks b ∧ Stops isBlank rest ∧ text = b ++ rest := by
  constructor
  · intro h
    cases text with
    | nil => cases h
    | cons c text =>
        rw [skipSomeBlanks?] at h
        split at h
        · next hc =>
            obtain ⟨b, hb, hr, rfl⟩ := skipBlanks_eq_iff.mp (Option.some.inj h)
            exact ⟨c :: b, ⟨List.cons_ne_nil c b, List.forall_mem_cons.mpr ⟨hc, hb⟩⟩, hr, rfl⟩
        · cases h
  · rintro ⟨b, hb, hr, rfl⟩
    exact skipSomeBlanks?_append hb hr

/-- Trimming changes nothing when no blank stands at an end. -/
theorem trim_of_stops (h : Stops isBlank text) (hr : Stops isBlank text.reverse) :
    trim text = text := by
  rw [trim, skipBlanks_of_stops h, skipBlanks_of_stops hr, List.reverse_reverse]

/-- A trimmed text has no blank at either end. -/
theorem stops_trim (text : List Char) :
    Stops isBlank (trim text) ∧ Stops isBlank (trim text).reverse := by
  constructor
  · have hcut : skipBlanks text = trim text ++
        ((skipBlanks text).reverse.takeWhile isBlank).reverse := by
      have h := (skipBlanks text).reverse.takeWhile_append_dropWhile (p := isBlank)
      rw [trim, ← List.reverse_append, ← List.reverse_eq_iff]
      exact h.symm
    have hstart : Stops isBlank (skipBlanks text) := stops_dropWhile text
    rw [hcut] at hstart
    exact hstart.of_append
  · rw [trim, List.reverse_reverse]
    exact stops_dropWhile _

theorem trim_trim (text : List Char) : trim (trim text) = trim text :=
  trim_of_stops (stops_trim text).1 (stops_trim text).2

theorem mem_of_mem_trim {c : Char} (h : c ∈ trim text) : c ∈ text := by
  have hlast := (List.dropWhile_sublist isBlank).mem (List.mem_reverse.mp h)
  exact (List.dropWhile_sublist isBlank).mem (List.mem_reverse.mp hlast)

end Blank

section Word

variable {w rest : List Char}

theorem Word.stops (h : Word w) : Stops isBlank w := by
  intro c hc
  exact isBlank_eq_false_of_isWord (h.2 c (List.mem_of_mem_head? hc))

theorem Word.stops_isBlank (h : Word w) : Stops isBlank (w ++ rest) :=
  h.stops.append h.1

theorem Word.not_mem {c : Char} (h : Word w) (hc : isWord c = false) : c ∉ w := by
  intro hm
  rw [h.2 c hm] at hc
  cases hc

theorem Word.append {v : List Char} (hv : Word v) (hw : Word w) : Word (v ++ w) := by
  refine ⟨List.append_ne_nil_of_left_ne_nil hv.1 w, ?_⟩
  intro c hc
  exact (List.mem_append.mp hc).elim (hv.2 c) (hw.2 c)

end Word

end InternalCall.Text
