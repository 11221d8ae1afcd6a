import InternalCall.Text.Split

/-!
# Pieces between separators

Cutting a text at its separators undoes writing the separator between pieces that
do not hold it. So the pieces of a text are the one way to write it like that.
-/

namespace InternalCall.Text

variable {separator : Char} {text : List Char} {pieces : List (List Char)}

theorem consPiece_separator : consPiece separator separator pieces = [] :: pieces :=
  if_pos rfl

theorem consPiece_of_ne {c : Char} {piece : List Char} (h : c ≠ separator) :
    consPiece separator c (piece :: pieces) = (c :: piece) :: pieces :=
  if_neg h

theorem splitAt_ne_nil : splitAt separator text ≠ [] := by
  cases text with
  | nil => exact List.cons_ne_nil [] []
  | cons c text =>
      rw [splitAt_cons]
      unfold consPiece
      split
      · exact List.cons_ne_nil [] _
      · split <;> exact List.cons_ne_nil _ _

/-- The text is cut as the library cuts lists. -/
theorem splitAt_eq_splitOn : splitAt separator text = text.splitOn separator := by
  induction text with
  | nil => rw [splitAt_nil, List.splitOn_eq_singleton (by simp)]
  | cons c text ih =>
      obtain ⟨piece, rest, h⟩ := List.exists_cons_of_ne_nil (@splitAt_ne_nil separator text)
      rw [splitAt_cons, List.splitOn_cons_eq_if_modifyHead, ← ih, h]
      by_cases hc : c = separator
      · rw [hc, consPiece_separator, if_pos (BEq.refl separator)]
      · rw [consPiece_of_ne hc, if_neg (by simpa using hc), List.modifyHead_cons]

theorem not_mem_of_mem_splitAt {piece : List Char} (h : piece ∈ splitAt separator text) :
    separator ∉ piece := by
  induction text generalizing piece with
  | nil =>
      rw [splitAt_nil, List.mem_singleton] at h
      simp [h]
  | cons c text ih =>
      obtain ⟨first, rest, hs⟩ := List.exists_cons_of_ne_nil (@splitAt_ne_nil separator text)
      rw [splitAt_cons, hs] at h
      rw [hs] at ih
      by_cases hc : c = separator
      · rw [hc, consPiece_separator] at h
        rcases List.mem_cons.mp h with rfl | h
        · exact List.not_mem_nil
        · exact ih h
      · rw [consPiece_of_ne hc] at h
        rcases List.mem_cons.mp h with rfl | h
        · have hf := ih List.mem_cons_self
          simp [hf, Ne.symm hc]
        · exact ih (List.mem_cons_of_mem first h)

/-- The pieces of a text are the ones without the separator that the separator joins to it. -/
theorem splitAt_eq_iff : splitAt separator text = pieces ↔
    pieces ≠ [] ∧ (∀ piece ∈ pieces, separator ∉ piece) ∧ [separator].intercalate pieces = text := by
  constructor
  · rintro rfl
    refine ⟨splitAt_ne_nil, fun piece hp => not_mem_of_mem_splitAt hp, ?_⟩
    rw [splitAt_eq_splitOn, List.intercalate_splitOn]
  · rintro ⟨hne, hmem, rfl⟩
    rw [splitAt_eq_splitOn, List.splitOn_intercalate separator hmem hne]

/-- A line feed ends the lines before it, and new ones begin. -/
theorem lines_append_line (front rest : List Char) :
    lines (front ++ '\n' :: rest) = lines front ++ lines rest := by
  simp only [lines, splitAt_eq_splitOn, List.splitOn]
  exact List.splitOnP_append_cons front rest (beq_self_eq_true '\n')

/-- Lines that are each ended by a line feed are read back, followed by an empty one. -/
theorem lines_flatMap_ended (h : ∀ line ∈ pieces, '\n' ∉ line) :
    lines (pieces.flatMap (· ++ ['\n'])) = pieces ++ [[]] := by
  induction pieces with
  | nil => rfl
  | cons line rest ih =>
      obtain ⟨hl, hr⟩ := List.forall_mem_cons.mp h
      rw [lines, splitAt_eq_splitOn, List.flatMap_cons, List.append_assoc, List.singleton_append,
        List.splitOn_append_cons_self_of_not_mem hl, ← splitAt_eq_splitOn, List.cons_append]
      exact congrArg (line :: ·) (ih hr)

end InternalCall.Text
