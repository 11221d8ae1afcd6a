import InternalCall.Proofs.Table.Order
import InternalCall.Table.Search

/-!
# Searching ascending tokens

Halving the range finds what a scan from the front finds, provided the tokens
ascend. A hit is right whatever the order; the order is needed for a miss.
-/

namespace InternalCall

variable {α : Type} {key : α → UInt32} {xs : Array α} {token : UInt32}

/-- Whatever the order, a hit lies in the range and has the token. -/
theorem searchBetween_sound {lo hi : Nat} {bound : hi ≤ xs.size} {x : α}
    (h : searchBetween key xs token lo hi bound = some x) : x ∈ xs ∧ key x = token := by
  fun_induction searchBetween key xs token lo hi bound with
  | case1 lo hi bound hlt middle inside y heq =>
      have he : y = x := Option.some.inj h
      rw [← he]
      exact ⟨Array.getElem_mem inside, heq⟩
  | case2 lo hi bound hlt middle inside y hne hless ih => exact ih h
  | case3 lo hi bound hlt middle inside y hne hless ih => exact ih h
  | case4 => cases h

/-- In ascending order, the tokens at two positions compare as the positions do. -/
theorem Ascending.key_lt {i j : Nat} (h : Ascending (xs.toList.map key)) (hij : i < j)
    (hj : j < xs.size) : key xs[i] < key xs[j] := by
  have hp := List.pairwise_map.mp h
  have := List.pairwise_iff_getElem.mp hp i j (by simpa using Nat.lt_trans hij hj)
    (by simpa using hj) hij
  simpa only [Array.getElem_toList] using this

/-- In ascending order, positions compare as their tokens do. -/
theorem Ascending.index_lt (h : Ascending (xs.toList.map key)) {i j : Nat} (hi : i < xs.size)
    (hj : j < xs.size) (hlt : key xs[i] < key xs[j]) : i < j := by
  rcases Nat.lt_trichotomy i j with hij | he | hji
  · exact hij
  · subst he
    exact absurd hlt (UInt32.lt_irrefl _)
  · exact absurd (UInt32.lt_trans hlt (h.key_lt hji hi)) (UInt32.lt_irrefl _)

/-- In ascending order, two positions with one token are one position. -/
theorem Ascending.index_eq (h : Ascending (xs.toList.map key)) {i j : Nat} (hi : i < xs.size)
    (hj : j < xs.size) (he : key xs[i] = key xs[j]) : i = j := by
  rcases Nat.lt_trichotomy i j with hij | hij | hji
  · exact absurd he (UInt32.ne_of_lt (h.key_lt hij hj))
  · exact hij
  · exact absurd he.symm (UInt32.ne_of_lt (h.key_lt hji hi))

/-- The search finds a token that stands in its range. The range that remains always holds the
position of the token. -/
theorem searchBetween_complete (h : Ascending (xs.toList.map key)) {lo hi : Nat}
    {bound : hi ≤ xs.size} {i : Nat} (hix : i < xs.size) (hkey : key xs[i] = token)
    (hlo : lo ≤ i) (hhi : i < hi) :
    searchBetween key xs token lo hi bound = some xs[i] := by
  fun_induction searchBetween key xs token lo hi bound with
  | case1 lo hi bound hlt middle inside y heq =>
      have hmi : middle = i := h.index_eq inside hix (heq.trans hkey.symm)
      subst hmi
      rfl
  | case2 lo hi bound hlt middle inside y hne hless ih =>
      rw [← hkey] at hless
      exact ih (h.index_lt inside hix hless) hhi
  | case3 lo hi bound hlt middle inside y hne hless ih =>
      have hgreater : key xs[i] < key y := by
        rw [hkey]
        exact UInt32.lt_of_le_of_ne (UInt32.not_lt.mp hless) (Ne.symm hne)
      exact ih hlo (h.index_lt hix inside hgreater)
  | case4 lo hi bound hge => omega

/-- In ascending order, the element that has the token is found. -/
theorem searchByToken_of_mem (h : Ascending (xs.toList.map key)) {x : α} (hx : x ∈ xs) :
    searchByToken key xs (key x) = some x := by
  obtain ⟨i, hi, rfl⟩ := Array.mem_iff_getElem.mp hx
  exact searchBetween_complete h hi rfl (Nat.zero_le i) hi

/-- The search answers with an element exactly when the element has the token. -/
theorem searchByToken_eq_some_iff (h : Ascending (xs.toList.map key)) {x : α} :
    searchByToken key xs token = some x ↔ x ∈ xs ∧ key x = token := by
  constructor
  · exact searchBetween_sound
  · rintro ⟨hx, rfl⟩
    exact searchByToken_of_mem h hx

/-- The search misses exactly when no element has the token. -/
theorem searchByToken_eq_none_iff (h : Ascending (xs.toList.map key)) :
    searchByToken key xs token = none ↔ ∀ x ∈ xs, key x ≠ token := by
  rw [Option.eq_none_iff_forall_not_mem]
  simp only [Option.mem_def, searchByToken_eq_some_iff h, not_and, ne_eq]

/-- Halving the range and scanning from the front find the same element. -/
theorem searchByToken_eq_find? (h : Ascending (xs.toList.map key)) :
    searchByToken key xs token = xs.toList.find? fun x => key x == token := by
  cases hs : xs.toList.find? fun x => key x == token with
  | none =>
      rw [searchByToken_eq_none_iff h]
      intro x hx
      simpa using List.find?_eq_none.mp hs x (by simpa using hx)
  | some x =>
      rw [searchByToken_eq_some_iff h]
      exact ⟨by simpa using List.mem_of_find?_eq_some hs, by simpa using List.find?_some hs⟩

end InternalCall
