import InternalCall.Table.Order
import Mathlib.Data.List.Chain

/-!
# Ascending tokens

The check of the order passes exactly when the tokens ascend strictly. A token
is compared with its predecessor only; that every token then exceeds all before
it is transitivity. If the check fails, what it finds is the first position at
which the tokens stop ascending.
-/

namespace InternalCall

/-- The tokens ascend strictly. -/
def Ascending (tokens : List UInt32) : Prop := tokens.Pairwise (· < ·)

theorem notExceeded?_none (token : UInt32) : notExceeded? none token = none := rfl

/-- A previous token is no obstacle exactly when the token exceeds it. -/
theorem notExceeded?_some_eq_none_iff {previous token : UInt32} :
    notExceeded? (some previous) token = none ↔ previous < token := by
  simp only [notExceeded?, Option.filter_some, ite_eq_right_iff, reduceCtorEq, imp_false,
    decide_eq_true_eq, UInt32.not_le]

/-- A previous token is an obstacle exactly when the token fails to exceed it. -/
theorem notExceeded?_eq_some_iff {previous? : Option UInt32} {previous token : UInt32} :
    notExceeded? previous? token = some previous ↔ previous? = some previous ∧ token ≤ previous := by
  simp only [notExceeded?, Option.filter_eq_some_iff, decide_eq_true_eq]

/-- The tokens after a previous one form a chain when the first exceeds it and the rest goes on. -/
theorem isChain_from_iff {previous? : Option UInt32} {token : UInt32} {rest : List UInt32} :
    (previous?.toList ++ token :: rest).IsChain (· < ·) ↔
      notExceeded? previous? token = none ∧ (token :: rest).IsChain (· < ·) := by
  cases previous? with
  | none => simp [notExceeded?_none]
  | some previous =>
      rw [notExceeded?_some_eq_none_iff]
      exact List.isChain_cons_cons

/-- There is no disorder exactly when each token exceeds its predecessor. -/
theorem firstDisorderFrom?_eq_none_iff {tokens : List UInt32} {index : Nat}
    {previous? : Option UInt32} :
    firstDisorderFrom? index previous? tokens = none ↔
      (previous?.toList ++ tokens).IsChain (· < ·) := by
  induction tokens generalizing index previous? with
  | nil => cases previous? <;> simp [firstDisorderFrom?]
  | cons token rest ih =>
      rw [isChain_from_iff]
      cases h : notExceeded? previous? token with
      | none =>
          simp only [firstDisorderFrom?, h, true_and]
          exact ih
      | some q => simp only [firstDisorderFrom?, h, reduceCtorEq, false_and]

private instance ltTrans : Trans (α := UInt32) (· < ·) (· < ·) (· < ·) := ⟨UInt32.lt_trans⟩

/-- Each token exceeds its predecessor exactly when each exceeds all that precede it. -/
theorem ascending_iff_isChain {tokens : List UInt32} :
    Ascending tokens ↔ tokens.IsChain (· < ·) :=
  List.isChain_iff_pairwise.symm

/-- There is no disorder exactly when the tokens ascend strictly. -/
theorem firstDisorder?_eq_none_iff {tokens : List UInt32} :
    firstDisorder? tokens = none ↔ Ascending tokens := by
  rw [ascending_iff_isChain]
  exact firstDisorderFrom?_eq_none_iff

/-- Of ascending tokens no two positions hold the same. -/
theorem Ascending.nodup {tokens : List UInt32} (h : Ascending tokens) : tokens.Nodup :=
  List.Pairwise.imp (fun hlt => UInt32.ne_of_lt hlt) h

/-- Of elements with ascending tokens no two positions have the same token. -/
theorem Ascending.position_eq {α : Type} {key : α → UInt32} {xs : List α}
    (h : Ascending (xs.map key)) {i j : Nat} {x y : α} (hx : xs[i]? = some x)
    (hy : xs[j]? = some y) (hkey : key x = key y) : i = j := by
  have hi : (xs.map key)[i]? = some (key x) := by rw [List.getElem?_map, hx, Option.map_some]
  have hj : (xs.map key)[j]? = some (key x) := by rw [List.getElem?_map, hy, Option.map_some, hkey]
  have hlt : i < (xs.map key).length := (List.getElem?_eq_some_iff.mp hi).1
  exact (List.getElem?_inj hlt h.nodup).mp (hi.trans hj.symm)

/-- The token before the position. -/
def tokenBefore? (tokens : List UInt32) : Nat → Option UInt32
  | 0 => none
  | i + 1 => tokens[i]?

theorem tokenBefore?_append {before after : List UInt32} {i : Nat} (h : i ≤ before.length) :
    tokenBefore? (before ++ after) i = tokenBefore? before i := by
  cases i with
  | zero => rfl
  | succ i => exact List.getElem?_append_left h

theorem tokenBefore?_length (tokens : List UInt32) :
    tokenBefore? tokens tokens.length = tokens.getLast? := by
  rw [List.getLast?_eq_getElem?]
  cases tokens with
  | nil => rfl
  | cons token rest => rfl

/-- The tokens stop ascending at the position. -/
structure Disorder.In (tokens : List UInt32) (d : Disorder) : Prop where
  /-- The later token stands at the position. -/
  token_eq : tokens[d.index]? = some d.token
  /-- The other token stands before it. -/
  previous_eq : tokenBefore? tokens d.index = some d.previous
  /-- The later token fails to exceed the other. -/
  notAbove : d.token ≤ d.previous

/-- Ascending tokens do not stop ascending. -/
theorem Ascending.not_in {tokens : List UInt32} (h : Ascending tokens) (d : Disorder) :
    ¬ d.In tokens := by
  obtain ⟨_ | i, previous, token⟩ := d
  · intro hin
    cases hin.previous_eq
  · intro hin
    have hprevious : tokens[i]? = some previous := hin.previous_eq
    obtain ⟨hlt, htoken⟩ : ∃ h : i + 1 < tokens.length, tokens[i + 1] = token :=
      List.getElem?_eq_some_iff.mp hin.token_eq
    have above := (ascending_iff_isChain.mp h).getElem i hlt
    rw [(List.getElem?_eq_some_iff.mp hprevious).2, htoken] at above
    exact UInt32.not_lt.mpr hin.notAbove above

/-- At one position tokens stop ascending in one way. -/
theorem Disorder.In.unique {tokens : List UInt32} {d d' : Disorder} (h : d.In tokens)
    (h' : d'.In tokens) (same : d.index = d'.index) : d = d' := by
  obtain ⟨index, previous, token⟩ := d
  obtain ⟨index', previous', token'⟩ := d'
  cases same
  have htoken : token = token' := Option.some.inj (h.token_eq.symm.trans h'.token_eq)
  have hprevious : previous = previous' := Option.some.inj (h.previous_eq.symm.trans h'.previous_eq)
  rw [htoken, hprevious]

/-- A disorder in the rest of a list of tokens stands one position later in the list. -/
theorem Disorder.in_cons_iff {first : UInt32} {tokens : List UInt32} {i : Nat}
    {previous token : UInt32} :
    Disorder.In (first :: tokens) ⟨i + 2, previous, token⟩ ↔
      Disorder.In tokens ⟨i + 1, previous, token⟩ :=
  ⟨fun h => ⟨h.token_eq, h.previous_eq, h.notAbove⟩, fun h => ⟨h.token_eq, h.previous_eq, h.notAbove⟩⟩

/-- The disorder found after a token stands first among those of the token and the tokens after
it. -/
theorem firstDisorderFrom?_eq_some {tokens : List UInt32} {index : Nat} {previous : UInt32}
    {d : Disorder} (found : firstDisorderFrom? index (some previous) tokens = some d) :
    ∃ i, d.index = index + i ∧ Disorder.In (previous :: tokens) ⟨i + 1, d.previous, d.token⟩ ∧
      ∀ d' : Disorder, d'.In (previous :: tokens) → i + 1 ≤ d'.index := by
  induction tokens generalizing index previous with
  | nil => cases found
  | cons token rest ih =>
      rw [firstDisorderFrom?] at found
      split at found
      next q hq =>
        cases found
        -- the token that was handed over has none before it, so no disorder stands there
        obtain ⟨hprevious, notAbove⟩ := notExceeded?_eq_some_iff.mp hq
        refine ⟨0, rfl, ⟨rfl, hprevious, notAbove⟩, fun d' h => ?_⟩
        obtain ⟨_ | i, _, _⟩ := d'
        · cases h.previous_eq
        · exact Nat.le_add_left 1 i
      next hnone =>
        obtain ⟨i, hindex, hin, first⟩ := ih found
        refine ⟨i + 1, by omega, Disorder.in_cons_iff.mpr hin, fun d' h => ?_⟩
        obtain ⟨_ | _ | j, p, q⟩ := d'
        · cases h.previous_eq
        · have htoken : token = q := Option.some.inj h.token_eq
          have hprevious : previous = p := Option.some.inj h.previous_eq
          have above := notExceeded?_some_eq_none_iff.mp hnone
          rw [htoken, hprevious] at above
          exact absurd above (UInt32.not_lt.mpr h.notAbove)
        · exact Nat.succ_le_succ (first ⟨j + 1, p, q⟩ (Disorder.in_cons_iff.mp h))

/-- The disorder that is found stands first among all of the tokens. -/
theorem firstDisorder?_eq_some_iff {tokens : List UInt32} {d : Disorder} :
    firstDisorder? tokens = some d ↔
      d.In tokens ∧ ∀ d' : Disorder, d'.In tokens → d.index ≤ d'.index := by
  have found : ∀ {d}, firstDisorder? tokens = some d →
      d.In tokens ∧ ∀ d' : Disorder, d'.In tokens → d.index ≤ d'.index := by
    intro d h
    cases tokens with
    | nil => cases h
    | cons token rest =>
        obtain ⟨i, hindex, hin, first⟩ := firstDisorderFrom?_eq_some h
        obtain ⟨index, previous, later⟩ := d
        rw [Nat.zero_add, Nat.add_comm] at hindex
        cases hindex
        exact ⟨hin, first⟩
  refine ⟨found, fun ⟨hin, first⟩ => ?_⟩
  cases h : firstDisorder? tokens with
  | none => exact absurd hin ((firstDisorder?_eq_none_iff.mp h).not_in d)
  | some e =>
      obtain ⟨hin', first'⟩ := found h
      have same : e.index = d.index := Nat.le_antisymm (first' d hin) (first e hin')
      rw [hin'.unique hin same]

end InternalCall
