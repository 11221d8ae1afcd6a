import Mathlib.Data.List.Forall2

/-!
# Computations that may fail

A sequence of steps succeeds exactly when each step succeeds on what the steps
before it yield. A step taken for each element of a list succeeds exactly when it
succeeds at each position, and fails as it does at the first at which it fails.
What holds of two lists position by position carries over to their elements and
to what they are mapped to.
-/

namespace InternalCall

variable {ε α β : Type}

/-- Two steps succeed exactly when the first succeeds and the second does on its result. -/
theorem bind_eq_ok_iff {x : Except ε α} {f : α → Except ε β} {b : β} :
    (x >>= f) = .ok b ↔ ∃ a, x = .ok a ∧ f a = .ok b := by
  cases x with
  | error e => simp [bind, Except.bind]
  | ok a => simp [bind, Except.bind]

/-- Two steps fail exactly when the first fails, or the second does on its result. -/
theorem bind_eq_error_iff {x : Except ε α} {f : α → Except ε β} {err : ε} :
    (x >>= f) = .error err ↔ x = .error err ∨ ∃ a, x = .ok a ∧ f a = .error err := by
  cases x with
  | error e => simp [bind, Except.bind]
  | ok a => simp [bind, Except.bind]

theorem pure_eq_ok_iff {a b : α} : (pure a : Except ε α) = .ok b ↔ a = b :=
  Except.ok.injEq a b ▸ Iff.rfl

theorem map_eq_ok_iff {x : Except ε α} {f : α → β} {b : β} :
    x.map f = .ok b ↔ ∃ a, x = .ok a ∧ f a = b := by
  cases x with
  | error e => simp [Except.map]
  | ok a => simp [Except.map]

theorem map_eq_error_iff {x : Except ε α} {f : α → β} {err : ε} :
    x.map f = .error err ↔ x = .error err := by
  cases x with
  | error e => simp [Except.map]
  | ok a => simp [Except.map]

/-- Two computations agree up to a change of results and of errors exactly when both succeed, or both
fail, with the result or the error changed. -/
theorem map_eq_mapError_iff {δ : Type} {x : Except δ α} {y : Except ε β} {f : α → β} {g : ε → δ} :
    x.map f = y.mapError g ↔
      (∃ a, x = .ok a ∧ y = .ok (f a)) ∨ ∃ e, x = .error (g e) ∧ y = .error e := by
  cases x <;> cases y <;> simp [Except.map, Except.mapError, eq_comm]

/-- A computation succeeds exactly when it fails with no error. -/
theorem exists_eq_ok_iff {x : Except ε α} : (∃ a, x = .ok a) ↔ ∀ err, x ≠ .error err := by
  cases x with
  | error e => simp
  | ok a => simp

theorem isOk_iff {x : Except ε α} : x.isOk = true ↔ ∃ a, x = .ok a := by
  cases x <;> simp [Except.isOk, Except.toBool]

/-- Of two lists that are related position by position, each element of the first is related to one
of the second. -/
theorem exists_of_mem_of_forall₂ {R : α → β → Prop} {xs : List α} {ys : List β}
    (related : List.Forall₂ R xs ys) {x : α} (hx : x ∈ xs) : ∃ y ∈ ys, R x y := by
  obtain ⟨i, hi, rfl⟩ := List.mem_iff_getElem.mp hx
  have hi' : i < ys.length := related.length_eq ▸ hi
  exact ⟨ys[i], List.getElem_mem hi', related.get hi hi'⟩

/-- Lists that are related position by position are mapped to one list if related elements are
mapped to one. -/
theorem map_eq_map_of_forall₂ {γ : Type} {R : α → β → Prop} {f : α → γ} {g : β → γ} {xs : List α}
    {ys : List β} (related : List.Forall₂ R xs ys) (same : ∀ x y, R x y → f x = g y) :
    xs.map f = ys.map g := by
  rw [← List.forall₂_eq_eq_eq, List.forall₂_map_left_iff, List.forall₂_map_right_iff]
  exact related.imp same

/-- A step for each element succeeds exactly when it succeeds position by position. -/
theorem mapM_eq_ok_iff {f : α → Except ε β} {xs : List α} {ys : List β} :
    xs.mapM f = .ok ys ↔ List.Forall₂ (fun x y => f x = .ok y) xs ys := by
  induction xs generalizing ys with
  | nil =>
      rw [List.mapM_nil, pure_eq_ok_iff, List.forall₂_nil_left_iff, eq_comm]
  | cons x rest ih =>
      simp only [List.mapM_cons, bind_eq_ok_iff, pure_eq_ok_iff, ih, List.forall₂_cons_left_iff]
      constructor
      · rintro ⟨y, hy, ys', hys, rfl⟩
        exact ⟨y, ys', hy, hys, rfl⟩
      · rintro ⟨y, ys', hy, hys, rfl⟩
        exact ⟨y, hy, ys', hys, rfl⟩

/-- A step for each element fails with the error of the first element at which it fails. -/
theorem mapM_eq_error_iff {f : α → Except ε β} {xs : List α} {err : ε} :
    xs.mapM f = .error err ↔ ∃ before x after, xs = before ++ x :: after ∧
      (∀ y ∈ before, ∃ b, f y = .ok b) ∧ f x = .error err := by
  induction xs with
  | nil => simp [pure, Except.pure]
  | cons x rest ih =>
      simp only [List.mapM_cons, bind_eq_error_iff, ih]
      constructor
      · rintro (hx | ⟨b, hx, ⟨before, y, after, rfl, hbefore, hy⟩ | ⟨bs, -, h⟩⟩)
        · exact ⟨[], x, rest, rfl, by simp, hx⟩
        · exact ⟨x :: before, y, after, rfl, List.forall_mem_cons.mpr ⟨⟨b, hx⟩, hbefore⟩, hy⟩
        · cases h
      · rintro ⟨before, y, after, happ, hbefore, hy⟩
        cases before with
        | nil =>
            cases happ
            exact Or.inl hy
        | cons z before =>
            cases happ
            obtain ⟨⟨b, hx⟩, hbefore⟩ := List.forall_mem_cons.mp hbefore
            exact Or.inr ⟨b, hx, Or.inl ⟨before, y, after, rfl, hbefore, hy⟩⟩

/-- Steps that agree on each element of a list agree on the list. -/
theorem mapM_congr {f g : α → Except ε β} {xs : List α} (agree : ∀ x ∈ xs, f x = g x) :
    xs.mapM f = xs.mapM g := by
  induction xs with
  | nil => rfl
  | cons x rest ih =>
      obtain ⟨hx, hrest⟩ := List.forall_mem_cons.mp agree
      rw [List.mapM_cons, List.mapM_cons, hx, ih hrest]

end InternalCall
