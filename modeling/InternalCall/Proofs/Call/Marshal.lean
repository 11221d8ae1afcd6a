import InternalCall.Call.Slots
import InternalCall.Proofs.Except
import InternalCall.Proofs.Run.Steps

/-!
# Marshaling without slots

As long as there are no more arguments than slots, copying the arguments into
slots and reading them back is reading the arguments one after the other. No
write and no read leaves the block, so marshaling never panics.
-/

namespace InternalCall

variable {σ α β : Type}

/-- What `read` makes of each item, the first of which stands at `index`, or its first error. -/
def readEach (read : Nat → β → Except CallError α) (index : Nat) :
    List β → Except CallError (List α)
  | [] => return []
  | item :: rest => do
    let a ← read index item
    let as ← readEach read (index + 1) rest
    return a :: as

/-- Reading goes on after an item that could be read. -/
theorem readEach_cons (read : Nat → β → Except CallError α) (index : Nat) (item : β)
    (rest : List β) :
    readEach read index (item :: rest) =
      (read index item).bind fun a => (readEach read (index + 1) rest).map (a :: ·) := by
  rw [readEach]
  cases read index item <;> rfl

/-- Filling the slots fails with the error of the first item that cannot be read. -/
theorem Slots.fill_of_error {read : Nat → β → Except CallError α} {items : List β} {index : Nat}
    {slots : Slots α} {e : CallError} (fits : index + items.length ≤ maxArity)
    (h : readEach read index items = .error e) :
    (Slots.fill read index slots items : Exec σ _) = pure (.error e) := by
  induction items generalizing index slots with
  | nil => cases h
  | cons item rest ih =>
      rw [List.length_cons] at fits
      have inside : index < maxArity := by omega
      cases hr : read index item with
      | error e' =>
          simp only [readEach, hr, bind, Except.bind, Except.error.injEq] at h
          simp only [Slots.fill, hr, h]
      | ok a =>
          cases hrest : readEach read (index + 1) rest with
          | ok as => simp [readEach, hr, hrest, bind, Except.bind, pure, Except.pure] at h
          | error e' =>
              simp only [readEach, hr, hrest, bind, Except.bind, Except.error.injEq] at h
              simp only [Slots.fill, hr, Slots.write, inside, dite_true, pure_bind]
              exact ih (by omega) (h ▸ hrest)

/-- Filled slots hold what was read, after what they held before. -/
theorem Slots.fill_of_ok {read : Nat → β → Except CallError α} {items : List β} {index : Nat}
    {slots : Slots α} {as : List α} (fits : index + items.length ≤ maxArity)
    (h : readEach read index items = .ok as) :
    ∃ filled : Slots α, (Slots.fill read index slots items : Exec σ _) = pure (.ok filled) ∧
      filled.toList.take (index + items.length) = slots.toList.take index ++ as := by
  induction items generalizing index slots as with
  | nil =>
      cases h
      exact ⟨slots, rfl, by simp⟩
  | cons item rest ih =>
      rw [List.length_cons] at fits
      have inside : index < maxArity := by omega
      simp only [readEach, bind_eq_ok_iff, pure_eq_ok_iff] at h
      obtain ⟨a, ha, as', has, rfl⟩ := h
      obtain ⟨filled, hfill, htake⟩ := @ih (index + 1) (slots.set index a inside) as' (by omega) has
      refine ⟨filled, ?_, ?_⟩
      · simp only [Slots.fill, ha, Slots.write, inside, dite_true, pure_bind]
        exact hfill
      · have hlen : index + (item :: rest).length = index + 1 + rest.length := by
          rw [List.length_cons]
          omega
        have hset : (slots.set index a inside).toList.take (index + 1) =
            slots.toList.take index ++ [a] := by
          rw [Vector.toList_set, List.take_add_one, List.take_set_of_le (Nat.le_refl _)]
          simp [inside]
        rw [hlen, htake, hset, List.append_assoc, List.singleton_append]

/-- Fresh slots are filled as the items are read, and hand out what was read. -/
theorem Slots.fill_fresh (σ : Type) [Inhabited α] (read : Nat → β → Except CallError α)
    {items : List β} (fits : items.length ≤ maxArity) :
    (∃ e, readEach read 0 items = .error e ∧
      (Slots.fill read 0 Slots.empty items : Exec σ _) = pure (.error e)) ∨
    (∃ as, ∃ filled : Slots α, readEach read 0 items = .ok as ∧
      (Slots.fill read 0 Slots.empty items : Exec σ _) = pure (.ok filled) ∧
      (filled.first items.length : Exec σ _) = pure as) := by
  have fits' : 0 + items.length ≤ maxArity := by omega
  cases h : readEach read 0 items with
  | error e => exact Or.inl ⟨e, rfl, Slots.fill_of_error fits' h⟩
  | ok as =>
      obtain ⟨filled, hfill, htake⟩ := Slots.fill_of_ok fits' h
      rw [Nat.zero_add, List.take_zero, List.nil_append] at htake
      exact Or.inr ⟨as, filled, rfl, hfill, by rw [Slots.first, if_pos fits, htake]⟩

/-- Native integers are marshaled by reading each argument as one. -/
theorem marshalInts_eq {token : UInt32} {args : List Value} (fits : args.length ≤ maxArity) :
    (marshalInts token args : Exec σ _) = pure (readEach (readInt token) 0 args) := by
  unfold marshalInts
  rcases Slots.fill_fresh σ (readInt token) fits with ⟨e, he, hfill⟩ | ⟨as, filled, has, hfill, hfirst⟩
  · rw [he, hfill, pure_bind]
  · rw [has, hfill, pure_bind]
    simp only [hfirst, pure_bind]

/-- Scalars are marshaled by reading each argument as a scalar of its declared kind. -/
theorem marshalScalars_eq {token : UInt32} {params : List ScalarKind} {args : List Value}
    (same : args.length = params.length) (fits : args.length ≤ maxArity) :
    (marshalScalars token params args : Exec σ _) =
      pure (readEach (readScalar token) 0 (args.zip params)) := by
  have hlen : (args.zip params).length = args.length := by
    rw [List.length_zip]
    omega
  unfold marshalScalars
  rcases Slots.fill_fresh σ (readScalar token) (hlen ▸ fits) with
    ⟨e, he, hfill⟩ | ⟨as, filled, has, hfill, hfirst⟩
  · rw [he, hfill, pure_bind]
  · rw [hlen] at hfirst
    rw [has, hfill, pure_bind]
    simp only [hfirst, pure_bind]

end InternalCall
