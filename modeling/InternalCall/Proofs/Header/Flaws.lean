import InternalCall.Proofs.Header.Assembly

/-!
# Flaws of assemblies

The arrays of an assembly fail to make a table if one of them is missing, if they
differ in length, or if the comment before a symbol announces another token than
stands at its position. An assembly with several of these flaws is reported for the
first of them, and of several assemblies the one that is mentioned first.
-/

namespace InternalCall.Header

section Definitions

variable (parts : List Part) (a : String)

/-- The last token announced for the symbol at the position is not the token at the position. -/
structure Disagrees (position : Nat) (comment token : UInt32) : Prop where
  /-- The one token is announced. -/
  announced : ∃ s, (symbolsOf parts a)[position]? = some s ∧ s.comments.getLast? = some comment
  /-- The other one is given. -/
  given : (tokensOf parts a)[position]? = some token
  /-- They are different. -/
  ne : comment ≠ token

/-- The error says what first keeps the arrays of the assembly from making a table. -/
inductive Flaw : HeaderError → Prop where
  /-- An array is missing, and those that are looked for before it are there. -/
  | missing {array : ArrayKind} (present : ∀ k ∈ array.earlier, (a, k) ∈ arrays parts)
      (absent : (a, array) ∉ arrays parts) : Flaw (.missingArray a array)
  /-- The arrays are there, but not of one length. -/
  | lengths (complete : ∀ array, (a, array) ∈ arrays parts)
      (unbalanced : ¬((tokensOf parts a).length = (symbolsOf parts a).length ∧
        (tokensOf parts a).length = (flagsOf parts a).length)) :
      Flaw (.lengthMismatch a (tokensOf parts a).length (symbolsOf parts a).length
        (flagsOf parts a).length)
  /-- The arrays are there and of one length, and this is the first position at which a comment
  disagrees. -/
  | comment {position : Nat} {comment token : UInt32}
      (complete : ∀ array, (a, array) ∈ arrays parts)
      (balanced : (tokensOf parts a).length = (symbolsOf parts a).length ∧
        (tokensOf parts a).length = (flagsOf parts a).length)
      (disagrees : Disagrees parts a position comment token)
      (least : ∀ earlier < position, ∀ c t, ¬Disagrees parts a earlier c t) :
      Flaw (.tokenCommentMismatch a position comment token)

/-- The error is that of the first assembly, in the order of first mention, that has a flaw. The
assemblies after it may have flaws as well. -/
def FirstFlaw (e : HeaderError) : Prop :=
  ∃ before a after, mentioned parts = before ++ a :: after ∧
    (∀ b ∈ before, ∀ e', ¬Flaw parts b e') ∧ Flaw parts a e

end Definitions

/-! ## The first comment that disagrees -/

/-- The item at the position announces another token than its own. -/
def Differs (items : List (UInt32 × Func × UInt8)) (position : Nat) (comment token : UInt32) :
    Prop :=
  ∃ f flags, items[position]? = some (token, f, flags) ∧ f.comment? = some comment ∧
    comment ≠ token

/-- The item at the position is the first that announces another token than its own. -/
def FirstDiffers (items : List (UInt32 × Func × UInt8)) (position : Nat) (comment token : UInt32) :
    Prop :=
  Differs items position comment token ∧ ∀ earlier < position, ∀ c t, ¬Differs items earlier c t

section Entries

variable {token : UInt32} {f : Func} {flags : UInt8} {rest : List (UInt32 × Func × UInt8)}
  {position : Nat} {comment c t : UInt32}

theorem differs_cons_succ :
    Differs ((token, f, flags) :: rest) (position + 1) c t ↔ Differs rest position c t := by
  rw [Differs, Differs, List.getElem?_cons_succ]

theorem differs_cons_zero : Differs ((token, f, flags) :: rest) 0 c t ↔
    t = token ∧ f.comment? = some c ∧ c ≠ token := by
  constructor
  · rintro ⟨g, b, hg, hc, hne⟩
    cases hg
    exact ⟨rfl, hc, hne⟩
  · rintro ⟨rfl, hc, hne⟩
    exact ⟨f, flags, rfl, hc, hne⟩

/-- An item that announces no other token is passed over. -/
theorem firstDiffers_cons_of_agree
    (agree : ∀ comment, f.comment? = some comment → comment = token) :
    FirstDiffers ((token, f, flags) :: rest) position c t ↔
      ∃ n, position = n + 1 ∧ FirstDiffers rest n c t := by
  have hhead : ∀ c t, ¬Differs ((token, f, flags) :: rest) 0 c t := by
    intro c t h
    obtain ⟨-, hc, hne⟩ := differs_cons_zero.mp h
    exact hne (agree c hc)
  constructor
  · rintro ⟨differs, least⟩
    cases position with
    | zero => exact absurd differs (hhead c t)
    | succ n =>
        refine ⟨n, rfl, differs_cons_succ.mp differs, fun earlier hlt c u h => ?_⟩
        exact least (earlier + 1) (by omega) c u (differs_cons_succ.mpr h)
  · rintro ⟨n, rfl, differs, least⟩
    refine ⟨differs_cons_succ.mpr differs, fun earlier hlt c u h => ?_⟩
    cases earlier with
    | zero => exact hhead c u h
    | succ earlier => exact least earlier (by omega) c u (differs_cons_succ.mp h)

/-- An item that announces another token is the first that does. -/
theorem firstDiffers_cons_of_differ (hf : f.comment? = some comment) (hne : comment ≠ token) :
    FirstDiffers ((token, f, flags) :: rest) position c t ↔
      position = 0 ∧ c = comment ∧ t = token := by
  have hhead : Differs ((token, f, flags) :: rest) 0 comment token :=
    differs_cons_zero.mpr ⟨rfl, hf, hne⟩
  constructor
  · rintro ⟨differs, least⟩
    cases position with
    | zero =>
        obtain ⟨rfl, hc, -⟩ := differs_cons_zero.mp differs
        exact ⟨rfl, Option.some.inj (hc.symm.trans hf), rfl⟩
    | succ n => exact absurd hhead (least 0 n.succ_pos comment token)
  · rintro ⟨rfl, rfl, rfl⟩
    exact ⟨hhead, fun earlier hlt => absurd hlt earlier.not_lt_zero⟩

end Entries

/-- Making entries fails exactly at the first item that announces another token than its own. -/
theorem entriesFrom_eq_error_iff {d : Draft} {prototypes : String → Option Signature} {index : Nat}
    {items : List (UInt32 × Func × UInt8)} {e : HeaderError} :
    d.entriesFrom prototypes index items = .error e ↔
      ∃ position comment token, FirstDiffers items position comment token ∧
        e = .tokenCommentMismatch d.name (index + position) comment token := by
  induction items generalizing index with
  | nil =>
      rw [Draft.entriesFrom]
      simp [FirstDiffers, Differs, pure, Except.pure]
  | cons item rest ih =>
      obtain ⟨token, f, flags⟩ := item
      by_cases agree : ∀ comment, f.comment? = some comment → comment = token
      · rw [entriesFrom_cons_of_agree agree, map_eq_error_iff, ih]
        simp only [firstDiffers_cons_of_agree agree]
        constructor
        · rintro ⟨n, c, t, first, rfl⟩
          exact ⟨n + 1, c, t, ⟨n, rfl, first⟩, by rw [Nat.add_right_comm, Nat.add_assoc]⟩
        · rintro ⟨_, c, t, ⟨n, rfl, first⟩, rfl⟩
          exact ⟨n, c, t, first, by rw [Nat.add_right_comm, Nat.add_assoc]⟩
      · obtain ⟨comment, hf, hne⟩ : ∃ comment, f.comment? = some comment ∧ comment ≠ token := by
          simpa using agree
        rw [entriesFrom_cons_of_differ hf hne]
        simp only [firstDiffers_cons_of_differ hf hne]
        constructor
        · intro h
          cases h
          exact ⟨0, comment, token, ⟨rfl, rfl, rfl⟩, rfl⟩
        · rintro ⟨_, _, _, ⟨rfl, rfl, rfl⟩, rfl⟩
          rfl

variable {parts : List Part} {a : String}

/-- With arrays of one length, the items taken together differ where the comments disagree. -/
theorem differs_zip_iff {position : Nat} {comment token : UInt32}
    (hs : (tokensOf parts a).length = (symbolsOf parts a).length)
    (hf : (tokensOf parts a).length = (flagsOf parts a).length) :
    Differs ((tokensOf parts a).zip (((symbolsOf parts a).map Announced.func).zip (flagsOf parts a)))
        position comment token ↔ Disagrees parts a position comment token := by
  simp only [Differs, List.getElem?_zip_eq_some, List.getElem?_map, Option.map_eq_some_iff]
  constructor
  · rintro ⟨_, b, ⟨ht, ⟨s, hsymbol, rfl⟩, -⟩, hc, hne⟩
    exact ⟨⟨s, hsymbol, hc⟩, ht, hne⟩
  · rintro ⟨⟨s, hsymbol, hc⟩, ht, hne⟩
    obtain ⟨hlt, -⟩ := List.getElem?_eq_some_iff.mp ht
    have hbyte : (flagsOf parts a)[position]? = some (flagsOf parts a)[position] :=
      List.getElem?_eq_getElem (hf ▸ hlt)
    exact ⟨s.func, _, ⟨ht, ⟨s, hsymbol, rfl⟩, hbyte⟩, hc, hne⟩

/-! ## Finishing with an error -/

/-- A draft is finished with an error exactly when its assembly has that flaw. -/
theorem finish_draftOf_eq_error_iff {e : HeaderError} :
    (draftOf parts a).finish (stateOf parts).prototype? = .error e ↔ Flaw parts a e := by
  constructor
  · intro h
    rcases complete_or_missing parts a with complete | ⟨array, present, absent⟩
    · rw [finish_draftOf_of_complete complete] at h
      split at h
      · next balanced =>
          obtain ⟨position, comment, token, first, rfl⟩ :=
            entriesFrom_eq_error_iff.mp (map_eq_error_iff.mp h)
          simp only [FirstDiffers, differs_zip_iff balanced.1 balanced.2] at first
          rw [Nat.zero_add]
          exact .comment complete balanced first.1 first.2
      · next unbalanced =>
          cases h
          exact .lengths complete unbalanced
    · rw [finish_draftOf_of_missing present absent] at h
      cases h
      exact .missing present absent
  · intro h
    cases h with
    | missing present absent => exact finish_draftOf_of_missing present absent
    | lengths complete unbalanced => rw [finish_draftOf_of_complete complete, if_neg unbalanced]
    | @comment position comment token complete balanced disagrees least =>
        rw [finish_draftOf_of_complete complete, if_pos balanced, map_eq_error_iff,
          entriesFrom_eq_error_iff]
        simp only [FirstDiffers, differs_zip_iff balanced.1 balanced.2]
        exact ⟨position, comment, token, ⟨disagrees, least⟩, by rw [Nat.zero_add]; rfl⟩

/-- The state after the parts is finished with an error exactly when that is their first flaw. -/
theorem finish_stateOf_eq_error_iff {e : HeaderError} :
    (stateOf parts).finish = .error e ↔ FirstFlaw parts e := by
  have hf : (stateOf parts).finish = do return ⟨← (stateOf parts).drafts.mapM
      (·.finish (stateOf parts).prototype?)⟩ := rfl
  have hd : (stateOf parts).drafts = (mentioned parts).map (draftOf parts) := rfl
  rw [hf, hd, List.mapM_map, bind_eq_error_iff, mapM_eq_error_iff]
  simp only [Function.comp_apply, exists_eq_ok_iff, ne_eq, finish_draftOf_eq_error_iff]
  constructor
  · rintro (flaw | ⟨tables, -, h⟩)
    · exact flaw
    · cases h
  · exact Or.inl

end InternalCall.Header
