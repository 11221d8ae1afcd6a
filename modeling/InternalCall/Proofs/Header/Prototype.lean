import InternalCall.Header.Prototype
import InternalCall.Proofs.Except
import InternalCall.Proofs.Text.Pieces
import Mathlib.Data.List.ReduceOption

/-!
# What prototypes mean

The text between the parentheses of a prototype is cut at its commas, and every
piece must stand for a kind or for nothing. A prototype is read exactly when its
pieces do, and the kinds come in the order of their pieces. Otherwise the leftmost
piece that does not is the type that is reported.
-/

namespace InternalCall

open Text

/-- What a piece between the commas stands for: nothing, or the kind that it names. -/
inductive SlotMeans : String → Option ScalarKind → Prop where
  | empty : SlotMeans "" none
  | void : SlotMeans "void" none
  | named {name : String} {kind : ScalarKind} :
      ScalarKind.ofCName? name = some kind → SlotMeans name (some kind)

/-- The text between the parentheses of a prototype stands for the kinds. -/
def ParamsMean (params : List Char) (kinds : List ScalarKind) : Prop :=
  ∃ (slots : List (List Char)) (meanings : List (Option ScalarKind)),
    (slots ≠ [] ∧ (∀ slot ∈ slots, ',' ∉ slot) ∧ [','].intercalate slots = params) ∧
    List.Forall₂ (fun slot meaning => SlotMeans (String.ofList (trim slot)) meaning)
      slots meanings ∧
    kinds = meanings.reduceOption

/-- The name stands for a kind or for nothing. -/
def Supported (name : String) : Prop := ∃ meaning, SlotMeans name meaning

/-- The type is the first name that stands neither for a kind nor for nothing. -/
def FirstUnsupported (names : List String) (type : String) : Prop :=
  ∃ before after, names = before ++ type :: after ∧ (∀ name ∈ before, Supported name) ∧
    ¬Supported type

/-- Of the pieces between the commas, the type is the leftmost that stands neither for a kind nor for
nothing. -/
def LeftmostUnsupported (params : List Char) (type : String) : Prop :=
  ∃ slots : List (List Char),
    (slots ≠ [] ∧ (∀ slot ∈ slots, ',' ∉ slot) ∧ [','].intercalate slots = params) ∧
    FirstUnsupported (slots.map fun slot => String.ofList (trim slot)) type

theorem firstUnsupported_cons_of_supported {name type : String} {rest : List String}
    (h : Supported name) : FirstUnsupported (name :: rest) type ↔ FirstUnsupported rest type := by
  constructor
  · rintro ⟨before, after, happ, hbefore, hn⟩
    cases before with
    | nil =>
        cases happ
        exact absurd h hn
    | cons first before =>
        cases happ
        exact ⟨before, after, rfl, (List.forall_mem_cons.mp hbefore).2, hn⟩
  · rintro ⟨before, after, rfl, hbefore, hn⟩
    exact ⟨name :: before, after, rfl, List.forall_mem_cons.mpr ⟨h, hbefore⟩, hn⟩

theorem firstUnsupported_cons_of_not {name type : String} {rest : List String}
    (h : ¬Supported name) : FirstUnsupported (name :: rest) type ↔ name = type := by
  constructor
  · rintro ⟨before, after, happ, hbefore, -⟩
    cases before with
    | nil =>
        cases happ
        rfl
    | cons first before =>
        cases happ
        exact absurd (hbefore name List.mem_cons_self) h
  · rintro rfl
    exact ⟨[], rest, rfl, by simp, h⟩

/-- The printed name of what is returned reads back. -/
theorem ReturnKind.ofCName?_cName (ret : ReturnKind) : ofCName? ret.cName = some ret := by
  cases ret with
  | void => decide
  | scalar kind => cases kind <;> decide

namespace Header

theorem paramKind_eq_ok_iff {name : String} {kind : ScalarKind} :
    paramKind name = .ok kind ↔ ScalarKind.ofCName? name = some kind := by
  rw [paramKind]
  split
  · next k h => rw [h, Except.ok.injEq, Option.some.injEq]
  · next h => simp [h]

theorem isNoParam_iff {name : String} : isNoParam name = true ↔ name = "" ∨ name = "void" := by
  simp [isNoParam]

theorem slotMeans_of_noParam {name : String} {meaning : Option ScalarKind}
    (h : isNoParam name = true) : SlotMeans name meaning ↔ meaning = none := by
  have hno : ∀ n, n = "" ∨ n = "void" → ScalarKind.ofCName? n = none := by
    rintro n (rfl | rfl) <;> decide
  constructor
  · rintro (- | - | hk)
    · rfl
    · rfl
    · rw [hno name (isNoParam_iff.mp h)] at hk
      cases hk
  · rintro rfl
    rcases isNoParam_iff.mp h with rfl | rfl
    · exact .empty
    · exact .void

theorem slotMeans_of_param {name : String} {meaning : Option ScalarKind}
    (h : isNoParam name = false) :
    SlotMeans name meaning ↔ ∃ kind, ScalarKind.ofCName? name = some kind ∧ meaning = some kind := by
  constructor
  · rintro (- | - | hk)
    · cases h
    · cases h
    · exact ⟨_, hk, rfl⟩
  · rintro ⟨kind, hk, rfl⟩
    exact .named hk

/-- The names that stand for kinds are read exactly when every name stands for something. -/
theorem mapM_paramKind_eq_ok_iff {names : List String} {kinds : List ScalarKind} :
    (names.filter fun name => !isNoParam name).mapM paramKind = .ok kinds ↔
      ∃ meanings, List.Forall₂ SlotMeans names meanings ∧ kinds = meanings.reduceOption := by
  induction names generalizing kinds with
  | nil =>
      rw [List.filter_nil, List.mapM_nil, pure_eq_ok_iff]
      simp [eq_comm]
  | cons name rest ih =>
      cases hn : isNoParam name with
      | true =>
          rw [List.filter_cons_of_neg (by simp [hn]), ih]
          simp only [List.forall₂_cons_left_iff, slotMeans_of_noParam hn]
          constructor
          · rintro ⟨ms, hms, rfl⟩
            exact ⟨none :: ms, ⟨none, ms, rfl, hms, rfl⟩, (List.reduceOption_cons_of_none ms).symm⟩
          · rintro ⟨_, ⟨_, ms, rfl, hms, rfl⟩, rfl⟩
            exact ⟨ms, hms, List.reduceOption_cons_of_none ms⟩
      | false =>
          rw [List.filter_cons_of_pos (by simp [hn]), List.mapM_cons]
          simp only [bind_eq_ok_iff, pure_eq_ok_iff, paramKind_eq_ok_iff, ih,
            List.forall₂_cons_left_iff, slotMeans_of_param hn]
          constructor
          · rintro ⟨k, hk, _, ⟨ms, hms, rfl⟩, rfl⟩
            exact ⟨some k :: ms, ⟨some k, ms, ⟨k, hk, rfl⟩, hms, rfl⟩, rfl⟩
          · rintro ⟨_, ⟨_, ms, ⟨k, hk, rfl⟩, hms, rfl⟩, rfl⟩
            exact ⟨k, hk, _, ⟨ms, hms, rfl⟩, rfl⟩

/-- A prototype is read exactly when its return type and its parameters mean the signature. -/
theorem readPrototype_eq_ok_iff {ret : String} {params : List Char} {s : Signature} :
    readPrototype ret params = .ok s ↔
      ReturnKind.ofCName? ret = some s.ret ∧ ParamsMean params s.params := by
  have hparams : ParamsMean params s.params ↔
      ((paramNames params).filter fun name => !isNoParam name).mapM paramKind = .ok s.params := by
    rw [mapM_paramKind_eq_ok_iff]
    simp only [paramNames, List.forall₂_map_left_iff, ParamsMean, ← splitAt_eq_iff]
    constructor
    · rintro ⟨slots, ms, rfl, hms, hk⟩
      exact ⟨ms, hms, hk⟩
    · rintro ⟨ms, hms, hk⟩
      exact ⟨_, ms, rfl, hms, hk⟩
  rw [hparams, readPrototype]
  cases ReturnKind.ofCName? ret with
  | none => simp
  | some r =>
      simp only [bind_eq_ok_iff, pure_eq_ok_iff, Option.some.injEq]
      constructor
      · rintro ⟨kinds, hk, rfl⟩
        exact ⟨rfl, hk⟩
      · rintro ⟨rfl, hk⟩
        exact ⟨s.params, hk, rfl⟩

theorem paramKind_eq_error_iff {name type : String} :
    paramKind name = .error type ↔ ScalarKind.ofCName? name = none ∧ name = type := by
  rw [paramKind]
  split
  · next k h => simp [h]
  · next h => simp [h]

theorem supported_iff_of_param {name : String} (h : isNoParam name = false) :
    Supported name ↔ ∃ kind, ScalarKind.ofCName? name = some kind := by
  simp only [Supported, slotMeans_of_param h]
  constructor
  · rintro ⟨_, kind, hk, -⟩
    exact ⟨kind, hk⟩
  · rintro ⟨kind, hk⟩
    exact ⟨some kind, kind, hk, rfl⟩

/-- The names that stand for kinds are refused exactly for the first name that stands neither for a
kind nor for nothing. -/
theorem mapM_paramKind_eq_error_iff {names : List String} {type : String} :
    (names.filter fun name => !isNoParam name).mapM paramKind = .error type ↔
      FirstUnsupported names type := by
  induction names with
  | nil => simp [FirstUnsupported, pure, Except.pure]
  | cons name rest ih =>
      cases hn : isNoParam name with
      | true =>
          have hs : Supported name := ⟨none, (slotMeans_of_noParam hn).mpr rfl⟩
          rw [List.filter_cons_of_neg (by simp [hn]), ih, firstUnsupported_cons_of_supported hs]
      | false =>
          rw [List.filter_cons_of_pos (by simp [hn]), List.mapM_cons]
          simp only [bind_eq_error_iff, paramKind_eq_error_iff, paramKind_eq_ok_iff, ih]
          cases hk : ScalarKind.ofCName? name with
          | none =>
              have hs : ¬Supported name := by simp [supported_iff_of_param hn, hk]
              simp [firstUnsupported_cons_of_not hs]
          | some kind =>
              have hs : Supported name := (supported_iff_of_param hn).mpr ⟨kind, hk⟩
              simp [firstUnsupported_cons_of_supported hs, pure, Except.pure]

/-- A prototype with a known return type is refused exactly for its leftmost parameter that is not
supported. -/
theorem readPrototype_eq_error_iff {ret type : String} {params : List Char} {r : ReturnKind}
    (hret : ReturnKind.ofCName? ret = some r) :
    readPrototype ret params = .error type ↔ LeftmostUnsupported params type := by
  have hparams : LeftmostUnsupported params type ↔ FirstUnsupported (paramNames params) type := by
    simp only [LeftmostUnsupported, ← splitAt_eq_iff, exists_eq_left', paramNames]
  rw [hparams, readPrototype, hret]
  simp only [bind_eq_error_iff, mapM_paramKind_eq_error_iff]
  constructor
  · rintro (h | ⟨kinds, -, h⟩)
    · exact h
    · cases h
  · exact Or.inl

/-- The slot, trimmed, is the name of the kind. -/
def NamesKind (slot : List Char) (kind : ScalarKind) : Prop :=
  ScalarKind.ofCName? (String.ofList (trim slot)) = some kind

/-- Slots that name kinds, in a list of their own, stand for them. -/
theorem paramsMean_of_namesKind {slots : List (List Char)} {kinds : List ScalarKind}
    (clean : ∀ slot ∈ slots, ',' ∉ slot)
    (h : List.Forall₂ NamesKind slots kinds) : ParamsMean ([','].intercalate slots) kinds := by
  by_cases hs : slots = []
  · subst hs
    cases h
    exact ⟨[[]], [none], ⟨List.cons_ne_nil [] [], by simp, rfl⟩, .cons .empty .nil, rfl⟩
  · refine ⟨slots, kinds.map some, ⟨hs, clean, rfl⟩, ?_, ?_⟩
    · rw [List.forall₂_map_right_iff]
      exact h.imp fun _ _ hn => .named hn
    · rw [List.reduceOption, List.filterMap_map]
      exact List.filterMap_some.symm

/-- The printed names of kinds, between commas, stand for the kinds. -/
theorem paramsMean_paramText (kinds : List ScalarKind) :
    ParamsMean (Signature.paramText kinds).toList kinds := by
  have hcomma : ∀ kind : ScalarKind, ',' ∉ kind.cName.toList := by
    intro kind
    cases kind <;> decide
  have hname : ∀ kind : ScalarKind, NamesKind kind.cName.toList kind := by
    intro kind
    rw [NamesKind]
    cases kind <;> decide
  have htext : (Signature.paramText kinds).toList =
      [','].intercalate (kinds.map fun kind => kind.cName.toList) := by
    rw [Signature.paramText, String.toList_intercalate, List.map_map]
    rfl
  rw [htext]
  refine paramsMean_of_namesKind (List.forall_mem_map.mpr fun kind _ => hcomma kind) ?_
  rw [List.forall₂_map_left_iff, List.forall₂_same]
  exact fun kind _ => hname kind

/-- A parameter list is made of commas and of the names of kinds. -/
theorem mem_paramText {c : Char} {kinds : List ScalarKind}
    (h : c ∈ (Signature.paramText kinds).toList) :
    c = ',' ∨ ∃ kind : ScalarKind, c ∈ kind.cName.toList := by
  rw [Signature.paramText, String.toList_intercalate, List.map_map] at h
  induction kinds with
  | nil => cases h
  | cons kind rest ih =>
      cases rest with
      | nil => exact .inr ⟨kind, by simpa using h⟩
      | cons next rest =>
          rw [List.map_cons, List.map_cons, List.intercalate_cons_cons, List.mem_append,
            List.mem_append] at h
          rcases h with (h | h) | h
          · exact .inr ⟨kind, h⟩
          · exact .inl (List.mem_singleton.mp h)
          · exact ih h

end Header

end InternalCall
