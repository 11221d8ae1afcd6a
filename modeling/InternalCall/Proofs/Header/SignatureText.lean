import InternalCall.Proofs.Header.Prototype

/-!
# Signatures and their text

A signature is printed as a return type, a blank and the parameters in parentheses.
No type name holds a parenthesis, so its text can be taken apart in one way only,
and the two pieces, read as those of a prototype, give the signature back. Hence
the text determines the signature, and what was read from a prototype of any layout
is read again from its printed form.
-/

namespace InternalCall

open Header

/-- The text is the return text, a blank and the text between parentheses. -/
def Displays (text ret params : String) : Prop := text = ret ++ " (" ++ params ++ ")"

/-- No type name holds a parenthesis. -/
theorem ScalarKind.paren_not_mem_cName (kind : ScalarKind) : '(' ∉ kind.cName.toList := by
  cases kind <;> decide

theorem ReturnKind.paren_not_mem_cName (ret : ReturnKind) : '(' ∉ ret.cName.toList := by
  cases ret with
  | void => decide
  | scalar kind => exact kind.paren_not_mem_cName

namespace Signature

theorem paren_not_mem_paramText (params : List ScalarKind) :
    '(' ∉ (paramText params).toList := by
  intro h
  rcases mem_paramText h with hcomma | ⟨kind, hkind⟩
  · cases hcomma
  · exact kind.paren_not_mem_cName hkind

theorem displays_text (s : Signature) : Displays s.text s.ret.cName (paramText s.params) := rfl

/-- The text of a signature can be taken apart in one way only. -/
theorem eq_of_displays {s : Signature} {ret params : String} (h : Displays s.text ret params) :
    ret = s.ret.cName ∧ params = paramText s.params := by
  have hcut : (s.ret.cName.toList ++ [' ']) ++ '(' :: ((paramText s.params).toList ++ [')']) =
      (ret.toList ++ [' ']) ++ '(' :: (params.toList ++ [')']) := by
    simpa [text] using congrArg String.toList h
  have hret : '(' ∉ s.ret.cName.toList ++ [' '] := by
    simp [s.ret.paren_not_mem_cName]
  have hparams : '(' ∉ (paramText s.params).toList ++ [')'] := by
    simp [paren_not_mem_paramText]
  obtain ⟨hr, -, hp⟩ := (List.append_cons_inj_of_notMem hret hparams).mp hcut
  exact ⟨String.toList_injective (List.append_cancel_right hr).symm,
    String.toList_injective (List.append_cancel_right hp).symm⟩

/-- The pieces of the text of a signature are read as the signature. -/
theorem readPrototype_of_displays {s : Signature} {ret params : String}
    (h : Displays s.text ret params) : readPrototype ret params.toList = .ok s := by
  obtain ⟨rfl, rfl⟩ := eq_of_displays h
  exact readPrototype_eq_ok_iff.mpr
    ⟨ReturnKind.ofCName?_cName s.ret, paramsMean_paramText s.params⟩

/-- Reading a prototype undoes printing a signature. The text of a signature can be taken apart into
a return text and a text between parentheses, and however it is, reading them as a prototype gives
the signature. So two signatures with one text are equal, and if a signature was read from any
prototype then reading its text gives what reading that prototype gave. -/
theorem readPrototype_undoes_text (s : Signature) :
    (∃ ret params, Displays s.text ret params) ∧
    (∀ ret params, Displays s.text ret params → readPrototype ret params.toList = .ok s) ∧
    (∀ t : Signature, t.text = s.text → t = s) ∧
    (∀ (ret : String) (params : List Char), readPrototype ret params = .ok s →
      ∀ ret' params', Displays s.text ret' params' →
        readPrototype ret' params'.toList = readPrototype ret params) := by
  refine ⟨⟨_, _, displays_text s⟩, fun ret params h => readPrototype_of_displays h, ?_, ?_⟩
  · intro t same
    have ht : Displays s.text t.ret.cName (paramText t.params) := same ▸ displays_text t
    have hs := readPrototype_of_displays ht
    rw [readPrototype_of_displays (displays_text t)] at hs
    exact Except.ok.inj hs
  · intro ret params read ret' params' h
    rw [read, readPrototype_of_displays h]

/-- A signature with an address beside `void`, and one without parameters, are read back from their
texts. -/
example : readPrototype "void" "void*,int64_t,void*".toList =
      .ok ⟨[.handle, .long, .handle], .void⟩ ∧
    readPrototype "void*" "".toList = .ok ⟨[], .scalar .handle⟩ := by
  decide +kernel

end Signature

end InternalCall
