import InternalCall.Header.Reader
import InternalCall.Proofs.Header.Grammar

/-!
# Steps of reading

Reading a line that is not blank makes one of nine steps, by the shape of the line
and by the array that is open. A text is read exactly when its content can be
passed over by such steps; the line numbers only serve the errors.
-/

namespace InternalCall.Header

open Text

namespace Progress

/-- The steps that a line of content allows. -/
inductive Step (line : List Char) : Progress → Progress → Prop where
  | declaration {p : Progress} {assembly : List Char} :
      p.openArray? = none → DeclarationLine line assembly →
      Step line p { p with drafts := mention (String.ofList assembly) p.drafts }
  | opening {p : Progress} {assembly : List Char} {array : ArrayKind} :
      p.openArray? = none → OpeningLine line assembly array →
      hasArray (String.ofList assembly) array p.drafts = false →
      Step line p { p with
        drafts := change (String.ofList assembly) (·.openArray array)
          (mention (String.ofList assembly) p.drafts)
        openArray? := some (String.ofList assembly, array) }
  | prototype {p : Progress} {ret symbol params : List Char} {s : Signature} :
      p.openArray? = none → PrototypeLine line ret symbol params →
      ReturnKind.ofCName? (String.ofList ret) = some s.ret → ParamsMean params s.params →
      Step line p { p with prototypes := (String.ofList symbol, s) :: p.prototypes }
  | ignored {p : Progress} :
      p.openArray? = none → CommentLine line → (∀ assembly, ¬DeclarationLine line assembly) →
      Step line p p
  | closing {p : Progress} {assembly : String} {array : ArrayKind} :
      p.openArray? = some (assembly, array) → line = closingLine →
      Step line p { p with openArray? := none, comment? := none }
  | token {p : Progress} {assembly : String} {token : UInt32} :
      p.openArray? = some (assembly, .indexes) → NumberLine line token.toNat →
      Step line p { p with drafts := change assembly (·.addIndex token) p.drafts }
  | flags {p : Progress} {assembly : String} {byte : UInt8} :
      p.openArray? = some (assembly, .flags) → NumberLine line byte.toNat →
      Step line p { p with drafts := change assembly (·.addFlag byte) p.drafts }
  | comment {p : Progress} {assembly : String} {token : UInt32} :
      p.openArray? = some (assembly, .funcs) → TokenLine line token →
      Step line p { p with comment? := some token }
  | symbol {p : Progress} {assembly : String} {symbol : List Char} :
      p.openArray? = some (assembly, .funcs) → ItemLine line symbol →
      Step line p { p with
        drafts := change assembly (·.addFunc ⟨p.comment?, String.ofList symbol⟩) p.drafts
        comment? := none }

/-- The states that the lines lead to, step by step. -/
inductive Reads : Progress → List (List Char) → Progress → Prop where
  | nil {p : Progress} : Reads p [] p
  | cons {p q r : Progress} {line : List Char} {rest : List (List Char)} :
      Step line p q → Reads q rest r → Reads p (line :: rest) r

theorem Reads.append {p q r : Progress} {front rest : List (List Char)} (hf : Reads p front q)
    (hr : Reads q rest r) : Reads p (front ++ rest) r := by
  induction hf with
  | nil => exact hr
  | cons hs _ ih => exact .cons hs (ih hr)

theorem Reads.single {p q : Progress} {line : List Char} (h : Step line p q) :
    Reads p [line] q :=
  .cons h .nil

/-- A state between two stretches of lines. -/
theorem Reads.exists_between {p r : Progress} {front rest : List (List Char)}
    (h : Reads p (front ++ rest) r) : ∃ q, Reads p front q ∧ Reads q rest r := by
  induction front generalizing p with
  | nil => exact ⟨p, .nil, h⟩
  | cons line front ih =>
      cases h with
      | cons hs hr =>
          obtain ⟨q, hfront, hrest⟩ := ih hr
          exact ⟨q, .cons hs hfront, hrest⟩

end Progress

theorem ItemLine.head {line item : List Char} (h : ItemLine line item) :
    ∃ c, line.head? = some c ∧ isWord c = true := by
  obtain ⟨c, item, rfl⟩ := List.exists_cons_of_ne_nil h.1.1
  refine ⟨c, ?_, h.1.2 c List.mem_cons_self⟩
  rcases h.2 with rfl | rfl <;> rfl

theorem ItemLine.not_closing {line item : List Char} (h : ItemLine line item) :
    isClosing line = false := by
  obtain ⟨c, hc, hw⟩ := h.head
  rw [isClosing, decide_eq_false_iff_not]
  rintro rfl
  cases hc
  revert hw
  decide

theorem TokenLine.head {line : List Char} {token : UInt32} (h : TokenLine line token) :
    line.head? = some '/' := by
  obtain ⟨b₁, b₂, item, digits, -, -, -, -, rfl⟩ := h
  simp only [List.append_assoc]
  rfl

theorem TokenLine.not_closing {line : List Char} {token : UInt32} (h : TokenLine line token) :
    isClosing line = false := by
  rw [isClosing, decide_eq_false_iff_not]
  rintro rfl
  cases h.head

theorem ItemLine.not_token {line item : List Char} (h : ItemLine line item) :
    tokenComment? line = none := by
  rw [Option.eq_none_iff_forall_ne_some]
  intro token ht
  obtain ⟨c, hc, hw⟩ := h.head
  rw [(tokenComment?_eq_some_iff.mp ht).head] at hc
  cases hc
  revert hw
  decide

theorem NumberLine.not_closing {line : List Char} {n : Nat} (h : NumberLine line n) :
    isClosing line = false := by
  obtain ⟨item, hi, -⟩ := h
  exact hi.not_closing

theorem isClosing_iff {line : List Char} : isClosing line = true ↔ line = closingLine := by
  rw [isClosing, decide_eq_true_iff]
  rfl

theorem number_eq_some_iff {line : List Char} {n : UInt32} :
    (item? line).bind uint32? = some n ↔ NumberLine line n.toNat := by
  simp only [Option.bind_eq_some_iff, item?_eq_some_iff, uint32?_eq_some_iff, NumberLine]

theorem byte_eq_some_iff {line : List Char} {n : UInt8} :
    (item? line).bind uint8? = some n ↔ NumberLine line n.toNat := by
  simp only [Option.bind_eq_some_iff, item?_eq_some_iff, uint8?_eq_some_iff, NumberLine]

namespace Progress

variable {p q : Progress} {line : List Char} {number : Nat}

/-- Outside an array, a line is added exactly as a step says. -/
theorem readOutside_eq_ok_iff (ho : p.openArray? = none) :
    p.readOutside number line = .ok q ↔ Step line p q := by
  constructor
  · intro h
    rw [readOutside] at h
    split at h
    · next hl =>
        cases Line.ofText?_eq_some_iff.mp hl with
        | declaration hd =>
            cases h
            exact .declaration ho hd
    · next hl =>
        split at h
        · cases h
        · next hn =>
            cases Line.ofText?_eq_some_iff.mp hl with
            | opening hd =>
                cases h
                exact .opening ho hd (by simpa using hn)
    · next hl =>
        split at h
        · next hr =>
            cases Line.ofText?_eq_some_iff.mp hl with
            | prototype hp =>
                cases h
                obtain ⟨hret, hparams⟩ := readPrototype_eq_ok_iff.mp hr
                exact .prototype ho hp hret hparams
        · cases h
    · next hl =>
        cases Line.ofText?_eq_some_iff.mp hl with
        | ignored hc hn =>
            cases h
            exact .ignored ho hc hn
    · cases h
  · intro h
    cases h with
    | declaration _ hd => rw [readOutside, Line.ofText?_eq_some_iff.mpr (.declaration hd)]
    | opening _ hd hn =>
        rw [readOutside, Line.ofText?_eq_some_iff.mpr (.opening hd)]
        exact if_neg (by simp [hn])
    | prototype _ hp hret hparams =>
        rw [readOutside, Line.ofText?_eq_some_iff.mpr (.prototype hp)]
        simp only [readPrototype_eq_ok_iff.mpr ⟨hret, hparams⟩]
    | ignored _ hc hn => rw [readOutside, Line.ofText?_eq_some_iff.mpr (.ignored hc hn)]
    | closing hs | token hs | flags hs | comment hs | symbol hs =>
        rw [ho] at hs
        cases hs

/-- Inside an array, a line is added exactly as a step says. -/
theorem readInside_eq_ok_iff {assembly : String} {array : ArrayKind}
    (ho : p.openArray? = some (assembly, array)) :
    p.readInside assembly array number line = .ok q ↔ Step line p q := by
  constructor
  · intro h
    unfold readInside at h
    split at h
    · next hc =>
        cases h
        exact .closing ho (isClosing_iff.mp hc)
    · split at h
      · split at h
        · next hn =>
            cases h
            exact .token ho (number_eq_some_iff.mp hn)
        · cases h
      · split at h
        · next hn =>
            cases h
            exact .flags ho (byte_eq_some_iff.mp hn)
        · cases h
      · split at h
        · next ht =>
            cases h
            exact .comment ho (tokenComment?_eq_some_iff.mp ht)
        · split at h
          · next hi =>
              cases h
              exact .symbol ho (item?_eq_some_iff.mp hi)
          · cases h
  · intro h
    cases h with
    | declaration hs | opening hs | prototype hs | ignored hs =>
        rw [ho] at hs
        cases hs
    | closing hs hl =>
        cases ho.symm.trans hs
        exact if_pos (isClosing_iff.mpr hl)
    | token hs hn =>
        cases ho.symm.trans hs
        simp [readInside, hn.not_closing, number_eq_some_iff.mpr hn]
    | flags hs hn =>
        cases ho.symm.trans hs
        simp [readInside, hn.not_closing, byte_eq_some_iff.mpr hn]
    | comment hs ht =>
        cases ho.symm.trans hs
        simp [readInside, ht.not_closing, tokenComment?_eq_some_iff.mpr ht]
    | symbol hs hi =>
        cases ho.symm.trans hs
        simp [readInside, hi.not_closing, hi.not_token, item?_eq_some_iff.mpr hi]

theorem read_of_isEmpty (h : (trim line).isEmpty = true) : p.read number line = .ok p :=
  if_pos h

/-- A line that is not blank is added exactly as a step says. -/
theorem read_eq_ok_iff (h : (trim line).isEmpty = false) :
    p.read number line = .ok q ↔ Step (trim line) p q := by
  simp only [read, h, Bool.false_eq_true, ↓reduceIte]
  split
  · next ho => exact readInside_eq_ok_iff ho
  · next ho => exact readOutside_eq_ok_iff ho

/-- A line allows one step at most. -/
theorem Step.unique {q' : Progress} (h : Step line p q) (h' : Step line p q') : q = q' := by
  cases ho : p.openArray? with
  | none =>
      have hread : p.readOutside 0 line = .ok q := (readOutside_eq_ok_iff ho).mpr h
      have hread' : p.readOutside 0 line = .ok q' := (readOutside_eq_ok_iff ho).mpr h'
      exact Except.ok.inj (hread.symm.trans hread')
  | some block =>
      obtain ⟨assembly, array⟩ := block
      have hread : p.readInside assembly array 0 line = .ok q := (readInside_eq_ok_iff ho).mpr h
      have hread' : p.readInside assembly array 0 line = .ok q' := (readInside_eq_ok_iff ho).mpr h'
      exact Except.ok.inj (hread.symm.trans hread')

/-- Lines lead to one state at most. -/
theorem Reads.unique {q' : Progress} {lines : List (List Char)} (h : Reads p lines q)
    (h' : Reads p lines q') : q = q' := by
  induction h with
  | nil =>
      cases h'
      rfl
  | cons hs _ ih =>
      cases h' with
      | cons hs' hr' =>
          obtain rfl := hs.unique hs'
          exact ih hr'

theorem readAll_cons_eq_ok_iff {rest : List (List Char)} :
    p.readAll number (line :: rest) = .ok q ↔
      ∃ next, p.read number line = .ok next ∧ next.readAll (number + 1) rest = .ok q := by
  rw [readAll]
  cases p.read number line with
  | error e => simp
  | ok next => simp

/-- Lines are read exactly when their content can be passed over step by step. -/
theorem readAll_eq_ok_iff {lines : List (List Char)} :
    p.readAll number lines = .ok q ↔
      Reads p ((lines.map trim).filter fun line => !line.isEmpty) q := by
  induction lines generalizing p number with
  | nil =>
      constructor
      · intro h
        cases h
        exact .nil
      · intro h
        cases h
        rfl
  | cons line rest ih =>
      rw [readAll_cons_eq_ok_iff, List.map_cons]
      cases hl : (trim line).isEmpty with
      | true =>
          rw [List.filter_cons_of_neg (by simp [hl]), read_of_isEmpty hl]
          simp only [Except.ok.injEq, exists_eq_left', ih]
      | false =>
          rw [List.filter_cons_of_pos (by simp [hl])]
          simp only [read_eq_ok_iff hl, ih]
          constructor
          · rintro ⟨next, hs, hr⟩
            exact .cons hs hr
          · rintro (- | ⟨hs, hr⟩)
            exact ⟨_, hs, hr⟩

end Progress

/-- A text is read exactly when its content leads from nothing to a state that can be finished. -/
theorem parse_eq_ok_iff_reads {text : String} {h : Header} :
    parse text = .ok h ↔ ∃ p, Progress.Reads {} (content text.toList) p ∧ p.finish = .ok h := by
  rw [parse, bind_eq_ok_iff]
  simp only [Progress.readAll_eq_ok_iff]
  rfl

end InternalCall.Header
