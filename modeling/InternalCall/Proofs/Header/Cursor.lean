import InternalCall.Header.Reader
import InternalCall.Proofs.Header.Steps

/-!
# Reading by position

A reader of headers may keep the open array by the position of its table in the
list of drafts, and look the position up at every line. Such a reader is defined
here with one more way to stop: the position is that of no draft. Drafts are only
added at the end, and an array is opened before lines are read into it, so the
position always has its draft and the array is there. What a line inside an array
says goes to the end of this array and changes no other.
-/

namespace InternalCall.Header

open Text

/-- An item of an array. -/
inductive ArrayItem where
  /-- A token. -/
  | token (token : UInt32)
  /-- A symbol, with the token announced for it. -/
  | func (f : Func)
  /-- A flag byte. -/
  | flags (byte : UInt8)
deriving DecidableEq, Repr, Inhabited

/-- The array that holds items like this one. -/
def ArrayItem.array : ArrayItem → ArrayKind
  | token _ => .indexes
  | func _ => .funcs
  | flags _ => .flags

/-- The item that the line is in an array of the kind, after a comment that announced the token. -/
def arrayItem? (array : ArrayKind) (comment? : Option UInt32) (line : List Char) :
    Option ArrayItem :=
  match array with
  | .indexes => ((item? line).bind uint32?).map .token
  | .funcs => (item? line).map fun symbol => .func ⟨comment?, String.ofList symbol⟩
  | .flags => ((item? line).bind uint8?).map .flags

theorem array_of_arrayItem? {array : ArrayKind} {comment? : Option UInt32} {line : List Char}
    {x : ArrayItem} (h : arrayItem? array comment? line = some x) : x.array = array := by
  cases array <;>
    · obtain ⟨_, -, rfl⟩ := Option.map_eq_some_iff.mp h
      rfl

theorem arrayItem?_of_item? {array : ArrayKind} {comment? : Option UInt32} {line : List Char}
    (h : item? line = none) : arrayItem? array comment? line = none := by
  cases array <;> simp [arrayItem?, h]

theorem item?_of_isClosing {line : List Char} (h : isClosing line = true) : item? line = none := by
  rw [Option.eq_none_iff_forall_ne_some]
  intro item hi
  rw [(item?_eq_some_iff.mp hi).not_closing] at h
  cases h

theorem item?_of_tokenComment? {line : List Char} {token : UInt32}
    (h : tokenComment? line = some token) : item? line = none := by
  rw [Option.eq_none_iff_forall_ne_some]
  intro item hi
  rw [(item?_eq_some_iff.mp hi).not_token] at h
  cases h

/-! ## The arrays of a draft -/

namespace Draft

variable {d : Draft} {x : ArrayItem} {array other : ArrayKind}

/-- The items of the array, if it has been opened. -/
def slot? (d : Draft) : ArrayKind → Option (List ArrayItem)
  | .indexes => d.indexes?.map fun tokens => tokens.toList.map .token
  | .funcs => d.funcs?.map fun funcs => funcs.toList.map .func
  | .flags => d.flags?.map fun flags => flags.toList.map .flags

/-- The draft with the item at the end of its array, which is opened if it was not. -/
def put (d : Draft) : ArrayItem → Draft
  | .token token => { d with indexes? := some ((d.indexes?.getD #[]).push token) }
  | .func f => { d with funcs? := some ((d.funcs?.getD #[]).push f) }
  | .flags byte => { d with flags? := some ((d.flags?.getD #[]).push byte) }

theorem hasArray_eq_isSome : d.hasArray array = (d.slot? array).isSome := by
  cases array <;> simp [hasArray, slot?]

@[simp] theorem put_name : (d.put x).name = d.name := by
  cases x <;> rfl

@[simp] theorem openArray_name : (d.openArray array).name = d.name := by
  cases array <;> rfl

theorem put_slot?_self : (d.put x).slot? x.array = some ((d.slot? x.array).getD [] ++ [x]) := by
  cases x with
  | token token => cases h : d.indexes? <;> simp [put, slot?, ArrayItem.array, h]
  | func f => cases h : d.funcs? <;> simp [put, slot?, ArrayItem.array, h]
  | flags byte => cases h : d.flags? <;> simp [put, slot?, ArrayItem.array, h]

theorem put_slot?_of_ne (h : array ≠ x.array) : (d.put x).slot? array = d.slot? array := by
  cases x <;> cases array <;> first | rfl | exact absurd rfl h

theorem openArray_slot?_self : (d.openArray array).slot? array = some [] := by
  cases array <;> rfl

theorem openArray_slot?_of_ne (h : other ≠ array) :
    (d.openArray array).slot? other = d.slot? other := by
  cases array <;> cases other <;> first | rfl | exact absurd rfl h

/-- An array that is open needs no opening. -/
theorem put_eq (h : d.hasArray x.array = true) : d.put x =
    match x with
    | .token token => d.addIndex token
    | .func f => d.addFunc f
    | .flags byte => d.addFlag byte := by
  cases x with
  | token token =>
      obtain ⟨tokens, ht⟩ := Option.isSome_iff_exists.mp h
      simp [put, addIndex, ht]
  | func f =>
      obtain ⟨funcs, hf⟩ := Option.isSome_iff_exists.mp h
      simp [put, addFunc, hf]
  | flags byte =>
      obtain ⟨flags, hf⟩ := Option.isSome_iff_exists.mp h
      simp [put, addFlag, hf]

end Draft

/-! ## The reader -/

/-- Why reading by position stops. -/
inductive Stop where
  /-- The text is no header. -/
  | refused (e : HeaderError)
  /-- The position of the array is that of no draft. -/
  | outOfRange
deriving DecidableEq, Repr

/-- The position of the draft of the assembly, and the drafts with it among them; a new one goes to
the end. -/
def place (assembly : String) (drafts : List Draft) : Nat × List Draft :=
  match drafts.findIdx? (·.name == assembly) with
  | some i => (i, drafts)
  | none => (drafts.length, drafts ++ [{ name := assembly }])

/-- The items of the array of the draft at the position, if there is such an array. -/
def slotAt? (drafts : List Draft) (i : Nat) (array : ArrayKind) : Option (List ArrayItem) :=
  drafts[i]?.bind fun d => d.slot? array

/-- What has been read so far, with the open array by the position of its draft. -/
structure Cursor where
  /-- The tables in the making, by first mention of their assembly. -/
  drafts : List Draft := []
  /-- The prototypes, the latest first. -/
  prototypes : List (String × Signature) := []
  /-- The array that the next line belongs to. -/
  openAt? : Option (Nat × ArrayKind) := none
  /-- The token that a comment announced for the next symbol. -/
  comment? : Option UInt32 := none
deriving DecidableEq, Repr, Inhabited

namespace Cursor

/-- The error that the line does not fit. -/
def unexpected {α : Type} (number : Nat) (line : List Char) : Except Stop α :=
  .error (.refused (.unexpectedLine number (String.ofList line)))

/-- Adds a line inside the array of the draft at the position. -/
def readInside (c : Cursor) (i : Nat) (array : ArrayKind) (number : Nat) (line : List Char) :
    Except Stop Cursor :=
  if isClosing line then .ok { c with openAt? := none, comment? := none }
  else
    match c.drafts[i]? with
    | none => .error .outOfRange
    | some d =>
      match array with
      | .indexes =>
        match (item? line).bind uint32? with
        | some token => .ok { c with drafts := c.drafts.set i (d.put (.token token)) }
        | none => unexpected number line
      | .flags =>
        match (item? line).bind uint8? with
        | some byte => .ok { c with drafts := c.drafts.set i (d.put (.flags byte)) }
        | none => unexpected number line
      | .funcs =>
        match tokenComment? line with
        | some token => .ok { c with comment? := some token }
        | none =>
          match item? line with
          | some symbol =>
            let f : Func := ⟨c.comment?, String.ofList symbol⟩
            .ok { c with drafts := c.drafts.set i (d.put (.func f)), comment? := none }
          | none => unexpected number line

/-- Adds a line outside any array. -/
def readOutside (c : Cursor) (number : Nat) (line : List Char) : Except Stop Cursor :=
  match Line.ofText? line with
  | some (.declaration assembly) => .ok { c with drafts := (place assembly c.drafts).2 }
  | some (.opening assembly array) =>
    let (i, drafts) := place assembly c.drafts
    match drafts[i]? with
    | none => .error .outOfRange
    | some d =>
      if d.hasArray array then unexpected number line
      else .ok { c with
        drafts := drafts.set i (d.openArray array)
        openAt? := some (i, array) }
  | some (.prototype ret symbol params) =>
    match readPrototype ret params with
    | .ok signature => .ok { c with prototypes := (symbol, signature) :: c.prototypes }
    | .error type => .error (.refused (.unknownType number type))
  | some .ignored => .ok c
  | none => unexpected number line

/-- Adds the line with the number. -/
def read (c : Cursor) (number : Nat) (line : List Char) : Except Stop Cursor :=
  let line := trim line
  if line.isEmpty then .ok c
  else
    match c.openAt? with
    | some (i, array) => c.readInside i array number line
    | none => c.readOutside number line

/-- Adds lines, the first of which has the number. -/
def readAll (c : Cursor) (number : Nat) : List (List Char) → Except Stop Cursor
  | [] => .ok c
  | line :: rest =>
    match c.read number line with
    | .ok next => next.readAll (number + 1) rest
    | .error e => .error e

/-- The header that all lines together make. -/
def finish (c : Cursor) : Except Stop Header :=
  match c.openAt? with
  | some (i, array) =>
    match c.drafts[i]? with
    | some d => .error (.refused (.unterminated d.name array))
    | none => .error .outOfRange
  | none =>
    match c.drafts.mapM (·.finish fun symbol => c.prototypes.lookup symbol) with
    | .ok tables => .ok ⟨tables⟩
    | .error e => .error (.refused e)

/-- Reads the text of a header. -/
def parse (text : String) : Except Stop Header := do
  (← readAll {} 1 (lines text.toList)).finish

/-! ## What a line can do -/

/-- The names of the drafts, by position. -/
def names (c : Cursor) : List String := c.drafts.map Draft.name

/-- The items of the array at the position, if there is such an array. -/
def slot? (c : Cursor) (i : Nat) (array : ArrayKind) : Option (List ArrayItem) :=
  slotAt? c.drafts i array

/-- The items that the line adds to the array at the position. -/
def given (c : Cursor) (line : List Char) (i : Nat) (array : ArrayKind) : List ArrayItem :=
  if c.openAt? = some (i, array) then (arrayItem? array c.comment? (trim line)).toList else []

/-- What is left of an announced token after an item of an array of the kind. -/
def commentAfter (array : ArrayKind) (comment? : Option UInt32) : Option UInt32 :=
  if array = .funcs then none else comment?

/-- The changes that a trimmed line can make. -/
inductive Change (c : Cursor) (line : List Char) : Cursor → Prop where
  | blank : line = [] → Change c line c
  | declaration (assembly : String) : c.openAt? = none →
      Change c line { c with drafts := mention assembly c.drafts }
  | opening {assembly : String} {array : ArrayKind} {i : Nat} {d : Draft} : c.openAt? = none →
      (mention assembly c.drafts)[i]? = some d → d.hasArray array = false →
      Change c line { c with
        drafts := (mention assembly c.drafts).set i (d.openArray array)
        openAt? := some (i, array) }
  | prototype (symbol : String) (s : Signature) : c.openAt? = none →
      Change c line { c with prototypes := (symbol, s) :: c.prototypes }
  | ignored : c.openAt? = none → Change c line c
  | closing : item? line = none → Change c line { c with openAt? := none, comment? := none }
  | comment {i : Nat} {token : UInt32} : c.openAt? = some (i, .funcs) → item? line = none →
      Change c line { c with comment? := some token }
  | item {i : Nat} {array : ArrayKind} {d : Draft} {x : ArrayItem} :
      c.openAt? = some (i, array) → c.drafts[i]? = some d →
      arrayItem? array c.comment? line = some x →
      Change c line { c with
        drafts := c.drafts.set i (d.put x)
        comment? := commentAfter array c.comment? }

end Cursor

/-! ### Finding a draft -/

section Drafts

variable {assembly : String} {drafts : List Draft}

theorem any_name_iff : drafts.any (·.name == assembly) = true ↔
    assembly ∈ drafts.map Draft.name := by
  simp [List.any_eq_true, List.mem_map]

/-- A draft is added only for an assembly that has none. -/
theorem mention_cases (assembly : String) (drafts : List Draft) :
    mention assembly drafts = drafts ∨
      assembly ∉ drafts.map Draft.name ∧
        mention assembly drafts = drafts ++ [{ name := assembly }] := by
  rw [mention]
  split
  · exact Or.inl rfl
  · next h => exact Or.inr ⟨mt any_name_iff.mpr h, rfl⟩

/-- The assembly has its draft at its position among the drafts that mention it. -/
theorem place_spec (assembly : String) (drafts : List Draft) :
    (place assembly drafts).2 = mention assembly drafts ∧
      ∃ d, (mention assembly drafts)[(place assembly drafts).1]? = some d ∧ d.name = assembly := by
  rw [place, mention]
  split
  · next i hi =>
      obtain ⟨hlt, hname, -⟩ := List.findIdx?_eq_some_iff_getElem.mp hi
      have hany : drafts.any (·.name == assembly) = true :=
        List.any_eq_true.mpr ⟨drafts[i], List.getElem_mem hlt, hname⟩
      rw [if_pos hany]
      exact ⟨rfl, drafts[i], List.getElem?_eq_getElem hlt, beq_iff_eq.mp hname⟩
  · next hi =>
      have hany : ¬drafts.any (·.name == assembly) = true := by
        simpa using List.findIdx?_eq_none_iff.mp hi
      rw [if_neg hany]
      exact ⟨rfl, _, List.getElem?_concat_length, rfl⟩

end Drafts

namespace Cursor

variable {c c' : Cursor} {line : List Char} {number : Nat}

theorem change_of_readOutside (ho : c.openAt? = none)
    (h : c.readOutside number line = .ok c') : Change c line c' := by
  unfold readOutside at h
  split at h
  · next assembly _ =>
      cases h
      rw [(place_spec assembly c.drafts).1]
      exact .declaration assembly ho
  · next assembly array _ =>
      obtain ⟨hplace, d, hd, -⟩ := place_spec assembly c.drafts
      simp only [hplace, hd] at h
      split at h
      · cases h
      · next hh =>
          cases h
          exact .opening ho hd (Bool.eq_false_iff.mpr hh)
  · split at h
    · cases h
      exact .prototype _ _ ho
    · cases h
  · cases h
    exact .ignored ho
  · cases h

theorem change_of_readInside {i : Nat} {array : ArrayKind} (ho : c.openAt? = some (i, array))
    (h : c.readInside i array number line = .ok c') : Change c line c' := by
  unfold readInside at h
  split at h
  · next hc =>
      cases h
      exact .closing (item?_of_isClosing hc)
  · split at h
    · cases h
    · next d hd =>
        split at h
        · split at h
          · next token hi =>
              cases h
              exact .item ho hd (congrArg (Option.map ArrayItem.token) hi)
          · cases h
        · split at h
          · next byte hi =>
              cases h
              exact .item ho hd (congrArg (Option.map ArrayItem.flags) hi)
          · cases h
        · split at h
          · next token ht =>
              cases h
              exact .comment ho (item?_of_tokenComment? ht)
          · split at h
            · next symbol hi =>
                cases h
                refine .item ho hd ?_
                rw [arrayItem?, hi, Option.map_some]
            · cases h

/-- A line that is read makes one of the changes. -/
theorem change_of_read (h : c.read number line = .ok c') : Change c (trim line) c' := by
  simp only [read] at h
  split at h
  · next hb =>
      cases h
      exact .blank (List.isEmpty_iff.mp hb)
  · split at h
    · next ho => exact change_of_readInside ho h
    · next ho => exact change_of_readOutside ho h

end Cursor

end InternalCall.Header
