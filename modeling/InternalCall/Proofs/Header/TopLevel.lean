import InternalCall.Proofs.Header.Steps

/-!
# Top-level items

The lines of a header fall into top-level items: an array from the line that opens
it to the line that closes it, and every other line by itself. The lines of parts
fall into one item for each part, and what a part mentions or declares is said by
the first line of its item.
-/

namespace InternalCall.Header

open Text

/-- The lines of a top-level item. -/
abbrev Item := List (List Char)

/-- The items of the lines that follow these lines of an open array, or no open array. -/
def itemsAfter : Option Item → List (List Char) → List Item
  | none, [] => []
  | some block, [] => [block]
  | none, line :: rest =>
    if (opening? line).isSome then itemsAfter (some [line]) rest else [line] :: itemsAfter none rest
  | some block, line :: rest =>
    if isClosing line then (block ++ [line]) :: itemsAfter none rest
    else itemsAfter (some (block ++ [line])) rest

/-- The top-level items of the lines. -/
def topItems (lines : List (List Char)) : List Item := itemsAfter none lines

theorem flatten_itemsAfter (block? : Option Item) (lines : List (List Char)) :
    (itemsAfter block? lines).flatten = block?.getD [] ++ lines := by
  induction lines generalizing block? with
  | nil => cases block? <;> simp [itemsAfter]
  | cons line rest ih =>
      cases block? with
      | none =>
          rw [itemsAfter]
          split
          · rw [ih]
            rfl
          · rw [List.flatten_cons, ih]
            rfl
      | some block =>
          rw [itemsAfter]
          split
          · rw [List.flatten_cons, ih]
            simp
          · rw [ih]
            simp

/-- The items hold all the lines, in their order. -/
theorem flatten_topItems (lines : List (List Char)) : (topItems lines).flatten = lines :=
  flatten_itemsAfter none lines

/-! ## Items of parts -/

/-- No line of a body closes it. -/
theorem BodyLines.not_closing {lines : List (List Char)} {body : Body} {pending : List UInt32}
    (h : BodyLines lines body pending) : ∀ line ∈ lines, isClosing line = false := by
  induction h with
  | empty => exact fun _ hl => absurd hl List.not_mem_nil
  | token _ hn ih | flags _ hn ih =>
      exact List.forall_mem_append.mpr ⟨ih, List.forall_mem_singleton.mpr hn.not_closing⟩
  | comment _ ht ih =>
      exact List.forall_mem_append.mpr ⟨ih, List.forall_mem_singleton.mpr ht.not_closing⟩
  | symbol _ hi ih =>
      exact List.forall_mem_append.mpr ⟨ih, List.forall_mem_singleton.mpr hi.not_closing⟩

/-- An open array goes on to the first line that closes it. -/
theorem itemsAfter_block {lines : List (List Char)} (h : ∀ line ∈ lines, isClosing line = false)
    (block : Item) (rest : List (List Char)) :
    itemsAfter (some block) (lines ++ closingLine :: rest) =
      (block ++ lines ++ [closingLine]) :: topItems rest := by
  induction lines generalizing block with
  | nil =>
      rw [List.nil_append, itemsAfter, if_pos (isClosing_iff.mpr rfl), List.append_nil, topItems]
  | cons line lines ih =>
      obtain ⟨hline, hlines⟩ := List.forall_mem_cons.mp h
      rw [List.cons_append, itemsAfter, if_neg (by simp [hline]), ih hlines]
      simp only [List.append_assoc, List.singleton_append]

/-- A line that opens no array is an item by itself. -/
theorem topItems_cons {line : List Char} (h : ∀ assembly array, ¬OpeningLine line assembly array)
    (rest : List (List Char)) : topItems (line :: rest) = [line] :: topItems rest := by
  have hnone : ¬(opening? line).isSome = true := by
    rw [Option.isSome_iff_exists]
    rintro ⟨⟨assembly, array⟩, ho⟩
    exact h assembly array (opening?_eq_some_iff.mp ho)
  rw [topItems, itemsAfter, if_neg hnone, topItems]

/-- The lines of a part are the first item of all lines that begin with them. -/
theorem PartLines.topItems_append {item : Item} {part : Part} (h : PartLines item part)
    (rest : List (List Char)) : topItems (item ++ rest) = item :: topItems rest := by
  cases h with
  | declaration hd => exact topItems_cons (fun _ _ ho => ho.not_comment hd.comment) rest
  | @block line assembly lines body pending ho hb =>
      have hopen : (opening? line).isSome = true := by
        rw [opening?_eq_some_iff.mpr ho]
        rfl
      rw [List.append_assoc, List.cons_append, topItems, itemsAfter, if_pos hopen,
        List.singleton_append, itemsAfter_block hb.not_closing]
      rfl
  | prototype hp => exact topItems_cons (fun _ _ => hp.not_opening) rest
  | ignored hc => exact topItems_cons (fun _ _ ho => ho.not_comment hc) rest

theorem topItems_flatten {items : List Item} {parts : List Part}
    (h : List.Forall₂ PartLines items parts) : topItems items.flatten = items := by
  induction h with
  | nil => rfl
  | cons hp _ ih => rw [List.flatten_cons, hp.topItems_append, ih]

theorem spells_flatten {items : List Item} {parts : List Part}
    (h : List.Forall₂ PartLines items parts) : Spells items.flatten parts := by
  induction h with
  | nil => exact .nil
  | cons hp _ ih => exact (Spells.single hp).append ih

/-- Parts spell lines exactly when each part has one of their items. -/
theorem spells_iff_topItems {lines : List (List Char)} {parts : List Part} :
    Spells lines parts ↔ List.Forall₂ PartLines (topItems lines) parts := by
  constructor
  · intro h
    obtain ⟨items, hitems, rfl⟩ :
        ∃ items, List.Forall₂ PartLines items parts ∧ lines = items.flatten := by
      induction h with
      | nil => exact ⟨[], .nil, rfl⟩
      | @snoc _ item _ _ _ hp ih =>
          obtain ⟨items, hitems, rfl⟩ := ih
          refine ⟨items ++ [item], List.rel_append hitems (.cons hp .nil), ?_⟩
          rw [List.flatten_append, List.flatten_singleton]
    rwa [topItems_flatten hitems]
  · intro h
    have := spells_flatten h
    rwa [flatten_topItems] at this

/-- Each item of the lines of parts is a declaration, an array, a prototype or an ignored line. -/
theorem exists_partLines {items : List Item} {parts : List Part}
    (h : List.Forall₂ PartLines items parts) : ∀ item ∈ items, ∃ part, PartLines item part := by
  intro item hitem
  obtain ⟨part, -, hp⟩ := exists_of_mem_of_forall₂ h hitem
  exact ⟨part, hp⟩

/-! ## What an item says -/

/-- The assembly that a line mentions. -/
def Line.assembly? : Line → Option String
  | declaration assembly => some assembly
  | opening assembly _ => some assembly
  | _ => none

/-- The symbol and the signature that a line gives it. -/
def Line.prototype? : Line → Option (String × Signature)
  | prototype ret symbol params => (readPrototype ret params).toOption.map (symbol, ·)
  | _ => none

/-- What the first line of the item says. -/
def firstLine? (item : Item) : Option Line := item.head?.bind Line.ofText?

/-- The assembly that the item mentions. -/
def itemAssembly? (item : Item) : Option String := (firstLine? item).bind Line.assembly?

/-- The prototype that the item gives. -/
def itemPrototype? (item : Item) : Option (String × Signature) :=
  (firstLine? item).bind Line.prototype?

theorem firstLine?_of_shaped {line : List Char} {said : Line} (h : Line.Shaped line said)
    (rest : List (List Char)) : firstLine? (line :: rest) = some said :=
  Line.ofText?_eq_some_iff.mpr h

/-- An item mentions and declares what its part does. -/
theorem PartLines.item_eq {item : Item} {part : Part} (h : PartLines item part) :
    itemAssembly? item = part.assembly? ∧ itemPrototype? item = part.prototype? := by
  rw [itemAssembly?, itemPrototype?]
  cases h with
  | declaration hd =>
      rw [firstLine?_of_shaped (.declaration hd)]
      exact ⟨rfl, rfl⟩
  | block ho =>
      rw [List.cons_append, firstLine?_of_shaped (.opening ho)]
      exact ⟨rfl, rfl⟩
  | prototype hp hret hparams =>
      rw [firstLine?_of_shaped (.prototype hp), Option.bind_some, Option.bind_some,
        Line.prototype?, readPrototype_eq_ok_iff.mpr ⟨hret, hparams⟩]
      exact ⟨rfl, rfl⟩
  | ignored hc hn =>
      rw [firstLine?_of_shaped (.ignored hc hn)]
      exact ⟨rfl, rfl⟩

/-- The items mention and declare what the parts do, in the same order. -/
theorem filterMap_items {items : List Item} {parts : List Part}
    (h : List.Forall₂ PartLines items parts) :
    items.filterMap itemAssembly? = parts.filterMap Part.assembly? ∧
      items.filterMap itemPrototype? = parts.filterMap Part.prototype? := by
  induction h with
  | nil => exact ⟨rfl, rfl⟩
  | cons hp _ ih =>
      obtain ⟨hassembly, hprototype⟩ := hp.item_eq
      simp only [List.filterMap_cons, hassembly, hprototype, ih.1, ih.2, and_self]

end InternalCall.Header
