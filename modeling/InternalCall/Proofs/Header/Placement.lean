import InternalCall.Proofs.Header.Cursor
import Mathlib.Data.List.Nodup

/-!
# Items stay in their place

Between lines, a reader by position has drafts of distinct names, the open array
has its draft and is there, and a token is announced only inside an array of
symbols. A line keeps this. It leaves the drafts at their positions, and of the
arrays it changes the open one only, at whose end it adds the item that it is.
After any number of lines, each array thus has the items of those lines that were
read while it was open.
-/

namespace InternalCall.Header

open Text

section Drafts

variable {drafts : List Draft} {i j : Nat} {d d' : Draft} {array other : ArrayKind}

theorem names_prefix_mention (assembly : String) (drafts : List Draft) :
    drafts.map Draft.name <+: (mention assembly drafts).map Draft.name := by
  rcases mention_cases assembly drafts with h | ⟨-, h⟩
  · exact ⟨[], by rw [h, List.append_nil]⟩
  · rw [h, List.map_append]
    exact List.prefix_append ..

theorem nodup_names_mention (assembly : String) (h : (drafts.map Draft.name).Nodup) :
    ((mention assembly drafts).map Draft.name).Nodup := by
  rcases mention_cases assembly drafts with hm | ⟨hn, hm⟩
  · rwa [hm]
  · rw [hm, List.map_append]
    exact List.nodup_append_comm.mp (List.nodup_cons.mpr ⟨hn, h⟩)

theorem names_set (hd : drafts[i]? = some d) (hname : d'.name = d.name) :
    (drafts.set i d').map Draft.name = drafts.map Draft.name := by
  obtain ⟨hi, rfl⟩ := List.getElem?_eq_some_iff.mp hd
  rw [List.map_set, hname, ← List.getElem_map Draft.name (h := by simpa using hi),
    List.set_getElem_self]

/-- A draft that is added has no array. -/
theorem slotAt?_mention (assembly : String) (drafts : List Draft) :
    slotAt? (mention assembly drafts) i array = slotAt? drafts i array := by
  rcases mention_cases assembly drafts with h | ⟨-, h⟩
  · rw [h]
  · rw [h, slotAt?, slotAt?]
    rcases Nat.lt_trichotomy i drafts.length with hlt | rfl | hgt
    · rw [List.getElem?_append_left hlt]
    · rw [List.getElem?_concat_length, List.getElem?_eq_none (Nat.le_refl _)]
      cases array <;> rfl
    · rw [List.getElem?_eq_none (by simp; omega), List.getElem?_eq_none (Nat.le_of_lt hgt)]

theorem slotAt?_of_getElem? (hd : drafts[i]? = some d) :
    slotAt? drafts i array = d.slot? array := by
  rw [slotAt?, hd, Option.bind_some]

/-- A draft that is replaced by one that differs in one array changes this array only. -/
theorem slotAt?_set (hd : drafts[i]? = some d)
    (hsame : ∀ other, other ≠ array → d'.slot? other = d.slot? other) (j : Nat)
    (other : ArrayKind) :
    slotAt? (drafts.set i d') j other =
      if j = i ∧ other = array then d'.slot? array else slotAt? drafts j other := by
  obtain ⟨hi, -⟩ := List.getElem?_eq_some_iff.mp hd
  by_cases hj : j = i
  · subst hj
    rw [slotAt?, List.getElem?_set_self hi, Option.bind_some, slotAt?_of_getElem? hd]
    by_cases ho : other = array
    · rw [if_pos ⟨rfl, ho⟩, ho]
    · rw [if_neg fun h => ho h.2]
      exact hsame other ho
  · rw [if_neg fun h => hj h.1, slotAt?, List.getElem?_set_ne (Ne.symm hj), slotAt?]

end Drafts

namespace Cursor

/-- What holds between lines. -/
structure Sound (c : Cursor) : Prop where
  /-- No two drafts have the same name. -/
  distinct : c.names.Nodup
  /-- The position of the open array has its draft, and the array is there. -/
  present : ∀ i array, c.openAt? = some (i, array) →
    ∃ d, c.drafts[i]? = some d ∧ d.hasArray array = true
  /-- A token is announced only inside an array of symbols. -/
  announced : c.comment? ≠ none → ∃ i, c.openAt? = some (i, .funcs)

/-- The items of the array at the position; none if there is no such array. -/
def items (c : Cursor) (i : Nat) (array : ArrayKind) : List ArrayItem := (c.slot? i array).getD []

/-- What was read first is kept in what was read later, when the given items were added. -/
structure Grows (added : Nat → ArrayKind → List ArrayItem) (c c' : Cursor) : Prop where
  /-- The drafts stay where they are, and new ones follow them. -/
  names : c.names <+: c'.names
  /-- Arrays that are there stay. -/
  present : ∀ i array, (c.slot? i array).isSome = true → (c'.slot? i array).isSome = true
  /-- Each array has the items added to it after those that it had. -/
  items : ∀ i array, c'.items i array = c.items i array ++ added i array

theorem Grows.refl (c : Cursor) : Grows (fun _ _ => []) c c where
  names := List.prefix_refl _
  present _ _ h := h
  items _ _ := (List.append_nil _).symm

theorem Grows.trans {added more : Nat → ArrayKind → List ArrayItem} {c c' c'' : Cursor}
    (h : Grows added c c') (h' : Grows more c' c'') :
    Grows (fun i array => added i array ++ more i array) c c'' where
  names := h.names.trans h'.names
  present i array hs := h'.present i array (h.present i array hs)
  items i array := by rw [h'.items, h.items, List.append_assoc]

variable {c c' : Cursor} {line : List Char} {number : Nat}

theorem sound_start : Sound {} where
  distinct := List.nodup_nil
  present := nofun
  announced h := absurd rfl h

/-- Every change keeps what holds between lines. -/
theorem Sound.change (h : c.Sound) (hc : Change c line c') : c'.Sound := by
  have hquiet (ho : c.openAt? = none) : c.comment? = none := by
    by_contra hcomment
    obtain ⟨i, hi⟩ := h.announced hcomment
    rw [ho] at hi
    cases hi
  cases hc with
  | blank | ignored => exact h
  | declaration assembly ho =>
      exact ⟨nodup_names_mention assembly h.distinct, fun i array hi => by simp [ho] at hi,
        h.announced⟩
  | @opening assembly array i d ho hd hnew =>
      refine ⟨?_, ?_, fun hcomment => absurd (hquiet ho) hcomment⟩
      · rw [names, names_set hd Draft.openArray_name]
        exact nodup_names_mention assembly h.distinct
      · rintro j other ⟨⟩
        refine ⟨_, List.getElem?_set_self (List.getElem?_eq_some_iff.mp hd).1, ?_⟩
        rw [Draft.hasArray_eq_isSome, Draft.openArray_slot?_self]
        rfl
  | prototype => exact ⟨h.distinct, h.present, h.announced⟩
  | closing => exact ⟨h.distinct, nofun, fun hcomment => absurd rfl hcomment⟩
  | @comment i token ho => exact ⟨h.distinct, h.present, fun _ => ⟨i, ho⟩⟩
  | @item i array d x ho hd hx =>
      refine ⟨?_, ?_, fun hcomment => ?_⟩
      · rw [names, names_set hd Draft.put_name]
        exact h.distinct
      · intro j other hj
        obtain ⟨rfl, rfl⟩ := Prod.mk.inj (Option.some.inj (ho.symm.trans hj))
        refine ⟨_, List.getElem?_set_self (List.getElem?_eq_some_iff.mp hd).1, ?_⟩
        rw [Draft.hasArray_eq_isSome, ← array_of_arrayItem? hx, Draft.put_slot?_self]
        rfl
      · by_cases hf : array = .funcs
        · exact absurd (if_pos hf) hcomment
        · refine h.announced fun hnone => hcomment ?_
          exact (if_neg hf).trans hnone

/-- Outside arrays, a line gives none an item. -/
theorem given_of_outside (ho : c.openAt? = none) (i : Nat) (array : ArrayKind) :
    c.given line i array = [] := by
  simp [given, ho]

/-- A line that is no item gives no array an item. -/
theorem given_of_no_item (hi : item? (trim line) = none) (i : Nat) (array : ArrayKind) :
    c.given line i array = [] := by
  rw [given, arrayItem?_of_item? hi]
  exact ite_self _

/-- A change that leaves the arrays alone, on a line that gives no items. -/
theorem Grows.of_same_slots (hnames : c.names <+: c'.names)
    (hslots : ∀ i array, c'.slot? i array = c.slot? i array)
    (hgiven : ∀ i array, c.given line i array = []) : Grows (c.given line) c c' where
  names := hnames
  present i array h := by rwa [hslots]
  items i array := by rw [Cursor.items, Cursor.items, hslots, hgiven, List.append_nil]

/-- Opening an array that is not there adds no items. -/
theorem Grows.opening {assembly : String} {array : ArrayKind} {i : Nat} {d : Draft}
    (ho : c.openAt? = none) (hd : (mention assembly c.drafts)[i]? = some d)
    (hnew : d.hasArray array = false) :
    Grows (c.given line) c { c with
      drafts := (mention assembly c.drafts).set i (d.openArray array)
      openAt? := some (i, array) } := by
  have hvacant : c.slot? i array = none := by
    rw [slot?, ← slotAt?_mention assembly, slotAt?_of_getElem? hd]
    simpa [Draft.hasArray_eq_isSome] using hnew
  have hslot (j : Nat) (other : ArrayKind) :
      slotAt? ((mention assembly c.drafts).set i (d.openArray array)) j other =
        if j = i ∧ other = array then some [] else c.slot? j other := by
    rw [slotAt?_set hd (fun _ => Draft.openArray_slot?_of_ne), Draft.openArray_slot?_self,
      slotAt?_mention, slot?]
  refine ⟨?_, fun j other hthere => ?_, fun j other => ?_⟩
  · rw [Cursor.names, Cursor.names, names_set hd Draft.openArray_name]
    exact names_prefix_mention assembly c.drafts
  · rw [slot?, hslot]
    split
    · rfl
    · exact hthere
  · rw [given_of_outside ho, List.append_nil, Cursor.items, Cursor.items, slot?, hslot]
    split
    · next hj =>
        rw [hj.1, hj.2, hvacant]
        rfl
    · rfl

/-- An item goes to the end of the open array, if this is there. -/
theorem Grows.item {i : Nat} {d : Draft} {x : ArrayItem} {comment? : Option UInt32}
    (ho : c.openAt? = some (i, x.array)) (hd : c.drafts[i]? = some d)
    (hthere : d.hasArray x.array = true)
    (hx : arrayItem? x.array c.comment? (trim line) = some x) :
    Grows (c.given line) c
      { c with drafts := c.drafts.set i (d.put x), comment? := comment? } := by
  obtain ⟨ys, hys⟩ : ∃ ys, c.slot? i x.array = some ys := by
    rw [slot?, slotAt?_of_getElem? hd, ← Option.isSome_iff_exists, ← Draft.hasArray_eq_isSome]
    exact hthere
  have hslot (j : Nat) (other : ArrayKind) :
      slotAt? (c.drafts.set i (d.put x)) j other =
        if j = i ∧ other = x.array then some (ys ++ [x]) else c.slot? j other := by
    rw [slot?, slotAt?_of_getElem? hd] at hys
    rw [slotAt?_set hd (fun _ => Draft.put_slot?_of_ne), Draft.put_slot?_self, hys, slot?,
      Option.getD_some]
  refine ⟨?_, fun j other hj => ?_, fun j other => ?_⟩
  · exact ⟨[], by rw [Cursor.names, Cursor.names, names_set hd Draft.put_name, List.append_nil]⟩
  · rw [slot?, hslot]
    split
    · rfl
    · exact hj
  · rw [Cursor.items, Cursor.items, slot?, hslot]
    split
    · next hj =>
        obtain ⟨rfl, rfl⟩ := hj
        rw [given, if_pos ho, hx, hys]
        rfl
    · next hj =>
        have hclosed : c.openAt? ≠ some (j, other) := by
          rw [ho]
          rintro ⟨⟩
          exact hj ⟨rfl, rfl⟩
        rw [given, if_neg hclosed, List.append_nil]

/-- Every change keeps what was read before, and adds the items that the line gives. -/
theorem Sound.grows (h : c.Sound) (hc : Change c (trim line) c') : Grows (c.given line) c c' := by
  cases hc with
  | blank hb =>
      refine .of_same_slots (List.prefix_refl _) (fun _ _ => rfl) (given_of_no_item ?_)
      rw [hb]
      rfl
  | ignored ho | prototype _ _ ho =>
      exact .of_same_slots (List.prefix_refl _) (fun _ _ => rfl) (given_of_outside ho)
  | closing hi | comment _ hi =>
      exact .of_same_slots (List.prefix_refl _) (fun _ _ => rfl) (given_of_no_item hi)
  | declaration assembly ho =>
      exact .of_same_slots (names_prefix_mention assembly c.drafts)
        (fun _ _ => slotAt?_mention assembly c.drafts) (given_of_outside ho)
  | opening ho hd hnew => exact .opening ho hd hnew
  | @item i array d x ho hd hx =>
      obtain rfl := array_of_arrayItem? hx
      obtain ⟨_, hd', hthere⟩ := h.present i x.array ho
      obtain rfl := Option.some.inj (hd.symm.trans hd')
      exact .item ho hd hthere hx

/-! ## Runs -/

/-- The items that the lines add to the array at the position, each by the array that is open when
its line is read. -/
def givenAll (c : Cursor) (number : Nat) (lines : List (List Char)) (i : Nat) (array : ArrayKind) :
    List ArrayItem :=
  match lines with
  | [] => []
  | line :: rest =>
    match c.read number line with
    | .ok next => c.given line i array ++ next.givenAll (number + 1) rest i array
    | .error _ => []

theorem readAll_cons_eq_ok_iff {rest : List (List Char)} :
    c.readAll number (line :: rest) = .ok c' ↔
      ∃ next, c.read number line = .ok next ∧ next.readAll (number + 1) rest = .ok c' := by
  rw [readAll]
  cases c.read number line with
  | error e => simp
  | ok next => simp

/-- A line that is read keeps what holds between lines and what was read before. -/
theorem Sound.read (h : c.Sound) (hr : c.read number line = .ok c') :
    c'.Sound ∧ Grows (c.given line) c c' := by
  have hchange := change_of_read hr
  exact ⟨h.change hchange, h.grows hchange⟩

/-- Lines that are read keep what holds between lines and what was read before. -/
theorem Sound.readAll (h : c.Sound) {lines : List (List Char)}
    (hr : c.readAll number lines = .ok c') :
    c'.Sound ∧ Grows (c.givenAll number lines) c c' := by
  induction lines generalizing c number with
  | nil =>
      cases hr
      exact ⟨h, .refl _⟩
  | cons line rest ih =>
      obtain ⟨next, hline, hrest⟩ := readAll_cons_eq_ok_iff.mp hr
      obtain ⟨hnext, hgrows⟩ := h.read hline
      obtain ⟨hsound, hlater⟩ := ih hnext hrest
      have hgiven : c.givenAll number (line :: rest) = fun i array =>
          c.given line i array ++ next.givenAll (number + 1) rest i array := by
        funext i array
        rw [givenAll, hline]
      rw [hgiven]
      exact ⟨hsound, hgrows.trans hlater⟩

end Cursor

end InternalCall.Header
