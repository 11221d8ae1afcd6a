import InternalCall.Proofs.Header.Placement
import InternalCall.Proofs.Except

/-!
# Reading by position and by name

A reader that keeps the open array by position does what the reader does that
keeps it by the name of its assembly: names are distinct, so the draft at the
position is the one that has the name. The position is thus never out of range.
-/

namespace InternalCall.Header

open Text

section Drafts

variable {drafts : List Draft} {i : Nat} {d : Draft} {array : ArrayKind}

/-- Among drafts of distinct names, changing the one that has a name is changing it in its place. -/
theorem change_eq_set (distinct : (drafts.map Draft.name).Nodup) (hd : drafts[i]? = some d)
    (f : Draft → Draft) : change d.name f drafts = drafts.set i (f d) := by
  obtain ⟨hi, rfl⟩ := List.getElem?_eq_some_iff.mp hd
  refine List.ext_getElem (by simp [change]) fun j hj hj' => ?_
  have hlt : j < drafts.length := by simpa using hj'
  by_cases hij : i = j
  · subst hij
    simp [change]
  · have hne : drafts[j].name ≠ drafts[i].name := by
      intro hname
      have hsame : (drafts.map Draft.name)[i]? = (drafts.map Draft.name)[j]? := by
        simp [hi, hlt, hname]
      exact hij ((List.getElem?_inj (by simpa using hi) distinct).mp hsame)
    rw [List.getElem_set_ne hij]
    simp [change, hne]

/-- Among drafts of distinct names, the one that has a name tells whether an array is there. -/
theorem hasArray_eq (distinct : (drafts.map Draft.name).Nodup) (hd : drafts[i]? = some d) :
    hasArray d.name array drafts = d.hasArray array := by
  have hmem : d ∈ drafts := List.mem_of_getElem? hd
  rw [Bool.eq_iff_iff, hasArray, List.any_eq_true]
  constructor
  · rintro ⟨e, he, h⟩
    obtain ⟨hname, harray⟩ := Bool.and_eq_true_iff.mp h
    rwa [← List.inj_on_of_nodup_map distinct he hmem (beq_iff_eq.mp hname)]
  · intro h
    exact ⟨d, hmem, by simp [h]⟩

/-- A draft that is added has no array. -/
theorem hasArray_mention (assembly : String) (drafts : List Draft) :
    hasArray assembly array (mention assembly drafts) = hasArray assembly array drafts := by
  rcases mention_cases assembly drafts with h | ⟨-, h⟩
  · rw [h]
  · have hnone : ({ name := assembly } : Draft).hasArray array = false := by cases array <;> rfl
    rw [h, hasArray, hasArray, List.any_append]
    simp [hnone]

end Drafts

namespace Cursor

variable {c c' : Cursor} {line : List Char} {number : Nat}

/-- The open array, by the name of its assembly. -/
def openArray? (c : Cursor) : Option (String × ArrayKind) :=
  c.openAt?.bind fun (i, array) => c.drafts[i]?.map fun d => (d.name, array)

/-- What has been read, without positions. -/
def forget (c : Cursor) : Progress where
  drafts := c.drafts
  prototypes := c.prototypes
  openArray? := c.openArray?
  comment? := c.comment?

theorem openArray?_of_open {i : Nat} {array : ArrayKind} {d : Draft}
    (ho : c.openAt? = some (i, array)) (hd : c.drafts[i]? = some d) :
    c.forget.openArray? = some (d.name, array) := by
  simp [forget, openArray?, ho, hd]

theorem openArray?_of_closed (ho : c.openAt? = none) : c.forget.openArray? = none := by
  simp [forget, openArray?, ho]

/-- Changing the draft of the open array, but not its name, leaves the same array open. -/
theorem forget_set {i : Nat} {array : ArrayKind} {d d' : Draft}
    (ho : c.openAt? = some (i, array)) (hd : c.drafts[i]? = some d) (hname : d'.name = d.name)
    (comment? : Option UInt32) :
    forget { c with drafts := c.drafts.set i d', comment? := comment? } =
      { c.forget with drafts := c.drafts.set i d', comment? := comment? } := by
  have hset : (c.drafts.set i d')[i]? = some d' :=
    List.getElem?_set_self (List.getElem?_eq_some_iff.mp hd).1
  simp [forget, openArray?, ho, hd, hset, hname]

/-- Adding an item to the open array by its position is adding it by the name of its assembly. -/
theorem forget_put (h : c.Sound) {i : Nat} {d : Draft} {x : ArrayItem}
    (ho : c.openAt? = some (i, x.array)) (hd : c.drafts[i]? = some d) {f : Draft → Draft}
    (hf : d.put x = f d) (comment? : Option UInt32) :
    forget { c with drafts := c.drafts.set i (d.put x), comment? := comment? } =
      { c.forget with drafts := change d.name f c.forget.drafts, comment? := comment? } := by
  have hchange : change d.name f c.forget.drafts = c.drafts.set i (d.put x) := by
    rw [hf]
    exact change_eq_set h.distinct hd f
  rw [forget_set ho hd Draft.put_name, hchange]

/-- Inside an array, both readers do the same. -/
theorem readInside_agrees (h : c.Sound) {i : Nat} {array : ArrayKind} {d : Draft}
    (ho : c.openAt? = some (i, array)) (hd : c.drafts[i]? = some d)
    (hthere : d.hasArray array = true) :
    (c.readInside i array number line).map forget =
      (c.forget.readInside d.name array number line).mapError .refused := by
  unfold readInside Progress.readInside
  split
  · rfl
  · rw [hd]
    cases array with
    | indexes =>
        cases (item? line).bind uint32? with
        | none => rfl
        | some token =>
            exact congrArg Except.ok
              (forget_put (x := .token token) h ho hd (Draft.put_eq hthere) _)
    | flags =>
        cases (item? line).bind uint8? with
        | none => rfl
        | some byte =>
            exact congrArg Except.ok
              (forget_put (x := .flags byte) h ho hd (Draft.put_eq hthere) _)
    | funcs =>
        cases tokenComment? line with
        | some token => rfl
        | none =>
            cases item? line with
            | none => rfl
            | some symbol =>
                exact congrArg Except.ok
                  (forget_put (x := .func _) h ho hd (Draft.put_eq hthere) none)

/-- Outside arrays, both readers do the same. -/
theorem readOutside_agrees (h : c.Sound) (ho : c.openAt? = none) :
    (c.readOutside number line).map forget =
      (c.forget.readOutside number line).mapError .refused := by
  have hclosed (drafts : List Draft) : forget { c with drafts := drafts } =
      { c.forget with drafts := drafts } := by
    simp [forget, openArray?, ho]
  rw [readOutside, Progress.readOutside]
  cases Line.ofText? line with
  | none => rfl
  | some said =>
      cases said with
      | declaration assembly =>
          obtain ⟨hplace, -⟩ := place_spec assembly c.drafts
          simp only [hplace]
          exact congrArg Except.ok (hclosed _)
      | opening assembly array =>
          obtain ⟨hplace, d, hd, rfl⟩ := place_spec assembly c.drafts
          have hdistinct := nodup_names_mention d.name h.distinct
          have hthere : hasArray d.name array c.forget.drafts = d.hasArray array :=
            (hasArray_mention d.name c.drafts).symm.trans (hasArray_eq hdistinct hd)
          have hopen : change d.name (·.openArray array) (mention d.name c.forget.drafts) = _ :=
            change_eq_set hdistinct hd (·.openArray array)
          simp only [hplace, hd, hthere, hopen]
          split
          · rfl
          · refine congrArg Except.ok ?_
            have hset := List.getElem?_set_self (a := d.openArray array)
              (List.getElem?_eq_some_iff.mp hd).1
            simp [forget, openArray?, hset]
      | prototype ret symbol params =>
          dsimp only
          cases readPrototype ret params <;> rfl
      | ignored => rfl

/-- Both readers do the same with a line. -/
theorem read_agrees (h : c.Sound) :
    (c.read number line).map forget = (c.forget.read number line).mapError .refused := by
  rw [read, Progress.read]
  split
  · rfl
  · cases ho : c.openAt? with
    | none =>
        rw [openArray?_of_closed ho]
        exact readOutside_agrees h ho
    | some opened =>
        obtain ⟨i, array⟩ := opened
        obtain ⟨d, hd, hthere⟩ := h.present i array ho
        rw [openArray?_of_open ho hd]
        exact readInside_agrees h ho hd hthere

/-- Both readers do the same with lines. -/
theorem readAll_agrees (h : c.Sound) (lines : List (List Char)) :
    (c.readAll number lines).map forget =
      (c.forget.readAll number lines).mapError .refused := by
  induction lines generalizing c number with
  | nil => rfl
  | cons line rest ih =>
      rw [readAll, Progress.readAll]
      rcases map_eq_mapError_iff.mp (read_agrees h) with ⟨next, hc, hp⟩ | ⟨e, hc, hp⟩
      · rw [hc, hp]
        exact ih (h.change (change_of_read hc))
      · rw [hc, hp]
        rfl

/-- Both readers finish alike. -/
theorem finish_agrees (h : c.Sound) : c.finish = c.forget.finish.mapError .refused := by
  rw [finish, Progress.finish]
  cases ho : c.openAt? with
  | none =>
      rw [openArray?_of_closed ho]
      have hsame : c.forget.drafts.mapM (·.finish c.forget.prototype?) =
          c.drafts.mapM (·.finish fun symbol => c.prototypes.lookup symbol) := rfl
      simp only [hsame]
      cases c.drafts.mapM (·.finish fun symbol => c.prototypes.lookup symbol) <;> rfl
  | some opened =>
      obtain ⟨i, array⟩ := opened
      obtain ⟨d, hd, -⟩ := h.present i array ho
      rw [openArray?_of_open ho hd]
      simp only [hd]
      rfl

/-- From the start on, both readers do the same with lines. -/
theorem start_agrees (lines : List (List Char)) :
    (readAll {} 1 lines).map forget = (Progress.readAll {} 1 lines).mapError .refused :=
  readAll_agrees sound_start lines

/-- Both readers give the same header, or the same error. -/
theorem parse_agrees (text : String) : parse text = (Header.parse text).mapError .refused := by
  rw [parse, Header.parse]
  rcases map_eq_mapError_iff.mp (start_agrees (lines text.toList)) with ⟨c, hc, hp⟩ | ⟨e, hc, hp⟩
  · rw [hc, hp]
    exact finish_agrees (sound_start.readAll hc).1
  · rw [hc, hp]
    rfl

/-- Between lines that were read, the position of the open array is that of a draft. -/
theorem Sound.read_ne_outOfRange (h : c.Sound) : c.read number line ≠ .error .outOfRange := by
  have hagree : (c.read number line).map forget = _ := read_agrees h
  rcases map_eq_mapError_iff.mp hagree with ⟨next, hc, -⟩ | ⟨e, hc, -⟩
  · rw [hc]
    nofun
  · rw [hc]
    nofun

end Cursor

/-- The reader that keeps the open array by the position of its draft reads every text as the one
that keeps it by name does; the position is never out of range. After each line that it reads, no
two drafts have the same name, the open array has its draft and is there, and a token is announced
only inside an array of symbols. Later lines keep the drafts where they are, with new ones after
them, and the arrays that are there; a line changes the open array only, at whose end it adds the
item that it is. So each array has the items of the lines that were read while it was open. -/
theorem reading_keeps_items_in_place (text : String) :
    Cursor.parse text = (parse text).mapError .refused ∧
      ∀ front rest, lines text.toList = front ++ rest →
        ∀ c, Cursor.readAll {} 1 front = .ok c →
          c.Sound ∧ Progress.readAll {} 1 front = .ok c.forget ∧
          (∀ i array, c.items i array = Cursor.givenAll {} 1 front i array) ∧
          (∀ line after, rest = line :: after →
            c.read (front.length + 1) line ≠ .error .outOfRange ∧
            ∀ c', c.read (front.length + 1) line = .ok c' →
              c'.Sound ∧ Cursor.Grows (c.given line) c c') ∧
          ∀ more after, rest = more ++ after →
            ∀ c', c.readAll (front.length + 1) more = .ok c' →
              Cursor.Grows (c.givenAll (front.length + 1) more) c c' := by
  refine ⟨Cursor.parse_agrees text, fun front rest _ c hc => ?_⟩
  obtain ⟨hsound, hgrows⟩ := Cursor.sound_start.readAll hc
  refine ⟨hsound, ?_, fun i array => ?_,
    fun line after _ => ⟨hsound.read_ne_outOfRange, fun c' hread => hsound.read hread⟩,
    fun more after _ c' hread => (hsound.readAll hread).2⟩
  · rcases map_eq_mapError_iff.mp (Cursor.start_agrees front) with ⟨c', hc', hp⟩ | ⟨e, hc', -⟩
    · rwa [Except.ok.inj (hc.symm.trans hc')]
    · cases hc.symm.trans hc'
  · have hnone : Cursor.items {} i array = [] := by cases array <;> rfl
    rw [hgrows.items, hnone, List.nil_append]

/-- The assembly that is mentioned second has its arrays at the second position. -/
example :
    ((Cursor.readAll {} 1 (["#define ICALL_TABLE_a 1", "static int b_icall_indexes [] = \x7b",
      "7,"].map String.toList)).toOption.map fun c => (c.items 0 .indexes, c.items 1 .indexes)) =
      some ([], [.token 7]) := by
  decide +kernel

end InternalCall.Header
