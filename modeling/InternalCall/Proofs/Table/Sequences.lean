import InternalCall.Proofs.Table.Store

/-!
# Three sequences and a list of records

A table may be handed over as a list of records or as three sequences whose
elements at one position belong together. The two layouts are interchangeable:
sequences of one length give what their records give, a store or an error, and
sequences of different lengths are refused before anything of them is lost. The
entries of a store, laid out again, give the store back.
-/

namespace InternalCall

/-- The records of three sequences are those whose parts stand at one position of all three. -/
theorem getElem?_zipped_iff {tokens : List UInt32} {natives : List (Option Native)}
    {flags : List UInt8} {i : Nat} {r : Record} :
    (((tokens.zip natives).zip flags).map fun ((token, native?), flags) =>
        Record.mk token native? flags)[i]? = some r ↔
      tokens[i]? = some r.token ∧ natives[i]? = some r.native? ∧ flags[i]? = some r.flags := by
  obtain ⟨token, native?, flag⟩ := r
  rw [List.getElem?_map, Option.map_eq_some_iff]
  constructor
  · rintro ⟨⟨⟨_, _⟩, _⟩, hzip, ⟨⟩⟩
    obtain ⟨hpair, hflag⟩ := List.getElem?_zip_eq_some.mp hzip
    obtain ⟨htoken, hnative⟩ := List.getElem?_zip_eq_some.mp hpair
    exact ⟨htoken, hnative, hflag⟩
  · rintro ⟨htoken, hnative, hflag⟩
    have hpair : (tokens.zip natives)[i]? = some (token, native?) :=
      List.getElem?_zip_eq_some.mpr ⟨htoken, hnative⟩
    exact ⟨((token, native?), flag), List.getElem?_zip_eq_some.mpr ⟨hpair, hflag⟩, rfl⟩

/-- An entry that a record makes is made by its own record too. -/
theorem Record.Makes.toRecord {r : Record} {e : Entry} (h : r.Makes e) :
    e.toRecord.Makes e :=
  ⟨rfl, rfl, Convention.ofFlag?_flag e.convention, h.arity_le, h.supported⟩

namespace Store

/-- Sequences that are not all of one length are refused, whatever they hold. -/
theorem ofSequences_of_length_ne {tokens : List UInt32} {natives : List (Option Native)}
    {flags : List UInt8}
    (unequal : ¬ (tokens.length = natives.length ∧ natives.length = flags.length)) :
    ofSequences tokens natives flags =
      .error (.lengthMismatch tokens.length natives.length flags.length) := by
  rw [ofSequences, if_neg]
  · rfl
  · rintro ⟨hnatives, hflags⟩
    exact unequal ⟨hnatives, hnatives.symm.trans hflags⟩

/-- The tokens, natives and flag bytes of records give what the records give. -/
theorem ofSequences_map (records : List Record) :
    ofSequences (records.map Record.token) (records.map Record.native?)
      (records.map Record.flags) = build records := by
  rw [ofSequences, if_pos (by simp), List.zip_map', List.zip_map', List.map_map]
  congr 1
  exact List.map_id records

/-- The records of the entries of a store give the store back. -/
theorem build_toRecord {records : List Record} {store : Store}
    (built : build records = .ok store) :
    build (store.entries.toList.map Entry.toRecord) = .ok store := by
  rw [build_eq_ok_iff, List.map_map, List.forall₂_map_left_iff, List.forall₂_same]
  refine ⟨ascending_of_build built, fun e he => ?_⟩
  obtain ⟨r, makes⟩ := exists_makes_of_mem built (Array.mem_def.mpr he)
  exact makes.toRecord

/-- A table as three sequences and as a list of records are interchangeable. Sequences that are not
all of one length are refused with their three lengths, whatever they hold. Sequences of one length
give exactly what the records give that they hold position by position, be it a store or an error,
and every list of records is held by the sequences of its parts. The tokens, natives and flag bytes
of a store that was built give the same store. -/
theorem sequences_interchange_with_records :
    (∀ (tokens : List UInt32) (natives : List (Option Native)) (flags : List UInt8),
      (¬ (tokens.length = natives.length ∧ natives.length = flags.length) →
        ofSequences tokens natives flags =
          .error (.lengthMismatch tokens.length natives.length flags.length)) ∧
      (tokens.length = natives.length → natives.length = flags.length →
        ∃ records : List Record, records.length = tokens.length ∧
          (∀ (i : Nat) (r : Record), records[i]? = some r ↔
            tokens[i]? = some r.token ∧ natives[i]? = some r.native? ∧
              flags[i]? = some r.flags) ∧
          ofSequences tokens natives flags = build records)) ∧
    (∀ records : List Record, ofSequences (records.map Record.token)
      (records.map Record.native?) (records.map Record.flags) = build records) ∧
    ∀ store : Store, store.IsBuilt →
      ofSequences (store.entries.toList.map Entry.token)
        (store.entries.toList.map fun e => some e.native)
        (store.entries.toList.map fun e => e.convention.flag) = .ok store := by
  refine ⟨fun tokens natives flags => ⟨ofSequences_of_length_ne, fun hnatives hflags => ?_⟩,
    ofSequences_map, fun store built => ?_⟩
  · refine ⟨_, ?_, fun i r => getElem?_zipped_iff, if_pos ⟨hnatives, hnatives.trans hflags⟩⟩
    simp [← hnatives, ← hflags]
  · obtain ⟨records, built⟩ := built.exists_build
    have again := ofSequences_map (store.entries.toList.map Entry.toRecord)
    rw [build_toRecord built, List.map_map, List.map_map, List.map_map] at again
    exact again

/-- A record with an unknown flag byte and a token out of order: without its flag byte the sequences
are refused for their lengths, with it as the records are. The store of the two sound records, with
both conventions, is laid out and read back. -/
theorem sequences_interchange_with_records_faulty_entry :
    let echo : Native := .managed 1 ⟨"echo", fun args => .ret (args.headD .void)⟩
    let zero : Native := .allInteger 0 ⟨"zero", fun _ => .ok 0⟩
    let store : Store := ⟨#[⟨5, zero, .raw⟩, ⟨7, echo, .wrapped⟩]⟩
    ofSequences [5, 7, 6] [some zero, some echo, none] [4, 0] = .error (.lengthMismatch 3 3 2) ∧
      (∃ records, records.length = 3 ∧ records[2]? = some ⟨6, none, 9⟩ ∧
        ofSequences [5, 7, 6] [some zero, some echo, none] [4, 0, 9] = build records ∧
        build records = .error (.unsorted 2 7 6)) ∧
      build [.ofNative 5 zero .raw, .ofNative 7 echo .wrapped] = .ok store ∧
      ofSequences [5, 7] [some zero, some echo] [4, 0] = .ok store := by
  intro echo zero store
  have built : build [.ofNative 5 zero .raw, .ofNative 7 echo .wrapped] = .ok store := rfl
  obtain ⟨layouts, -, again⟩ := sequences_interchange_with_records
  refine ⟨(layouts _ _ _).1 (by decide), ?_, built, again store (.ofRecords built)⟩
  obtain ⟨records, length, held, same⟩ :=
    (layouts [5, 7, 6] [some zero, some echo, none] [4, 0, 9]).2 rfl rfl
  exact ⟨records, length, (held 2 _).mpr ⟨rfl, rfl, rfl⟩, same, same.symm.trans rfl⟩

end Store

end InternalCall
