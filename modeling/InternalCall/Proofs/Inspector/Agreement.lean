import InternalCall.Inspector.Run
import InternalCall.Proofs.Header.RoundTrip
import InternalCall.Proofs.Registry.Linking

/-!
# The inspector agrees with the registry

The inspector applies to a header the rules that a registry applies when it is
built, but without the natives. A header that it accepts is never refused for the
order or the flag bytes of a table, and a table that it marks as failed gives no
registry, whatever natives are registered. A lookup answers with the one entry
of its token.
-/

namespace InternalCall.Inspector

/-- A command succeeds exactly when its report has no failure. -/
theorem Report.code_outcome {colored : Bool} {r : Report} :
    (r.outcome colored).code = 0 ↔ r.failure? = none := by
  unfold Report.outcome
  cases r.failure? <;> simp

/-- A report is written whether the command fails or not. -/
theorem Report.output_outcome {colored : Bool} {r : Report} :
    (r.outcome colored).output = render colored r.pieces := by
  unfold Report.outcome
  cases r.failure? <;> rfl

section
variable {s : Surroundings} {path text : String} (readable : s.file path = .ok text)
include readable

/-- The header in a file that can be read is that of its text. -/
theorem Surroundings.header_eq :
    s.header path = (Header.parse text).mapError fun e => .header path (.malformed e) := by
  rw [Surroundings.header, Header.ofFile, readable]
  show ((Header.parse text).mapError HeaderFileError.malformed).mapError
    (InspectionError.header path) = _
  cases Header.parse text <;> rfl

/-- A text that is no header fails a check and a lookup. -/
theorem Command.run_of_malformed {e : HeaderError} (malformed : Header.parse text = .error e) :
    (Command.check path none).run s = .ofError (.header path (.malformed e)) ∧
      ∀ token assembly, (Command.lookup path token assembly).run s =
        .ofError (.header path (.malformed e)) := by
  simp only [Command.run, Surroundings.header_eq readable, malformed]
  exact ⟨rfl, fun _ _ => rfl⟩

/-- A check of a header reports on each of its tables. -/
theorem Command.run_check {h : Header} (parsed : Header.parse text = .ok h) :
    (Command.check path none).run s = ⟨verdicts h, checkFailure? path h⟩ := by
  simp only [Command.run, Surroundings.header_eq readable, parsed]
  rfl

/-- A lookup in a header reports the entry that it finds. -/
theorem Command.run_lookup {h : Header} (parsed : Header.parse text = .ok h) (token : UInt32)
    (assembly : String) :
    (Command.lookup path token assembly).run s =
      .ofExcept ((findEntry h token assembly).map fun e => { pieces := describeEntry e }) := by
  simp only [Command.run, Surroundings.header_eq readable, parsed]
  show Report.ofExcept (findEntry h token assembly >>= _) = _
  cases findEntry h token assembly <;> rfl

end

/-! ## Checking -/

theorem isOk_validate (t : AssemblyTable) : t.validate.isOk = true ↔ t.validate = .ok () :=
  isOk_iff.trans ⟨fun ⟨_, h⟩ => h, fun h => ⟨_, h⟩⟩

/-- The tables that are counted are those that are not valid. -/
theorem countInvalid_eq (h : Header) :
    countInvalid h = (h.tables.filter fun t => t.validate ≠ .ok ()).length := by
  rw [countInvalid, List.countP_eq_length_filter]
  congr 2
  funext t
  cases t.validate <;> rfl

/-- A check fails unless there are tables and all of them are valid. -/
theorem checkFailure?_eq_none_iff {path : String} {h : Header} :
    checkFailure? path h = none ↔ h.tables ≠ [] ∧ ∀ t ∈ h.tables, t.validate = .ok () := by
  have hcount : countInvalid h = 0 ↔ ∀ t ∈ h.tables, t.validate = .ok () := by
    simp [countInvalid, List.countP_eq_zero, isOk_validate]
  rw [checkFailure?, ← hcount]
  cases h.tables with
  | nil => simp
  | cons t rest =>
      by_cases hc : countInvalid h = 0 <;> simp [hc]

/-- A table is marked as failed exactly when it is not valid. -/
theorem failure_mem_verdict {t : AssemblyTable} :
    styled .failure "  FAIL " ∈ verdict t ↔ t.validate ≠ .ok () := by
  unfold verdict
  cases t.validate with
  | ok u => simp [styled, plain, Style.failure, Style.success]
  | error e => simp

/-! ## Looking up -/

/-- An entry is found exactly when it has the token in the valid table of the assembly. -/
theorem findEntry_eq_ok_iff {h : Header} (distinct : (h.tables.map AssemblyTable.name).Nodup)
    {token : UInt32} {assembly : String} {e : TableEntry} :
    findEntry h token assembly = .ok e ↔ ∃ t ∈ h.tables, t.name = assembly ∧
      t.validate = .ok () ∧ e ∈ t.entries ∧ e.token = token := by
  have hsearch : findEntry h token assembly = .ok e ↔ ∃ t, h.table? assembly = some t ∧
      t.validate = .ok () ∧ t.lookup? token = some e := by
    unfold findEntry
    cases h.table? assembly with
    | none => simp
    | some t =>
        simp only [Option.some.injEq, exists_eq_left']
        cases t.validate with
        | error err => simp [Except.mapError, bind, Except.bind]
        | ok u =>
            simp only [Except.mapError, bind, Except.bind, true_and]
            cases t.lookup? token <;> simp [pure, Except.pure]
  rw [hsearch]
  refine exists_congr fun t => ?_
  rw [Header.table?_eq_some_iff distinct, and_assoc]
  refine and_congr_right fun _ => and_congr_right fun _ => and_congr_right fun valid => ?_
  exact searchByToken_eq_some_iff (AssemblyTable.validate_eq_ok_iff.mp valid).1

/-- In a valid table an entry has a convention, which the report on it shows. -/
theorem describeEntry_of_valid {t : AssemblyTable} (valid : t.validate = .ok ()) {e : TableEntry}
    (he : e ∈ t.entries) : ∃ c, e.convention? = some c ∧
      describeEntry e = [styled .heading e.symbol, plain "\n",
        styled .dim "  token:      ", plain s!"{e.token}", plain "\n",
        styled .dim "  convention: ", styled .info c.text, plain "\n",
        styled .dim "  signature:  ", plain (signatureText e), plain "\n"] := by
  have known := (AssemblyTable.validate_eq_ok_iff.mp valid).2 e (Array.mem_def.mp he)
  obtain ⟨c, hc⟩ := Option.ne_none_iff_exists'.mp known
  refine ⟨c, hc, ?_⟩
  rw [describeEntry, conventionPiece, hc]

/-! ## The outcomes -/

section
variable {s : Surroundings} {path text : String} (readable : s.file path = .ok text)
  (color? : Option String)
include readable

/-- A check succeeds exactly on a header with tables that are all valid. -/
theorem code_check_eq_zero_iff :
    (run s (some (.run color? (.check path none)))).code = 0 ↔
      ∃ h, Header.parse text = .ok h ∧ h.tables ≠ [] ∧ ∀ t ∈ h.tables, t.validate = .ok () := by
  rw [run, Report.code_outcome]
  cases parsed : Header.parse text with
  | error e =>
      rw [(Command.run_of_malformed readable parsed).1]
      simp [Report.ofError]
  | ok h =>
      rw [Command.run_check readable parsed]
      simp [checkFailure?_eq_none_iff]

/-- A check that fails for its tables says how many of them are not valid. -/
theorem errors_check {h : Header} (parsed : Header.parse text = .ok h) (some_table : h.tables ≠ [])
    (failed : (run s (some (.run color? (.check path none)))).code ≠ 0) :
    (run s (some (.run color? (.check path none)))).errors =
      "Error: " ++ (InspectionError.invalidTables
        (h.tables.filter fun t => t.validate ≠ .ok ()).length h.tables.length).message ++ "\n" := by
  rw [run, Command.run_check readable parsed] at failed ⊢
  rw [Ne, Report.code_outcome] at failed
  have hfailure : checkFailure? path h = some (.invalidTables (countInvalid h) h.tables.length) := by
    unfold checkFailure? at failed ⊢
    have hempty : h.tables.isEmpty = false := by simpa using some_table
    by_cases hc : countInvalid h = 0
    · simp [hempty, hc] at failed
    · simp [hempty, hc]
  rw [← countInvalid_eq, Report.outcome, hfailure]
  exact String.append_empty

/-- A lookup succeeds exactly if the header has a valid table of the assembly in which some entry
has the token. -/
theorem code_lookup_eq_zero_iff (token : UInt32) (assembly : String) :
    (run s (some (.run color? (.lookup path token assembly)))).code = 0 ↔
      ∃ h, Header.parse text = .ok h ∧ ∃ t ∈ h.tables, t.name = assembly ∧
        t.validate = .ok () ∧ ∃ e ∈ t.entries, e.token = token := by
  rw [run, Report.code_outcome]
  cases parsed : Header.parse text with
  | error e =>
      rw [(Command.run_of_malformed readable parsed).2]
      simp [Report.ofError]
  | ok h =>
      have hfound : (∃ e, findEntry h token assembly = .ok e) ↔ ∃ t ∈ h.tables,
          t.name = assembly ∧ t.validate = .ok () ∧ ∃ e ∈ t.entries, e.token = token := by
        simp only [findEntry_eq_ok_iff (Header.nodup_names_of_parse parsed)]
        constructor
        · rintro ⟨e, t, ht, hname, valid, he, htoken⟩
          exact ⟨t, ht, hname, valid, e, he, htoken⟩
        · rintro ⟨t, ht, hname, valid, e, he, htoken⟩
          exact ⟨e, t, ht, hname, valid, he, htoken⟩
      simp only [Except.ok.injEq, exists_eq_left']
      rw [Command.run_lookup readable parsed, ← hfound]
      cases findEntry h token assembly <;> simp [Except.map, Report.ofExcept, Report.ofError]

/-- A lookup that finds an entry reports it. -/
theorem outcome_lookup {h : Header} (parsed : Header.parse text = .ok h) {t : AssemblyTable}
    (ht : t ∈ h.tables) (valid : t.validate = .ok ()) {e : TableEntry} (he : e ∈ t.entries) :
    run s (some (.run color? (.lookup path e.token t.name))) =
      ⟨0, render (isColored s.env color?) (describeEntry e), ""⟩ := by
  rw [run, Command.run_lookup readable parsed, (findEntry_eq_ok_iff
    (Header.nodup_names_of_parse parsed)).mpr ⟨t, ht, rfl, valid, he, rfl⟩]
  rfl

end

end InternalCall.Inspector
