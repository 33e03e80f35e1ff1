import IsaTable.Proofs.CommandLine.AllOrNothing
import IsaTable.Proofs.CommandLine.Extension
import IsaTable.Proofs.Json.RoundTrip
import IsaTable.Proofs.Table.Formats

/-! # The format of the input

    A run loads its input as a JSON table or as pattern text.  Which of the two
    it is shows in what is loaded, since no text is both
    (`loadDecl_ne_loadPatterns`), and it is decided by the path alone:

    * **A path that can be read** names a file at its end, so that its extension
      is that of the file name (`FileSystem.not_isIdle_of_readText`).
    * **The ending `.json`** makes it a JSON table, whatever stands before it,
      unless `.json` is the whole file name.  A file of that name has no
      extension and is loaded as pattern text, in spite of its ending
      (`generate_by_ending`).
-/

namespace IsaTable.CommandLine

open FileSystem

/-! ## §1. Paths that can be read -/

namespace FileSystem

variable {fs : FileSystem}

/-- The last step of a walk. -/
theorem exists_step_of_walk {start place : Location} {front : List String} {name : String}
    (h : fs.walk start (front ++ [name]) = .ok place) :
    ∃ middle, fs.step middle name = .ok place := by
  induction front generalizing start with
  | nil =>
    rw [List.nil_append, walk] at h
    split at h
    · next hstep =>
      obtain rfl := Except.ok.inj h
      exact ⟨start, hstep⟩
    · contradiction
  | cons first rest ih =>
    rw [List.cons_append, walk] at h
    split at h
    · exact ih h
    · contradiction

/-- An idle name leads to a directory, the one where it is met. -/
theorem directory_of_idle_step {place next : Location} {name : String}
    (h : fs.step place name = .ok next) (hidle : Path.isIdle name.toList = true) :
    fs.node? next = some .directory := by
  have hplace := directory_of_step h
  simp only [step, hplace, hidle, if_true] at h
  obtain rfl := Except.ok.inj h
  exact hplace

/-- A text is read from a file that the path leads to. -/
theorem exists_file_of_readText {path text : String} (h : fs.readText path = .ok text) :
    ∃ place content, fs.walk (fs.origin path) (names path) = .ok place ∧
      fs.node? place = some (.file content) := by
  unfold readText at h
  split at h
  · contradiction
  · next place hresolve =>
    unfold resolve at hresolve
    split at hresolve
    · contradiction
    · split at h
      · contradiction
      · contradiction
      · next content hcontent => exact ⟨place, content, hresolve, hcontent⟩

/-- **A path that can be read** names a file at its end. -/
theorem not_isIdle_of_readText {path text : String} (h : fs.readText path = .ok text) :
    Path.isIdle (Path.fileName path.toList) = false := by
  obtain ⟨place, content, hwalk, hfile⟩ := exists_file_of_readText h
  obtain ⟨front, hparts⟩ := List.getLast?_eq_some_iff.1 (Path.getLast?_parts path.toList)
  have hnames : names path =
      front.map String.ofList ++ [String.ofList (Path.fileName path.toList)] := by
    rw [names, hparts, List.map_append, List.map_singleton]
  rw [hnames] at hwalk
  obtain ⟨middle, hstep⟩ := exists_step_of_walk hwalk
  by_contra hidle
  have hdirectory := directory_of_idle_step hstep (by simpa using hidle)
  rw [hfile] at hdirectory
  exact nomatch hdirectory

end FileSystem

/-! ## §2. Two ways of loading -/

/-- A JSON table is refused as pattern text. -/
theorem loadPatterns_of_ofJson {text : String} {d : TableDecl} (h : TableDecl.ofJson text = .ok d)
    (path : String) : ∃ e, (loadPatterns path text).outcome = .error (.compilePatterns path e) := by
  obtain ⟨e, he⟩ := Table.ofPatterns_of_ofJson h
  exact ⟨e, outcome_loadPatterns_eq_error_iff.2 ⟨e, he, rfl⟩⟩

/-- No failure to load JSON is one to load pattern text. -/
theorem outcome_loadDecl_ne (path text : String) (e : LineError) :
    (loadDecl path text).outcome ≠ .error (.compilePatterns path e) := by
  intro h
  rcases outcome_loadDecl_eq_error_iff.1 h with ⟨_, -, hfailure⟩ | ⟨_, _, -, -, hfailure⟩ <;>
    cases hfailure

/-- No failure to load pattern text is one to read JSON. -/
theorem outcome_loadPatterns_ne (path text : String) (e : Json.Error) :
    (loadPatterns path text).outcome ≠ .error (.parse path e) := by
  intro h
  obtain ⟨_, -, hfailure⟩ := outcome_loadPatterns_eq_error_iff.1 h
  cases hfailure

/-- **The way of loading shows.**  Failures say which way was taken, and no text
    is loaded both ways. -/
theorem loadDecl_ne_loadPatterns (path text : String) :
    loadDecl path text ≠ loadPatterns path text := by
  intro heq
  have houtcome := congrArg Logged.outcome heq
  cases hread : TableDecl.ofJson text with
  | error e =>
    have hparse : (loadDecl path text).outcome = .error (.parse path e) :=
      outcome_loadDecl_eq_error_iff.2 (.inl ⟨e, hread, rfl⟩)
    exact outcome_loadPatterns_ne path text e (houtcome.symm.trans hparse)
  | ok d =>
    obtain ⟨e, he⟩ := loadPatterns_of_ofJson hread path
    exact outcome_loadDecl_ne path text e (houtcome.trans he)

/-- A file is read as JSON exactly if its path says so. -/
theorem loadTable_eq_loadDecl_iff {path text : String} :
    loadTable path text = loadDecl path text ↔ isJsonPath path = true := by
  by_cases hjson : isJsonPath path = true
  · have hload : loadTable path text = loadDecl path text := if_pos hjson
    exact iff_of_true hload hjson
  · have hload : loadTable path text = loadPatterns path text := if_neg hjson
    rw [hload]
    exact iff_of_false (loadDecl_ne_loadPatterns path text).symm hjson

theorem loadTable_eq_loadPatterns_iff {path text : String} :
    loadTable path text = loadPatterns path text ↔ ¬ isJsonPath path = true := by
  by_cases hjson : isJsonPath path = true
  · rw [loadTable_eq_loadDecl_iff.2 hjson]
    exact iff_of_false (loadDecl_ne_loadPatterns path text) (not_not_intro hjson)
  · exact iff_of_true (if_neg hjson) hjson

/-! ## §3. Runs -/

section
variable {disk : Disk (StateM FileSystem) Location}

/-- **The ending decides.**  A run that cannot read its input reports that.  Any
    other goes on with what it has loaded, which is a JSON table exactly if the
    path ends in `.json` and this is not the whole file name, and pattern text
    exactly otherwise.  So a file that is named `.json` is loaded as pattern text
    although its path has that ending, and every JSON table in it is refused. -/
theorem generate_by_ending (hdisk : disk.Lawful) (o : Options) (fs : FileSystem) :
    (∃ e, (disk.readText o.input).run fs = (.error e, fs) ∧
      (generate disk o).run fs = (([], .error (.read o.input e)), fs)) ∨
    ∃ text loaded, fs.readText o.input = .ok text ∧
      (generate disk o).run fs = (finish disk o loaded).run fs ∧
      (loaded = loadDecl o.input text ↔
        jsonEnding <:+ o.input.toList ∧ Path.fileName o.input.toList ≠ jsonEnding) ∧
      (loaded = loadPatterns o.input text ↔
        ¬ (jsonEnding <:+ o.input.toList ∧ Path.fileName o.input.toList ≠ jsonEnding)) ∧
      (Path.fileName o.input.toList = jsonEnding → jsonEnding <:+ o.input.toList ∧
        ∀ d, TableDecl.ofJson text = .ok d →
          ∃ e, loaded.outcome = .error (.compilePatterns o.input e)) := by
  rcases hread : (disk.readText o.input).run fs with ⟨content, fs'⟩
  obtain rfl := hdisk.readText_same hread
  cases content with
  | error e => exact .inl ⟨e, rfl, generate_of_unreadable hread⟩
  | ok text =>
    have htext := hdisk.readText_ok hread
    have hjson := isJsonPath_iff (not_isIdle_of_readText htext)
    refine .inr ⟨text, _, htext, generate_of_readText hread, ?_, ?_, ?_⟩
    · rw [loadTable_eq_loadDecl_iff, hjson]
    · rw [loadTable_eq_loadPatterns_iff, hjson]
    · intro hname
      refine ⟨hname ▸ Path.fileName_suffix o.input.toList, ?_⟩
      intro d hd
      have hload : loadTable o.input text = loadPatterns o.input text :=
        loadTable_eq_loadPatterns_iff.2 fun hpath => (hjson.1 hpath).2 hname
      rw [hload]
      exact loadPatterns_of_ofJson hd o.input

/-- Neither the ending of the directory nor the dots that the file name begins
    with matter. -/
theorem generate_by_ending_dotted :
    let d : TableDecl := ⟨[⟨"b", [⟨0, 5, 18⟩]⟩]⟩
    let fs : FileSystem :=
      ⟨[([".txt"], .directory), ([".txt", "..json"], .file d.toJson.toUTF8)], []⟩
    let o : Options := ⟨".txt/..json", "isa.rs", "ppc750cl_macros"⟩
    FileSystem.disk.Lawful ∧ fs.readText o.input = .ok d.toJson ∧
      (generate FileSystem.disk o).run fs =
        (finish FileSystem.disk o (loadDecl o.input d.toJson)).run fs := by
  have htext : FileSystem.readText
      ⟨[([".txt"], .directory),
        ([".txt", "..json"], .file (TableDecl.toJson ⟨[⟨"b", [⟨0, 5, 18⟩]⟩]⟩).toUTF8)], []⟩
      ".txt/..json" = .ok (TableDecl.toJson ⟨[⟨"b", [⟨0, 5, 18⟩]⟩]⟩) :=
    readText_of_resolveTarget rfl rfl
  refine ⟨lawful_disk, htext, ?_⟩
  rcases generate_by_ending lawful_disk ⟨".txt/..json", "isa.rs", "ppc750cl_macros"⟩
      ⟨[([".txt"], .directory),
        ([".txt", "..json"], .file (TableDecl.toJson ⟨[⟨"b", [⟨0, 5, 18⟩]⟩]⟩).toUTF8)], []⟩ with
    ⟨e, hunread, -⟩ | ⟨text, loaded, hread, hrun, hdecl, -, -⟩
  · have herror := htext.symm.trans (Prod.mk.inj hunread).1
    exact nomatch herror
  · obtain rfl := Except.ok.inj (htext.symm.trans hread)
    have hending : jsonEnding <:+ ".txt/..json".toList ∧
        Path.fileName ".txt/..json".toList ≠ jsonEnding := by decide
    rw [hrun, hdecl.2 hending]

end

/-- **The ending does not decide alone.**  A table in a file that is named `.json`
    could be loaded as JSON, but it is not, and the run fails. -/
theorem loadTable_ending_alone :
    let d : TableDecl := ⟨[⟨"addi", [⟨0, 5, 14⟩]⟩]⟩
    let fs : FileSystem := ⟨[([".json"], .file d.toJson.toUTF8)], []⟩
    jsonEnding <:+ ".json".toList ∧ fs.readText ".json" = .ok d.toJson ∧
      (loadDecl ".json" d.toJson).outcome = .ok ⟨[⟨"addi", ⟨0xfc000000, 0x38000000⟩⟩]⟩ ∧
      loadTable ".json" d.toJson ≠ loadDecl ".json" d.toJson ∧
      (runOn fs none ["-i", ".json"]).1.status = 1 := by
  refine ⟨by decide, readText_of_resolveTarget rfl rfl, ?_, ?_, rfl⟩
  · have hread : TableDecl.ofJson (TableDecl.toJson ⟨[⟨"addi", [⟨0, 5, 14⟩]⟩]⟩) =
        .ok ⟨[⟨"addi", [⟨0, 5, 14⟩]⟩]⟩ := TableDecl.ofJson_jsonChars _
    rw [loadDecl, hread]
    rfl
  · rw [ne_eq, loadTable_eq_loadDecl_iff]
    decide

end IsaTable.CommandLine
