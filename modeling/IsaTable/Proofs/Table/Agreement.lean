import IsaTable.Proofs.Pattern.PrintedText
import IsaTable.Proofs.Table.Loading

/-! # The two loaders

    A table can be declared at once, or printed as text and loaded from there.
    Both ways check all ranges before they compile anything, and both compile
    in order, so they agree: on the entries, on the error, and on the warnings
    (`Table.ofPatterns_agrees_ofDecl`).  The text alone locates its errors and
    records which lines have been compiled.
-/

namespace IsaTable

/-! ## §1. Compiling -/

/-- The records of an instruction are warnings. -/
theorem Instruction.level_of_mem_records {i : Instruction} :
    ∀ r ∈ i.records, r.level = .warn := by
  intro r hr
  obtain ⟨w, -, rfl⟩ := List.mem_map.1 hr
  rfl

namespace Table

/-- A source line compiles as its instruction does. -/
theorem compileLine_agrees (s : SourceLine) :
    Logged.AgreesUpToDebug Eq LineError.Wraps (compileLine s) s.instruction.compile := by
  by_cases h : s.instruction.fields ≠ []
  · rw [compileLine_of_ne_nil h, Instruction.compile_of_ne_nil h]
    refine ⟨.ok rfl, ?_⟩
    -- The one record for debugging stands behind the warnings.
    have hrecords : s.instruction.records.filter (fun r => r.level ≠ .debug) =
        s.instruction.records := by
      apply List.filter_eq_self.2
      intro r hr
      rw [Instruction.level_of_mem_records r hr]
      rfl
    show _ = s.records.filter _
    rw [SourceLine.records, List.filter_append, hrecords]
    exact (List.append_nil _).symm
  · rw [compileLine_of_nil h, Instruction.compile_of_nil h]
    exact .fail rfl

/-- Source lines compile as their instructions do. -/
theorem ofSourceLines_agrees (lines : List SourceLine) :
    Logged.AgreesUpToDebug Eq LineError.Wraps (ofSourceLines lines)
      (compile (lines.map SourceLine.instruction)) := by
  have hentries : Logged.AgreesUpToDebug (List.Forall₂ Eq) LineError.Wraps
      (compileLines lines) (compileEntries (lines.map SourceLine.instruction)) := by
    rw [compileLines_eq_traverse, compileEntries_eq_traverse]
    apply Logged.AgreesUpToDebug.traverse
    rw [List.forall₂_map_right_iff]
    apply List.forall₂_same.2
    intro s _
    exact compileLine_agrees s
  apply hentries.map
  intro entries entries' h
  rw [List.forall₂_eq_eq_eq] at h
  rw [h]

/-! ## §2. Declared tables -/

/-- Compiling records warnings only. -/
theorem level_of_mem_log_compile {instructions : List Instruction} :
    ∀ r ∈ (compile instructions).log, r.level = .warn := by
  have hrecords : ∀ is : List Instruction, ∀ r ∈ is.flatMap Instruction.records,
      r.level = .warn := by
    intro is r hr
    obtain ⟨i, -, hr⟩ := List.mem_flatMap.1 hr
    exact Instruction.level_of_mem_records r hr
  rcases all_or_firstFailure (fun i => i.fields ≠ []) instructions with h | ⟨before, i, h⟩
  · rw [compile_of_all h]
    exact hrecords instructions
  · rw [compile_of_firstFailure h]
    exact hrecords before

/-- Loading a declared table records warnings only, too. -/
theorem level_of_mem_log_ofDecl {d : TableDecl} : ∀ r ∈ (ofDecl d).log, r.level = .warn := by
  rw [ofDecl]
  cases d.check with
  | error cause => exact nofun
  | ok instructions => exact level_of_mem_log_compile

/-- Instructions fail to compile exactly when one has no fields. -/
theorem compile_eq_error_iff {instructions : List Instruction} {e : CompileError} :
    (compile instructions).outcome = .error e ↔
      e = .emptyFieldList ∧ ∃ i ∈ instructions, i.fields = [] := by
  rcases all_or_firstFailure (fun i => i.fields ≠ []) instructions with h | ⟨before, i, h⟩
  · rw [compile_of_all h]
    exact ⟨nofun, fun ⟨_, i, hi, hnil⟩ => absurd hnil (h i hi)⟩
  · rw [compile_of_firstFailure h]
    constructor
    · intro he
      exact ⟨(Except.error.inj he).symm, i, h.mem, not_not.1 h.failed⟩
    · rintro ⟨rfl, -⟩
      rfl

/-- The first bad range is the error of a declared table, whatever else is
    wrong with it. -/
theorem ofDecl_of_badRange {d : TableDecl} {before : List FieldDecl} {f : FieldDecl}
    (h : FirstFailure FieldDecl.InRange d.fields before f) :
    ofDecl d = .fail (.invalidRange f.start f.stop) := by
  rw [ofDecl, TableDecl.check_of_badRange h]

/-- Where all ranges are good, the error of a declared table is that an
    instruction has no fields. -/
theorem ofDecl_eq_error_iff {d : TableDecl} (h : ∀ f ∈ d.fields, f.InRange) {e : CompileError} :
    (ofDecl d).outcome = .error e ↔
      e = .emptyFieldList ∧ ∃ i ∈ d.instructions, i.fields = [] := by
  obtain ⟨instructions, hcheck⟩ := TableDecl.exists_check_iff.2 h
  rw [ofDecl, hcheck]
  show (compile instructions).outcome = _ ↔ _
  rw [compile_eq_error_iff, TableDecl.exists_fields_eq_nil_iff hcheck]

/-! ## §3. Both loaders -/

/-- Loading the printed text and compiling the declaration agree. -/
theorem ofPatterns_agrees {d : TableDecl} (h : ∀ i ∈ d.instructions, IsOpcodeWord i.opcode) :
    Logged.AgreesUpToDebug Eq LineError.Wraps (ofPatterns d.patternText) (ofDecl d) := by
  have hread := TableDecl.ofText_agree h
  rw [ofPatterns, ofDecl]
  -- Both loaders check everything before they compile anything, so an error of
  -- the first phase is an error of both.
  generalize SourceLine.ofText d.patternText = lines at hread ⊢
  generalize d.check = checked at hread ⊢
  cases hread with
  | ok hlines =>
    rw [← hlines]
    exact ofSourceLines_agrees _
  | error herror => exact .fail herror

/-- **Two loaders, one table.**  Where the opcodes are words, a declared table
    and its printed text are loaded as the same table, or refused for the same
    cause: the first bad range, or else that an instruction has no fields.
    Either way the warnings are the same, and the text adds only records for
    debugging. -/
theorem ofPatterns_agrees_ofDecl {d : TableDecl}
    (h : ∀ i ∈ d.instructions, IsOpcodeWord i.opcode) :
    (∀ t, (ofPatterns d.patternText).outcome = .ok t ↔ (ofDecl d).outcome = .ok t) ∧
    (∀ cause, (ofDecl d).outcome = .error cause ↔
      ∃ e, (ofPatterns d.patternText).outcome = .error e ∧ e.kind = .compile cause) ∧
    (∀ before f, FirstFailure FieldDecl.InRange d.fields before f →
      (ofDecl d).outcome = .error (.invalidRange f.start f.stop)) ∧
    ((∀ f ∈ d.fields, f.InRange) → ∀ cause, (ofDecl d).outcome = .error cause ↔
      cause = .emptyFieldList ∧ ∃ i ∈ d.instructions, i.fields = []) ∧
    (ofDecl d).log = (ofPatterns d.patternText).log.filter (fun r => r.level ≠ .debug) ∧
    ∀ r ∈ (ofDecl d).log, r.level = .warn := by
  have hagree := ofPatterns_agrees h
  refine ⟨?_, ?_, ?_, ?_, hagree.log, level_of_mem_log_ofDecl⟩
  · intro t
    exact hagree.outcome.ok_iff
  · intro cause
    exact hagree.outcome.error_iff LineError.wraps_rightUnique
  · intro before f hf
    rw [ofDecl_of_badRange hf]
    rfl
  · intro hrange cause
    exact ofDecl_eq_error_iff hrange

/-- A table that overlaps in one instruction and leaves the next one without
    fields: the text is refused for the second, after the warning about the
    first. -/
theorem ofPatterns_agrees_ofDecl_overlap :
    let d : TableDecl := ⟨[⟨"a", [⟨0, 5, 31⟩, ⟨5, 9, 1⟩]⟩, ⟨"sync", []⟩]⟩
    (∀ i ∈ d.instructions, IsOpcodeWord i.opcode) ∧
    (∃ e, (ofPatterns d.patternText).outcome = .error e ∧ e.kind = .compile .emptyFieldList) ∧
      (ofPatterns d.patternText).log.filter (fun r => r.level ≠ .debug) =
        [.warning "a" (.overlap ⟨5, 9, 1, by decide, by decide⟩)] := by
  intro d
  have hwords : ∀ i ∈ d.instructions, IsOpcodeWord i.opcode := by decide
  obtain ⟨-, herror, -, -, hlog, -⟩ := ofPatterns_agrees_ofDecl hwords
  exact ⟨hwords, (herror .emptyFieldList).1 rfl, hlog.symm.trans rfl⟩

end Table

end IsaTable
