import IsaTable.Proofs.Table.Agreement

/-! # Source lines and their instructions

    Source lines can be compiled as lines, or as the instructions on them.  The
    first way stops at a line and says which, and records every line that it has
    compiled; the second way knows neither lines nor records for debugging.
    Otherwise they are the same compiler (`Table.ofSourceLines_compiles`):

    * **They stop together**, at the first line whose instruction has no
      fields.
    * **They warn alike**: up to there each line contributes the warnings about
      its instruction, and the first way puts one record behind them.
-/

namespace IsaTable

/-! ## §1. The lines that are compiled -/

namespace SourceLine

/-- The source lines before the first whose instruction has no fields, or all
    of them if there is none. -/
def compiledPart (lines : List SourceLine) : List SourceLine :=
  lines.takeWhile fun s => decide (s.instruction.fields ≠ [])

variable {lines : List SourceLine}

theorem compiledPart_of_all (h : ∀ s ∈ lines, s.instruction.fields ≠ []) :
    compiledPart lines = lines :=
  List.takeWhile_eq_self_iff.2 fun s hs => decide_eq_true (h s hs)

theorem compiledPart_of_firstFailure {before : List SourceLine} {s : SourceLine}
    (h : FirstFailure (fun s => s.instruction.fields ≠ []) lines before s) :
    compiledPart lines = before :=
  h.takeWhile_eq

/-- The instructions of the lines that are compiled have fields. -/
theorem fields_of_mem_compiledPart {s : SourceLine} (h : s ∈ compiledPart lines) :
    s.instruction.fields ≠ [] := by
  have hpassed := List.mem_takeWhile_imp h
  exact of_decide_eq_true hpassed

end SourceLine

namespace Table

open SourceLine (compiledPart)

/-! ## §2. Outcome and records of either way -/

/-- An instruction with fields, compiled alone. -/
theorem compile_singleton {i : Instruction} (h : i.fields ≠ []) :
    compile [i] = ⟨i.records, .ok ⟨[i.entry]⟩⟩ := by
  have hone : ∀ j ∈ [i], j.fields ≠ [] := by simpa using h
  rw [compile_of_all hone, List.flatMap_singleton]
  rfl

/-- The first line without fields has the first instruction without fields. -/
theorem compile_lines_of_firstFailure {lines before : List SourceLine} {s : SourceLine}
    (h : FirstFailure (fun s => s.instruction.fields ≠ []) lines before s) :
    compile (lines.map SourceLine.instruction) =
      ⟨before.flatMap fun s => s.instruction.records, .error .emptyFieldList⟩ := by
  have hfirst := h.map (q := fun i : Instruction => i.fields ≠ [])
  rw [compile_of_firstFailure hfirst, List.flatMap_map]

/-- Compiling the instructions records the warnings about those that are
    compiled. -/
theorem log_compile_lines (lines : List SourceLine) :
    (compile (lines.map SourceLine.instruction)).log =
      (compiledPart lines).flatMap fun s => s.instruction.records := by
  rcases all_or_firstFailure (fun s : SourceLine => s.instruction.fields ≠ []) lines with
    h | ⟨before, s, h⟩
  · have hall : ∀ i ∈ lines.map SourceLine.instruction, i.fields ≠ [] := List.forall_mem_map.2 h
    rw [compile_of_all hall, SourceLine.compiledPart_of_all h, List.flatMap_map]
  · rw [compile_lines_of_firstFailure h, SourceLine.compiledPart_of_firstFailure h]

/-- Compiling the lines records the lines that are compiled. -/
theorem log_ofSourceLines (lines : List SourceLine) :
    (ofSourceLines lines).log = (compiledPart lines).flatMap SourceLine.records := by
  rcases all_or_firstFailure (fun s : SourceLine => s.instruction.fields ≠ []) lines with
    h | ⟨before, s, h⟩
  · rw [ofSourceLines_of_all h, SourceLine.compiledPart_of_all h]
  · rw [ofSourceLines_of_firstFailure h, SourceLine.compiledPart_of_firstFailure h]

/-- The error of the lines is that of their instructions, at the line where the
    part that is compiled ends. -/
theorem outcome_ofSourceLines_eq_error_iff {lines : List SourceLine} {e : LineError} :
    (ofSourceLines lines).outcome = .error e ↔
      ∃ s cause, FirstFailure (fun s => s.instruction.fields ≠ []) lines (compiledPart lines) s ∧
        (compile (lines.map SourceLine.instruction)).outcome = .error cause ∧
        e = ⟨s.line, s.text, .compile cause⟩ := by
  rcases all_or_firstFailure (fun s : SourceLine => s.instruction.fields ≠ []) lines with
    h | ⟨before, s, h⟩
  · rw [ofSourceLines_of_all h]
    constructor
    · exact nofun
    · intro he
      obtain ⟨s, -, hs, -⟩ := he
      exact absurd (h s hs.mem) hs.failed
  · rw [ofSourceLines_of_firstFailure h, compile_lines_of_firstFailure h,
      SourceLine.compiledPart_of_firstFailure h]
    constructor
    · intro he
      exact ⟨s, .emptyFieldList, h, rfl, (Except.error.inj he).symm⟩
    · intro he
      obtain ⟨s', cause, hs', hcause, rfl⟩ := he
      -- There is only one first failure, and one cause.
      obtain rfl := h.unique hs'
      obtain rfl := Except.error.inj hcause
      rfl

/-! ## §3. One compiler -/

/-- **Lines compile as their instructions do.**  Both ways succeed with the same
    table.  Both fail at the first line whose instruction has no fields; the
    error of the lines has its number and its text, and the error of the
    instructions as its cause.  Up to there each line records what its
    instruction does when it is compiled alone, followed by the entry that comes
    of it; without those entries, the records are those of the instructions. -/
theorem ofSourceLines_compiles (lines : List SourceLine) :
    (∀ t, (ofSourceLines lines).outcome = .ok t ↔
      (compile (lines.map SourceLine.instruction)).outcome = .ok t) ∧
    (∀ e, (ofSourceLines lines).outcome = .error e ↔
      ∃ s cause, FirstFailure (fun s => s.instruction.fields ≠ []) lines (compiledPart lines) s ∧
        (compile (lines.map SourceLine.instruction)).outcome = .error cause ∧
        e = ⟨s.line, s.text, .compile cause⟩) ∧
    (∀ s ∈ compiledPart lines,
      (compile [s.instruction]).outcome = .ok ⟨[s.instruction.entry]⟩) ∧
    (ofSourceLines lines).log = (compiledPart lines).flatMap (fun s =>
      (compile [s.instruction]).log ++ [.compiled s.line s.instruction.entry]) ∧
    (compile (lines.map SourceLine.instruction)).log =
      (compiledPart lines).flatMap (fun s => (compile [s.instruction]).log) ∧
    (∀ r ∈ (compile (lines.map SourceLine.instruction)).log, r.level = .warn) ∧
    (compile (lines.map SourceLine.instruction)).log =
      (ofSourceLines lines).log.filter fun r => r.level ≠ .debug := by
  have hagree := ofSourceLines_agrees lines
  have halone : ∀ s ∈ compiledPart lines,
      compile [s.instruction] = ⟨s.instruction.records, .ok ⟨[s.instruction.entry]⟩⟩ :=
    fun s hs => compile_singleton (SourceLine.fields_of_mem_compiledPart hs)
  refine ⟨fun t => hagree.outcome.ok_iff, fun e => outcome_ofSourceLines_eq_error_iff, ?_, ?_, ?_,
    level_of_mem_log_compile, hagree.log⟩
  · intro s hs
    rw [halone s hs]
  · rw [log_ofSourceLines]
    apply List.flatMap_congr
    intro s hs
    rw [halone s hs, SourceLine.records]
  · rw [log_compile_lines]
    apply List.flatMap_congr
    intro s hs
    rw [halone s hs]

end Table

end IsaTable
