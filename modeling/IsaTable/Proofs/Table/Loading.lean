import IsaTable.Proofs.Match.Meaning
import IsaTable.Proofs.Pattern.InstructionLines
import IsaTable.Table

/-! # Loading a pattern text

    Loading has two phases, and each stops at its first failure:

    1. **Reading** fails at the first line with a token that is no field.
       Nothing has been recorded by then.
    2. **Compiling** fails at the first line without tokens.  By then exactly
       the records of the lines before it have been made.

    A text with failures of both kinds is refused for the first of the first
    kind, wherever it stands.  A text with neither is loaded whole: one entry
    for every instruction line, in order (`Table.ofPatterns_all_or_nothing`).
-/

namespace IsaTable

/-! ## §1. Compiling one line -/

namespace SourceLine

/-- The records of a source line: the warnings about its instruction, and then
    that it has been compiled. -/
def records (s : SourceLine) : List Record :=
  s.instruction.records ++ [.compiled s.line s.instruction.entry]

end SourceLine

namespace Table

/-- A source line whose instruction has fields is compiled. -/
theorem compileLine_of_ne_nil {s : SourceLine} (h : s.instruction.fields ≠ []) :
    compileLine s = ⟨s.records, .ok s.instruction.entry⟩ := by
  rw [compileLine, Instruction.compile_of_ne_nil h]
  rfl

/-- A source line without fields is the error, and nothing is recorded. -/
theorem compileLine_of_nil {s : SourceLine} (h : ¬ s.instruction.fields ≠ []) :
    compileLine s = ⟨[], .error (s.error (.compile .emptyFieldList))⟩ := by
  rw [compileLine, Instruction.compile_of_nil h]
  rfl

/-! ## §2. Compiling all of them -/

theorem compileEntries_eq_traverse (instructions : List Instruction) :
    compileEntries instructions = Logged.traverse Instruction.compile instructions := by
  induction instructions with
  | nil => rfl
  | cons i rest ih => rw [compileEntries, ih, Logged.traverse]

theorem compileLines_eq_traverse (lines : List SourceLine) :
    compileLines lines = Logged.traverse compileLine lines := by
  induction lines with
  | nil => rfl
  | cons s rest ih => rw [compileLines, ih, Logged.traverse]

/-- Instructions that all have fields are compiled one by one. -/
theorem compile_of_all {instructions : List Instruction}
    (h : ∀ i ∈ instructions, i.fields ≠ []) :
    compile instructions =
      ⟨instructions.flatMap Instruction.records,
        .ok ⟨instructions.map Instruction.entry⟩⟩ := by
  rw [compile, compileEntries_eq_traverse,
    Logged.traverse_of_all fun i hi => Instruction.compile_of_ne_nil (h i hi)]
  rfl

/-- Otherwise the first one without fields is the error. -/
theorem compile_of_firstFailure {instructions before : List Instruction} {i : Instruction}
    (h : FirstFailure (fun i => i.fields ≠ []) instructions before i) :
    compile instructions =
      ⟨before.flatMap Instruction.records, .error .emptyFieldList⟩ := by
  rw [compile, compileEntries_eq_traverse,
    Logged.traverse_of_firstFailure (fun _ _ hi => Instruction.compile_of_ne_nil hi) h
      (Instruction.compile_of_nil h.failed), List.append_nil]
  rfl

/-- Whatever is compiled has one entry for each instruction. -/
theorem entries_of_compile {instructions : List Instruction} {t : Table}
    (ht : (compile instructions).outcome = .ok t) :
    t.entries = instructions.map Instruction.entry := by
  rcases all_or_firstFailure (fun i => i.fields ≠ []) instructions with
    hall | ⟨before, i, hfirst⟩
  · rw [compile_of_all hall] at ht
    rw [← Except.ok.inj ht]
  · rw [compile_of_firstFailure hfirst] at ht
    exact nomatch ht

/-- Source lines that all have fields are compiled one by one. -/
theorem ofSourceLines_of_all {lines : List SourceLine}
    (h : ∀ s ∈ lines, s.instruction.fields ≠ []) :
    ofSourceLines lines =
      ⟨lines.flatMap SourceLine.records, .ok ⟨lines.map fun s => s.instruction.entry⟩⟩ := by
  rw [ofSourceLines, compileLines_eq_traverse,
    Logged.traverse_of_all fun s hs => compileLine_of_ne_nil (h s hs)]
  rfl

/-- Otherwise the first one without fields is the error, and the records of
    those before it are made. -/
theorem ofSourceLines_of_firstFailure {lines before : List SourceLine} {s : SourceLine}
    (h : FirstFailure (fun s => s.instruction.fields ≠ []) lines before s) :
    ofSourceLines lines =
      ⟨before.flatMap SourceLine.records, .error (s.error (.compile .emptyFieldList))⟩ := by
  rw [ofSourceLines, compileLines_eq_traverse,
    Logged.traverse_of_firstFailure (fun _ _ hs => compileLine_of_ne_nil hs) h
      (compileLine_of_nil h.failed), List.append_nil]
  rfl

end Table

/-! ## §3. Written lines -/

namespace WrittenLine

/-- A readable line has as many fields as tokens. -/
theorem fields_eq_nil_iff {l : WrittenLine} (h : l.Readable) : l.fields = [] ↔ l.tokens = [] := by
  have hlength := (forall₂_fields h).length_eq
  rw [← List.length_eq_zero_iff, ← hlength, List.length_eq_zero_iff]

/-- The tokens of a readable line spell its fields. -/
theorem forall₂_spells {l : WrittenLine} (h : l.Readable) :
    List.Forall₂ (fun token (f : Field) => Spells token f.start f.stop f.value.toNat)
      l.tokens l.fields :=
  (forall₂_fields h).imp fun _ _ => Field.ofToken_eq_ok_iff.1

end WrittenLine

/-- The words of an instruction line are its opcode and its tokens. -/
theorem words_of_mem_instructionLines {text : String} {l : WrittenLine}
    (h : l ∈ instructionLines text) : Text.words l.text = l.opcode.toList :: l.tokens := by
  obtain ⟨hmem, hl⟩ := List.mem_filter.1 h
  obtain ⟨⟨line, n⟩, -, rfl⟩ := List.mem_map.1 hmem
  have hblank : ¬ Text.AllBlank line :=
    mt Text.trim_eq_nil_iff.2 (of_decide_eq_true hl).1
  have hwords : Text.words (WrittenLine.ofNumbered (line, n)).text ≠ [] := by
    rw [WrittenLine.ofNumbered, Text.words_trim]
    exact Text.words_ne_nil hblank
  obtain ⟨opcode, tokens, hcons⟩ := List.exists_cons_of_ne_nil hwords
  simp [WrittenLine.opcode, WrittenLine.tokens, hcons]

/-! ## §4. Loading -/

namespace Table

/-- A text whose lines are all readable and have tokens is loaded. -/
theorem ofPatterns_of_complete {text : String} (hread : ∀ l ∈ instructionLines text, l.Readable)
    (htokens : ∀ l ∈ instructionLines text, l.tokens ≠ []) :
    ofPatterns text =
      ⟨(instructionLines text).flatMap fun l => l.source.records,
        .ok ⟨(instructionLines text).map fun l => l.source.instruction.entry⟩⟩ := by
  have hfields : ∀ s ∈ (instructionLines text).map WrittenLine.source,
      s.instruction.fields ≠ [] := by
    intro s hs
    obtain ⟨l, hl, rfl⟩ := List.mem_map.1 hs
    exact mt (WrittenLine.fields_eq_nil_iff (hread l hl)).1 (htokens l hl)
  rw [ofPatterns, SourceLine.ofText_of_readable hread]
  simp only [ofSourceLines_of_all hfields, List.flatMap_map, List.map_map, Function.comp_def]

/-- The first unreadable line is refused before anything is recorded. -/
theorem ofPatterns_of_unreadable {text : String} {before : List WrittenLine} {l : WrittenLine}
    {e : LineError} (h : FirstFailure WrittenLine.Readable (instructionLines text) before l)
    (he : l.read = .error e) : ofPatterns text = ⟨[], .error e⟩ := by
  rw [ofPatterns, SourceLine.ofText_of_firstFailure h he]
  rfl

/-- Where all lines are readable, the first without tokens is refused once
    those before it have been recorded. -/
theorem ofPatterns_of_incomplete {text : String} {before : List WrittenLine} {l : WrittenLine}
    (hread : ∀ k ∈ instructionLines text, k.Readable)
    (h : FirstFailure (fun k => k.tokens ≠ []) (instructionLines text) before l) :
    ofPatterns text =
      ⟨before.flatMap fun k => k.source.records,
        .error (l.error (.compile .emptyFieldList))⟩ := by
  -- On readable lines, to have no tokens is to have no fields.
  have hfields : FirstFailure (fun k : WrittenLine => k.source.instruction.fields ≠ [])
      (instructionLines text) before l :=
    h.congr fun k hk => not_congr (WrittenLine.fields_eq_nil_iff (hread k hk)).symm
  have hsource := hfields.map (q := fun s : SourceLine => s.instruction.fields ≠ [])
  rw [ofPatterns, SourceLine.ofText_of_readable hread]
  simp only [ofSourceLines_of_firstFailure hsource, List.flatMap_map]
  rfl

/-- Whatever is loaded was readable and had tokens on every line. -/
theorem complete_of_ofPatterns {text : String} {t : Table}
    (ht : (ofPatterns text).outcome = .ok t) :
    ∀ l ∈ instructionLines text, l.tokens ≠ [] ∧ l.Readable := by
  -- Either phase, had it failed, would have made the text fail.
  rcases all_or_firstFailure WrittenLine.Readable (instructionLines text) with
    hread | ⟨before, l, hfirst⟩
  · rcases all_or_firstFailure (fun k => k.tokens ≠ []) (instructionLines text) with
      htokens | ⟨before, l, hfirst⟩
    · intro l hl
      exact ⟨htokens l hl, hread l hl⟩
    · rw [ofPatterns_of_incomplete hread hfirst] at ht
      exact nomatch ht
  · obtain ⟨_, _, _, _, _, herror⟩ := WrittenLine.exists_read_error hfirst.failed
    rw [ofPatterns_of_unreadable hfirst herror] at ht
    exact nomatch ht

/-- Whatever is loaded has one entry for each instruction line, and the records
    of all of them. -/
theorem ofPatterns_of_ok {text : String} {t : Table} (ht : (ofPatterns text).outcome = .ok t) :
    t.entries = (instructionLines text).map (fun l => l.source.instruction.entry) ∧
      (ofPatterns text).log = (instructionLines text).flatMap fun l => l.source.records := by
  have h := complete_of_ofPatterns ht
  have hload := ofPatterns_of_complete (fun l hl => (h l hl).2) fun l hl => (h l hl).1
  rw [hload] at ht ⊢
  rw [← Except.ok.inj ht]
  exact ⟨rfl, rfl⟩

/-- **All or nothing.**  A text is loaded exactly when every instruction line
    has tokens and all of them spell fields, and then whole, line by line.
    Otherwise the first line with a token that is no field is refused for the
    leftmost of them, with nothing recorded; if there is none, the first line
    without tokens is, with the records of the lines before it. -/
theorem ofPatterns_all_or_nothing (text : String) :
    ((∃ t, (ofPatterns text).outcome = .ok t) ↔
      ∀ l ∈ instructionLines text, l.tokens ≠ [] ∧ l.Readable) ∧
    (∀ t, (ofPatterns text).outcome = .ok t →
      (∀ l ∈ instructionLines text, Text.words l.text = l.opcode.toList :: l.tokens ∧
        List.Forall₂ (fun token (f : Field) => Spells token f.start f.stop f.value.toNat)
          l.tokens l.fields) ∧
      t.entries = (instructionLines text).map fun l => ⟨l.opcode, .ofFields l.fields⟩) ∧
    ((∃ l ∈ instructionLines text, ¬ l.Readable) →
      ∃ before l tokens token e,
        FirstFailure WrittenLine.Readable (instructionLines text) before l ∧
        FirstFailure WrittenLine.IsFieldToken l.tokens tokens token ∧
        Field.ofToken token = .error e ∧
        (ofPatterns text).outcome = .error ⟨l.number, String.ofList l.text, e⟩ ∧
        (ofPatterns text).log = []) ∧
    ((∀ l ∈ instructionLines text, l.Readable) → (∃ l ∈ instructionLines text, l.tokens = []) →
      ∃ before l,
        FirstFailure (fun k => k.tokens ≠ []) (instructionLines text) before l ∧
        (ofPatterns text).outcome =
          .error ⟨l.number, String.ofList l.text, .compile .emptyFieldList⟩ ∧
        (ofPatterns text).log = before.flatMap fun k => k.source.records) := by
  refine ⟨⟨?_, ?_⟩, ?_, ?_, ?_⟩
  · intro h
    obtain ⟨t, ht⟩ := h
    exact complete_of_ofPatterns ht
  · intro h
    have hload := ofPatterns_of_complete (fun l hl => (h l hl).2) fun l hl => (h l hl).1
    rw [hload]
    exact ⟨_, rfl⟩
  · intro t ht
    have h := complete_of_ofPatterns ht
    refine ⟨?_, (ofPatterns_of_ok ht).1⟩
    intro l hl
    exact ⟨words_of_mem_instructionLines hl, WrittenLine.forall₂_spells (h l hl).2⟩
  -- The first unreadable line is found before any line is compiled.
  · intro h
    obtain ⟨l, hl, hunreadable⟩ := h
    obtain ⟨before, first, hfirst⟩ := exists_firstFailure fun hall => hunreadable (hall l hl)
    obtain ⟨tokens, token, e, htoken, he, herror⟩ :=
      WrittenLine.exists_read_error hfirst.failed
    have hload := ofPatterns_of_unreadable hfirst herror
    refine ⟨before, first, tokens, token, e, hfirst, htoken, he, ?_, ?_⟩
    · rw [hload]
      rfl
    · rw [hload]
  · intro hread h
    obtain ⟨l, hl, hnone⟩ := h
    obtain ⟨before, first, hfirst⟩ :=
      exists_firstFailure (p := fun k => k.tokens ≠ []) fun hall => hall l hl hnone
    have hload := ofPatterns_of_incomplete hread hfirst
    refine ⟨before, first, hfirst, ?_, ?_⟩
    · rw [hload]
      rfl
    · rw [hload]

/-- A line that cannot be read hides one that does not compile. -/
example : ofPatterns "a 0,5,1\nsync\nbad 9" =
    ⟨[], .error ⟨3, "bad 9", .malformedField "9"⟩⟩ := by
  rfl

end Table

end IsaTable
