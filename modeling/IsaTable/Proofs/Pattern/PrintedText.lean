import IsaTable.Proofs.Agreement
import IsaTable.Proofs.Pattern.InstructionLines
import IsaTable.Proofs.Text.Layout

/-! # Reading what has been printed

    A declared table that is printed has one instruction line for each
    instruction (`TableDecl.instructionLines_patternText`), provided that its
    opcodes are words.  Reading the text and checking the declaration then
    agree: they yield the same instructions, or fail on the same range
    (`TableDecl.ofText_agree`).
-/

namespace IsaTable

open Text

/-! ## §1. Words behind single spaces -/

/-- Words behind single spaces are spaced. -/
theorem Text.spaced_single {others : List (List Char)} (h : ∀ w ∈ others, IsWord w) :
    Spaced (others.map (' ' :: ·)).flatten others := by
  induction others with
  | nil => exact .blanks (by decide)
  | cons w rest ih =>
    obtain ⟨hw, hrest⟩ := List.forall_mem_cons.1 h
    have hspace : AllBlank [' '] := by decide
    exact .gap hspace (List.cons_ne_nil _ _) hw (ih hrest)

/-- The words of a line that is put together from words. -/
theorem Text.words_append_spaced {word : List Char} (hword : IsWord word)
    {others : List (List Char)} (hothers : ∀ w ∈ others, IsWord w) :
    words (word ++ (others.map (' ' :: ·)).flatten) = word :: others :=
  words_eq_cons_iff.2 ⟨[], _, by decide, hword, spaced_single hothers, rfl⟩

/-- Such a line ends in its last word, hence not in a blank. -/
theorem Text.not_blank_getLast?_spaced {word : List Char} (hword : IsWord word)
    {others : List (List Char)} (hothers : ∀ w ∈ others, IsWord w) :
    ∀ c, (word ++ (others.map (' ' :: ·)).flatten).getLast? = some c → isBlank c = false := by
  induction others generalizing word with
  | nil =>
    intro c hc
    refine hword.2 c (List.mem_of_getLast? ?_)
    simpa using hc
  | cons w rest ih =>
    obtain ⟨hw, hrest⟩ := List.forall_mem_cons.1 hothers
    intro c hc
    refine ih hw hrest c ?_
    have hsplit : word ++ ((w :: rest).map (' ' :: ·)).flatten =
        (word ++ [' ']) ++ (w ++ (rest.map (' ' :: ·)).flatten) := by simp
    -- What comes before the next word does not reach the end.
    rw [hsplit, List.getLast?_append_of_ne_nil _ (by simp [hw.1])] at hc
    exact hc

/-! ## §2. The line of an instruction -/

theorem IsOpcodeWord.toList_ne_nil {opcode : String} (h : IsOpcodeWord opcode) :
    opcode.toList ≠ [] :=
  mt String.toList_eq_nil_iff.1 h.1

theorem IsOpcodeWord.isWord {opcode : String} (h : IsOpcodeWord opcode) :
    IsWord opcode.toList :=
  ⟨h.toList_ne_nil, h.2.1⟩

namespace InstructionDecl

/-- The tokens that are printed for an instruction. -/
def tokens (d : InstructionDecl) : List (List Char) :=
  d.fields.map FieldDecl.token

theorem line_eq (d : InstructionDecl) :
    d.line = d.opcode.toList ++ (d.tokens.map (' ' :: ·)).flatten := by
  rw [line, tokens, List.map_map]
  rfl

/-- A printed token is a word. -/
theorem token_isWord {d : InstructionDecl} : ∀ token ∈ d.tokens, IsWord token := by
  intro token htoken
  obtain ⟨f, -, rfl⟩ := List.mem_map.1 htoken
  exact ⟨by simp [FieldDecl.token], f.not_blank_token⟩

variable {d : InstructionDecl}

theorem words_line (h : IsOpcodeWord d.opcode) : words d.line = d.opcode.toList :: d.tokens := by
  rw [line_eq]
  exact words_append_spaced h.isWord token_isWord

/-- There is nothing to trim on a printed line. -/
theorem trim_line (h : IsOpcodeWord d.opcode) : trim d.line = d.line := by
  refine trim_eq_self ?_ ?_
  · intro c hc
    rw [line, List.head?_append_of_ne_nil _ h.toList_ne_nil] at hc
    exact h.2.1 c (List.mem_of_head? hc)
  · rw [line_eq]
    exact not_blank_getLast?_spaced h.isWord token_isWord

/-- A printed line is one line. -/
theorem newline_not_mem_line (h : IsOpcodeWord d.opcode) : '\n' ∉ d.line := by
  intro hmem
  rw [line_eq, List.mem_append, List.mem_flatten] at hmem
  -- Line feeds are blanks, and there are none in the opcode or in a token.
  rcases hmem with hmem | ⟨piece, hpiece, hmem⟩
  · exact absurd (h.2.1 _ hmem) (by simp)
  · obtain ⟨token, htoken, rfl⟩ := List.mem_map.1 hpiece
    rcases List.mem_cons.1 hmem with hspace | hmem
    · exact absurd hspace (by decide)
    · exact absurd ((token_isWord token htoken).2 _ hmem) (by simp)

/-- The line as it is found in a text. -/
def written (d : InstructionDecl) (number : Nat) : WrittenLine :=
  ⟨number, d.line⟩

theorem ofNumbered_line (h : IsOpcodeWord d.opcode) (number : Nat) :
    WrittenLine.ofNumbered (d.line, number) = d.written number := by
  rw [WrittenLine.ofNumbered, trim_line h]
  rfl

/-- There is an instruction on a printed line. -/
theorem isInstructionLine_line (h : IsOpcodeWord d.opcode) : isInstructionLine d.line = true := by
  have hhead : d.line.head? = d.opcode.toList.head? := by
    rw [line, List.head?_append_of_ne_nil _ h.toList_ne_nil]
  have hne : d.line ≠ [] := by
    rw [line]
    exact List.append_ne_nil_of_left_ne_nil h.toList_ne_nil _
  rw [← WrittenLine.isInstruction_ofNumbered d.line 0, ofNumbered_line h]
  refine decide_eq_true ⟨hne, ?_⟩
  rw [written, hhead]
  exact h.2.2

end InstructionDecl

/-! ## §3. Texts -/

/-- Printed instructions are found again as numbered lines, and nothing else
    is. -/
theorem instructionsAmong_of_lines {instructions : List InstructionDecl}
    (h : ∀ i ∈ instructions, IsOpcodeWord i.opcode) (first : Nat) :
    instructionsAmong
        (((instructions.map fun i => i.line ++ ['\n']).flatten.splitOn '\n').zipIdx first) =
      (instructions.zipIdx first).map fun p => p.1.written p.2 := by
  induction instructions generalizing first with
  | nil => rfl
  | cons i rest ih =>
    obtain ⟨hi, hrest⟩ := List.forall_mem_cons.1 h
    -- The first line feed ends the first line; the piece behind the last one is
    -- empty and holds no instruction.
    rw [List.map_cons, List.flatten_cons, List.append_assoc, List.singleton_append,
      List.splitOn_append_cons_self_of_not_mem (InstructionDecl.newline_not_mem_line hi),
      List.zipIdx_cons,
      instructionsAmong_cons_of_instruction (InstructionDecl.isInstructionLine_line hi),
      InstructionDecl.ofNumbered_line hi, ih hrest (first + 1)]
    rfl

/-- **One line for each instruction.**  The instruction lines of a printed
    table are the lines of its instructions, numbered from 1. -/
theorem TableDecl.instructionLines_patternText {d : TableDecl}
    (h : ∀ i ∈ d.instructions, IsOpcodeWord i.opcode) :
    instructionLines d.patternText =
      (d.instructions.zipIdx 1).map fun p => p.1.written p.2 := by
  rw [instructionLines_eq_among_pieces, TableDecl.patternText, String.toList_ofList]
  exact instructionsAmong_of_lines h 1

/-! ## §4. Reading them -/

/-- The error is of the given cause, found at some line. -/
def LineError.Wraps (e : LineError) (cause : CompileError) : Prop :=
  e.kind = .compile cause

theorem LineError.wraps_rightUnique : Relator.RightUnique LineError.Wraps := by
  intro e cause cause' h h'
  exact PatternError.compile.inj (h.symm.trans h')

namespace InstructionDecl

/-- Reading the printed tokens and checking the declared fields agree. -/
theorem tokens_agree (d : InstructionDecl) :
    Agree (List.Forall₂ Eq) (fun e cause => e = .compile cause)
      (d.tokens.mapM Field.ofToken) (d.fields.mapM FieldDecl.check) := by
  apply Agree.mapM
  rw [tokens, List.forall₂_map_left_iff]
  apply List.forall₂_same.2
  intro f _
  rw [Field.ofToken_token]
  cases f.check with
  | ok g => exact .ok rfl
  | error cause => exact .error rfl

/-- So do reading the printed line and checking the declared instruction. -/
theorem read_agree {d : InstructionDecl} (h : IsOpcodeWord d.opcode) (number : Nat) :
    Agree (fun s i => s.instruction = i) LineError.Wraps (d.written number).read d.check := by
  have htokens : (d.written number).tokens = d.tokens := by
    rw [WrittenLine.tokens, written, words_line h, List.tail_cons]
  have hopcode : (d.written number).opcode = d.opcode := by
    rw [WrittenLine.opcode, written, words_line h, List.headD_cons, String.ofList_toList]
  have hagree := d.tokens_agree
  -- Behind the same opcode, what is left to compare is the two traversals.
  rw [WrittenLine.read, check, htokens, hopcode]
  generalize d.tokens.mapM Field.ofToken = read at hagree ⊢
  generalize d.fields.mapM FieldDecl.check = checked at hagree ⊢
  cases hagree with
  | ok hfields =>
    obtain rfl := List.forall₂_eq_eq_eq ▸ hfields
    exact .ok rfl
  | error hcause =>
    obtain rfl := hcause
    exact .error rfl

end InstructionDecl

/-- **Reading what has been printed.**  The printed text of a declared table is
    read as the instructions of the table, or refused for the range that the
    table is refused for. -/
theorem TableDecl.ofText_agree {d : TableDecl} (h : ∀ i ∈ d.instructions, IsOpcodeWord i.opcode) :
    Agree (fun lines instructions => lines.map SourceLine.instruction = instructions)
      LineError.Wraps (SourceLine.ofText d.patternText) d.check := by
  have hlines : Agree (List.Forall₂ fun (s : SourceLine) i => s.instruction = i) LineError.Wraps
      ((instructionLines d.patternText).mapM WrittenLine.read) d.check := by
    rw [instructionLines_patternText h]
    apply Agree.mapM
    have hunnumbered : (d.instructions.zipIdx 1).map Prod.fst = d.instructions :=
      List.zipIdx_map_fst 1 _
    rw [List.forall₂_map_left_iff]
    conv_rhs => rw [← hunnumbered]
    rw [List.forall₂_map_right_iff]
    apply List.forall₂_same.2
    intro p hp
    exact InstructionDecl.read_agree (h p.1 (List.fst_mem_of_mem_zipIdx hp)) p.2
  rw [SourceLine.ofText_eq_mapM]
  apply hlines.mono
  intro lines instructions hmatch
  rw [← List.forall₂_eq_eq_eq, List.forall₂_map_left_iff]
  exact hmatch

end IsaTable
