import IsaTable.Proofs.Pattern.LineNumbers
import IsaTable.Proofs.Table.Loading

/-! # Lines reported with their text

    Errors and source lines carry the number of their line and its trimmed text.
    Both can be trusted: the line is found in the text under that number, and
    the text alone brings about what was reported, now on line 1
    (`Table.ofPatterns_reported`).

    The reason is that an instruction line stands alone in its own text.  Whether
    it is the error of the whole text depends on other lines, but what is wrong
    with it does not: an error of either phase is one that its line has by itself
    (`Table.HasError`).
-/

namespace IsaTable

open Text

/-! ## §1. Source lines -/

namespace SourceLine

variable {text : String} {sources : List SourceLine}

/-- A text is read exactly when all its instruction lines are readable, and then
    as they stand. -/
theorem ofText_eq_ok_iff :
    ofText text = .ok sources ↔
      (∀ l ∈ instructionLines text, l.Readable) ∧
        sources = (instructionLines text).map WrittenLine.source := by
  constructor
  · intro h
    have hread : ∀ l ∈ instructionLines text, l.Readable := by
      intro l hl
      rw [ofText_eq_mapM] at h
      exact WrittenLine.readable_iff.2 (exists_mapM_eq_ok_iff.1 ⟨sources, h⟩ l hl)
    rw [ofText_of_readable hread] at h
    exact ⟨hread, (Except.ok.inj h).symm⟩
  · intro h
    rw [h.2]
    exact ofText_of_readable h.1

/-- A source line is read again from its own text. -/
theorem ofText_of_mem {s : SourceLine} (h : ofText text = .ok sources) (hs : s ∈ sources) :
    ofText s.text = .ok [⟨1, s.text, s.instruction⟩] := by
  obtain ⟨hread, rfl⟩ := ofText_eq_ok_iff.1 h
  obtain ⟨l, hl, rfl⟩ := List.mem_map.1 hs
  show ofText (String.ofList l.text) = _
  rw [ofText_eq_ok_iff, instructionLines_of_mem hl]
  exact ⟨List.forall_mem_singleton.2 (hread l hl), rfl⟩

end SourceLine

/-! ## §2. Errors -/

namespace Table

/-- What is wrong with a line by itself: it cannot be read, or it has no
    tokens. -/
def HasError (l : WrittenLine) (kind : PatternError) : Prop :=
  l.read = .error (l.error kind) ∨
    l.Readable ∧ l.tokens = [] ∧ kind = .compile .emptyFieldList

/-- **An error is one of a line.**  Whatever text is refused for, one of its
    lines has it by itself. -/
theorem exists_hasError {text : String} {e : LineError}
    (h : (ofPatterns text).outcome = .error e) :
    ∃ l ∈ instructionLines text, ∃ kind, e = l.error kind ∧ HasError l kind := by
  rcases all_or_firstFailure WrittenLine.Readable (instructionLines text) with
    hread | ⟨before, l, hfirst⟩
  · rcases all_or_firstFailure (fun k => k.tokens ≠ []) (instructionLines text) with
      htokens | ⟨before, l, hfirst⟩
    · rw [ofPatterns_of_complete hread htokens] at h
      exact nomatch h
    · rw [ofPatterns_of_incomplete hread hfirst] at h
      exact ⟨l, hfirst.mem, _, (Except.error.inj h).symm,
        .inr ⟨hread l hfirst.mem, not_not.1 hfirst.failed, rfl⟩⟩
  · obtain ⟨_, _, kind, _, _, herror⟩ := WrittenLine.exists_read_error hfirst.failed
    rw [ofPatterns_of_unreadable hfirst herror] at h
    exact ⟨l, hfirst.mem, kind, (Except.error.inj h).symm, .inl herror⟩

/-- A text with one instruction line is refused for what is wrong with it. -/
theorem ofPatterns_of_hasError {text : String} {l : WrittenLine} {kind : PatternError}
    (hlines : instructionLines text = [l]) (h : HasError l kind) :
    (ofPatterns text).outcome = .error (l.error kind) := by
  rcases h with hread | ⟨hread, htokens, rfl⟩
  · have hunreadable : ¬ l.Readable := by
      intro hl
      rw [WrittenLine.read_of_readable hl] at hread
      exact nomatch hread
    have hfirst : FirstFailure WrittenLine.Readable (instructionLines text) [] l := by
      rw [hlines]
      exact .head hunreadable []
    rw [ofPatterns_of_unreadable hfirst hread]
  · have hfirst : FirstFailure (fun k => k.tokens ≠ []) (instructionLines text) [] l := by
      rw [hlines]
      exact .head (p := fun k : WrittenLine => k.tokens ≠ []) (not_not.2 htokens) []
    have hall : ∀ k ∈ instructionLines text, k.Readable := by
      rw [hlines]
      exact List.forall_mem_singleton.2 hread
    rw [ofPatterns_of_incomplete hall hfirst]

/-- What is wrong with a line does not depend on its number. -/
theorem HasError.renumber {l : WrittenLine} {kind : PatternError} (h : HasError l kind)
    (f : Nat → Nat) : HasError (l.renumber f) kind := by
  rcases h with hread | ⟨hread, htokens, rfl⟩
  · left
    rw [WrittenLine.read_renumber, hread]
    rfl
  · exact .inr ⟨hread, htokens, rfl⟩

/-! ## §3. Reports -/

/-- **What is reported can be looked up and reproduced.**  The text of an error
    is the trimmed line under its number, and the text alone is refused for the
    same thing, on line 1.  The same holds of the source lines of a text that is
    read: each is found under its number, is read again from its own text, and
    stands below those in front of it. -/
theorem ofPatterns_reported (text : String) :
    (∀ e, (ofPatterns text).outcome = .error e →
      (ofPatterns e.text).outcome = .error ⟨1, e.text, e.kind⟩ ∧
        ∃ i line, e.line = i + 1 ∧ (lines text.toList)[i]? = some line ∧
          e.text = String.ofList (trim line)) ∧
    ∀ sources, SourceLine.ofText text = .ok sources →
      (∀ s ∈ sources, SourceLine.ofText s.text = .ok [⟨1, s.text, s.instruction⟩] ∧
        ∃ i line, s.line = i + 1 ∧ (lines text.toList)[i]? = some line ∧
          s.text = String.ofList (trim line)) ∧
      sources.Pairwise fun s s' => s.line < s'.line := by
  have hlocated : ∀ l ∈ instructionLines text, ∃ i line, l.number = i + 1 ∧
      (lines text.toList)[i]? = some line ∧
        String.ofList l.text = String.ofList (trim line) := by
    intro l hl
    obtain ⟨i, line, hnumber, hline, htext⟩ := exists_line_of_mem hl
    exact ⟨i, line, hnumber, hline, by rw [htext]⟩
  constructor
  · intro e he
    obtain ⟨l, hl, kind, rfl, herror⟩ := exists_hasError he
    have halone := ofPatterns_of_hasError (instructionLines_of_mem hl) (herror.renumber fun _ => 1)
    exact ⟨halone, hlocated l hl⟩
  · intro sources hsources
    constructor
    · intro s hs
      refine ⟨SourceLine.ofText_of_mem hsources hs, ?_⟩
      obtain ⟨-, rfl⟩ := SourceLine.ofText_eq_ok_iff.1 hsources
      obtain ⟨l, hl, rfl⟩ := List.mem_map.1 hs
      exact hlocated l hl
    · obtain ⟨-, rfl⟩ := SourceLine.ofText_eq_ok_iff.1 hsources
      rw [List.pairwise_map]
      exact pairwise_number_instructionLines text

/-- An error of the second phase, on a line between blanks that ends in a
    carriage return and a line feed. -/
theorem ofPatterns_reported_incomplete :
    (ofPatterns "# isa\r\na 0,5,1\n\tsync \r\n").outcome =
        .error ⟨3, "sync", .compile .emptyFieldList⟩ ∧
      (ofPatterns "sync").outcome = .error ⟨1, "sync", .compile .emptyFieldList⟩ := by
  have herror : (ofPatterns "# isa\r\na 0,5,1\n\tsync \r\n").outcome =
      .error ⟨3, "sync", .compile .emptyFieldList⟩ := by rfl
  exact ⟨herror, ((ofPatterns_reported _).1 _ herror).1⟩

end Table

end IsaTable
