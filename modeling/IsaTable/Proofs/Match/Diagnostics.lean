import Mathlib.Data.List.Induction
import IsaTable.Proofs.Match.Positions

/-! # What compiling reports

    The records of `Instruction.compileFields`, said by the ranges and values
    of the declared fields alone:

    * **Overlap is a matter of ranges** (`Match.overlaps_ofFields_iff`).  The
      compiler compares one mask with another, and the mask it has gathered is
      the union of the earlier ranges, whatever the earlier values were; so a
      value that spills out of its range is never taken for a field.
    * **Each field is judged by those before it**
      (`Match.warnings_ofFields`), its width before its overlap.
    * **Nothing is missed and nothing else is reported**
      (`Instruction.compileFields_log_exact`).
-/

namespace IsaTable

/-! ## §1. One field after others -/

namespace Field

/-- What is odd about a field declared after others: a value that is not below
    `2 ^ width`, then a range that meets an earlier one. -/
def findings (earlier : List Field) (f : Field) : List Warning :=
  (if 2 ^ (f.stop - f.start + 1) ≤ f.value.toNat then [.wideValue f] else []) ++
    (if ∃ g ∈ earlier, g.Meets f then [.overlap f] else [])

/-- Ranges meet where one position is covered by both. -/
theorem meets_iff_exists_covers (f g : Field) :
    f.Meets g ↔ ∃ p, f.Covers p ∧ g.Covers p := by
  have hf := f.start_le_stop
  have hg := g.start_le_stop
  unfold Meets Covers
  constructor
  · intro h
    -- The later of the two first positions is in both.
    refine ⟨max f.start g.start, ?_, ?_⟩ <;> omega
  · intro h
    obtain ⟨p, hfp, hgp⟩ := h
    omega

/-- A value is too wide when it reaches the power of two of the width; at 32
    positions none does. -/
theorem not_valueFits_iff (f : Field) :
    ¬ f.valueFits = true ↔ 2 ^ (f.stop - f.start + 1) ≤ f.value.toNat := by
  rw [valueFits_iff, Nat.not_lt]
  rfl

end Field

namespace Match

/-- **Overlap is a matter of ranges.**  A field overlaps what has been
    accumulated when its range meets that of an earlier field. -/
theorem overlaps_ofFields_iff (earlier : List Field) (f : Field) :
    (ofFields earlier).overlaps f = true ↔ ∃ g ∈ earlier, g.Meets f := by
  have hshared : (ofFields earlier).overlaps f = true ↔
      ∃ p, (∃ g ∈ earlier, g.Covers p) ∧ f.Covers p := by
    rw [← Bool.not_eq_false, overlaps_eq_false_iff_positions]
    push Not
    constructor
    · intro h
      obtain ⟨p, -, hmask, hfield⟩ := h
      rw [Field.getMsbD_mask_eq_covers, decide_eq_true_eq] at hfield
      exact ⟨p, (getMsbD_mask_ofFields earlier p).1 hmask, hfield⟩
    · intro h
      obtain ⟨p, hcovered, hfield⟩ := h
      refine ⟨p, hfield.lt, (getMsbD_mask_ofFields earlier p).2 hcovered, ?_⟩
      rw [Field.getMsbD_mask_eq_covers, decide_eq_true_eq]
      exact hfield
  rw [hshared]
  constructor
  · intro h
    obtain ⟨p, ⟨g, hg, hcovers⟩, hfield⟩ := h
    exact ⟨g, hg, (g.meets_iff_exists_covers f).2 ⟨p, hcovers, hfield⟩⟩
  · intro h
    obtain ⟨g, hg, hmeets⟩ := h
    obtain ⟨p, hcovers, hfield⟩ := (g.meets_iff_exists_covers f).1 hmeets
    exact ⟨p, ⟨g, hg, hcovers⟩, hfield⟩

/-- The compiler's judgement of one field is that by ranges and values. -/
theorem warnings_ofFields (earlier : List Field) (f : Field) :
    (ofFields earlier).warnings f = f.findings earlier := by
  have hwide : (if f.valueFits = true then [] else [Warning.wideValue f]) =
      if 2 ^ (f.stop - f.start + 1) ≤ f.value.toNat then [.wideValue f] else [] := by
    rw [← ite_not]
    simp only [f.not_valueFits_iff]
  unfold warnings Field.findings
  rw [hwide]
  simp only [overlaps_ofFields_iff]

/-! ## §2. Lists of fields -/

/-- Along a list each field is judged by the ones before it. -/
theorem warningsAlong_eq_findings (fields : List Field) :
    empty.warningsAlong fields =
      fields.zipIdx.flatMap fun p => p.1.findings (fields.take p.2) := by
  -- The last field is the one that sees all others, so the list is taken apart
  -- from its end.
  induction fields using List.reverseRecOn with
  | nil => rfl
  | append_singleton earlier f ih =>
    have hbefore : ∀ p ∈ earlier.zipIdx, (earlier ++ [f]).take p.2 = earlier.take p.2 := by
      intro p hp
      have hlt : p.2 < earlier.length := by simpa using (List.mem_zipIdx hp).2.1
      exact List.take_append_of_le_length hlt.le
    have hrest : (earlier.zipIdx.flatMap fun p => p.1.findings ((earlier ++ [f]).take p.2)) =
        earlier.zipIdx.flatMap fun p => p.1.findings (earlier.take p.2) := by
      apply List.flatMap_congr
      intro p hp
      rw [hbefore p hp]
    have hlast : (ofFields earlier).warningsAlong [f] = f.findings earlier := by
      rw [warningsAlong_cons, warningsAlong_nil, List.append_nil, warnings_ofFields]
    rw [warningsAlong_append, ih, List.zipIdx_append, List.flatMap_append, hrest]
    show _ ++ (ofFields earlier).warningsAlong [f] = _
    rw [hlast]
    simp

end Match

/-! ## §3. Compiled instructions -/

namespace Instruction

/-- **Diagnostics are exact.**  Compiling an instruction records, field by
    field, that a value is not below `2 ^ width`, and then that a range meets
    that of a field declared earlier; these are warnings, and there is nothing
    else.  Without fields nothing is recorded. -/
theorem compileFields_log_exact (i : Instruction) :
    i.compileFields.log =
        (i.fields.zipIdx.flatMap fun p => p.1.findings (i.fields.take p.2)).map
          (.warning i.opcode) ∧
      ∀ r ∈ i.compileFields.log, r.level = .warn := by
  have hlog : i.compileFields.log =
      (i.fields.zipIdx.flatMap fun p => p.1.findings (i.fields.take p.2)).map
        (.warning i.opcode) := by
    by_cases hne : i.fields = []
    · simp [compileFields, hne, Logged.fail]
    · rw [compileFields_of_ne_nil hne, records, warnings, Match.warningsAlong_eq_findings]
  refine ⟨hlog, ?_⟩
  intro r hr
  rw [hlog] at hr
  obtain ⟨what, -, rfl⟩ := List.mem_map.1 hr
  rfl

/-- The first value spills into the range of the second field, which is not
    reported; the third field meets the first, which is. -/
example :
    let f : Field := ⟨4, 7, 0xff#32, by decide, by decide⟩
    let g : Field := ⟨0, 3, 0x1#32, by decide, by decide⟩
    let h : Field := ⟨0, 31, 0xffffffff#32, by decide, by decide⟩
    (compileFields ⟨"x", [f, g, h]⟩).log =
      [.warning "x" (.wideValue f), .warning "x" (.overlap h)] := by
  decide

end Instruction

end IsaTable
