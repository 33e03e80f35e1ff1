import IsaTable.Proofs.Match.Diagnostics

/-! # The order of fields

    What the declaration order of an instruction's fields decides, and what it
    does not:

    * **The match depends on the set of fields** only, neither on their order
      nor on repetitions (`Match.ofFields_eq_of_mem_iff`); the match of two
      lists together is the union of their matches (`Match.ofFields_append`).
    * **A wide value is reported** by looking at its own field
      (`Instruction.filter_isWide_log`).
    * **An overlap is reported** at the later of the two fields, so how many
      fields are reported depends on the order.  Whether any is does not: it is
      whether two of the fields meet, and meeting is symmetric
      (`Instruction.exists_isOverlap_log_iff`).
-/

namespace IsaTable

/-! ## §1. Matches -/

namespace Match

/-- Everything that either of two matches constrains and expects. -/
def union (m n : Match) : Match :=
  ⟨m.mask ||| n.mask, m.bits ||| n.bits⟩

/-- Two matches are equal when they mask the same positions and expect ones at
    the same positions. -/
theorem eq_of_positions {m n : Match}
    (hmask : ∀ p, m.mask.getMsbD p = true ↔ n.mask.getMsbD p = true)
    (hbits : ∀ p, m.bits.getMsbD p = true ↔ n.bits.getMsbD p = true) : m = n := by
  have hsameMask : m.mask = n.mask :=
    (Word.eq_iff_positions _ _).2 fun p _ => Bool.eq_iff_iff.2 (hmask p)
  have hsameBits : m.bits = n.bits :=
    (Word.eq_iff_positions _ _).2 fun p _ => Bool.eq_iff_iff.2 (hbits p)
  obtain ⟨mask, bits⟩ := m
  obtain ⟨mask', bits'⟩ := n
  simp only at hsameMask hsameBits
  rw [hsameMask, hsameBits]

/-- **The match depends on the set of fields.** -/
theorem ofFields_eq_of_mem_iff {fs gs : List Field} (h : ∀ f, f ∈ fs ↔ f ∈ gs) :
    ofFields fs = ofFields gs := by
  apply eq_of_positions
  · intro p
    simp only [getMsbD_mask_ofFields, h]
  · intro p
    simp only [getMsbD_bits_ofFields, h]

/-- **The match of two lists together** is the union of their matches. -/
theorem ofFields_append (fs gs : List Field) :
    ofFields (fs ++ gs) = (ofFields fs).union (ofFields gs) := by
  apply eq_of_positions
  · intro p
    simp only [union, BitVec.getMsbD_or, Bool.or_eq_true, getMsbD_mask_ofFields,
      List.mem_append, or_and_right, exists_or]
  · intro p
    simp only [union, BitVec.getMsbD_or, Bool.or_eq_true, getMsbD_bits_ofFields,
      List.mem_append, or_and_right, exists_or]

end Match

/-! ## §2. Warnings -/

/-- Whether a record is about a value that is too wide. -/
def Record.isWide : Record → Bool
  | .warning _ (.wideValue _) => true
  | _ => false

/-- Whether a record is about an overlap. -/
def Record.isOverlap : Record → Bool
  | .warning _ (.overlap _) => true
  | _ => false

namespace Match

/-- A further field is free of what has been accumulated when it is free of
    what was there and does not meet the field added last. -/
theorem overlaps_accumulate_eq_false_iff (m : Match) (f g : Field) :
    (m.accumulate f).overlaps g = false ↔ m.overlaps g = false ∧ ¬ f.Meets g := by
  simp only [overlaps_eq_false_iff_positions, mask_accumulate, BitVec.getMsbD_or,
    Field.getMsbD_mask_eq_covers, Bool.or_eq_true, decide_eq_true_eq,
    Field.meets_iff_exists_covers]
  constructor
  · intro h
    refine ⟨fun p hp hm => h p hp ⟨.inl hm.1, hm.2⟩, ?_⟩
    intro hmeets
    obtain ⟨p, hf, hg⟩ := hmeets
    exact h p hg.lt ⟨.inr hf, hg⟩
  · intro h p hp hboth
    obtain ⟨hfree, hapart⟩ := h
    obtain ⟨hm | hf, hg⟩ := hboth
    · exact hfree p hp ⟨hm, hg⟩
    · exact hapart ⟨p, hf, hg⟩

/-- **The symmetric reading of the overlap check.**  Along a list nothing
    overlaps when all fields are free of what was there before, and no two of
    them meet. -/
theorem no_overlap_warningsAlong_iff (m : Match) (fields : List Field) :
    (∀ f, .overlap f ∉ m.warningsAlong fields) ↔
      (∀ f ∈ fields, m.overlaps f = false) ∧ fields.Pairwise fun f g => ¬ f.Meets g := by
  induction fields generalizing m with
  | nil => simp
  | cons f rest ih =>
    have hfirst : (∀ g, .overlap g ∉ m.warnings f) ↔ m.overlaps f = false := by
      cases hfits : f.valueFits <;> cases hfree : m.overlaps f <;>
        simp [warnings, hfits, hfree]
    -- The fields behind `f` are tested against `f` as well, which is what the
    -- pairs with `f` ask for.
    simp only [warningsAlong_cons, List.mem_append, not_or, forall_and, hfirst, ih,
      overlaps_accumulate_eq_false_iff, List.forall_mem_cons, List.pairwise_cons]
    tauto

/-- Along a list, the wide values are those of the fields that are too wide for
    their own range, whatever was there before. -/
theorem filter_isWide_warningsAlong (opcode : String) (m : Match) (fields : List Field) :
    ((m.warningsAlong fields).map (Record.warning opcode)).filter Record.isWide =
      (fields.filter fun f => !f.valueFits).map fun f => .warning opcode (.wideValue f) := by
  induction fields generalizing m with
  | nil => rfl
  | cons f rest ih =>
    have hfirst : ((m.warnings f).map (Record.warning opcode)).filter Record.isWide =
        if f.valueFits then [] else [.warning opcode (.wideValue f)] := by
      cases hfits : f.valueFits <;> cases hfree : m.overlaps f <;>
        simp [warnings, hfits, hfree, Record.isWide, List.filter_cons]
    rw [warningsAlong_cons, List.map_append, List.filter_append, hfirst, ih, List.filter_cons]
    cases f.valueFits <;> rfl

end Match

/-! ## §3. Compiled instructions -/

namespace Instruction

theorem log_compileFields (i : Instruction) : i.compileFields.log = i.records := by
  by_cases hne : i.fields = []
  · obtain ⟨opcode, fields⟩ := i
    obtain rfl : fields = [] := hne
    rfl
  · rw [compileFields_of_ne_nil hne]

/-- **Wide values** are reported in order, each on account of its own field
    alone. -/
theorem filter_isWide_log (opcode : String) (fields : List Field) :
    (compileFields ⟨opcode, fields⟩).log.filter Record.isWide =
      (fields.filter fun f => !f.valueFits).map fun f => .warning opcode (.wideValue f) := by
  rw [log_compileFields, records, warnings]
  exact Match.filter_isWide_warningsAlong opcode .empty fields

/-- **Some overlap is reported** exactly when two of the fields meet. -/
theorem exists_isOverlap_log_iff (i : Instruction) :
    (∃ r ∈ i.compileFields.log, r.isOverlap = true) ↔
      ¬ i.fields.Pairwise fun f g => ¬ f.Meets g := by
  have hrecord : (∃ r ∈ i.compileFields.log, r.isOverlap = true) ↔
      ¬ ∀ f, .overlap f ∉ i.warnings := by
    rw [log_compileFields, records]
    push Not
    constructor
    · intro h
      obtain ⟨r, hr, hoverlap⟩ := h
      obtain ⟨what, hwhat, rfl⟩ := List.mem_map.1 hr
      cases what with
      | wideValue f => cases hoverlap
      | overlap f => exact ⟨f, hwhat⟩
    · intro h
      obtain ⟨f, hf⟩ := h
      exact ⟨_, List.mem_map_of_mem hf, rfl⟩
  have hnone : ∀ f ∈ i.fields, Match.empty.overlaps f = false := fun f _ => by
    simp [Match.overlaps, Match.empty]
  rw [hrecord, warnings, Match.no_overlap_warningsAlong_iff, and_iff_right hnone]

/-- Meeting is symmetric, so whether two fields of a list meet does not depend
    on its order. -/
theorem pairwise_not_meets_iff_of_perm {fs gs : List Field} (h : gs.Perm fs) :
    (gs.Pairwise fun f g => ¬ f.Meets g) ↔ fs.Pairwise fun f g => ¬ f.Meets g :=
  List.Perm.pairwise_iff (fun hfg hgf => hfg ⟨hgf.2, hgf.1⟩) h

/-- How many overlaps are reported depends on the order: two bytes are both
    reported behind a field that covers them, and in front of it only that
    field is. -/
theorem exists_perm_countP_isOverlap_ne (opcode : String) :
    ∃ fs gs : List Field, gs.Perm fs ∧
      (compileFields ⟨opcode, gs⟩).log.countP Record.isOverlap ≠
        (compileFields ⟨opcode, fs⟩).log.countP Record.isOverlap := by
  let high : Field := ⟨0, 7, 0, by decide, by decide⟩
  let low : Field := ⟨8, 15, 0, by decide, by decide⟩
  let all : Field := ⟨0, 15, 0, by decide, by decide⟩
  have hfirst : Match.empty.warningsAlong [all, high, low] = [.overlap high, .overlap low] := by
    decide
  have hlast : Match.empty.warningsAlong [high, low, all] = [.overlap all] := by decide
  refine ⟨[all, high, low], [high, low, all], List.perm_append_singleton all [high, low], ?_⟩
  rw [log_compileFields, log_compileFields, records, records, warnings, warnings, hfirst, hlast]
  show 1 ≠ 2
  decide

/-- **Order and repetition do not matter.**  Two lists of the same fields
    compile to the same match, and the two lists together to the union of their
    matches.  Permuting a list permutes the records of wide values and changes
    nothing about whether an overlap is recorded; how many overlaps are recorded
    may change. -/
theorem compileFields_unordered (opcode : String) :
    (∀ fs gs : List Field, fs ≠ [] → gs ≠ [] →
      ∃ m n, (compileFields ⟨opcode, fs⟩).outcome = .ok m ∧
        (compileFields ⟨opcode, gs⟩).outcome = .ok n ∧
        ((∀ f, f ∈ fs ↔ f ∈ gs) → m = n) ∧
        (compileFields ⟨opcode, fs ++ gs⟩).outcome =
          .ok ⟨m.mask ||| n.mask, m.bits ||| n.bits⟩ ∧
        (gs.Perm fs →
          ((compileFields ⟨opcode, gs⟩).log.filter Record.isWide).Perm
            ((compileFields ⟨opcode, fs⟩).log.filter Record.isWide) ∧
          ((∃ r ∈ (compileFields ⟨opcode, gs⟩).log, r.isOverlap = true) ↔
            ∃ r ∈ (compileFields ⟨opcode, fs⟩).log, r.isOverlap = true))) ∧
    ∃ fs gs : List Field, gs.Perm fs ∧
      (compileFields ⟨opcode, gs⟩).log.countP Record.isOverlap ≠
        (compileFields ⟨opcode, fs⟩).log.countP Record.isOverlap := by
  constructor
  · intro fs gs hfs hgs
    have hboth : fs ++ gs ≠ [] := by simp [hfs]
    refine ⟨.ofFields fs, .ofFields gs, by rw [compileFields_of_ne_nil hfs],
      by rw [compileFields_of_ne_nil hgs], Match.ofFields_eq_of_mem_iff, ?_, ?_⟩
    · rw [compileFields_of_ne_nil hboth, Match.ofFields_append]
      rfl
    · intro hperm
      constructor
      · rw [filter_isWide_log, filter_isWide_log]
        exact (hperm.filter _).map _
      · rw [exists_isOverlap_log_iff, exists_isOverlap_log_iff,
          pairwise_not_meets_iff_of_perm hperm]
  · exact exists_perm_countP_isOverlap_ne opcode

/-- Two fields that meet, one of them with a value that is too wide, in both
    orders. -/
theorem compileFields_unordered_meeting :
    let f : Field := ⟨4, 7, 0xff#32, by decide, by decide⟩
    let g : Field := ⟨6, 9, 0x3#32, by decide, by decide⟩
    let fs : List Field := [f, g]
    let gs : List Field := [g, f]
    fs ≠ [] ∧ gs ≠ [] ∧ gs.Perm fs ∧ (∀ h, h ∈ fs ↔ h ∈ gs) ∧
      (compileFields ⟨"x", gs⟩).outcome = (compileFields ⟨"x", fs⟩).outcome ∧
      ((compileFields ⟨"x", gs⟩).log.filter Record.isWide).Perm
        ((compileFields ⟨"x", fs⟩).log.filter Record.isWide) ∧
      ∃ r ∈ (compileFields ⟨"x", gs⟩).log, r.isOverlap = true := by
  intro f g fs gs
  have hperm : gs.Perm fs := List.Perm.swap f g []
  have hset : ∀ h, h ∈ fs ↔ h ∈ gs := fun h => hperm.mem_iff.symm
  obtain ⟨hall, -⟩ := compileFields_unordered "x"
  obtain ⟨m, n, hm, hn, hmatch, -, hlog⟩ := hall fs gs (by decide) (by decide)
  obtain ⟨hwide, hoverlap⟩ := hlog hperm
  refine ⟨by decide, by decide, hperm, hset, ?_, hwide, hoverlap.2 (by decide)⟩
  rw [hm, hn, hmatch hset]

end Instruction

end IsaTable
