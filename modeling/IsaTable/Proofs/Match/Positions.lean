import Mathlib.Data.List.Forall2
import IsaTable.Proofs.Match.Meaning

/-! # A match, position by position

    What compilation makes of a list of fields, said of one position at a
    time, without masks and shifts:

    * **The mask** has the positions that some field covers
      (`Match.getMsbD_mask_ofFields`).
    * **The bits** have bit `k` of each value at the position `k` places before
      the last one of its field (`Match.getMsbD_bits_ofFields`).  So a value
      that is too wide spills towards position 0 only, and what would have to
      stand before position 0 is dropped (`Match.ofFields_congr`).
    * **Inconsistency** is spilled bits that no field covers
      (`Match.isConsistent_ofFields_eq_false_iff`).  A value that is too wide
      need not lead there: its bits may be dropped, or land in other fields.
-/

namespace IsaTable

/-! ## §1. One field -/

namespace Field

/-- Whether the field places a one at a position: the bit of its value that
    belongs there is set, be the position in its range or before it. -/
def Places (f : Field) (p : Nat) : Prop :=
  p ≤ f.stop ∧ f.value.getLsbD (f.stop - p) = true

/-- The fields have the same range, and their values differ at most in bits
    that no position takes. -/
def PlacesAlike (f g : Field) : Prop :=
  f.start = g.start ∧ f.stop = g.stop ∧
    ∀ k ≤ f.stop, f.value.getLsbD k = g.value.getLsbD k

theorem getMsbD_placedValue_iff (f : Field) (p : Nat) :
    f.placedValue.getMsbD p = true ↔ f.Places p := by
  by_cases hp : p < 32
  · rw [f.getMsbD_placedValue hp, Bool.and_eq_true, decide_eq_true_eq]
    rfl
  · -- There is no such position, neither in the word nor up to the last one.
    have hstop := f.stop_le
    have hout : ¬ f.Places p := fun h => by
      have := h.1
      omega
    simp [BitVec.getMsbD, hp, hout]

/-- Each bit of a value has one position to go to, if any. -/
theorem places_stop_sub {f : Field} {k : Nat} (hk : k ≤ f.stop) :
    f.Places (f.stop - k) ↔ f.value.getLsbD k = true := by
  have hback : f.stop - (f.stop - k) = k := by omega
  unfold Places
  rw [hback]
  exact and_iff_right (Nat.sub_le f.stop k)

/-- **A spill goes towards position 0.**  What a field places outside its range
    stands before it, and comes from a bit past the width. -/
theorem Places.spill {f : Field} {p : Nat} (h : f.Places p) (hout : ¬ f.Covers p) :
    p < f.start ∧ f.width ≤ f.stop - p := by
  have hstop := h.1
  have := f.start_le_stop
  unfold Covers at hout
  unfold width
  omega

/-- A bit past the width goes to a position before the range. -/
theorem stop_sub_lt_start {f : Field} {k : Nat} (hwidth : f.width ≤ k) (hk : k ≤ f.stop) :
    f.stop - k < f.start := by
  have := f.start_le_stop
  unfold width at hwidth
  omega

namespace PlacesAlike

variable {f g : Field}

theorem mask_eq (h : f.PlacesAlike g) : f.mask = g.mask := by
  obtain ⟨hstart, hstop, -⟩ := h
  unfold mask
  rw [hstart, hstop]

theorem placedValue_eq (h : f.PlacesAlike g) : f.placedValue = g.placedValue := by
  obtain ⟨-, hstop, hbits⟩ := h
  apply (Word.eq_iff_positions _ _).2
  intro p _
  rw [Bool.eq_iff_iff, getMsbD_placedValue_iff, getMsbD_placedValue_iff]
  show _ ∧ _ ↔ _ ∧ _
  -- The bit that belongs at `p` is bit `stop - p` of both values.
  rw [hbits (f.stop - p) (Nat.sub_le f.stop p), hstop]

end PlacesAlike

end Field

/-! ## §2. Lists of fields -/

namespace Match

/-- **The mask** has the positions that some field covers. -/
theorem getMsbD_mask_ofFields (fields : List Field) (p : Nat) :
    (ofFields fields).mask.getMsbD p = true ↔ ∃ f ∈ fields, f.Covers p := by
  rw [ofFields, getMsbD_mask_foldl]
  simp [empty, Field.getMsbD_mask_eq_covers]

/-- **The bits** are those that some field places. -/
theorem getMsbD_bits_ofFields (fields : List Field) (p : Nat) :
    (ofFields fields).bits.getMsbD p = true ↔ ∃ f ∈ fields, f.Places p := by
  rw [ofFields, getMsbD_bits_foldl]
  simp [empty, Field.getMsbD_placedValue_iff]

/-- Fields that place alike accumulate alike. -/
theorem foldl_congr (m : Match) {fields fields' : List Field}
    (h : List.Forall₂ Field.PlacesAlike fields fields') :
    fields.foldl accumulate m = fields'.foldl accumulate m := by
  induction h generalizing m with
  | nil => rfl
  | @cons f g rest rest' hfg _ ih =>
    have hstep : m.accumulate f = m.accumulate g := by
      unfold accumulate
      rw [hfg.mask_eq, hfg.placedValue_eq]
    rw [List.foldl_cons, List.foldl_cons, hstep]
    exact ih (m.accumulate g)

/-- **Bits past position 0 are dropped**: values that differ in nothing else
    compile alike. -/
theorem ofFields_congr {fields fields' : List Field}
    (h : List.Forall₂ Field.PlacesAlike fields fields') : ofFields fields = ofFields fields' :=
  foldl_congr empty h

/-- A match is inconsistent when it expects a bit at a position that is not
    masked. -/
theorem isConsistent_eq_false_iff (m : Match) :
    m.isConsistent = false ↔ ∃ p, m.bits.getMsbD p = true ∧ ¬ m.mask.getMsbD p = true := by
  rw [← Bool.not_eq_true, isConsistent_iff_positions]
  push Not
  constructor
  · intro h
    obtain ⟨p, -, hbit, hmask⟩ := h
    exact ⟨p, hbit, hmask⟩
  · intro h
    obtain ⟨p, hbit, hmask⟩ := h
    have hp : p < 32 := by
      by_contra hlarge
      simp [BitVec.getMsbD, hlarge] at hbit
    exact ⟨p, hp, hbit, hmask⟩

/-- **Inconsistency.**  A list of fields compiles to an inconsistent match when
    some value has a bit past its width that goes to a position which no field
    covers. -/
theorem isConsistent_ofFields_eq_false_iff (fields : List Field) :
    (ofFields fields).isConsistent = false ↔
      ∃ f ∈ fields, ∃ k, f.width ≤ k ∧ k ≤ f.stop ∧ f.value.getLsbD k = true ∧
        ∀ g ∈ fields, ¬ g.Covers (f.stop - k) := by
  simp only [isConsistent_eq_false_iff, getMsbD_mask_ofFields, getMsbD_bits_ofFields]
  constructor
  · intro h
    obtain ⟨p, ⟨f, hf, hplaces⟩, huncovered⟩ := h
    have hfree : ∀ g ∈ fields, ¬ g.Covers p := fun g hg hcovers => huncovered ⟨g, hg, hcovers⟩
    obtain ⟨-, hwidth⟩ := hplaces.spill (hfree f hf)
    have hback : f.stop - (f.stop - p) = p := by
      have := hplaces.1
      omega
    refine ⟨f, hf, f.stop - p, hwidth, Nat.sub_le f.stop p, hplaces.2, ?_⟩
    rw [hback]
    exact hfree
  · intro h
    obtain ⟨f, hf, k, -, hk, hbit, hfree⟩ := h
    refine ⟨f.stop - k, ⟨f, hf, (Field.places_stop_sub hk).2 hbit⟩, ?_⟩
    intro hcovered
    obtain ⟨g, hg, hcovers⟩ := hcovered
    exact hfree g hg hcovers

end Match

/-! ## §3. Compiled instructions -/

namespace Instruction

/-- **Positional meaning.**  An instruction with fields compiles to the match
    whose mask has the positions that some field covers, and whose bits have
    bit `k` of each value at the position `k` places before the last one of its
    field.  So the bits past a width go to positions before the range; those
    that would have to stand before position 0 make no difference; and the
    match is inconsistent exactly when one of the others goes to a position
    that no field covers. -/
theorem compileFields_positions (i : Instruction) (hne : i.fields ≠ []) :
    ∃ m, i.compileFields.outcome = .ok m ∧
      (∀ p, m.mask.getMsbD p = true ↔ ∃ f ∈ i.fields, f.start ≤ p ∧ p ≤ f.stop) ∧
      (∀ p, m.bits.getMsbD p = true ↔
        ∃ f ∈ i.fields, p ≤ f.stop ∧ f.value.getLsbD (f.stop - p) = true) ∧
      (∀ f ∈ i.fields, ∀ k, f.width ≤ k → k ≤ f.stop → f.value.getLsbD k = true →
        f.stop - k < f.start ∧ m.bits.getMsbD (f.stop - k) = true) ∧
      (∀ i' : Instruction, List.Forall₂ Field.PlacesAlike i.fields i'.fields →
        i'.compileFields.outcome = .ok m) ∧
      (m.isConsistent = false ↔
        ∃ f ∈ i.fields, ∃ k, f.width ≤ k ∧ k ≤ f.stop ∧ f.value.getLsbD k = true ∧
          ∀ g ∈ i.fields, ¬ (g.start ≤ f.stop - k ∧ f.stop - k ≤ g.stop)) := by
  refine ⟨.ofFields i.fields, by rw [compileFields_of_ne_nil hne],
    Match.getMsbD_mask_ofFields i.fields, Match.getMsbD_bits_ofFields i.fields, ?_, ?_,
    Match.isConsistent_ofFields_eq_false_iff i.fields⟩
  · intro f hf k hwidth hk hbit
    refine ⟨Field.stop_sub_lt_start hwidth hk, ?_⟩
    exact (Match.getMsbD_bits_ofFields _ _).2 ⟨f, hf, (Field.places_stop_sub hk).2 hbit⟩
  · intro i' halike
    have hne' : i'.fields ≠ [] := by
      intro hnil
      rw [hnil, List.forall₂_nil_right_iff] at halike
      exact hne halike
    rw [compileFields_of_ne_nil hne', Match.ofFields_congr halike]

/-- A value of six bits in a field of two, beside a field that covers position
    0: of the four bits too many one is dropped, one lands in the other field,
    and one is expected where nothing is masked. -/
theorem compileFields_positions_spill :
    let i : Instruction :=
      ⟨"x", [⟨2, 3, 0b111101#32, by decide, by decide⟩, ⟨0, 0, 0#32, by decide, by decide⟩]⟩
    i.fields ≠ [] ∧ i.compileFields.outcome = .ok ⟨0xb0000000#32, 0xd0000000#32⟩ ∧
      ∃ f ∈ i.fields, ∃ k, f.width ≤ k ∧ k ≤ f.stop ∧ f.value.getLsbD k = true ∧
        ∀ g ∈ i.fields, ¬ (g.start ≤ f.stop - k ∧ f.stop - k ≤ g.stop) := by
  intro i
  have hne : i.fields ≠ [] := by decide
  have hmatch : i.compileFields.outcome = .ok ⟨0xb0000000#32, 0xd0000000#32⟩ := by decide
  obtain ⟨m, hm, -, -, -, -, hconsistent⟩ := compileFields_positions i hne
  obtain rfl : m = ⟨0xb0000000#32, 0xd0000000#32⟩ := Except.ok.inj (hm.symm.trans hmatch)
  exact ⟨hne, hmatch, hconsistent.1 (by decide)⟩

end Instruction

end IsaTable
