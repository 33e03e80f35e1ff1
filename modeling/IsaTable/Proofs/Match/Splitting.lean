import Mathlib.Logic.Relation
import IsaTable.Proofs.Match.Reordering

/-! # Splitting a field

    A field of several positions may be cut in two adjacent ones.  The left
    part takes the high bits of the value, with all that the value has beyond
    its width; the right part takes as many low bits as it has positions.

    * **Both parts together** cover what the field covers (`Field.covers_cut`)
      and place what it places, spilled bits included (`Field.places_cut`), so
      that the list compiles to the same match (`Match.ofFields_cut`).
    * **The left part inherits the width**: its value fits exactly when that of
      the whole field does, and the value of the right part always fits.
    * **Any number of cuts** may be made, one after the other
      (`Splits.compileFields_outcome`).
-/

namespace IsaTable

/-! ## §1. One field -/

/-- A place at which a field can be cut: the last position of the left part,
    which leaves at least one position on either side. -/
structure Field.Cut (f : Field) where
  /-- The last position of the left part. -/
  last : Nat
  /-- The left part is not empty. -/
  start_le_last : f.start ≤ last
  /-- Nor is the right part. -/
  last_lt_stop : last < f.stop

namespace Field

variable {f : Field}

/-- The part of a field up to a cut, with the high bits of the value. -/
def left (f : Field) (c : f.Cut) : Field where
  start := f.start
  stop := c.last
  value := f.value >>> (f.stop - c.last)
  start_le_stop := c.start_le_last
  stop_le := by
    have := c.last_lt_stop
    have := f.stop_le
    omega

/-- The part of a field behind a cut, with as many low bits of the value as
    there are positions. -/
def right (f : Field) (c : f.Cut) : Field where
  start := c.last + 1
  stop := f.stop
  value := BitVec.ofNat 32 (f.value.toNat % 2 ^ (f.stop - c.last))
  start_le_stop := c.last_lt_stop
  stop_le := f.stop_le

theorem toNat_value_left (c : f.Cut) :
    (f.left c).value.toNat = f.value.toNat / 2 ^ (f.stop - c.last) := by
  show (f.value >>> (f.stop - c.last)).toNat = _
  rw [BitVec.toNat_ushiftRight, Nat.shiftRight_eq_div_pow]

theorem toNat_value_right (c : f.Cut) :
    (f.right c).value.toNat = f.value.toNat % 2 ^ (f.stop - c.last) := by
  show (BitVec.ofNat 32 (f.value.toNat % 2 ^ (f.stop - c.last))).toNat = _
  rw [BitVec.toNat_ofNat]
  exact Nat.mod_eq_of_lt ((Nat.mod_le _ _).trans_lt f.value.isLt)

/-- The widths of the parts add up to that of the field. -/
theorem width_cut (c : f.Cut) :
    f.width = (f.left c).width + (f.stop - c.last) ∧ (f.right c).width = f.stop - c.last := by
  have := c.start_le_last
  have := c.last_lt_stop
  simp only [width, left, right]
  omega

/-- The parts cover what the field covers. -/
theorem covers_cut (c : f.Cut) (p : Nat) :
    f.Covers p ↔ (f.left c).Covers p ∨ (f.right c).Covers p := by
  have := c.start_le_last
  have := c.last_lt_stop
  simp only [Covers, left, right]
  omega

/-- The parts place what the field places.  Up to the cut, and before the range
    too, this is the left part's doing; behind it, the right part's. -/
theorem places_cut (c : f.Cut) (p : Nat) :
    f.Places p ↔ (f.left c).Places p ∨ (f.right c).Places p := by
  have hstop := c.last_lt_stop
  have hleft : (f.left c).Places p ↔ p ≤ c.last ∧ f.value.getLsbD (f.stop - p) = true := by
    unfold Places
    apply and_congr_right
    intro hp
    have hbit : f.stop - c.last + (c.last - p) = f.stop - p := by
      have : p ≤ c.last := hp
      omega
    show (f.value >>> (f.stop - c.last)).getLsbD (c.last - p) = true ↔ _
    rw [BitVec.getLsbD_ushiftRight, hbit]
  have hright : (f.right c).Places p ↔
      (c.last < p ∧ p ≤ f.stop) ∧ f.value.getLsbD (f.stop - p) = true := by
    show p ≤ f.stop ∧ (f.right c).value.getLsbD (f.stop - p) = true ↔ _
    rw [← BitVec.testBit_toNat, toNat_value_right, Nat.testBit_mod_two_pow,
      BitVec.testBit_toNat, Bool.and_eq_true, decide_eq_true_eq, ← and_assoc]
    apply and_congr_left
    intro _
    omega
  rw [hleft, hright, ← or_and_right]
  apply and_congr_left
  intro _
  omega

/-- The left part is too wide exactly when the field is. -/
theorem valueFits_left (c : f.Cut) : (f.left c).valueFits = f.valueFits := by
  rw [Bool.eq_iff_iff, valueFits_iff, valueFits_iff, toNat_value_left, (width_cut c).1,
    Nat.pow_add, Nat.div_lt_iff_lt_mul (Nat.two_pow_pos _)]

/-- The right part is never too wide. -/
theorem valueFits_right (c : f.Cut) : (f.right c).valueFits = true := by
  rw [valueFits_iff, toNat_value_right, (width_cut c).2]
  exact Nat.mod_lt _ (Nat.two_pow_pos _)

end Field

/-! ## §2. Lists of fields -/

/-- One cut in a list of fields: a field is replaced by its two parts. -/
inductive Splits : List Field → List Field → Prop
  | cut (before after : List Field) (f : Field) (c : f.Cut) :
    Splits (before ++ f :: after) (before ++ f.left c :: f.right c :: after)

/-- A list with a field cut in two compiles to the same match. -/
theorem Match.ofFields_cut (before after : List Field) (f : Field) (c : f.Cut) :
    ofFields (before ++ f.left c :: f.right c :: after) = ofFields (before ++ f :: after) := by
  apply eq_of_positions
  · intro p
    simp only [getMsbD_mask_ofFields, List.mem_append, List.mem_cons, or_and_right, exists_or,
      exists_eq_left, f.covers_cut c p, or_assoc]
  · intro p
    simp only [getMsbD_bits_ofFields, List.mem_append, List.mem_cons, or_and_right, exists_or,
      exists_eq_left, f.places_cut c p, or_assoc]

namespace Splits

variable {fs gs : List Field}

theorem ne_nil (h : Splits fs gs) : gs ≠ [] := by
  cases h
  simp

/-- A cut leaves the match as it is. -/
theorem ofFields_eq (h : Splits fs gs) : Match.ofFields gs = Match.ofFields fs := by
  cases h with
  | cut before after f c => exact Match.ofFields_cut before after f c

/-- A cut leaves the number of wide values as it is. -/
theorem countP_wide (h : Splits fs gs) :
    (gs.countP fun f => !f.valueFits) = fs.countP fun f => !f.valueFits := by
  cases h with
  | cut before after f c =>
    simp [List.countP_append, List.countP_cons, Field.valueFits_left, Field.valueFits_right]

end Splits

/-! ## §3. Compiled instructions -/

namespace Instruction

/-- A record of a wide value is made for the fields of the instruction whose
    values are too wide. -/
theorem wideValue_mem_log_iff {opcode : String} {fields : List Field} {f : Field}
    (hf : f ∈ fields) :
    .warning opcode (.wideValue f) ∈ (compileFields ⟨opcode, fields⟩).log ↔
      f.valueFits = false := by
  have hwide : Record.warning opcode (.wideValue f) ∈ (compileFields ⟨opcode, fields⟩).log ↔
      Record.warning opcode (.wideValue f) ∈
        (compileFields ⟨opcode, fields⟩).log.filter Record.isWide := by
    rw [List.mem_filter]
    exact (and_iff_left rfl).symm
  rw [hwide, filter_isWide_log]
  simp [hf]

/-- As many wide values are recorded as there are. -/
theorem countP_isWide_log (opcode : String) (fields : List Field) :
    (compileFields ⟨opcode, fields⟩).log.countP Record.isWide =
      fields.countP fun f => !f.valueFits := by
  rw [List.countP_eq_length_filter, filter_isWide_log, List.length_map,
    List.countP_eq_length_filter]

/-- **Any number of cuts** leaves the match of an instruction as it is, and the
    number of wide values recorded. -/
theorem compileFields_of_splits (opcode : String) {fs gs : List Field} (hfs : fs ≠ [])
    (h : Relation.ReflTransGen Splits fs gs) :
    (compileFields ⟨opcode, gs⟩).outcome = .ok (.ofFields fs) ∧
      (compileFields ⟨opcode, gs⟩).log.countP Record.isWide =
        (compileFields ⟨opcode, fs⟩).log.countP Record.isWide := by
  -- What each cut keeps, the cuts together keep.
  have hkept : gs ≠ [] ∧ Match.ofFields gs = Match.ofFields fs ∧
      (gs.countP fun f => !f.valueFits) = fs.countP fun f => !f.valueFits := by
    induction h with
    | refl => exact ⟨hfs, rfl, rfl⟩
    | tail _ hcut ih =>
      obtain ⟨-, hmatch, hcount⟩ := ih
      exact ⟨hcut.ne_nil, hcut.ofFields_eq.trans hmatch, hcut.countP_wide.trans hcount⟩
  obtain ⟨hgs, hmatch, hcount⟩ := hkept
  constructor
  · rw [compileFields_of_ne_nil hgs, hmatch]
  · rw [countP_isWide_log, countP_isWide_log, hcount]

/-- **Splitting keeps the meaning.**  Wherever a field stands in a list, and
    wherever it is cut, the list compiles to the same match with the two parts
    in its place; a wide value is recorded of the left part exactly when it is
    of the field, and never of the right part.  The same match comes of any
    number of cuts, with as many wide values recorded. -/
theorem compileFields_split (opcode : String) (before after : List Field) (f : Field)
    (c : f.Cut) :
    let whole := before ++ f :: after
    let parted := before ++ f.left c :: f.right c :: after
    ∃ m, (compileFields ⟨opcode, whole⟩).outcome = .ok m ∧
      (compileFields ⟨opcode, parted⟩).outcome = .ok m ∧
      (.warning opcode (.wideValue f) ∈ (compileFields ⟨opcode, whole⟩).log ↔
        .warning opcode (.wideValue (f.left c)) ∈ (compileFields ⟨opcode, parted⟩).log) ∧
      .warning opcode (.wideValue (f.right c)) ∉ (compileFields ⟨opcode, parted⟩).log ∧
      ∀ gs, Relation.ReflTransGen Splits whole gs →
        (compileFields ⟨opcode, gs⟩).outcome = .ok m ∧
          (compileFields ⟨opcode, gs⟩).log.countP Record.isWide =
            (compileFields ⟨opcode, whole⟩).log.countP Record.isWide := by
  intro whole parted
  have hwhole : whole ≠ [] := by simp [whole]
  have hcut : Splits whole parted := .cut before after f c
  have hf : f ∈ whole := by simp [whole]
  have hleft : f.left c ∈ parted := by simp [parted]
  have hright : f.right c ∈ parted := by simp [parted]
  refine ⟨.ofFields whole, by rw [compileFields_of_ne_nil hwhole],
    (compileFields_of_splits opcode hwhole (.single hcut)).1, ?_, ?_, ?_⟩
  · rw [wideValue_mem_log_iff hf, wideValue_mem_log_iff hleft, f.valueFits_left c]
  · rw [wideValue_mem_log_iff hright, f.valueFits_right c]
    decide
  · intro gs hgs
    exact compileFields_of_splits opcode hwhole hgs

/-- A value of eleven bits at eight positions, cut twice: the three bits too
    many stay with the first part. -/
theorem compileFields_split_twice :
    let f : Field := ⟨8, 15, 0x5a7#32, by decide, by decide⟩
    let c : f.Cut := ⟨11, by decide, by decide⟩
    let d : (f.left c).Cut := ⟨9, by decide, by decide⟩
    let parts : List Field := [(f.left c).left d, (f.left c).right d, f.right c]
    parts =
        [⟨8, 9, 0x16#32, by decide, by decide⟩, ⟨10, 11, 0x2#32, by decide, by decide⟩,
          ⟨12, 15, 0x7#32, by decide, by decide⟩] ∧
      Relation.ReflTransGen Splits [f] parts ∧
      (compileFields ⟨"x", [f]⟩).outcome = .ok ⟨0x00ff0000#32, 0x05a70000#32⟩ ∧
      (compileFields ⟨"x", parts⟩).outcome = .ok ⟨0x00ff0000#32, 0x05a70000#32⟩ ∧
      .warning "x" (.wideValue (f.left c)) ∈
        (compileFields ⟨"x", [f.left c, f.right c]⟩).log ∧
      .warning "x" (.wideValue (f.right c)) ∉
        (compileFields ⟨"x", [f.left c, f.right c]⟩).log := by
  intro f c d parts
  have hfirst : Splits [f] [f.left c, f.right c] := .cut [] [] f c
  have hsecond : Splits [f.left c, f.right c] parts := .cut [] [f.right c] (f.left c) d
  have hcuts : Relation.ReflTransGen Splits [f] parts := .tail (.single hfirst) hsecond
  have hmatch : (compileFields ⟨"x", [f]⟩).outcome = .ok ⟨0x00ff0000#32, 0x05a70000#32⟩ := by
    decide
  have hwide : .warning "x" (.wideValue f) ∈ (compileFields ⟨"x", [f]⟩).log := by decide
  obtain ⟨m, hm, -, hleft, hright, hall⟩ := compileFields_split "x" [] [] f c
  obtain rfl : m = ⟨0x00ff0000#32, 0x05a70000#32⟩ := Except.ok.inj (hm.symm.trans hmatch)
  exact ⟨by decide, hcuts, hmatch, (hall parts hcuts).1, hleft.1 hwide, hright⟩

end Instruction

end IsaTable
