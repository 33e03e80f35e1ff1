import Mathlib.Data.Nat.Bitwise
import IsaTable.Compile

/-! # What a compiled match says

    A match is two words; the fields that it was compiled from say what the
    words of an instruction look like.  This module relates the two:

    * **A field is a masked comparison**: it holds on a word exactly when its
      value fits and the word, masked to the field, is the placed value
      (`Field.holds_iff`).
    * **Accumulating is conjunction**, as long as the new field neither spills
      nor meets what is constrained already (`Match.accepts_accumulate_iff`).
    * **Compilation is exact** on every list of fields that some word
      satisfies, and a list that no word satisfies is warned about
      (`Instruction.compileFields_exact`).
-/

namespace IsaTable

/-! ## §1. Numbers at positions -/

/-- Two words are equal when they agree at every position. -/
theorem Word.eq_iff_positions (v w : Word) :
    v = w ↔ ∀ p < 32, v.getMsbD p = w.getMsbD p :=
  ⟨fun h _ _ => h ▸ rfl, fun h => BitVec.eq_of_getMsbD_eq fun p hp => h p hp⟩

/-- A value needs at most `n` bits exactly when it is below `2 ^ n`. -/
theorem Word.significantBits_le_iff (value : Word) (n : Nat) :
    significantBits value ≤ n ↔ value.toNat < 2 ^ n := by
  unfold significantBits
  -- Both directions count the leading zeros; zero itself has no highest bit.
  constructor
  · intro h
    exact Nat.lt_of_lt_of_le BitVec.toNat_lt_two_pow_sub_clz
      (Nat.pow_le_pow_right (by decide) h)
  · intro h
    by_cases hz : value = 0
    · have hclz : (0 : Word).clz.toNat = 32 := by decide
      rw [hz, hclz]
      exact Nat.zero_le n
    · have hle := BitVec.two_pow_sub_clz_le_toNat_of_ne_zero (by decide) hz
      have hlt := (Nat.pow_lt_pow_iff_right (by decide)).1 (Nat.lt_of_le_of_lt hle h)
      omega

/-- A run of `width` positions spells a number of at most `width` bits. -/
theorem Word.slice_lt (w : Word) (start width : Nat) : slice w start width < 2 ^ width := by
  induction width with
  | zero => simp
  | succ width ih =>
    have := (w.getMsbD (start + width)).toNat_lt
    simp only [slice, Nat.pow_succ]
    omega

/-- Bit `i` of the number at a run of positions is the bit at the position
    that stands `i` places before the last one. -/
theorem Word.testBit_slice (w : Word) (start width i : Nat) :
    (w.slice start width).testBit i =
      (decide (i < width) && w.getMsbD (start + (width - 1 - i))) := by
  induction width generalizing i with
  | zero => simp
  | succ width ih =>
    cases i with
    | zero =>
      simp only [slice, Nat.testBit_zero]
      cases hbit : w.getMsbD (start + width) <;> simp [hbit]
    | succ i =>
      -- Halving the number drops its last position.
      have hhalf : w.slice start (width + 1) / 2 = w.slice start width := by
        have hb := (w.getMsbD (start + width)).toNat_lt
        simp only [slice]
        omega
      rw [Nat.testBit_succ, hhalf, ih]
      by_cases hi : i < width
      · have hpos : width - 1 - i = width + 1 - 1 - (i + 1) := by omega
        simp [hi, hpos]
      · simp [hi]

namespace Field

/-- The bit that a field demands at one of its positions. -/
def bitAt (f : Field) (p : Nat) : Bool :=
  f.value.getLsbD (f.stop - p)

/-- Whether the field constrains a position. -/
def Covers (f : Field) (p : Nat) : Prop :=
  f.start ≤ p ∧ p ≤ f.stop

instance (f : Field) (p : Nat) : Decidable (f.Covers p) := by
  unfold Covers; infer_instance

/-- Two fields clash when they demand different bits at a position that both
    cover. -/
def Clashes (f g : Field) : Prop :=
  ∃ p, f.Covers p ∧ g.Covers p ∧ f.bitAt p ≠ g.bitAt p

theorem Covers.lt {f : Field} {p : Nat} (h : f.Covers p) : p < 32 := by
  have := f.stop_le
  have := h.2
  omega

theorem getMsbD_mask_eq_covers (f : Field) (p : Nat) : f.mask.getMsbD p = decide (f.Covers p) :=
  f.getMsbD_mask p

theorem valueFits_iff (f : Field) : f.valueFits = true ↔ f.value.toNat < 2 ^ f.width := by
  simp [valueFits, Word.significantBits_le_iff]

/-- The placed value has, at a position up to the last one, the bit of the
    value that belongs there. -/
theorem getMsbD_placedValue (f : Field) {p : Nat} (hp : p < 32) :
    f.placedValue.getMsbD p = (decide (p ≤ f.stop) && f.bitAt p) := by
  have hstop := f.stop_le
  simp only [bitAt, placedValue, shift, Word.lsbShift, BitVec.getMsbD, BitVec.getLsbD_shiftLeft, hp,
    decide_true, Bool.true_and]
  by_cases h : p ≤ f.stop
  · have h₁ : ¬ (32 - 1 - p < 31 - f.stop) := by omega
    have h₂ : 32 - 1 - p - (31 - f.stop) = f.stop - p := by omega
    have h₃ : 32 - 1 - p < 32 := by omega
    simp [h, h₁, h₂, h₃]
  · have h₁ : 32 - 1 - p < 31 - f.stop := by omega
    simp [h, h₁]

/-- A value that fits does not spill out of its field. -/
theorem getMsbD_placedValue_of_outside {f : Field} (hfits : f.valueFits = true) {p : Nat}
    (hp : p < 32) (hout : ¬ f.Covers p) :
    f.placedValue.getMsbD p = false := by
  rw [getMsbD_placedValue f hp]
  by_cases hlow : p ≤ f.stop
  · -- The position stands before the field, where only a wide value has bits.
    have hwidth : f.width ≤ f.stop - p := by
      have := f.start_le_stop
      unfold width
      unfold Covers at hout
      omega
    have hbound : f.value.toNat < 2 ^ (f.stop - p) :=
      Nat.lt_of_lt_of_le (f.valueFits_iff.1 hfits) (Nat.pow_le_pow_right (by decide) hwidth)
    rw [bitAt, ← BitVec.testBit_toNat, Nat.testBit_lt_two_pow hbound, Bool.and_false]
  · simp [hlow]

/-! ## §2. A field as a masked comparison -/

/-- A field holds on a word when its value fits and every position of the
    range has the bit of the value that belongs there. -/
theorem holds_iff_positions (f : Field) (w : Word) :
    f.Holds w ↔ f.valueFits = true ∧ ∀ p, f.Covers p → w.getMsbD p = f.bitAt p := by
  have hwidth : f.start + f.width = f.stop + 1 := by
    have := f.start_le_stop
    unfold width; omega
  rw [valueFits_iff]
  -- Bit `i` of the value belongs at position `stop - i`.
  constructor
  · intro h
    have hslice : w.slice f.start f.width = f.value.toNat := h
    constructor
    · rw [← hslice]
      exact Word.slice_lt w f.start f.width
    · intro p hin
      obtain ⟨hstart, hstop⟩ := hin
      have hi : f.stop - p < f.width := by omega
      have hp : f.start + (f.width - 1 - (f.stop - p)) = p := by omega
      have htest := Word.testBit_slice w f.start f.width (f.stop - p)
      rw [hslice, hp] at htest
      simpa [hi, BitVec.testBit_toNat, bitAt] using htest.symm
  · intro h
    obtain ⟨hfits, hbits⟩ := h
    show w.slice f.start f.width = f.value.toNat
    apply Nat.eq_of_testBit_eq
    intro i
    rw [Word.testBit_slice]
    by_cases hi : i < f.width
    · have hp : f.start + (f.width - 1 - i) = f.stop - i := by omega
      have hback : f.stop - (f.stop - i) = i := by omega
      rw [hp, hbits (f.stop - i) ⟨by omega, by omega⟩, bitAt, hback]
      simp [hi, BitVec.testBit_toNat]
    · have hbound : f.value.toNat < 2 ^ i :=
        Nat.lt_of_lt_of_le hfits (Nat.pow_le_pow_right (by decide) (by omega))
      simp [hi, Nat.testBit_lt_two_pow hbound]

/-- **A field is a masked comparison.**  It holds on a word exactly when its
    value fits and the word, masked to the field, is the placed value. -/
theorem holds_iff (f : Field) (w : Word) :
    f.Holds w ↔ f.valueFits = true ∧ w &&& f.mask = f.placedValue := by
  rw [holds_iff_positions]
  apply and_congr_right
  intro hfits
  constructor
  · intro h
    apply (Word.eq_iff_positions _ _).2
    intro p hp
    rw [BitVec.getMsbD_and, getMsbD_mask_eq_covers]
    -- Outside the field both sides are zero: the mask clears the word there,
    -- and a value that fits has nothing to place.
    by_cases hin : f.Covers p
    · rw [getMsbD_placedValue f hp, h p hin]
      simp [hin, hin.2]
    · rw [getMsbD_placedValue_of_outside hfits hp hin]
      simp [hin]
  · intro h p hin
    have hbit := (Word.eq_iff_positions _ _).1 h p hin.lt
    rw [BitVec.getMsbD_and, getMsbD_mask_eq_covers, getMsbD_placedValue f hin.lt] at hbit
    simpa [hin, hin.2] using hbit

/-- A value that fits lies under the field's mask. -/
theorem placedValue_and_mask {f : Field} (hfits : f.valueFits = true) :
    f.placedValue &&& f.mask = f.placedValue := by
  apply (Word.eq_iff_positions _ _).2
  intro p hp
  rw [BitVec.getMsbD_and, getMsbD_mask_eq_covers]
  by_cases hin : f.Covers p
  · simp [hin]
  · simp [hin, getMsbD_placedValue_of_outside hfits hp hin]

end Field

namespace Match

/-! ## §3. Matches, position by position -/

/-- A word is accepted when it has the expected bit at every masked position,
    and nothing is expected elsewhere. -/
theorem accepts_iff_positions (m : Match) (w : Word) :
    m.accepts w = true ↔
      ∀ p < 32, (w.getMsbD p && m.mask.getMsbD p) = m.bits.getMsbD p := by
  simp only [accepts, beq_iff_eq, Word.eq_iff_positions, BitVec.getMsbD_and]

/-- A match is consistent when it expects no bit at an unmasked position. -/
theorem isConsistent_iff_positions (m : Match) :
    m.isConsistent = true ↔
      ∀ p < 32, m.bits.getMsbD p = true → m.mask.getMsbD p = true := by
  simp only [isConsistent, beq_iff_eq, Word.eq_iff_positions, BitVec.getMsbD_and]
  apply forall₂_congr
  intro p hp
  cases m.bits.getMsbD p <;> cases hm : m.mask.getMsbD p <;> simp [hp, hm]

/-- A field does not overlap a match when they share no position. -/
theorem overlaps_eq_false_iff_positions (m : Match) (f : Field) :
    m.overlaps f = false ↔
      ∀ p < 32, ¬ (m.mask.getMsbD p = true ∧ f.mask.getMsbD p = true) := by
  simp only [overlaps, bne_eq_false_iff_eq, Word.eq_iff_positions, BitVec.getMsbD_and]
  apply forall₂_congr
  intro p _
  cases m.mask.getMsbD p <;> cases f.mask.getMsbD p <;> simp

/-- A consistent match accepts the word made of its own bits. -/
theorem accepts_bits {m : Match} (h : m.isConsistent = true) : m.accepts m.bits = true := by
  rw [isConsistent_iff_positions] at h
  rw [accepts_iff_positions]
  intro p hp
  have hunder := h p hp
  cases hbit : m.bits.getMsbD p with
  | false => rfl
  | true =>
    rw [hunder hbit]
    rfl

/-! ## §4. Accumulating fields -/

/-- A word that is accepted, and on which a further field holds, is accepted
    once the field is added. -/
theorem accepts_accumulate {m : Match} {f : Field} {w : Word} (hm : m.accepts w = true)
    (hf : f.Holds w) : (m.accumulate f).accepts w = true := by
  have hfield := ((f.holds_iff w).1 hf).2
  -- Masking distributes over the union of two masks, so nothing need be known
  -- about where the field lies.
  simp only [accepts, beq_iff_eq, mask_accumulate, bits_accumulate] at hm ⊢
  rw [BitVec.and_or_distrib_left, hm, hfield]

/-- A field whose value fits keeps a match consistent. -/
theorem isConsistent_accumulate {m : Match} {f : Field} (hm : m.isConsistent = true)
    (hfits : f.valueFits = true) : (m.accumulate f).isConsistent = true := by
  rw [isConsistent_iff_positions] at hm ⊢
  intro p hp hbit
  -- A bit comes from the match, or from the value, which stays in its field.
  have hmask := (Word.eq_iff_positions _ _).1 (Field.placedValue_and_mask hfits) p hp
  simp only [mask_accumulate, bits_accumulate, BitVec.getMsbD_or, BitVec.getMsbD_and,
    Bool.or_eq_true] at hbit hmask ⊢
  rcases hbit with hbit | hbit
  · exact .inl (hm p hp hbit)
  · rw [hbit, Bool.true_and] at hmask
    exact .inr hmask

/-- **Accumulating is conjunction** where the field neither spills nor meets
    what is constrained already. -/
theorem accepts_accumulate_iff {m : Match} {f : Field} (hm : m.isConsistent = true)
    (hfits : f.valueFits = true) (hfree : m.overlaps f = false) (w : Word) :
    (m.accumulate f).accepts w = true ↔ m.accepts w = true ∧ f.Holds w := by
  rw [isConsistent_iff_positions] at hm
  rw [overlaps_eq_false_iff_positions] at hfree
  constructor
  · intro h
    rw [accepts_iff_positions] at h
    -- At each position at most one of the two sides demands anything.
    have hsplit : ∀ p < 32, (w.getMsbD p && m.mask.getMsbD p) = m.bits.getMsbD p ∧
        (w.getMsbD p && f.mask.getMsbD p) = f.placedValue.getMsbD p := by
      intro p hp
      have hbit := h p hp
      have hunder := hm p hp
      have hapart := hfree p hp
      have hspill := (Word.eq_iff_positions _ _).1 (Field.placedValue_and_mask hfits) p hp
      simp only [mask_accumulate, bits_accumulate, BitVec.getMsbD_or, BitVec.getMsbD_and]
        at hbit hspill
      clear h hm hfree
      cases hmm : m.mask.getMsbD p <;> cases hfm : f.mask.getMsbD p <;> simp_all
    constructor
    · apply (m.accepts_iff_positions w).2
      intro p hp
      exact (hsplit p hp).1
    · rw [Field.holds_iff, Word.eq_iff_positions]
      refine ⟨hfits, ?_⟩
      intro p hp
      rw [BitVec.getMsbD_and]
      exact (hsplit p hp).2
  · intro h
    exact accepts_accumulate h.1 h.2

/-! ## §5. Whole lists of fields -/

/-- The mask after a list of fields has the positions it had, and those of
    every field. -/
theorem getMsbD_mask_foldl (m : Match) (fields : List Field) (p : Nat) :
    (fields.foldl accumulate m).mask.getMsbD p =
      (m.mask.getMsbD p || fields.any fun f => f.mask.getMsbD p) := by
  induction fields generalizing m with
  | nil => simp
  | cons f rest ih => simp [ih, Bool.or_assoc]

/-- The bits after a list of fields are those there were, together with every
    placed value. -/
theorem getMsbD_bits_foldl (m : Match) (fields : List Field) (p : Nat) :
    (fields.foldl accumulate m).bits.getMsbD p =
      (m.bits.getMsbD p || fields.any fun f => f.placedValue.getMsbD p) := by
  induction fields generalizing m with
  | nil => simp
  | cons f rest ih => simp [ih, Bool.or_assoc]

/-- A word on which all fields of a list hold stays accepted along the list. -/
theorem accepts_foldl {m : Match} {fields : List Field} {w : Word} (hm : m.accepts w = true)
    (h : ∀ f ∈ fields, f.Holds w) : (fields.foldl accumulate m).accepts w = true := by
  induction fields generalizing m with
  | nil => exact hm
  | cons f rest ih =>
    have hstep := accepts_accumulate hm (h f List.mem_cons_self)
    exact ih hstep fun g hg => h g (List.mem_cons_of_mem f hg)

/-- A word on which all fields hold is accepted, whatever the fields are. -/
theorem accepts_ofFields {fields : List Field} {w : Word} (h : ∀ f ∈ fields, f.Holds w) :
    (ofFields fields).accepts w = true :=
  accepts_foldl (accepts_empty w) h

/-- **Exactness on satisfiable lists.**  If all fields hold on some word, the
    accepted words are those on which all fields hold. -/
theorem accepts_ofFields_iff {fields : List Field} {w₀ : Word}
    (h₀ : ∀ f ∈ fields, f.Holds w₀) (w : Word) :
    (ofFields fields).accepts w = true ↔ ∀ f ∈ fields, f.Holds w := by
  refine ⟨?_, accepts_ofFields⟩
  intro h f hf
  obtain ⟨hfits, hbits₀⟩ := (f.holds_iff_positions w₀).1 (h₀ f hf)
  refine (f.holds_iff_positions w).2 ⟨hfits, ?_⟩
  intro p hp
  -- Both words are accepted, so they agree wherever the mask is set.
  have hmask : (ofFields fields).mask.getMsbD p = true := by
    rw [ofFields, getMsbD_mask_foldl, Bool.or_eq_true]
    exact .inr (List.any_eq_true.2 ⟨f, hf, by simpa [f.getMsbD_mask_eq_covers] using hp⟩)
  have hw := (accepts_iff_positions _ w).1 h p hp.lt
  have hw₀ := (accepts_iff_positions _ w₀).1 (accepts_ofFields h₀) p hp.lt
  rw [hmask, Bool.and_true] at hw hw₀
  rw [hw, ← hw₀, hbits₀ p hp]

/-- All fields of a list hold on some word exactly when every value fits and
    no two fields clash. -/
theorem exists_holds_iff (fields : List Field) :
    (∃ w, ∀ f ∈ fields, f.Holds w) ↔
      (∀ f ∈ fields, f.valueFits = true) ∧ ∀ f ∈ fields, ∀ g ∈ fields, ¬ f.Clashes g := by
  constructor
  · intro h
    obtain ⟨w, h⟩ := h
    refine ⟨fun f hf => ((f.holds_iff_positions w).1 (h f hf)).1, ?_⟩
    -- A clash would ask for both bits at one position of the word.
    intro f hf g hg hclash
    obtain ⟨p, hfp, hgp, hne⟩ := hclash
    have hfbit := ((f.holds_iff_positions w).1 (h f hf)).2 p hfp
    have hgbit := ((g.holds_iff_positions w).1 (h g hg)).2 p hgp
    exact hne (hfbit ▸ hgbit)
  · intro h
    obtain ⟨hfits, hclash⟩ := h
    -- The expected bits themselves are such a word.
    refine ⟨(ofFields fields).bits, ?_⟩
    intro f hf
    refine (f.holds_iff_positions _).2 ⟨hfits f hf, ?_⟩
    intro p hp
    rw [ofFields, getMsbD_bits_foldl, Bool.eq_iff_iff]
    simp only [empty, BitVec.ofNat_eq_ofNat, BitVec.getMsbD_zero, Bool.false_or,
      List.any_eq_true]
    constructor
    · intro h
      obtain ⟨g, hg, hbit⟩ := h
      by_cases hgp : g.Covers p
      · rw [g.getMsbD_placedValue hp.lt] at hbit
        have hsame : f.bitAt p = g.bitAt p := by
          by_contra hne
          exact hclash f hf g hg ⟨p, hp, hgp, hne⟩
        rw [hsame]
        simpa [hgp.2] using hbit
      · rw [Field.getMsbD_placedValue_of_outside (hfits g hg) hp.lt hgp] at hbit
        exact absurd hbit (by decide)
    · intro hbit
      exact ⟨f, hf, by rw [f.getMsbD_placedValue hp.lt, hbit]; simpa using hp.2⟩

/-! ## §6. Warnings -/

/-- A field is not warned about when its value fits and it meets nothing that
    is constrained already. -/
theorem warnings_eq_nil_iff (m : Match) (f : Field) :
    m.warnings f = [] ↔ f.valueFits = true ∧ m.overlaps f = false := by
  cases hf : f.valueFits <;> cases ho : m.overlaps f <;> simp [warnings, hf, ho]

/-- Along a list without warnings the match stays consistent, and every field
    adds exactly its own condition. -/
theorem accepts_foldl_of_no_warnings {m : Match} {fields : List Field}
    (hm : m.isConsistent = true) (hquiet : m.warningsAlong fields = []) :
    (fields.foldl accumulate m).isConsistent = true ∧
      ∀ w, (fields.foldl accumulate m).accepts w = true ↔
        m.accepts w = true ∧ ∀ f ∈ fields, f.Holds w := by
  induction fields generalizing m with
  | nil => exact ⟨hm, fun w => by simp⟩
  | cons f rest ih =>
    rw [warningsAlong_cons, List.append_eq_nil_iff, warnings_eq_nil_iff] at hquiet
    obtain ⟨⟨hfits, hfree⟩, hrest⟩ := hquiet
    obtain ⟨hcons, haccepts⟩ := ih (isConsistent_accumulate hm hfits) hrest
    refine ⟨hcons, ?_⟩
    intro w
    rw [List.foldl_cons, haccepts w, accepts_accumulate_iff hm hfits hfree]
    simp only [List.forall_mem_cons, and_assoc]

/-- A list without warnings compiles to a consistent match that accepts the
    words on which all fields hold. -/
theorem accepts_ofFields_of_no_warnings {fields : List Field}
    (hquiet : empty.warningsAlong fields = []) :
    (ofFields fields).isConsistent = true ∧
      ∀ w, (ofFields fields).accepts w = true ↔ ∀ f ∈ fields, f.Holds w := by
  obtain ⟨hcons, haccepts⟩ := accepts_foldl_of_no_warnings isConsistent_empty hquiet
  exact ⟨hcons, fun w => by simpa [ofFields] using haccepts w⟩

end Match

namespace Instruction

/-! ## §7. Compiled instructions -/

/-- The entry of an instruction: its name and the match of its fields. -/
def entry (i : Instruction) : Entry :=
  ⟨i.opcode, .ofFields i.fields⟩

/-- The records that compiling an instruction makes. -/
def records (i : Instruction) : List Record :=
  i.warnings.map (.warning i.opcode)

/-- None of the records is a warning exactly when there is nothing to warn
    about. -/
theorem records_quiet_iff {i : Instruction} :
    (∀ r ∈ i.records, r.level ≠ .warn) ↔ i.warnings = [] := by
  unfold records
  cases i.warnings <;> simp [Record.level]

/-- Without warnings the entry accepts the words on which the instruction
    holds, and there is one. -/
theorem accepts_entry_of_no_warnings {i : Instruction} (h : i.warnings = []) :
    (∃ w, i.Holds w) ∧ ∀ w, i.entry.matcher.accepts w = true ↔ i.Holds w := by
  obtain ⟨hcons, haccepts⟩ := Match.accepts_ofFields_of_no_warnings h
  exact ⟨⟨_, (haccepts _).1 (Match.accepts_bits hcons)⟩, haccepts⟩

/-- The fields of an instruction compile to their match. -/
theorem compileFields_of_ne_nil {i : Instruction} (h : i.fields ≠ []) :
    i.compileFields = ⟨i.records, .ok (.ofFields i.fields)⟩ := by
  simp [compileFields, records, h]

/-- An instruction with fields compiles to its entry. -/
theorem compile_of_ne_nil {i : Instruction} (h : i.fields ≠ []) :
    i.compile = ⟨i.records, .ok i.entry⟩ := by
  rw [compile, compileFields_of_ne_nil h]
  rfl

/-- An instruction without fields is refused, and nothing is recorded. -/
theorem compile_of_nil {i : Instruction} (h : ¬ i.fields ≠ []) :
    i.compile = ⟨[], .error .emptyFieldList⟩ := by
  obtain ⟨opcode, fields⟩ := i
  obtain rfl : fields = [] := not_not.1 h
  rfl

/-- **Compilation is exact.**  An instruction with fields compiles to a match
    that accepts every word on which it holds, and no other if it holds on any
    word at all.  It does so unless a value is too wide or two fields clash,
    which is never passed over without a warning. -/
theorem compileFields_exact (i : Instruction) (hne : i.fields ≠ []) :
    ∃ m, i.compileFields.outcome = .ok m ∧
      (∀ w, i.Holds w → m.accepts w = true) ∧
      ((∃ w, i.Holds w) → ∀ w, m.accepts w = true ↔ i.Holds w) ∧
      ((∀ r ∈ i.compileFields.log, r.level ≠ .warn) → ∃ w, i.Holds w) ∧
      ((∃ w, i.Holds w) ↔
        (∀ f ∈ i.fields, f.valueFits = true) ∧
          ∀ f ∈ i.fields, ∀ g ∈ i.fields, ¬ f.Clashes g) ∧
      ((¬ ∃ w, i.Holds w) → ∃ r ∈ i.compileFields.log, r.level = .warn) := by
  have hquiet : (∀ r ∈ i.compileFields.log, r.level ≠ .warn) → ∃ w, i.Holds w := by
    rw [compileFields_of_ne_nil hne]
    exact fun h => (accepts_entry_of_no_warnings (records_quiet_iff.1 h)).1
  refine ⟨.ofFields i.fields, by rw [compileFields_of_ne_nil hne], ?_, ?_, hquiet,
    Match.exists_holds_iff i.fields, ?_⟩
  · intro w hw
    exact Match.accepts_ofFields hw
  · intro hsome w
    obtain ⟨w₀, h₀⟩ := hsome
    exact Match.accepts_ofFields_iff h₀ w
  · intro hnone
    by_contra hsilent
    push Not at hsilent
    exact hnone (hquiet hsilent)

/-- Two fields that overlap without a clash: they are warned about, and yet
    the match is exact. -/
theorem compileFields_exact_overlap :
    let i : Instruction :=
      ⟨"x", [⟨0, 7, 0xf0#32, by decide, by decide⟩, ⟨4, 11, 0x0f#32, by decide, by decide⟩]⟩
    i.fields ≠ [] ∧ (∃ r ∈ i.compileFields.log, r.level = .warn) ∧
      i.compileFields.outcome = .ok ⟨0xfff00000#32, 0xf0f00000#32⟩ ∧
      ∀ w, Match.accepts ⟨0xfff00000#32, 0xf0f00000#32⟩ w = true ↔ i.Holds w := by
  intro i
  have hne : i.fields ≠ [] := by decide
  have hmatch : i.compileFields.outcome = .ok ⟨0xfff00000#32, 0xf0f00000#32⟩ := by decide
  obtain ⟨m, hm, -, hexact, -⟩ := compileFields_exact i hne
  obtain rfl : m = ⟨0xfff00000#32, 0xf0f00000#32⟩ := Except.ok.inj (hm.symm.trans hmatch)
  exact ⟨hne, by decide, hmatch, hexact ⟨0xf0f00000#32, by decide⟩⟩

end Instruction

end IsaTable
