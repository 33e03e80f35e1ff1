import IsaTable.Proofs.Match.Satisfiability

/-! # Comparing two matches

    Two questions about all words have answers that can be read off the masks
    and the bits of two matches:

    * **Shadowing**: does one match accept every word that the other accepts?
      It does when it masks nothing but what the other masks and expects the
      same there (`Match.shadows_iff`).
    * **Exclusion**: is there no word that both accept?  There is none when they
      expect different bits where both mask (`Match.excludes_iff`).

    Either is also the case when a match is inconsistent, since it then accepts
    no word at all.
-/

namespace IsaTable.Match

/-- An inconsistent match accepts no word. -/
theorem not_accepts_of_inconsistent {m : Match} {w : Word} (h : m.isConsistent = false) :
    ¬ m.accepts w = true := by
  intro haccepts
  exact Bool.false_ne_true (h.symm.trans (isConsistent_of_accepts haccepts))

/-! ## §1. Shadowing -/

/-- A match is shadowed by one that masks no position beyond its own and
    expects the same bits there, and by any match if it is inconsistent. -/
def Shadows (a b : Match) : Prop :=
  b.isConsistent = false ∨ (a.mask &&& ~~~b.mask = 0 ∧ b.bits &&& a.mask = a.bits)

instance (a b : Match) : Decidable (a.Shadows b) := by
  unfold Shadows; infer_instance

/-- A mask lies under another when each of its positions does. -/
theorem mask_and_not_eq_zero_iff (a b : Match) :
    a.mask &&& ~~~b.mask = 0 ↔
      ∀ p < 32, a.mask.getMsbD p = true → b.mask.getMsbD p = true := by
  simp only [Word.eq_iff_positions, BitVec.getMsbD_and, BitVec.getMsbD_not]
  apply forall₂_congr
  intro p hp
  cases a.mask.getMsbD p <;> cases b.mask.getMsbD p <;> simp [hp]

/-- What masks less and expects the same there accepts more. -/
theorem accepts_of_mask_under {a b : Match} {w : Word} (hmask : a.mask &&& ~~~b.mask = 0)
    (hbits : b.bits &&& a.mask = a.bits) (h : b.accepts w = true) : a.accepts w = true := by
  rw [mask_and_not_eq_zero_iff] at hmask
  rw [accepts_iff_positions] at h ⊢
  intro p hp
  have hbit := (Word.eq_iff_positions _ _).1 hbits p hp
  rw [BitVec.getMsbD_and] at hbit
  rw [← hbit, ← h p hp]
  -- Where `a` does not mask, both sides are zero; where it does, `b` masks too.
  cases hm : a.mask.getMsbD p with
  | false => rw [Bool.and_false, Bool.and_false]
  | true => rw [hmask p hp hm, Bool.and_true, Bool.and_true]

/-- Where a consistent match leaves a position free, whatever accepts all its
    words leaves it free, too. -/
theorem mask_under_of_accepts {a b : Match} (hb : b.isConsistent = true)
    (h : ∀ w, b.accepts w = true → a.accepts w = true) : a.mask &&& ~~~b.mask = 0 := by
  rw [mask_and_not_eq_zero_iff]
  intro p hp hmask
  by_contra hfree
  -- Two accepted words differ at the position: one is filled up with zeros, the
  -- other with ones.
  have hzero := (a.accepts_iff_positions _).1 (h _ (accepts_fill hb 0)) p hp
  have hone := (a.accepts_iff_positions _).1 (h _ (accepts_fill hb (~~~0))) p hp
  rw [getMsbD_fill hb _ hp, if_neg hfree, hmask, Bool.and_true] at hzero hone
  rw [BitVec.getMsbD_not, decide_eq_true hp, Bool.true_and, hzero] at hone
  exact Bool.not_ne_self _ hone

/-- **Shadowing decides** whether every word that `b` accepts is accepted by
    `a`. -/
theorem shadows_iff (a b : Match) :
    (∀ w, b.accepts w = true → a.accepts w = true) ↔ a.Shadows b := by
  constructor
  · intro h
    by_cases hb : b.isConsistent = true
    · have hbits := h b.bits (accepts_bits hb)
      rw [accepts, beq_iff_eq] at hbits
      exact .inr ⟨mask_under_of_accepts hb h, hbits⟩
    · exact .inl (Bool.eq_false_of_not_eq_true hb)
  · intro h w hw
    rcases h with hb | ⟨hmask, hbits⟩
    · exact absurd hw (not_accepts_of_inconsistent hb)
    · exact accepts_of_mask_under hmask hbits hw

/-! ## §2. Exclusion -/

/-- Two matches exclude each other when they expect different bits at a
    position that both mask, or when one of them is inconsistent. -/
def Excludes (a b : Match) : Prop :=
  (a.bits ^^^ b.bits) &&& a.mask &&& b.mask ≠ 0 ∨
    a.isConsistent = false ∨ b.isConsistent = false

instance (a b : Match) : Decidable (a.Excludes b) := by
  unfold Excludes; infer_instance

/-- Nothing clashes when the bits are the same wherever both mask. -/
theorem xor_and_masks_eq_zero_iff (a b : Match) :
    (a.bits ^^^ b.bits) &&& a.mask &&& b.mask = 0 ↔
      ∀ p < 32, a.mask.getMsbD p = true → b.mask.getMsbD p = true →
        a.bits.getMsbD p = b.bits.getMsbD p := by
  simp only [Word.eq_iff_positions, BitVec.getMsbD_and, BitVec.getMsbD_xor]
  apply forall₂_congr
  intro p _
  cases a.mask.getMsbD p <;> cases b.mask.getMsbD p <;> cases a.bits.getMsbD p <;>
    cases b.bits.getMsbD p <;> simp

/-- A word that both matches accept has, where both mask, the bits of either. -/
theorem xor_and_masks_eq_zero {a b : Match} {w : Word} (ha : a.accepts w = true)
    (hb : b.accepts w = true) : (a.bits ^^^ b.bits) &&& a.mask &&& b.mask = 0 := by
  rw [accepts_iff_positions] at ha hb
  rw [xor_and_masks_eq_zero_iff]
  intro p hp hma hmb
  rw [← ha p hp, ← hb p hp, hma, hmb]

/-- Filling up a match with the bits of another one changes nothing where it
    masks, and gives the other its bits where only that masks. -/
theorem accepts_fill_bits {a b : Match} (ha : a.isConsistent = true) (hb : b.isConsistent = true)
    (hsame : (a.bits ^^^ b.bits) &&& a.mask &&& b.mask = 0) :
    b.accepts (a.fill b.bits) = true := by
  rw [xor_and_masks_eq_zero_iff] at hsame
  rw [accepts_iff_positions]
  intro p hp
  rw [getMsbD_fill ha _ hp]
  by_cases hmb : b.mask.getMsbD p = true
  · rw [hmb, Bool.and_true]
    split
    · next hma => exact hsame p hp hma hmb
    · rfl
  · rw [Bool.eq_false_of_not_eq_true hmb, Bool.and_false, getMsbD_bits_of_unmasked hb hp hmb]

/-- **Exclusion decides** whether no word is accepted by both. -/
theorem excludes_iff (a b : Match) :
    a.Excludes b ↔ ∀ w, ¬ (a.accepts w = true ∧ b.accepts w = true) := by
  constructor
  · intro h w hw
    obtain ⟨ha, hb⟩ := hw
    rcases h with hclash | hnone | hnone
    · exact hclash (xor_and_masks_eq_zero ha hb)
    · exact not_accepts_of_inconsistent hnone ha
    · exact not_accepts_of_inconsistent hnone hb
  · intro h
    by_cases ha : a.isConsistent = true
    · by_cases hb : b.isConsistent = true
      · -- Without a clash, one match can be filled up to suit the other.
        refine .inl fun hsame => h (a.fill b.bits) ?_
        exact ⟨accepts_fill ha b.bits, accepts_fill_bits ha hb hsame⟩
      · exact .inr (.inr (Bool.eq_false_of_not_eq_true hb))
    · exact .inr (.inl (Bool.eq_false_of_not_eq_true ha))

end IsaTable.Match
