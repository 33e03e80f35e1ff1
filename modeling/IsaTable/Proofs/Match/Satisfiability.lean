import Mathlib.SetTheory.Cardinal.Finite
import IsaTable.Proofs.Match.Meaning

/-! # The words that a match accepts

    What a match accepts, and how much:

    * **Consistency decides** whether any word is accepted
      (`Match.exists_accepts_iff`).
    * **The accepted words** of a consistent match are its bits, filled up at
      the positions that are not masked (`Match.accepts_iff_exists_fill`).
    * **Their number** is a power of two, with as many factors as there are such
      positions (`Match.card_accepts`): they are the ways to choose a bit for
      each.
-/

namespace IsaTable

/-! ## §1. Positions of a word -/

namespace Word

/-- Counting from the low bit up, the population count counts ones. -/
theorem cpopNatRec_eq_card (w : Word) (n : Nat) :
    w.cpopNatRec n 0 = ((Finset.range n).filter fun i => w.getLsbD i = true).card := by
  induction n with
  | zero => rfl
  | succ n ih =>
    rw [BitVec.cpopNatRec_succ, BitVec.cpopNatRec_eq, ih, Finset.range_add_one,
      Finset.filter_insert]
    by_cases hbit : w.getLsbD n = true
    · have hnew : n ∉ (Finset.range n).filter fun i => w.getLsbD i = true := by simp
      rw [if_pos hbit, Finset.card_insert_of_notMem hnew, hbit]
      rfl
    · rw [if_neg hbit, Bool.eq_false_of_not_eq_true hbit]
      rfl

/-- The population count is the number of bits that are set. -/
theorem toNat_cpop_eq_card_bits (w : Word) :
    w.cpop.toNat = Fintype.card {i : Fin 32 // w.getLsbD i = true} := by
  have hbound : w.cpopNatRec 32 0 < 2 ^ 32 :=
    (BitVec.cpopNatRec_zero_le w 32).trans_lt (by decide)
  rw [BitVec.cpop, BitVec.toNat_ofNat, Nat.mod_eq_of_lt hbound, cpopNatRec_eq_card,
    Fintype.card_subtype, ← Finset.card_map Fin.valEmbedding]
  congr 1
  ext i
  simp only [Finset.mem_filter, Finset.mem_range, Finset.mem_map, Finset.mem_univ, true_and,
    Fin.valEmbedding_apply, Fin.exists_iff]
  constructor
  · intro h
    exact ⟨i, h.1, h.2, rfl⟩
  · rintro ⟨j, hj, hbit, rfl⟩
    exact ⟨hj, hbit⟩

/-- Position `31 - i` has bit number `i`. -/
theorem getMsbD_rev (w : Word) (i : Fin 32) : w.getMsbD i.rev = w.getLsbD i := by
  have hback : 32 - 1 - (32 - (i.val + 1)) = i.val := by omega
  have hlt : 32 - (i.val + 1) < 32 := by omega
  rw [BitVec.getMsbD, Fin.val_rev, hback, decide_eq_true hlt, Bool.true_and]

/-- The population count is the number of positions with a one. -/
theorem toNat_cpop (w : Word) :
    w.cpop.toNat = Fintype.card {p : Fin 32 // w.getMsbD p = true} := by
  rw [toNat_cpop_eq_card_bits]
  apply Fintype.card_congr
  apply Fin.revPerm.subtypeEquiv
  intro i
  rw [Fin.revPerm_apply, getMsbD_rev]

/-- The word with a given bit at each position. -/
def ofPositions (bit : Fin 32 → Bool) : Word :=
  (BitVec.ofBoolListBE (List.ofFn bit)).cast List.length_ofFn

theorem getMsbD_ofPositions (bit : Fin 32 → Bool) (p : Fin 32) :
    (ofPositions bit).getMsbD p = bit p := by
  have hlength : p.val < (List.ofFn bit).length := by
    rw [List.length_ofFn]
    exact p.isLt
  rw [ofPositions, BitVec.getMsbD_cast, BitVec.getMsbD_ofBoolListBE,
    List.getD_eq_getElem _ _ hlength, List.getElem_ofFn]

end Word

namespace Match

/-! ## §2. The accepted words -/

/-- The bits of a match, filled up from a word where nothing is masked. -/
def fill (m : Match) (w : Word) : Word :=
  m.bits ||| (w &&& ~~~m.mask)

/-- Only a consistent match accepts a word. -/
theorem isConsistent_of_accepts {m : Match} {w : Word} (h : m.accepts w = true) :
    m.isConsistent = true := by
  rw [accepts_iff_positions] at h
  rw [isConsistent_iff_positions]
  intro p hp hbit
  have hmasked := h p hp
  rw [hbit, Bool.and_eq_true] at hmasked
  exact hmasked.2

/-- **Consistency decides** whether any word is accepted. -/
theorem exists_accepts_iff (m : Match) : (∃ w, m.accepts w = true) ↔ m.isConsistent = true := by
  constructor
  · intro h
    obtain ⟨w, hw⟩ := h
    exact isConsistent_of_accepts hw
  · intro h
    exact ⟨m.bits, accepts_bits h⟩

/-- A consistent match expects no one where it does not mask. -/
theorem getMsbD_bits_of_unmasked {m : Match} (h : m.isConsistent = true) {p : Nat} (hp : p < 32)
    (hmask : ¬ m.mask.getMsbD p = true) : m.bits.getMsbD p = false :=
  Bool.eq_false_of_not_eq_true (mt (m.isConsistent_iff_positions.1 h p hp) hmask)

/-- Where a consistent match masks, filling up takes its bits; elsewhere those
    of the word. -/
theorem getMsbD_fill {m : Match} (h : m.isConsistent = true) (w : Word) {p : Nat} (hp : p < 32) :
    (m.fill w).getMsbD p =
      if m.mask.getMsbD p = true then m.bits.getMsbD p else w.getMsbD p := by
  simp only [fill, BitVec.getMsbD_or, BitVec.getMsbD_and, BitVec.getMsbD_not, hp, decide_true,
    Bool.true_and]
  by_cases hmask : m.mask.getMsbD p = true
  · simp [hmask]
  · simp [hmask, getMsbD_bits_of_unmasked h hp hmask]

/-- A consistent match accepts whatever fills it up. -/
theorem accepts_fill {m : Match} (h : m.isConsistent = true) (w : Word) :
    m.accepts (m.fill w) = true := by
  rw [accepts_iff_positions]
  intro p hp
  rw [getMsbD_fill h w hp]
  by_cases hmask : m.mask.getMsbD p = true
  · simp [hmask]
  · simp [hmask, getMsbD_bits_of_unmasked h hp hmask]

/-- An accepted word fills up the match to itself. -/
theorem fill_of_accepts {m : Match} {w : Word} (h : m.accepts w = true) : m.fill w = w := by
  have hmasked : w &&& m.mask = m.bits := by simpa [accepts] using h
  calc m.bits ||| (w &&& ~~~m.mask)
      = (w &&& m.mask) ||| (w &&& ~~~m.mask) := by rw [hmasked]
    _ = w &&& (m.mask ||| ~~~m.mask) := BitVec.and_or_distrib_left.symm
    _ = w := by rw [BitVec.or_not_self, BitVec.and_allOnes]

/-- **The accepted words** of a consistent match are those that fill it up. -/
theorem accepts_iff_exists_fill {m : Match} (h : m.isConsistent = true) (w : Word) :
    m.accepts w = true ↔ ∃ x, w = m.bits ||| (x &&& ~~~m.mask) := by
  constructor
  · intro hw
    exact ⟨w, (fill_of_accepts hw).symm⟩
  · rintro ⟨x, rfl⟩
    exact accepts_fill h x

/-! ## §3. Their number -/

/-- A word that is accepted is a choice of a bit for each position that is not
    masked. -/
def acceptedEquiv (m : Match) (h : m.isConsistent = true) :
    {w : Word // m.accepts w = true} ≃ ({p : Fin 32 // ¬ m.mask.getMsbD p = true} → Bool) where
  toFun w p := w.1.getMsbD p.1
  invFun choice :=
    ⟨m.fill (Word.ofPositions fun p =>
        if hp : ¬ m.mask.getMsbD p = true then choice ⟨p, hp⟩ else false),
      accepts_fill h _⟩
  left_inv w := by
    apply Subtype.ext
    apply (Word.eq_iff_positions _ _).2
    intro p hp
    -- Where the match masks, every accepted word has its bit.
    have hmasked := (m.accepts_iff_positions w.1).1 w.2 p hp
    rw [getMsbD_fill h _ hp]
    by_cases hmask : m.mask.getMsbD p = true
    · rw [if_pos hmask, ← hmasked, hmask, Bool.and_true]
    · rw [if_neg hmask, Word.getMsbD_ofPositions _ ⟨p, hp⟩, dif_pos hmask]
  right_inv choice := by
    funext p
    show (m.fill _).getMsbD p.1 = choice p
    rw [getMsbD_fill h _ p.1.isLt, if_neg p.2, Word.getMsbD_ofPositions, dif_pos p.2]

/-- **The number of accepted words** of a consistent match. -/
theorem card_accepts {m : Match} (h : m.isConsistent = true) :
    Nat.card {w : Word // m.accepts w = true} = 2 ^ (32 - m.mask.cpop.toNat) := by
  have hfree : Fintype.card {p : Fin 32 // ¬ m.mask.getMsbD p = true} =
      32 - m.mask.cpop.toNat := by
    rw [Fintype.card_subtype_compl, Fintype.card_fin, Word.toNat_cpop]
  rw [Nat.card_congr (m.acceptedEquiv h), Nat.card_fun, Nat.card_eq_fintype_card,
    Nat.card_eq_fintype_card, Fintype.card_bool, hfree]

end Match

end IsaTable
