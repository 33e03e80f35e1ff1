/-! # Instruction words

    An instruction word has 32 bits.  Positions are counted from the most
    significant bit: position 0 is the high bit and position 31 the low bit,
    so that position `p` is bit number `31 - p`, and `w.getMsbD p` is the bit
    of `w` at `p`.

    Main definitions:
    - `Word.ones`, `Word.rangeMask`, `Word.positionMask`, the masks;
    - `Word.significantBits`, how many bits a value needs;
    - `Word.slice`, the number that a run of positions spells.  It is defined
      bit by bit, without shifts, and is what the masks are measured by.
-/

namespace IsaTable

/-- A 32-bit instruction word. -/
abbrev Word := BitVec 32

namespace Word

/-! ## §1. Masks -/

/-- How far position `stop` lies from the least significant bit. -/
def lsbShift (stop : Nat) : Nat :=
  31 - stop

/-- A run of `width` ones ending at the least significant bit. -/
def ones (width : Nat) : Word :=
  BitVec.allOnes 32 >>> (32 - width)

/-- The word with exactly the positions `start` to `stop` set. -/
def rangeMask (start stop : Nat) : Word :=
  ones (stop - start + 1) <<< lsbShift stop

/-- The word with the single position `p` set. -/
def positionMask (p : Nat) : Word :=
  1#32 <<< lsbShift p

theorem lsbShift_lt (stop : Nat) : lsbShift stop < 32 := by
  unfold lsbShift; omega

/-- Bit `i` of a run of ones is set below its width only. -/
theorem getLsbD_ones {width i : Nat} (h : width ≤ 32) :
    (ones width).getLsbD i = decide (i < width) := by
  simp only [ones, BitVec.getLsbD_ushiftRight, BitVec.getLsbD_allOnes]
  congr 1
  simp only [eq_iff_iff]
  omega

/-- A range mask has the positions of its range set and no others. -/
theorem getMsbD_rangeMask {start stop p : Nat} (h₁ : start ≤ stop) (h₂ : stop ≤ 31) :
    (rangeMask start stop).getMsbD p = decide (start ≤ p ∧ p ≤ stop) := by
  by_cases hp : p < 32
  · simp only [BitVec.getMsbD, hp, decide_true, Bool.true_and, rangeMask,
      BitVec.getLsbD_shiftLeft, getLsbD_ones (show stop - start + 1 ≤ 32 by omega)]
    rw [Bool.eq_iff_iff]
    simp only [Bool.and_eq_true, Bool.not_eq_true', decide_eq_true_eq,
      decide_eq_false_iff_not]
    unfold lsbShift
    omega
  · have : ¬ (start ≤ p ∧ p ≤ stop) := by omega
    simp [BitVec.getMsbD, hp, this]

/-! ## §2. Values -/

/-- How many bits a value needs: one more than the number of its highest set
    bit, and none for zero. -/
def significantBits (value : Word) : Nat :=
  32 - value.clz.toNat

/-- The number spelled by the `width` positions from `start` on, the first
    of them the most significant. -/
def slice (w : Word) (start : Nat) : (width : Nat) → Nat
  | 0 => 0
  | width + 1 => 2 * slice w start width + (w.getMsbD (start + width)).toNat

@[simp] theorem slice_zero (w : Word) (start : Nat) : slice w start 0 = 0 := rfl

end Word

end IsaTable
