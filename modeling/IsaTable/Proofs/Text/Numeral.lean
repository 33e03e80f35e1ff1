import Mathlib.Data.List.DropRight
import IsaTable.Text.Numeral

/-! # Numerals read back

    A numeral is the numeral of a smaller number with a digit behind it, or a
    digit alone; what holds of all numerals is shown along that
    (`toDigits_induction`).  A hexadecimal numeral denotes the number that it
    was written for (`readHexadecimal_toDigits`), and its mark shows where it
    begins, whatever stands in front (`cutHexadecimal_append`).
-/

namespace IsaTable.Text

/-! ## §1. Numerals in any base -/

/-- **Induction on numerals.** -/
theorem toDigits_induction (base : Nat) (hbase : 1 < base) {motive : Nat → List Char → Prop}
    (digit : ∀ n < base, motive n [n.digitChar])
    (append : ∀ n, base ≤ n → motive (n / base) (base.toDigits (n / base)) →
      motive n (base.toDigits (n / base) ++ [(n % base).digitChar]))
    (n : Nat) : motive n (base.toDigits n) := by
  induction n using Nat.strongRecOn with
  | ind n ih =>
    by_cases hn : n < base
    · rw [Nat.toDigits_of_lt_base hn]
      exact digit n hn
    · have hle : base ≤ n := Nat.le_of_not_lt hn
      have hsmaller : n / base < n := Nat.div_lt_self (by omega) hbase
      rw [Nat.toDigits_of_base_le hbase hle]
      exact append n hle (ih (n / base) hsmaller)

/-- Nothing but digits stands in a numeral. -/
theorem exists_digit_of_mem_toDigits (base : Nat) (hbase : 1 < base) {n : Nat} {c : Char}
    (h : c ∈ base.toDigits n) : ∃ k < base, c = k.digitChar := by
  refine toDigits_induction base hbase
    (motive := fun _ digits => ∀ d ∈ digits, ∃ k < base, d = k.digitChar) ?_ ?_ n c h
  · intro k hk
    exact List.forall_mem_singleton.2 ⟨k, hk, rfl⟩
  · intro k _ ih
    have hlast : k % base < base := Nat.mod_lt k (by omega)
    exact List.forall_mem_append.2 ⟨ih, List.forall_mem_singleton.2 ⟨_, hlast, rfl⟩⟩

/-- Only the numeral of zero begins with a zero. -/
theorem head_decimalDigits {n : Nat} (h : 0 < n) :
    ∃ d ds, decimalDigits n = d :: ds ∧ d ≠ '0' := by
  have hdigit : ∀ m < 10, 0 < m → m.digitChar ≠ '0' := by decide
  refine toDigits_induction 10 (by decide)
    (motive := fun n digits => 0 < n → ∃ d ds, digits = d :: ds ∧ d ≠ '0') ?_ ?_ n h
  · intro k hk hpos
    exact ⟨_, [], rfl, hdigit k hk hpos⟩
  · intro k hk ih _
    obtain ⟨d, ds, hd, hne⟩ := ih (by omega)
    rw [hd]
    exact ⟨d, _, rfl, hne⟩

/-- Further digits never make a number smaller. -/
theorem le_ofDigitChars {base : Nat} (hbase : 0 < base) (digits : List Char) (value : Nat) :
    value ≤ Nat.ofDigitChars base digits value := by
  induction digits generalizing value with
  | nil => exact Nat.le_refl value
  | cons c rest ih =>
    calc value ≤ base * value := Nat.le_mul_of_pos_left value hbase
      _ ≤ base * value + (c.toNat - '0'.toNat) := Nat.le_add_right _ _
      _ ≤ Nat.ofDigitChars base rest (base * value + (c.toNat - '0'.toNat)) := ih _
      _ = Nat.ofDigitChars base (c :: rest) value := Nat.ofDigitChars_cons.symm

/-! ## §2. Hexadecimal numerals -/

/-- The value of a digit. -/
def digitValue (c : Char) : Nat :=
  if c.isDigit then c.toNat - '0'.toNat else c.toNat - 'a'.toNat + 10

/-- The number that a run of hexadecimal digits denotes. -/
def readHexadecimal (digits : List Char) : Nat :=
  digits.foldl (fun n c => 16 * n + digitValue c) 0

theorem digitValue_digitChar {n : Nat} (h : n < 16) : digitValue n.digitChar = n := by
  have hvalue : ∀ k < 16, digitValue k.digitChar = k := by decide
  exact hvalue n h

/-- A hexadecimal numeral denotes the number that it was written for. -/
theorem readHexadecimal_toDigits (n : Nat) : readHexadecimal (Nat.toDigits 16 n) = n := by
  apply toDigits_induction 16 (by decide)
    (motive := fun n digits => readHexadecimal digits = n)
  · intro k hk
    show 16 * 0 + digitValue k.digitChar = k
    rw [digitValue_digitChar hk]
    omega
  · intro k _ ih
    have hdigit : digitValue (k % 16).digitChar = k % 16 := digitValue_digitChar (by omega)
    unfold readHexadecimal at ih ⊢
    rw [List.foldl_append, ih]
    show 16 * (k / 16) + digitValue (k % 16).digitChar = k
    omega

/-- The letter of the mark is no hexadecimal digit. -/
theorem ne_mark_of_mem_toDigits {n : Nat} {c : Char} (h : c ∈ Nat.toDigits 16 n) : c ≠ 'x' := by
  obtain ⟨k, hk, rfl⟩ := exists_digit_of_mem_toDigits 16 (by decide) h
  have hdigit : ∀ m < 16, m.digitChar ≠ 'x' := by decide
  exact hdigit k hk

/-- A hexadecimal numeral holds no line feed, and neither does its mark. -/
theorem newline_not_mem_hexadecimal (n : Nat) : '\n' ∉ (hexadecimal n).toList := by
  have hdigit : ∀ m < 16, '\n' ≠ m.digitChar := by decide
  have hdigits : '\n' ∉ Nat.toDigits 16 n := by
    intro hmem
    obtain ⟨k, hk, heq⟩ := exists_digit_of_mem_toDigits 16 (by decide) hmem
    exact hdigit k hk heq
  simp [hexadecimal, hdigits]

/-- Cuts the last marked numeral off the end of a text: what stands in front of
    its mark, and its number. -/
def cutHexadecimal (text : List Char) : List Char × Nat :=
  ((text.rdropWhile (· != 'x')).rdrop 2, readHexadecimal (text.rtakeWhile (· != 'x')))

/-- **The last numeral can be cut off**, even where others stand in front of
    it. -/
theorem cutHexadecimal_append (front : List Char) (n : Nat) :
    cutHexadecimal (front ++ (hexadecimal n).toList) = (front, n) := by
  have hdigits : ∀ c ∈ (Nat.toDigits 16 n).reverse, (c != 'x') = true := by
    intro c hc
    rw [bne_iff_ne]
    exact ne_mark_of_mem_toDigits (List.mem_reverse.1 hc)
  have htext : front ++ (hexadecimal n).toList =
      (front ++ ['0', 'x']) ++ Nat.toDigits 16 n := by
    simp [hexadecimal]
  have hmark : (front ++ ['0', 'x']).reverse = 'x' :: '0' :: front.reverse := by simp
  have htake : ((front ++ ['0', 'x']) ++ Nat.toDigits 16 n).rtakeWhile (· != 'x') =
      Nat.toDigits 16 n := by
    rw [List.rtakeWhile, List.reverse_append, List.takeWhile_append_of_pos hdigits, hmark]
    simp
  have hdrop : ((front ++ ['0', 'x']) ++ Nat.toDigits 16 n).rdropWhile (· != 'x') =
      front ++ ['0', 'x'] := by
    have hjoin := List.rdropWhile_append_rtakeWhile (p := (· != 'x'))
      (l := (front ++ ['0', 'x']) ++ Nat.toDigits 16 n)
    rw [htake] at hjoin
    exact List.append_cancel_right hjoin
  unfold cutHexadecimal
  rw [htext, htake, hdrop, readHexadecimal_toDigits]
  exact congrArg (·, n) List.rdrop_append_length

end IsaTable.Text
