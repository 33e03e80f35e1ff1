import Mathlib.Data.List.TakeWhile
import IsaTable.Proofs.Json.Grammar

/-! # Reading numbers

    A numeral is cut off a text as far as it goes, so it is found whole exactly
    where something follows that cannot continue it: a blank, a comma or a
    closing bracket (`Delimited`).

    Main statements:
    - `takeNumeral_sound` and `takeNumeral_complete`, what is cut off is a
      numeral, and every numeral is;
    - `readNumber_natural` and `readNumber_of_spellsNatural`, the natural
      numbers among them are those that are written as such.
-/

namespace IsaTable.Json

/-! ## §1. What may follow a value -/

/-- The characters that end a value. -/
def IsDelimiter (c : Char) : Prop :=
  isBlank c = true ∨ c = ',' ∨ c = ']' ∨ c = '\x7d'

/-- What is left begins with a delimiter, if there is anything. -/
def Delimited (r : List Char) : Prop :=
  ∀ c ∈ r.head?, IsDelimiter c

/-- What is left does not begin with a digit. -/
def NoDigit (r : List Char) : Prop :=
  ∀ c ∈ r.head?, c.isDigit = false

theorem IsDelimiter.not_numeric {c : Char} (h : IsDelimiter c) :
    c.isDigit = false ∧ c ≠ '.' ∧ c ≠ 'e' ∧ c ≠ 'E' := by
  rcases h with h | rfl | rfl | rfl
  · simp only [isBlank, Bool.or_eq_true, beq_iff_eq] at h
    rcases h with ((rfl | rfl) | rfl) | rfl <;> decide
  · decide
  · decide
  · decide

theorem Delimited.noDigit {r : List Char} (h : Delimited r) : NoDigit r := by
  intro c hc
  exact (h c hc).not_numeric.1

theorem noDigit_cons {c : Char} (h : c.isDigit = false) (r : List Char) : NoDigit (c :: r) := by
  intro d hd
  obtain rfl : c = d := Option.some.inj hd
  exact h

/-! ## §2. Runs of digits -/

theorem IsDigits.exists_cons {s : List Char} (h : IsDigits s) :
    ∃ d ds, s = d :: ds ∧ d.isDigit = true := by
  obtain ⟨d, ds, rfl⟩ := List.exists_cons_of_ne_nil h.1
  exact ⟨d, ds, rfl, h.2 d List.mem_cons_self⟩

/-- **Digits are taken as far as they go.** -/
theorem takeDigits_eq_ok_iff {s d r : List Char} :
    takeDigits s = .ok (d, r) ↔ IsDigits d ∧ NoDigit r ∧ s = d ++ r := by
  constructor
  · intro h
    have hsplit : s.takeWhile Char.isDigit ++ s.dropWhile Char.isDigit = s :=
      List.takeWhile_append_dropWhile
    have hdigits : ∀ c ∈ s.takeWhile Char.isDigit, c.isDigit = true := fun c hc =>
      List.mem_takeWhile_imp hc
    have hstop : NoDigit (s.dropWhile Char.isDigit) := by
      intro c hc
      have := List.head?_dropWhile_not Char.isDigit s
      rw [hc] at this
      simpa using this
    unfold takeDigits at h
    split at h
    · split at h <;> contradiction
    · next hd =>
      obtain ⟨rfl, rfl⟩ := Prod.mk.inj (Except.ok.inj h)
      rw [hd] at hsplit hdigits
      exact ⟨⟨List.cons_ne_nil _ _, hdigits⟩, hstop, hsplit.symm⟩
  · rintro ⟨hd, hr, rfl⟩
    have htake : r.takeWhile Char.isDigit = [] := by
      cases r with
      | nil => rfl
      | cons c rest => simp [hr c rfl]
    have hdrop : r.dropWhile Char.isDigit = r := by
      cases r with
      | nil => rfl
      | cons c rest => simp [hr c rfl]
    have htake' : (d ++ r).takeWhile Char.isDigit = d := by
      rw [List.takeWhile_append_of_pos hd.2, htake, List.append_nil]
    have hdrop' : (d ++ r).dropWhile Char.isDigit = r := by
      rw [List.dropWhile_append_of_pos hd.2, hdrop]
    obtain ⟨c, cs, rfl, -⟩ := hd.exists_cons
    rw [takeDigits, htake', hdrop']

theorem takeWhole_eq_ok_iff {s d r : List Char} :
    takeWhole s = .ok (d, r) ↔ IsWhole d ∧ NoDigit r ∧ s = d ++ r := by
  unfold takeWhole
  constructor
  · intro h
    split at h
    · contradiction
    · next hzero =>
      obtain ⟨hd, hr, rfl⟩ := takeDigits_eq_ok_iff.1 h
      refine ⟨⟨hd, ?_⟩, hr, rfl⟩
      rintro c rest rfl
      exact hzero _ _ _ h
  · rintro ⟨hd, hr, rfl⟩
    have h := takeDigits_eq_ok_iff.2 ⟨hd.1, hr, rfl⟩
    rw [h]
    split
    · next heq =>
      obtain ⟨rfl, -⟩ := Prod.mk.inj (Except.ok.inj heq)
      exact absurd rfl (hd.2 _ _)
    · rfl

/-! ## §3. Fractions and exponents -/

theorem takeFraction_sound {s f r : List Char} (h : takeFraction s = .ok (f, r)) :
    ∃ t, SpellsFraction t f ∧ s = t ++ r := by
  unfold takeFraction at h
  split at h
  · obtain ⟨hf, -, rfl⟩ := takeDigits_eq_ok_iff.1 h
    exact ⟨_, .digits hf, rfl⟩
  · obtain ⟨rfl, rfl⟩ := Prod.mk.inj (Except.ok.inj h)
    exact ⟨_, .absent, rfl⟩

/-- A fraction is found whole before what neither is a point nor a digit. -/
theorem takeFraction_complete {t f r : List Char} (h : SpellsFraction t f) (hr : NoDigit r)
    (hpoint : '.' ∉ r.head?) : takeFraction (t ++ r) = .ok (f, r) := by
  cases h with
  | absent =>
    cases r with
    | nil => rfl
    | cons c rest =>
      have hc : c ≠ '.' := fun hc => hpoint (hc ▸ rfl)
      simp [takeFraction, hc]
  | digits hf => exact takeDigits_eq_ok_iff.2 ⟨hf, hr, rfl⟩

/-- The text behind the mark of an exponent is a sign and digits. -/
theorem takeSign_spec {mark : Char} {s d r : List Char} (hmark : IsPowerMark mark)
    (h : IsDigits d) (hs : (takeSign s).2 = d ++ r) :
    ∃ t, SpellsPower t (some ((takeSign s).1, d)) ∧ mark :: s = t ++ r := by
  unfold takeSign at hs ⊢
  split at hs
  · obtain rfl : _ = d ++ r := hs
    exact ⟨_, .minus hmark h, rfl⟩
  · obtain rfl : _ = d ++ r := hs
    exact ⟨_, .plus hmark h, rfl⟩
  · obtain rfl : _ = d ++ r := hs
    exact ⟨_, .unsigned hmark h, rfl⟩

theorem takePower_sound {s r : List Char} {p : Option (Bool × List Char)}
    (h : takePower s = .ok (p, r)) : ∃ t, SpellsPower t p ∧ s = t ++ r := by
  unfold takePower at h
  split at h
  · next mark rest =>
    split at h
    · next hmark =>
      split at h
      · next digits rest' hd =>
        obtain ⟨rfl, rfl⟩ := Prod.mk.inj (Except.ok.inj h)
        obtain ⟨hdigits, -, hsplit⟩ := takeDigits_eq_ok_iff.1 hd
        exact takeSign_spec hmark hdigits hsplit
      · contradiction
    · obtain ⟨rfl, rfl⟩ := Prod.mk.inj (Except.ok.inj h)
      exact ⟨_, .absent, rfl⟩
  · obtain ⟨rfl, rfl⟩ := Prod.mk.inj (Except.ok.inj h)
    exact ⟨_, .absent, rfl⟩

/-- Digits do not begin with a sign. -/
theorem takeSign_of_digits {d : List Char} (h : IsDigits d) (r : List Char) :
    takeSign (d ++ r) = (false, d ++ r) := by
  obtain ⟨c, cs, rfl, hc⟩ := h.exists_cons
  unfold takeSign
  split
  · next heq =>
    obtain ⟨rfl, -⟩ := List.cons.inj heq
    exact absurd hc (by decide)
  · next heq =>
    obtain ⟨rfl, -⟩ := List.cons.inj heq
    exact absurd hc (by decide)
  · rfl

theorem takePower_complete {t r : List Char} {p : Option (Bool × List Char)}
    (h : SpellsPower t p) (hr : Delimited r) : takePower (t ++ r) = .ok (p, r) := by
  -- Behind the mark, the digits are found after the sign that stands there.
  have hmarked : ∀ {mark : Char} {s d : List Char} {negative : Bool}, IsPowerMark mark →
      IsDigits d → takeSign (s ++ r) = (negative, d ++ r) →
      takePower (mark :: s ++ r) = .ok (some (negative, d), r) := by
    intro mark s d negative hmark hd hsign
    have hdigits := takeDigits_eq_ok_iff.2 ⟨hd, hr.noDigit, rfl⟩
    rw [List.cons_append, takePower, if_pos (show mark = 'e' ∨ mark = 'E' from hmark), hsign]
    simp only [hdigits]
  cases h with
  | absent =>
    cases r with
    | nil => rfl
    | cons c rest =>
      obtain ⟨-, -, hlower, hupper⟩ := (hr c rfl).not_numeric
      rw [List.nil_append, takePower, if_neg (not_or.2 ⟨hlower, hupper⟩)]
  | unsigned hmark hd => exact hmarked hmark hd (takeSign_of_digits hd r)
  | plus hmark hd => exact hmarked hmark hd rfl
  | minus hmark hd => exact hmarked hmark hd rfl

/-- An exponent and what follows it do not continue a fraction. -/
theorem SpellsPower.head_append {t r : List Char} {p : Option (Bool × List Char)}
    (h : SpellsPower t p) (hr : Delimited r) : NoDigit (t ++ r) ∧ '.' ∉ (t ++ r).head? := by
  have hmarked : ∀ {mark : Char} {s : List Char}, IsPowerMark mark →
      NoDigit (mark :: s) ∧ '.' ∉ (mark :: s).head? := by
    intro mark s hmark
    rcases hmark with rfl | rfl
    · exact ⟨noDigit_cons (by decide) s, by simp⟩
    · exact ⟨noDigit_cons (by decide) s, by simp⟩
  cases h with
  | absent => exact ⟨hr.noDigit, fun hc => (hr _ hc).not_numeric.2.1 rfl⟩
  | unsigned hmark _ => exact hmarked hmark
  | plus hmark _ => exact hmarked hmark
  | minus hmark _ => exact hmarked hmark

/-- A fraction and what follows it do not continue the digits before the
    point. -/
theorem SpellsFraction.noDigit_append {t f r : List Char} (h : SpellsFraction t f)
    (hr : NoDigit r) : NoDigit (t ++ r) := by
  cases h with
  | absent => exact hr
  | digits _ => exact noDigit_cons (by decide) _

/-! ## §4. Numerals -/

theorem takeUnsigned_sound {negative : Bool} {s r : List Char} {n : Numeral}
    (h : takeUnsigned negative s = .ok (n, r)) :
    ∃ t, SpellsNumeral (signText negative ++ t) n ∧ n.negative = negative ∧ s = t ++ r := by
  unfold takeUnsigned at h
  split at h
  · contradiction
  · next hw =>
    split at h
    · contradiction
    · next hf =>
      split at h
      · contradiction
      · next hp =>
        obtain ⟨rfl, rfl⟩ := Prod.mk.inj (Except.ok.inj h)
        obtain ⟨hwhole, -, rfl⟩ := takeWhole_eq_ok_iff.1 hw
        obtain ⟨fractionText, hfraction, rfl⟩ := takeFraction_sound hf
        obtain ⟨powerText, hpower, rfl⟩ := takePower_sound hp
        refine ⟨_, ?_, rfl, (List.append_assoc _ _ _).symm.trans (List.append_assoc _ _ _).symm⟩
        have hspelled := @SpellsNumeral.parts negative _ _ _ _ _ hwhole hfraction hpower
        simpa only [List.append_assoc] using hspelled

/-- **What is cut off is a numeral.** -/
theorem takeNumeral_sound {s r : List Char} {n : Numeral} (h : takeNumeral s = .ok (n, r)) :
    ∃ t, SpellsNumeral t n ∧ s = t ++ r := by
  unfold takeNumeral at h
  split at h
  · obtain ⟨t, ht, -, rfl⟩ := takeUnsigned_sound h
    exact ⟨_, ht, rfl⟩
  · obtain ⟨t, ht, -, rfl⟩ := takeUnsigned_sound h
    exact ⟨_, ht, rfl⟩

/-- What begins with a digit has no sign. -/
theorem takeNumeral_of_digits {d : List Char} (h : IsDigits d) (r : List Char) :
    takeNumeral (d ++ r) = takeUnsigned false (d ++ r) := by
  obtain ⟨c, cs, rfl, hc⟩ := h.exists_cons
  unfold takeNumeral
  split
  · next heq =>
    obtain ⟨rfl, -⟩ := List.cons.inj heq
    exact absurd hc (by decide)
  · rfl

/-- **Every numeral is cut off whole** where nothing continues it. -/
theorem takeNumeral_complete {t r : List Char} {n : Numeral} (h : SpellsNumeral t n)
    (hr : Delimited r) : takeNumeral (t ++ r) = .ok (n, r) := by
  obtain @⟨negative, whole, fraction, fractionText, powerText, power, hwhole, hfraction,
    hpower⟩ := h
  obtain ⟨hdigit, hpoint⟩ := hpower.head_append hr
  have hunsigned : takeUnsigned negative (whole ++ (fractionText ++ (powerText ++ r))) =
      .ok (⟨negative, whole, fraction, power⟩, r) := by
    have h₁ := takeWhole_eq_ok_iff.2 ⟨hwhole, hfraction.noDigit_append hdigit, rfl⟩
    have h₂ := takeFraction_complete hfraction hdigit hpoint
    have h₃ := takePower_complete hpower hr
    simp only [takeUnsigned, h₁, h₂, h₃]
  simp only [List.append_assoc]
  cases negative with
  | true => exact hunsigned
  | false => exact (takeNumeral_of_digits hwhole.1 _).trans hunsigned

theorem skipNumber_sound {s r : List Char} (h : skipNumber s = .ok r) :
    ∃ t n, SpellsNumeral t n ∧ s = t ++ r := by
  unfold skipNumber at h
  split at h
  · contradiction
  · next hn =>
    obtain rfl := Except.ok.inj h
    obtain ⟨t, ht, hs⟩ := takeNumeral_sound hn
    exact ⟨t, _, ht, hs⟩

theorem skipNumber_complete {t r : List Char} {n : Numeral} (h : SpellsNumeral t n)
    (hr : Delimited r) : skipNumber (t ++ r) = .ok r := by
  rw [skipNumber, takeNumeral_complete h hr]

/-! ## §5. Natural numbers -/

/-- The numeral of a natural number. -/
theorem SpellsNatural.spellsNumeral {t : List Char} {n : Nat} (h : SpellsNatural t n) :
    SpellsNumeral t ⟨false, t, [], none⟩ := by
  have hspelled := @SpellsNumeral.parts false _ _ _ _ _ h.1 .absent .absent
  simpa [signText] using hspelled

/-- A numeral denotes a natural number only if it consists of digits. -/
theorem spellsNatural_of_integer? {t : List Char} {n : Numeral} {k : Nat}
    (h : SpellsNumeral t n) (hk : n.integer? = some (.ofNat k)) : SpellsNatural t k := by
  obtain @⟨negative, whole, fraction, fractionText, powerText, power, hwhole, hfraction,
    hpower⟩ := h
  simp only [Numeral.integer?] at hk
  split at hk
  · contradiction
  · next hplain =>
    simp only [Bool.or_eq_true, Bool.not_eq_true', List.isEmpty_eq_false_iff, not_or,
      not_not, Option.not_isSome_iff_eq_none] at hplain
    obtain ⟨rfl, rfl⟩ := hplain
    cases hpower
    have hfraction' : fractionText = [] := by
      cases hfraction with
      | absent => rfl
      | digits hd => exact absurd rfl hd.1
    cases negative with
    | true =>
      -- A minus stands before a positive number only, and makes it negative.
      simp only [if_true] at hk
      split at hk
      · contradiction
      · next hrange =>
        have hzero : digitsValue whole ≠ 0 := fun hzero => hrange (.inl hzero)
        have hnegative : -(digitsValue whole : Int) = (k : Int) := Option.some.inj hk
        omega
    | false =>
      simp only [Bool.false_eq_true, if_false] at hk
      split at hk
      · have hvalue : digitsValue whole = k := Int.ofNat.inj (Option.some.inj hk)
        subst hfraction'
        simpa [signText] using ⟨hwhole, hvalue⟩
      · contradiction

theorem readNumber_natural {s r : List Char} {k : Nat}
    (h : readNumber s = .ok (.integer (.ofNat k), r)) : ∃ t, SpellsNatural t k ∧ s = t ++ r := by
  unfold readNumber at h
  split at h
  · contradiction
  · next n _ hn =>
    obtain ⟨t, ht, rfl⟩ := takeNumeral_sound hn
    cases hi : n.integer? with
    | none =>
      -- A double is described as a double.
      cases hm : n.magnitude? <;>
        simp only [Numeral.found, hi, hm, Except.map, reduceCtorEq, Except.ok.injEq,
          Prod.mk.injEq, false_and] at h
    | some i =>
      simp only [Numeral.found, hi, Except.map, Except.ok.injEq, Prod.mk.injEq,
        Found.integer.injEq] at h
      obtain ⟨rfl, rfl⟩ := h
      exact ⟨t, spellsNatural_of_integer? ht hi, rfl⟩

theorem readNumber_of_spellsNatural {t r : List Char} {k : Nat} (h : SpellsNatural t k)
    (hk : k < UInt64.size) (hr : Delimited r) :
    readNumber (t ++ r) = .ok (.integer (.ofNat k), r) := by
  have hinteger : Numeral.integer? ⟨false, t, [], none⟩ = some (.ofNat k) := by
    simp [Numeral.integer?, h.2, hk]
  rw [readNumber, takeNumeral_complete h.spellsNumeral hr]
  simp only [Numeral.found, hinteger]
  rfl

end IsaTable.Json
