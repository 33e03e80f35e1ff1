import IsaTable.Proofs.Json.Grammar

/-! # Reading texts

    Where the content of a text matters, every spelling of a character is read
    as that character, and half a surrogate pair is refused
    (`readText_sound`, `readText_complete`).  Where it does not, an escape may
    name any code unit (`skipText_sound`, `skipText_complete`).
-/

namespace IsaTable.Json

/-! ## §1. Code units -/

/-- A hexadecimal digit is an ASCII character and counts less than 16. -/
theorem hexValue?_bounds {c : Char} {n : Nat} (h : hexValue? c = some n) :
    n < 16 ∧ c.toNat ≤ 102 := by
  simp only [hexValue?, Char.le_def, UInt32.le_iff_toNat_le, Char.toNat_val] at h
  split at h
  · next hc =>
    have : c.toNat ≤ 57 := hc.2
    have hn : c.toNat - 48 = n := Option.some.inj h
    omega
  · split at h
    · next hc =>
      have : c.toNat ≤ 102 := hc.2
      have hn : c.toNat - 97 + 10 = n := Option.some.inj h
      omega
    · split at h
      · next hc =>
        have : c.toNat ≤ 70 := hc.2
        have hn : c.toNat - 65 + 10 = n := Option.some.inj h
        omega
      · contradiction

/-- Four digits spell a number of 16 bits. -/
theorem SpellsUnit.lt {s : List Char} {n : Nat} (h : SpellsUnit s n) : n < 0x10000 := by
  obtain ⟨h⟩ := h
  simp only [hexValue4?, Option.bind_eq_bind, Option.bind_eq_some_iff, Option.pure_def,
    Option.some.injEq] at h
  obtain ⟨a, ha, b, hb, c, hc, d, hd, rfl⟩ := h
  have := (hexValue?_bounds ha).1
  have := (hexValue?_bounds hb).1
  have := (hexValue?_bounds hc).1
  have := (hexValue?_bounds hd).1
  omega

theorem readHex4_sound {s r : List Char} {n : Nat} (h : readHex4 s = .ok (n, r)) :
    ∃ t, SpellsUnit t n ∧ s = t ++ r := by
  unfold readHex4 at h
  split at h
  · split at h
    · next hn =>
      obtain ⟨rfl, rfl⟩ := Prod.mk.inj (Except.ok.inj h)
      exact ⟨_, .digits hn, rfl⟩
    · contradiction
  · split at h <;> contradiction

theorem readHex4_complete {t : List Char} {n : Nat} (h : SpellsUnit t n) (r : List Char) :
    readHex4 (t ++ r) = .ok (n, r) := by
  obtain ⟨h⟩ := h
  simp only [List.cons_append, List.nil_append, readHex4, h]

theorem isHighSurrogate_iff {n : Nat} :
    isHighSurrogate n = true ↔ 0xD800 ≤ n ∧ n ≤ 0xDBFF := by
  simp [isHighSurrogate]

theorem isLowSurrogate_iff {n : Nat} :
    isLowSurrogate n = true ↔ 0xDC00 ≤ n ∧ n ≤ 0xDFFF := by
  simp [isLowSurrogate]

theorem toNat_ofNat_of_valid {n : Nat} (h : n.isValidChar) : (Char.ofNat n).toNat = n := by
  rw [Char.ofNat, dif_pos h]
  rfl

/-- A code unit that is no half of a pair is the code point of its
    character. -/
theorem toNat_ofNat_of_unit {n : Nat} (hn : n < 0x10000) (hlow : isLowSurrogate n = false)
    (hhigh : isHighSurrogate n = false) : (Char.ofNat n).toNat = n := by
  rw [← Bool.not_eq_true, isLowSurrogate_iff] at hlow
  rw [← Bool.not_eq_true, isHighSurrogate_iff] at hhigh
  apply toNat_ofNat_of_valid
  unfold Nat.isValidChar
  omega

/-- No half of a pair is the code point of a character. -/
theorem not_surrogate_toNat (c : Char) :
    isLowSurrogate c.toNat = false ∧ isHighSurrogate c.toNat = false := by
  have hvalid : c.toNat < 0xD800 ∨ 0xDFFF < c.toNat ∧ c.toNat < 0x110000 := c.valid
  rw [← Bool.not_eq_true, ← Bool.not_eq_true, isLowSurrogate_iff, isHighSurrogate_iff]
  omega

/-- The code point of a pair. -/
theorem toNat_pairChar {high low : Nat} (hhigh : 0xD800 ≤ high ∧ high ≤ 0xDBFF)
    (hlow : 0xDC00 ≤ low ∧ low ≤ 0xDFFF) :
    (pairChar high low).toNat = 0x10000 + (high - 0xD800) * 0x400 + (low - 0xDC00) := by
  apply toNat_ofNat_of_valid
  unfold Nat.isValidChar
  omega

/-! ## §2. Escapes -/

theorem readSecondHalf_sound {s t r : List Char} {high : Nat} {c : Char}
    (hs : SpellsUnit s high) (hhigh : isHighSurrogate high = true)
    (h : readSecondHalf high t = .ok (c, r)) :
    ∃ u, SpellsChar ('\\' :: 'u' :: (s ++ u)) c ∧ t = u ++ r := by
  unfold readSecondHalf at h
  split at h
  · contradiction
  · contradiction
  · split at h
    · contradiction
    · next low _ hx =>
      split at h
      · next hlow =>
        obtain ⟨rfl, rfl⟩ := Prod.mk.inj (Except.ok.inj h)
        obtain ⟨u, hu, rfl⟩ := readHex4_sound hx
        have hhigh := isHighSurrogate_iff.1 hhigh
        have hlow := isLowSurrogate_iff.1 hlow
        exact ⟨_, .pair hs hu hhigh hlow (toNat_pairChar hhigh hlow), rfl⟩
      · contradiction
  · contradiction

theorem readUnitEscape_sound {s r : List Char} {c : Char} (h : readUnitEscape s = .ok (c, r)) :
    ∃ t, SpellsChar ('\\' :: 'u' :: t) c ∧ s = t ++ r := by
  unfold readUnitEscape at h
  split at h
  · contradiction
  · next n rest hx =>
    obtain ⟨u, hu, rfl⟩ := readHex4_sound hx
    split at h
    · contradiction
    · next hlow =>
      split at h
      · next hhigh =>
        obtain ⟨t, ht, rfl⟩ := readSecondHalf_sound hu hhigh h
        exact ⟨u ++ t, ht, (List.append_assoc _ _ _).symm⟩
      · next hhigh =>
        obtain ⟨rfl, rfl⟩ := Prod.mk.inj (Except.ok.inj h)
        have hc := toNat_ofNat_of_unit hu.lt (by simpa using hlow) (by simpa using hhigh)
        exact ⟨u, .unit (hc.symm ▸ hu), rfl⟩

theorem readEscape_sound {s r : List Char} {c : Char} (h : readEscape s = .ok (c, r)) :
    ∃ t, SpellsChar ('\\' :: t) c ∧ s = t ++ r := by
  unfold readEscape at h
  split at h
  · contradiction
  · obtain ⟨t, ht, rfl⟩ := readUnitEscape_sound h
    exact ⟨_, ht, rfl⟩
  · split at h
    · next hc =>
      obtain ⟨rfl, rfl⟩ := Prod.mk.inj (Except.ok.inj h)
      exact ⟨_, .letter hc, rfl⟩
    · contradiction

/-- A letter that escapes something is not the mark of a code unit. -/
theorem ne_u_of_simpleEscape? {e c : Char} (h : simpleEscape? e = some c) : e ≠ 'u' := by
  rintro rfl
  contradiction

theorem readEscape_complete {t : List Char} {c : Char} (h : SpellsChar ('\\' :: t) c)
    (r : List Char) : readEscape (t ++ r) = .ok (c, r) := by
  cases h with
  | plain h => exact absurd rfl h.2.1
  | letter h =>
    have hmark := ne_u_of_simpleEscape? h
    simp [readEscape, h]
  | unit h =>
    obtain ⟨hlow, hhigh⟩ := not_surrogate_toNat c
    simp only [List.cons_append, readEscape, readUnitEscape, readHex4_complete h, hlow, hhigh,
      Bool.false_eq_true, if_false, Char.ofNat_toNat]
  | @pair s u high low _ hs ht hhigh hlow hc =>
    have hnotLow : isLowSurrogate high = false := by
      rw [← Bool.not_eq_true, isLowSurrogate_iff]
      omega
    have hchar : pairChar high low = c :=
      Char.toNat_inj.1 ((toNat_pairChar hhigh hlow).trans hc.symm)
    simp only [List.cons_append, List.append_assoc, readEscape, readUnitEscape,
      readHex4_complete hs, hnotLow, isHighSurrogate_iff.2 hhigh, Bool.false_eq_true, if_false,
      if_true, readSecondHalf, readHex4_complete ht, isLowSurrogate_iff.2 hlow, hchar]

/-! ## §3. Texts that are read -/

/-- Reads on behind a character. -/
theorem readText_append {p : List Char} {c : Char} (h : SpellsChar p c) (s : List Char) :
    readText (p ++ s) = (readText s).map fun r => (c :: r.1, r.2) := by
  -- Every spelling but the first begins with a backslash.
  have hescape : ∀ t, SpellsChar ('\\' :: t) c →
      readText ('\\' :: t ++ s) = (readText s).map fun r => (c :: r.1, r.2) := by
    intro t ht
    have hread := readEscape_complete ht s
    rw [List.cons_append, readText, if_neg (by decide), if_pos rfl]
    split
    · next he =>
      rw [hread] at he
      contradiction
    · next he =>
      rw [hread] at he
      obtain ⟨rfl, rfl⟩ := Prod.mk.inj (Except.ok.inj he)
      cases readText s <;> rfl
  cases h with
  | plain h =>
    rw [List.singleton_append, readText, if_neg h.1, if_neg h.2.1, h.2.2, if_neg (by decide)]
    cases readText s <;> rfl
  | letter h => exact hescape _ (.letter h)
  | unit h => exact hescape _ (.unit h)
  | pair hs ht hhigh hlow hc => exact hescape _ (.pair hs ht hhigh hlow hc)

/-- **A text is read as what it spells.** -/
theorem readText_complete {s text : List Char} (h : SpellsChars s text) (r : List Char) :
    readText (s ++ '"' :: r) = .ok (text, r) := by
  obtain ⟨pieces, hpieces, rfl⟩ := h
  induction hpieces with
  | nil =>
    rw [List.flatten_nil, List.nil_append, readText, if_pos rfl]
  | cons hpiece _ ih =>
    rw [List.flatten_cons, List.append_assoc, readText_append hpiece, ih]
    rfl

/-- **What is read is spelled.** -/
theorem readText_sound {s text r : List Char} (h : readText s = .ok (text, r)) :
    ∃ t, SpellsChars t text ∧ s = t ++ '"' :: r := by
  fun_induction readText s generalizing text with
  | case1 | case3 | case4 | case6 | case7 => contradiction
  | case2 rest =>
    obtain ⟨rfl, rfl⟩ := Prod.mk.inj (Except.ok.inj h)
    exact ⟨[], ⟨[], .nil, rfl⟩, rfl⟩
  | case5 rest c rest' he cs r' hr hne ih =>
    obtain ⟨rfl, rfl⟩ := Prod.mk.inj (Except.ok.inj h)
    obtain ⟨piece, hpiece, rfl⟩ := readEscape_sound he
    obtain ⟨_, ⟨pieces, hpieces, rfl⟩, rfl⟩ := ih hr
    refine ⟨_, ⟨('\\' :: piece) :: pieces, .cons hpiece hpieces, rfl⟩, ?_⟩
    simp
  | case8 c rest hquote hbackslash hcontrol cs r' hr ih =>
    obtain ⟨rfl, rfl⟩ := Prod.mk.inj (Except.ok.inj h)
    obtain ⟨_, ⟨pieces, hpieces, rfl⟩, rfl⟩ := ih hr
    have hplain : IsPlain c := ⟨hquote, hbackslash, by simpa using hcontrol⟩
    refine ⟨_, ⟨[c] :: pieces, .cons (.plain hplain) hpieces, rfl⟩, ?_⟩
    simp

/-! ## §4. Texts that are passed over -/

theorem skipEscape_sound {s r : List Char} (h : skipEscape s = .ok r) :
    ∃ t, IsTextPiece ('\\' :: t) ∧ s = t ++ r := by
  unfold skipEscape at h
  split at h
  · contradiction
  · next rest =>
    cases hx : readHex4 rest with
    | error e =>
      rw [hx] at h
      contradiction
    | ok p =>
      rw [hx] at h
      obtain rfl : p.2 = r := Except.ok.inj h
      obtain ⟨u, hu, rfl⟩ := readHex4_sound (n := p.1) (r := p.2) hx
      exact ⟨_, .unit hu, rfl⟩
  · split at h
    · next hc =>
      obtain rfl := Except.ok.inj h
      exact ⟨_, .letter hc, rfl⟩
    · contradiction

theorem skipEscape_complete {t : List Char} (h : IsTextPiece ('\\' :: t)) (r : List Char) :
    skipEscape (t ++ r) = .ok r := by
  cases h with
  | plain h => exact absurd rfl h.2.1
  | letter h =>
    have hmark := ne_u_of_simpleEscape? h
    simp [skipEscape, h]
  | unit h => simp only [List.cons_append, skipEscape, readHex4_complete h, Except.map]

/-- Passes on over what stands behind a character. -/
theorem skipText_append {p : List Char} (h : IsTextPiece p) (s : List Char) :
    skipText (p ++ s) = skipText s := by
  have hescape : ∀ t, IsTextPiece ('\\' :: t) → skipText ('\\' :: t ++ s) = skipText s := by
    intro t ht
    have hskip := skipEscape_complete ht s
    rw [List.cons_append, skipText, if_neg (by decide), if_pos rfl]
    split
    · next he =>
      rw [hskip] at he
      contradiction
    · next he =>
      rw [hskip] at he
      rw [Except.ok.inj he]
  cases h with
  | plain h =>
    rw [List.singleton_append, skipText, if_neg h.1, if_neg h.2.1, h.2.2, if_neg (by decide)]
  | letter h => exact hescape _ (.letter h)
  | unit h => exact hescape _ (.unit h)

/-- What stands behind the opening quote of a text is passed over to its
    end. -/
theorem skipText_complete {pieces : List (List Char)}
    (h : ∀ piece ∈ pieces, IsTextPiece piece) (r : List Char) :
    skipText (pieces.flatten ++ '"' :: r) = .ok r := by
  induction pieces with
  | nil => rw [List.flatten_nil, List.nil_append, skipText, if_pos rfl]
  | cons piece pieces ih =>
    obtain ⟨hpiece, hpieces⟩ := List.forall_mem_cons.1 h
    rw [List.flatten_cons, List.append_assoc, skipText_append hpiece]
    exact ih hpieces

theorem skipText_sound {s r : List Char} (h : skipText s = .ok r) :
    ∃ t, IsText ('"' :: t) ∧ s = t ++ r := by
  -- The pieces are those of what stands before the closing quote.
  have hpieces : ∃ pieces : List (List Char), (∀ piece ∈ pieces, IsTextPiece piece) ∧
      s = pieces.flatten ++ '"' :: r := by
    fun_induction skipText s with
    | case1 | case3 | case5 => contradiction
    | case2 rest =>
      obtain rfl := Except.ok.inj h
      exact ⟨[], by simp, rfl⟩
    | case4 rest rest' he hne ih =>
      obtain ⟨piece, hpiece, rfl⟩ := skipEscape_sound he
      obtain ⟨pieces, hpieces, rfl⟩ := ih h
      refine ⟨('\\' :: piece) :: pieces, List.forall_mem_cons.2 ⟨hpiece, hpieces⟩, ?_⟩
      simp
    | case6 c rest hquote hbackslash hcontrol ih =>
      obtain ⟨pieces, hpieces, rfl⟩ := ih h
      have hplain : IsPlain c := ⟨hquote, hbackslash, by simpa using hcontrol⟩
      refine ⟨[c] :: pieces, List.forall_mem_cons.2 ⟨.plain hplain, hpieces⟩, ?_⟩
      simp
  obtain ⟨pieces, hpieces, rfl⟩ := hpieces
  exact ⟨_, ⟨pieces, hpieces, rfl⟩, by simp⟩

end IsaTable.Json
