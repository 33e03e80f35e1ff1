import IsaTable.Pattern.Printer
import IsaTable.Proofs.Declaration

/-! # Field tokens

    What a field token spells, said without its reader: three numerals joined
    by two commas (`Spells`).  A token is read as a field exactly when it
    spells the three numbers of that field (`Field.ofToken_eq_ok_iff`), and no
    token spells two different fields.  The token that is written for a field
    is read back as that field, or refused for its range
    (`Field.ofToken_token`).
-/

namespace IsaTable

open Text

/-! ## §1. Numerals -/

/-- A numeral of `n`: a run of ASCII digits, not empty, with any number of
    leading zeros. -/
structure Text.IsNumeral (digits : List Char) (n : Nat) : Prop where
  /-- There is a digit. -/
  ne_nil : digits ≠ []
  /-- There is nothing else. -/
  isDigit : ∀ c ∈ digits, c.isDigit = true
  /-- Its decimal value. -/
  value : Nat.ofDigitChars 10 digits 0 = n

theorem Text.readDecimal?_eq_some_iff {digits : List Char} {n : Nat} :
    readDecimal? digits = some n ↔ IsNumeral digits n := by
  constructor
  · intro h
    rw [readDecimal?, Option.ite_none_right_eq_some] at h
    obtain ⟨hdigits, hvalue⟩ := h
    simp only [Bool.and_eq_true, Bool.not_eq_true', List.isEmpty_eq_false_iff,
      List.all_eq_true] at hdigits
    exact ⟨hdigits.1, hdigits.2, Option.some.inj hvalue⟩
  · rintro ⟨hne, hdigits, rfl⟩
    have hall : digits.all Char.isDigit = true := List.all_eq_true.2 hdigits
    simp [readDecimal?, hne, hall]

theorem Text.readDecimalBelow?_eq_some_iff {bound n : Nat} {digits : List Char} :
    readDecimalBelow? bound digits = some n ↔ IsNumeral digits n ∧ n < bound := by
  rw [readDecimalBelow?, Option.filter_eq_some_iff, readDecimal?_eq_some_iff, decide_eq_true_eq]

theorem Text.isNumeral_decimalDigits (n : Nat) : IsNumeral (decimalDigits n) n :=
  readDecimal?_eq_some_iff.1 (readDecimal?_decimalDigits n)

/-- A numeral holds no comma. -/
theorem Text.IsNumeral.comma_not_mem {digits : List Char} {n : Nat} (h : IsNumeral digits n) :
    ',' ∉ digits :=
  fun hmem => absurd (h.isDigit ',' hmem) (by decide)

/-- A numeral holds no blank. -/
theorem Text.IsNumeral.not_blank {digits : List Char} {n : Nat} (h : IsNumeral digits n) :
    ∀ c ∈ digits, isBlank c = false := by
  intro c hc
  have hdigit := h.isDigit c hc
  simp only [Char.isDigit, Bool.and_eq_true, decide_eq_true_eq] at hdigit
  have hlow : 48 ≤ c.toNat := hdigit.1
  have hhigh : c.toNat ≤ 57 := hdigit.2
  -- No range of blanks reaches into the digits.
  simp only [isBlank, blankRanges, List.any_cons, List.any_nil, Bool.or_false,
    Bool.or_eq_false_iff, decide_eq_false_iff_not]
  omega

/-! ## §2. Tokens as three numerals -/

/-- The token is three numerals, of `start`, `stop` and `value`, joined by
    commas. -/
def Spells (token : List Char) (start stop value : Nat) : Prop :=
  ∃ a b c, token = a ++ ',' :: (b ++ ',' :: c) ∧
    IsNumeral a start ∧ IsNumeral b stop ∧ IsNumeral c value

/-- The pieces between commas of three joined numerals. -/
theorem splitOn_comma {a b c : List Char} {start stop value : Nat} (ha : IsNumeral a start)
    (hb : IsNumeral b stop) (hc : IsNumeral c value) :
    (a ++ ',' :: (b ++ ',' :: c)).splitOn ',' = [a, b, c] := by
  rw [List.splitOn_append_cons_self_of_not_mem ha.comma_not_mem,
    List.splitOn_append_cons_self_of_not_mem hb.comma_not_mem,
    List.splitOn_eq_singleton hc.comma_not_mem]

/-- A token spells at most one triple of numbers. -/
theorem Spells.unique {token : List Char} {start stop value start' stop' value' : Nat}
    (h : Spells token start stop value) (h' : Spells token start' stop' value') :
    start = start' ∧ stop = stop' ∧ value = value' := by
  obtain ⟨a, b, c, rfl, ha, hb, hc⟩ := h
  obtain ⟨a', b', c', hjoin, ha', hb', hc'⟩ := h'
  have hsplit : [a, b, c] = [a', b', c'] := by
    rw [← splitOn_comma ha hb hc, hjoin, splitOn_comma ha' hb' hc']
  simp only [List.cons.injEq, and_true] at hsplit
  obtain ⟨rfl, rfl, rfl⟩ := hsplit
  exact ⟨ha.value.symm.trans ha'.value, hb.value.symm.trans hb'.value,
    hc.value.symm.trans hc'.value⟩

/-- A token denotes a declared field exactly when it spells its numbers. -/
theorem FieldDecl.ofToken?_eq_some_iff {token : List Char} {d : FieldDecl} :
    FieldDecl.ofToken? token = some d ↔
      Spells token d.start.toNat d.stop.toNat d.value.toNat := by
  constructor
  · intro h
    unfold FieldDecl.ofToken? at h
    split at h
    · next a b c hsplit =>
      simp only [Option.bind_eq_bind, Option.bind_eq_some_iff, Option.pure_def,
        Option.some.injEq, readDecimalBelow?_eq_some_iff] at h
      obtain ⟨start, ⟨ha, hstart⟩, stop, ⟨hb, hstop⟩, value, ⟨hc, hvalue⟩, rfl⟩ := h
      -- The token is its three pieces joined again.
      have hjoin : [','].intercalate (token.splitOn ',') = token := List.intercalate_splitOn ','
      rw [hsplit] at hjoin
      -- None of the three numbers is cut off when it is stored.
      have hstart' : (UInt8.ofNat start).toNat = start := UInt8.toNat_ofNat_of_lt' hstart
      have hstop' : (UInt8.ofNat stop).toNat = stop := UInt8.toNat_ofNat_of_lt' hstop
      have hvalue' : (BitVec.ofNat 32 value).toNat = value := by
        rw [BitVec.toNat_ofNat, Nat.mod_eq_of_lt hvalue]
      show Spells token (UInt8.ofNat start).toNat (UInt8.ofNat stop).toNat
        (BitVec.ofNat 32 value).toNat
      rw [hstart', hstop', hvalue']
      exact ⟨a, b, c, by simpa using hjoin.symm, ha, hb, hc⟩
    · exact nomatch h
  · rintro ⟨a, b, c, rfl, ha, hb, hc⟩
    have hstart := readDecimalBelow?_eq_some_iff.2 ⟨ha, d.start.toNat_lt⟩
    have hstop := readDecimalBelow?_eq_some_iff.2 ⟨hb, d.stop.toNat_lt⟩
    have hvalue := readDecimalBelow?_eq_some_iff.2 ⟨hc, d.value.isLt⟩
    simp only [FieldDecl.ofToken?, splitOn_comma ha hb hc, hstart, hstop, hvalue,
      Option.bind_eq_bind, Option.bind_some, Option.pure_def, UInt8.ofNat_toNat,
      BitVec.ofNat_toNat, BitVec.setWidth_eq]

/-! ## §3. Tokens as fields -/

/-- **Tokens as fields.**  A token is read as a field exactly when it spells
    the numbers of that field. -/
theorem Field.ofToken_eq_ok_iff {token : List Char} {f : Field} :
    Field.ofToken token = .ok f ↔ Spells token f.start f.stop f.value.toNat := by
  constructor
  · intro h
    unfold Field.ofToken at h
    split at h
    · exact nomatch h
    · next d hd =>
      cases hcheck : d.check with
      | error e =>
        rw [hcheck] at h
        exact nomatch h
      | ok g =>
        rw [hcheck] at h
        obtain rfl : g = f := Except.ok.inj h
        obtain ⟨hstart, hstop, hvalue⟩ := FieldDecl.check_eq_ok_iff.1 hcheck
        rw [← hstart, ← hstop, ← hvalue]
        exact FieldDecl.ofToken?_eq_some_iff.1 hd
  · intro h
    have hdecl : FieldDecl.ofToken? token = some f.toDecl := by
      rw [FieldDecl.ofToken?_eq_some_iff]
      obtain ⟨hstart, hstop, hvalue⟩ := FieldDecl.check_eq_ok_iff.1 f.check_toDecl
      rw [hstart, hstop, hvalue]
      exact h
    rw [Field.ofToken, hdecl]
    simp only [Field.check_toDecl]
    rfl

/-! ## §4. Written tokens -/

theorem FieldDecl.spells_token (d : FieldDecl) :
    Spells d.token d.start.toNat d.stop.toNat d.value.toNat :=
  ⟨_, _, _, by simp [FieldDecl.token], isNumeral_decimalDigits _, isNumeral_decimalDigits _,
    isNumeral_decimalDigits _⟩

/-- A written token holds no blank. -/
theorem FieldDecl.not_blank_token (d : FieldDecl) : ∀ c ∈ d.token, isBlank c = false := by
  intro c hc
  simp only [FieldDecl.token, List.mem_append, List.mem_cons] at hc
  rcases hc with (hc | rfl | hc) | rfl | hc
  · exact (isNumeral_decimalDigits _).not_blank c hc
  · exact isBlank_comma
  · exact (isNumeral_decimalDigits _).not_blank c hc
  · exact isBlank_comma
  · exact (isNumeral_decimalDigits _).not_blank c hc

/-- A written token is read as the field it was written for, or refused as
    that field is. -/
theorem Field.ofToken_token (d : FieldDecl) :
    Field.ofToken d.token = d.check.mapError .compile := by
  rw [Field.ofToken, FieldDecl.ofToken?_eq_some_iff.2 d.spells_token]

end IsaTable
