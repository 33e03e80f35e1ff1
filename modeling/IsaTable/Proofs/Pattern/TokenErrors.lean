import IsaTable.Proofs.Pattern.Tokens
import IsaTable.Proofs.Text.Numeral

/-! # Which tokens are refused, and why

    A token is refused for one of two reasons, and the shape is looked at before
    the range:

    1. It is **malformed** when it does not spell three numbers that fit where
       they have to go (`FieldDecl.ofToken?_eq_none_iff`).
    2. Its **range is invalid** when the bounds that it spells are out of order
       or leave the word.

    Every other token is read as the field that it spells
    (`Field.ofToken_classifies`).  The numbers are those that the digits denote,
    however many there are: a reader that keeps its accumulator below the bound
    at every digit reads the same ones (`Text.readDecimalBelow?_eq_accumulate`).
-/

namespace IsaTable

open Text

/-! ## §1. Numerals in a bounded accumulator -/

/-- Reads digits into an accumulator that has to stay below `bound`, and gives
    up at the first that would take it there, or that is none. -/
def Text.accumulateBelow? (bound : Nat) : Nat → List Char → Option Nat
  | value, [] => some value
  | value, c :: rest =>
    let next := 10 * value + (c.toNat - '0'.toNat)
    if c.isDigit = true ∧ next < bound then accumulateBelow? bound next rest else none

/-- The accumulator reads what the digits denote, if that is below the bound. -/
theorem Text.accumulateBelow?_eq_some_iff {bound value n : Nat} {digits : List Char}
    (h : value < bound) :
    accumulateBelow? bound value digits = some n ↔
      (∀ c ∈ digits, c.isDigit = true) ∧ Nat.ofDigitChars 10 digits value = n ∧ n < bound := by
  induction digits generalizing value with
  | nil =>
    rw [accumulateBelow?, Option.some.injEq, Nat.ofDigitChars_nil]
    constructor
    · intro hn
      rw [← hn]
      exact ⟨nofun, rfl, h⟩
    · intro hn
      exact hn.2.1
  | cons c rest ih =>
    rw [accumulateBelow?, Option.ite_none_right_eq_some, List.forall_mem_cons,
      Nat.ofDigitChars_cons]
    constructor
    · intro hread
      obtain ⟨⟨hdigit, hnext⟩, hrest⟩ := hread
      obtain ⟨hdigits, hn⟩ := (ih hnext).1 hrest
      exact ⟨⟨hdigit, hdigits⟩, hn⟩
    · intro hdenotes
      obtain ⟨⟨hdigit, hdigits⟩, hn⟩ := hdenotes
      -- Had the bound been reached here, the whole number would not be below it.
      have hnext : 10 * value + (c.toNat - '0'.toNat) < bound := by
        calc 10 * value + (c.toNat - '0'.toNat)
            ≤ Nat.ofDigitChars 10 rest (10 * value + (c.toNat - '0'.toNat)) :=
              le_ofDigitChars (by decide) rest _
          _ = n := hn.1
          _ < bound := hn.2
      exact ⟨⟨hdigit, hnext⟩, (ih hnext).2 ⟨hdigits, hn⟩⟩

/-- **No numeral wraps.**  A numeral below a bound can be read in an accumulator
    that never reaches it. -/
theorem Text.readDecimalBelow?_eq_accumulate {bound : Nat} {digits : List Char} (hbound : 0 < bound)
    (hne : digits ≠ []) : readDecimalBelow? bound digits = accumulateBelow? bound 0 digits := by
  apply Option.ext
  intro n
  rw [readDecimalBelow?_eq_some_iff, accumulateBelow?_eq_some_iff hbound]
  constructor
  · intro h
    obtain ⟨hnumeral, hn⟩ := h
    exact ⟨hnumeral.isDigit, hnumeral.value, hn⟩
  · intro h
    obtain ⟨hdigits, hvalue, hn⟩ := h
    exact ⟨⟨hne, hdigits, hvalue⟩, hn⟩

/-! ## §2. Malformed tokens -/

/-- Numbers that fit are those of some declared field. -/
theorem FieldDecl.exists_of_spells {token : List Char} {a b c : Nat} (h : Spells token a b c)
    (ha : a ≤ 255) (hb : b ≤ 255) (hc : c ≤ 4294967295) :
    ∃ d : FieldDecl, FieldDecl.ofToken? token = some d ∧
      d.start.toNat = a ∧ d.stop.toNat = b ∧ d.value.toNat = c := by
  have hstart : (UInt8.ofNat a).toNat = a := UInt8.toNat_ofNat_of_lt' (Nat.lt_succ_of_le ha)
  have hstop : (UInt8.ofNat b).toNat = b := UInt8.toNat_ofNat_of_lt' (Nat.lt_succ_of_le hb)
  have hvalue : (BitVec.ofNat 32 c).toNat = c := by
    rw [BitVec.toNat_ofNat, Nat.mod_eq_of_lt (Nat.lt_succ_of_le hc)]
  refine ⟨⟨UInt8.ofNat a, UInt8.ofNat b, BitVec.ofNat 32 c⟩, ?_, hstart, hstop, hvalue⟩
  rw [FieldDecl.ofToken?_eq_some_iff]
  simp only [hstart, hstop, hvalue]
  exact h

/-- A token denotes no declared field exactly when it does not spell three
    numbers that fit. -/
theorem FieldDecl.ofToken?_eq_none_iff {token : List Char} :
    FieldDecl.ofToken? token = none ↔
      ¬ ∃ a b c, Spells token a b c ∧ a ≤ 255 ∧ b ≤ 255 ∧ c ≤ 4294967295 := by
  rw [Option.eq_none_iff_forall_ne_some]
  constructor
  · intro h hfits
    obtain ⟨a, b, c, hspells, ha, hb, hc⟩ := hfits
    obtain ⟨d, hd, -⟩ := FieldDecl.exists_of_spells hspells ha hb hc
    exact h d hd
  · intro h d hd
    exact h ⟨_, _, _, FieldDecl.ofToken?_eq_some_iff.1 hd, Nat.le_of_lt_succ d.start.toNat_lt,
      Nat.le_of_lt_succ d.stop.toNat_lt, Nat.le_of_lt_succ d.value.isLt⟩

/-! ## §3. Every token -/

namespace Field

variable {token : List Char}

theorem ofToken_of_some {d : FieldDecl} (h : FieldDecl.ofToken? token = some d) :
    ofToken token = d.check.mapError .compile := by
  rw [ofToken, h]

/-- What comes of a token: it is malformed, or it denotes a declared field, and
    that is checked. -/
theorem ofToken_cases (token : List Char) :
    (FieldDecl.ofToken? token = none ∧
      ofToken token = .error (.malformedField (String.ofList token))) ∨
    (∃ f, ofToken token = .ok f) ∨
    ∃ d, FieldDecl.ofToken? token = some d ∧ ¬ d.InRange ∧
      ofToken token = .error (.compile (.invalidRange d.start d.stop)) := by
  cases hd : FieldDecl.ofToken? token with
  | none =>
    refine .inl ⟨rfl, ?_⟩
    rw [ofToken, hd]
  | some d =>
    by_cases hrange : d.InRange
    · obtain ⟨f, hf⟩ := FieldDecl.exists_check_iff.2 hrange
      refine .inr (.inl ⟨f, ?_⟩)
      rw [ofToken_of_some hd, hf]
      rfl
    · refine .inr (.inr ⟨d, rfl, hrange, ?_⟩)
      rw [ofToken_of_some hd, FieldDecl.check_of_not_inRange hrange]
      rfl

/-- A token that spells bounds out of order, or beyond the word, with a value
    that fits is refused for its range. -/
theorem ofToken_of_badRange {a b : UInt8} {c : Nat} (hspells : Spells token a.toNat b.toNat c)
    (hc : c ≤ 4294967295) (hrange : ¬ (a.toNat ≤ b.toNat ∧ b.toNat ≤ 31)) :
    ofToken token = .error (.compile (.invalidRange a b)) := by
  obtain ⟨d, hd, hstart, hstop, -⟩ := FieldDecl.exists_of_spells hspells
    (Nat.le_of_lt_succ a.toNat_lt) (Nat.le_of_lt_succ b.toNat_lt) hc
  obtain rfl := UInt8.toNat_inj.1 hstart
  obtain rfl := UInt8.toNat_inj.1 hstop
  rw [ofToken_of_some hd, FieldDecl.check_of_not_inRange hrange]
  rfl

/-- **The two reasons** to refuse a token, and there is no other. -/
theorem ofToken_eq_error_iff {e : PatternError} :
    ofToken token = .error e ↔
      (∃ (a b : UInt8) (c : Nat), e = .compile (.invalidRange a b) ∧
        Spells token a.toNat b.toNat c ∧ c ≤ 4294967295 ∧
          ¬ (a.toNat ≤ b.toNat ∧ b.toNat ≤ 31)) ∨
      (e = .malformedField (String.ofList token) ∧
        ¬ ∃ a b c, Spells token a b c ∧ a ≤ 255 ∧ b ≤ 255 ∧ c ≤ 4294967295) := by
  constructor
  · intro h
    rcases ofToken_cases token with ⟨hnone, hmalformed⟩ | ⟨f, hf⟩ | ⟨d, hd, hrange, hinvalid⟩
    · rw [hmalformed] at h
      exact .inr ⟨(Except.error.inj h).symm, FieldDecl.ofToken?_eq_none_iff.1 hnone⟩
    · rw [hf] at h
      exact nomatch h
    · rw [hinvalid] at h
      exact .inl ⟨d.start, d.stop, d.value.toNat, (Except.error.inj h).symm,
        FieldDecl.ofToken?_eq_some_iff.1 hd, Nat.le_of_lt_succ d.value.isLt, hrange⟩
  · intro h
    rcases h with ⟨a, b, c, rfl, hspells, hc, hrange⟩ | ⟨rfl, hunfit⟩
    · exact ofToken_of_badRange hspells hc hrange
    · rw [ofToken, FieldDecl.ofToken?_eq_none_iff.2 hunfit]

/-- A token is read as a field exactly when it spells numbers of which the
    bounds are in order and in the word, and the value fits. -/
theorem exists_ofToken_iff {a b c : Nat} :
    (∃ f : Field, ofToken token = .ok f ∧ f.start = a ∧ f.stop = b ∧ f.value.toNat = c) ↔
      Spells token a b c ∧ a ≤ b ∧ b ≤ 31 ∧ c ≤ 4294967295 := by
  constructor
  · intro h
    obtain ⟨f, hf, rfl, rfl, rfl⟩ := h
    exact ⟨ofToken_eq_ok_iff.1 hf, f.start_le_stop, f.stop_le, Nat.le_of_lt_succ f.value.isLt⟩
  · intro h
    obtain ⟨hspells, hab, hb, hc⟩ := h
    obtain ⟨d, hd, rfl, rfl, rfl⟩ :=
      FieldDecl.exists_of_spells hspells (by omega) (by omega) hc
    obtain ⟨f, hf⟩ := FieldDecl.exists_check_iff.2 ⟨hab, hb⟩
    obtain ⟨hstart, hstop, hvalue⟩ := FieldDecl.check_eq_ok_iff.1 hf
    refine ⟨f, ?_, hstart.symm, hstop.symm, congrArg BitVec.toNat hvalue.symm⟩
    rw [ofToken_of_some hd, hf]
    rfl

/-- **Every token is classified.**  It is read as the field with the numbers
    that it spells, if they make one; it is refused for its range if they fit
    where they have to go and yet make none; and any other token is malformed,
    and named as it stands.  No number wraps, however long its numeral: it can
    be read digit by digit without ever reaching the bound. -/
theorem ofToken_classifies (token : String) :
    (∀ a b c : Nat,
      (∃ f : Field, ofToken token.toList = .ok f ∧
        f.start = a ∧ f.stop = b ∧ f.value.toNat = c) ↔
        Spells token.toList a b c ∧ a ≤ b ∧ b ≤ 31 ∧ c ≤ 4294967295) ∧
    (∀ e, ofToken token.toList = .error e ↔
      (∃ (a b : UInt8) (c : Nat), e = .compile (.invalidRange a b) ∧
        Spells token.toList a.toNat b.toNat c ∧ c ≤ 4294967295 ∧
          ¬ (a.toNat ≤ b.toNat ∧ b.toNat ≤ 31)) ∨
      (e = .malformedField token ∧
        ¬ ∃ a b c, Spells token.toList a b c ∧ a ≤ 255 ∧ b ≤ 255 ∧ c ≤ 4294967295)) ∧
    ∀ bound digits, 0 < bound → digits ≠ [] →
      readDecimalBelow? bound digits = accumulateBelow? bound 0 digits := by
  refine ⟨fun a b c => exists_ofToken_iff, ?_,
    fun bound digits hbound hne => readDecimalBelow?_eq_accumulate hbound hne⟩
  intro e
  rw [ofToken_eq_error_iff, String.ofList_toList]

/-- A token that is wrong in both ways is malformed: the range is not looked at
    before the last numeral. -/
example : ofToken "10,6,4294967296".toList = .error (.malformedField "10,6,4294967296") := by
  decide

end Field

end IsaTable
