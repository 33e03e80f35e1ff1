import IsaTable.Guarded
import IsaTable.Proofs.Declaration

/-! # Where the guards let arithmetic through

    The arithmetic of `IsaTable.Guarded` takes bytes as they are declared and has
    no result once a guard fails.  This module says what each operation needs:

    * **A single step** needs one bound: a difference needs its order, a distance
      a position in the word, a run of ones a width that the word has.
    * **An operation on a field** has a result for every field that has been
      accepted, and it is the one of `IsaTable.Field` (`Passes`, `passes_of_check`).
      Adding a field or comparing it with others has none for any other
      (`accumulate?_eq_some_iff`), so checking a field asks for what arithmetic
      needs and for nothing else.
    * **A whole instruction** gets through exactly when all its fields have been
      accepted (`compile?_eq_some_iff`), and what has been found on the way is
      what compilation warns about (`warningsAlong_eq_reported`).
-/

namespace IsaTable.Guarded

variable {d : FieldDecl} {f : Field}

/-! ## §1. Single steps -/

/-- A difference needs its order. -/
theorem difference?_eq_some_iff {larger smaller n : UInt8} :
    difference? larger smaller = some n ↔
      smaller.toNat ≤ larger.toNat ∧ n.toNat = larger.toNat - smaller.toNat := by
  rw [difference?, Option.ite_none_right_eq_some, Option.some.injEq, UInt8.le_iff_toNat_le]
  constructor
  · rintro ⟨hle, rfl⟩
    exact ⟨hle, UInt8.toNat_sub_of_le _ _ hle⟩
  · rintro ⟨hle, hn⟩
    exact ⟨hle, UInt8.toNat_inj.1 ((UInt8.toNat_sub_of_le _ _ hle).trans hn.symm)⟩

/-- A distance from the last position needs a position in the word. -/
theorem lsbShift?_eq_some_iff {stop : UInt8} {n : Nat} :
    lsbShift? stop = some n ↔ stop.toNat ≤ 31 ∧ n = Word.lsbShift stop.toNat := by
  rw [lsbShift?, Option.map_eq_some_iff]
  constructor
  · rintro ⟨k, hk, rfl⟩
    exact difference?_eq_some_iff.1 hk
  · rintro ⟨hstop, rfl⟩
    have hdistance : (31 - stop).toNat = 31 - stop.toNat :=
      UInt8.toNat_sub_of_le 31 stop (UInt8.le_iff_toNat_le.2 hstop)
    exact ⟨31 - stop, difference?_eq_some_iff.2 ⟨hstop, hdistance⟩, hdistance⟩

/-- A width needs bounds in order. -/
theorem width?_eq_some_iff {n : Nat} :
    width? d = some n ↔
      d.start.toNat ≤ d.stop.toNat ∧ n = d.stop.toNat - d.start.toNat + 1 := by
  rw [width?, Option.map_eq_some_iff]
  constructor
  · rintro ⟨k, hk, rfl⟩
    obtain ⟨hle, hk⟩ := difference?_eq_some_iff.1 hk
    exact ⟨hle, by rw [hk]⟩
  · rintro ⟨hle, rfl⟩
    have hdifference := UInt8.toNat_sub_of_le _ _ (UInt8.le_iff_toNat_le.2 hle)
    exact ⟨d.stop - d.start, difference?_eq_some_iff.2 ⟨hle, hdifference⟩, by rw [hdifference]⟩

/-- A run of ones needs a width that the word has; then the shift that cuts it
    out is by less than the size of the word. -/
theorem ones?_eq_some_iff {width : Nat} {w : Word} :
    ones? width = some w ↔ (1 ≤ width ∧ width ≤ 32) ∧ w = Word.ones width := by
  rw [ones?, Option.ite_none_right_eq_some]
  refine and_congr_right fun hwidth => ?_
  have hshift : 32 - width < 32 := by omega
  rw [shiftRight?, if_pos hshift, Option.some.injEq, eq_comm]
  rfl

/-- A shift needs an amount below the size of the word. -/
theorem shiftLeft?_eq_some_iff {w v : Word} {amount : Nat} :
    shiftLeft? w amount = some v ↔ amount < 32 ∧ v = w <<< amount := by
  rw [shiftLeft?, Option.ite_none_right_eq_some, Option.some.injEq, eq_comm (b := v)]

/-! ## §2. One field -/

/-- A mask needs both bounds: its width their order, and its distance from the
    last position the end of the word. -/
theorem mask?_eq_some_iff {w : Word} :
    mask? d = some w ↔ d.InRange ∧ w = Word.rangeMask d.start.toNat d.stop.toNat := by
  simp only [mask?, Option.bind_eq_bind, Option.bind_eq_some_iff, width?_eq_some_iff,
    ones?_eq_some_iff, lsbShift?_eq_some_iff, shiftLeft?_eq_some_iff]
  constructor
  · rintro ⟨width, ⟨hle, rfl⟩, ones, ⟨-, rfl⟩, distance, ⟨hstop, rfl⟩, -, rfl⟩
    exact ⟨⟨hle, hstop⟩, rfl⟩
  · rintro ⟨⟨hle, hstop⟩, rfl⟩
    exact ⟨_, ⟨hle, rfl⟩, _, ⟨by omega, rfl⟩, _, ⟨hstop, rfl⟩, Word.lsbShift_lt _, rfl⟩

/-- A value can be placed where its field ends in the word. -/
theorem placedValue?_eq_some_iff {w : Word} :
    placedValue? d = some w ↔
      d.stop.toNat ≤ 31 ∧ w = d.value <<< Word.lsbShift d.stop.toNat := by
  simp only [placedValue?, Option.bind_eq_bind, Option.bind_eq_some_iff, lsbShift?_eq_some_iff,
    shiftLeft?_eq_some_iff]
  constructor
  · rintro ⟨distance, ⟨hstop, rfl⟩, -, rfl⟩
    exact ⟨hstop, rfl⟩
  · rintro ⟨hstop, rfl⟩
    exact ⟨_, ⟨hstop, rfl⟩, Word.lsbShift_lt _, rfl⟩

/-- **A declared field passes as a checked one** when every operation on it has a
    result, and that of the checked field. -/
structure Passes (d : FieldDecl) (f : Field) : Prop where
  start_le_stop : d.start ≤ d.stop
  stop_le : d.stop ≤ 31
  width : width? d = some f.width
  /-- The width is one that a run of ones can have. -/
  width_bounds : 1 ≤ f.width ∧ f.width ≤ 32
  shift : lsbShift? d.stop = some f.shift
  shift_le : f.shift ≤ 31
  mask : mask? d = some f.mask
  placedValue : placedValue? d = some f.placedValue
  /-- What is counted off from the size of a word is not more than that. -/
  leadingZeros : d.value.clz.toNat ≤ 32
  valueFits : valueFits? d = some f.valueFits
  overlaps : ∀ m : Match, overlaps? m d = some (m.overlaps f)
  accumulate : ∀ m : Match, accumulate? m d = some (m.accumulate f)

/-- **Accepted fields pass.** -/
theorem passes_of_check (h : d.check = .ok f) : Passes d f := by
  obtain ⟨hle, hstop⟩ := FieldDecl.exists_check_iff.1 ⟨f, h⟩
  obtain ⟨hstart', hstop', hvalue'⟩ := FieldDecl.check_eq_ok_iff.1 h
  have hwidth : width? d = some f.width := by
    rw [width?_eq_some_iff, hstart', hstop']
    exact ⟨f.start_le_stop, rfl⟩
  have hmask : mask? d = some f.mask := by
    rw [mask?_eq_some_iff, hstart', hstop']
    exact ⟨⟨hle, hstop⟩, rfl⟩
  have hplaced : placedValue? d = some f.placedValue := by
    rw [placedValue?_eq_some_iff, hstop', hvalue']
    exact ⟨f.stop_le, rfl⟩
  exact
    { start_le_stop := UInt8.le_iff_toNat_le.2 hle
      stop_le := UInt8.le_iff_toNat_le.2 hstop
      width := hwidth
      width_bounds := ⟨f.width_pos, f.width_le⟩
      shift := by
        rw [lsbShift?_eq_some_iff, hstop']
        exact ⟨f.stop_le, rfl⟩
      shift_le := Nat.le_of_lt_succ f.shift_lt
      mask := hmask
      placedValue := hplaced
      leadingZeros := BitVec.clz_le
      valueFits := by
        simp only [valueFits?, hwidth, hvalue', Option.bind_eq_bind, Option.bind_some]
        rfl
      overlaps := by
        intro m
        simp only [overlaps?, hmask, Option.bind_eq_bind, Option.bind_some]
        rfl
      accumulate := by
        intro m
        simp only [accumulate?, hmask, hplaced, Option.bind_eq_bind, Option.bind_some]
        rfl }

/-- **No other field gets through**: adding one to a match has a result only if
    it has been accepted. -/
theorem accumulate?_eq_some_iff {m next : Match} :
    accumulate? m d = some next ↔ ∃ f, d.check = .ok f ∧ next = m.accumulate f := by
  constructor
  · intro h
    obtain ⟨w, hmask, -⟩ := Option.bind_eq_some_iff.1 h
    obtain ⟨f, hf⟩ := FieldDecl.exists_check_iff.2 (mask?_eq_some_iff.1 hmask).1
    rw [(passes_of_check hf).accumulate] at h
    exact ⟨f, hf, (Option.some.inj h).symm⟩
  · rintro ⟨f, hf, rfl⟩
    exact (passes_of_check hf).accumulate m

/-! ## §3. A whole instruction -/

/-- What is asked of each field in turn: whether its value fits, and whether it
    meets what the fields before it constrain. -/
def findingsAlong (m : Match) : List Field → List (Bool × Bool)
  | [] => []
  | f :: rest => (f.valueFits, m.overlaps f) :: findingsAlong (m.accumulate f) rest

/-- What the findings about fields give reason to warn about. -/
def reported (findings : List (Field × Bool × Bool)) : List Warning :=
  findings.flatMap fun found =>
    (if found.2.1 then [] else [.wideValue found.1]) ++
      (if found.2.2 then [.overlap found.1] else [])

/-- **What is found is what is warned about.** -/
theorem warningsAlong_eq_reported (m : Match) (fields : List Field) :
    m.warningsAlong fields = reported (fields.zip (findingsAlong m fields)) := by
  induction fields generalizing m with
  | nil => rfl
  | cons f rest ih =>
    rw [Match.warningsAlong_cons, ih]
    rfl

/-- **An instruction gets through** exactly when all its fields have been
    accepted, and comes to the match that they are compiled to. -/
theorem compile?_eq_some_iff {m : Match} {declared : List FieldDecl}
    {result : Match × List (Bool × Bool)} :
    compile? m declared = some result ↔
      ∃ fields, List.Forall₂ (fun d f => d.check = .ok f) declared fields ∧
        result = (fields.foldl Match.accumulate m, findingsAlong m fields) := by
  -- The match is carried along, so the induction is for every one of them.
  induction declared generalizing m result with
  | nil =>
    simp only [compile?, Option.some.injEq, List.forall₂_nil_left_iff, exists_eq_left]
    exact eq_comm
  | cons d rest ih =>
    simp only [List.forall₂_cons_left_iff]
    constructor
    · intro h
      simp only [compile?, Option.bind_eq_bind, Option.bind_eq_some_iff] at h
      obtain ⟨fits, hfits, meets, hmeets, next, hnext, ⟨last, findings⟩, hrest, hresult⟩ := h
      obtain ⟨f, hf, rfl⟩ := accumulate?_eq_some_iff.1 hnext
      obtain ⟨fields, hfields, hlast⟩ := ih.1 hrest
      have hpasses := passes_of_check hf
      obtain rfl : f.valueFits = fits := Option.some.inj (hpasses.valueFits.symm.trans hfits)
      obtain rfl : m.overlaps f = meets := Option.some.inj ((hpasses.overlaps m).symm.trans hmeets)
      obtain ⟨rfl, rfl⟩ := Prod.mk.inj hlast
      exact ⟨f :: fields, ⟨f, fields, hf, hfields, rfl⟩, (Option.some.inj hresult).symm⟩
    · rintro ⟨_, ⟨f, fields, hf, hfields, rfl⟩, rfl⟩
      have hpasses := passes_of_check hf
      have hrest : compile? (m.accumulate f) rest = some _ := ih.2 ⟨fields, hfields, rfl⟩
      simp only [compile?, hpasses.valueFits, hpasses.overlaps, hpasses.accumulate, hrest,
        Option.bind_eq_bind, Option.bind_some]
      rfl

/-- A reversed range stops an instruction even if it comes last. -/
example : compile? Match.empty [⟨0, 5, 31⟩, ⟨10, 6, 0⟩] = none := by decide

end IsaTable.Guarded
