import IsaTable.Match.Accumulator
import IsaTable.Proofs.Declaration
import IsaTable.Proofs.Match.Meaning

/-! # Narrowing a match step by step

    A run of an accumulator, step after step, from any match that is
    consistent:

    * **A step** leaves the match alone, empties it, or adds a field
      (`Match.perform_cases`); fields that fit keep it consistent.
    * **A run** is consistent throughout (`Match.isConsistent_performAll`), so
      at each of its steps a field that meets nothing narrows the accepted
      words to those on which it holds (`Match.performAll_narrows`).

    Neither hypothesis can be spared.  An inconsistent match accepts nothing,
    and a further field may cover the bit that was in the way; and a field that
    meets an earlier one may replace what was demanded.
-/

namespace IsaTable.Match

/-! ## §1. One step -/

/-- Whether the value that a step adds, if it adds any, can be written in as
    many bits as there are positions for it. -/
def Step.Fits : Step → Prop
  | .accumulate d => d.InRange → d.value.toNat < 2 ^ (d.stop.toNat - d.start.toNat + 1)
  | _ => True

instance (step : Step) : Decidable step.Fits :=
  match step with
  | .accumulate d =>
    inferInstanceAs
      (Decidable (d.InRange → d.value.toNat < 2 ^ (d.stop.toNat - d.start.toNat + 1)))
  | .overlaps _ | .accepts _ | .isConsistent | .reset => .isTrue trivial

/-- Whether a step names a field whose bounds are in order and in the word, if
    it names any. -/
def Step.WellRanged : Step → Prop
  | .accumulate d | .overlaps d => d.InRange
  | _ => True

/-- A field that a fitting step adds has a value that fits. -/
theorem Step.Fits.valueFits {d : FieldDecl} {f : Field} (h : (Step.accumulate d).Fits)
    (hd : d.check = .ok f) : f.valueFits = true := by
  have hlt := h (FieldDecl.exists_check_iff.1 ⟨f, hd⟩)
  obtain ⟨hstart, hstop, hvalue⟩ := FieldDecl.check_eq_ok_iff.1 hd
  rw [hstart, hstop, hvalue] at hlt
  exact f.valueFits_iff.2 hlt

/-- **What a step does to the match**: nothing, unless it starts again or adds
    a field that has been accepted. -/
theorem perform_cases (m : Match) (step : Step) :
    (m.perform step).1 = m ∨
      (step = .reset ∧ (m.perform step).1 = empty) ∨
      ∃ d f, step = .accumulate d ∧ d.check = .ok f ∧ (m.perform step).1 = m.accumulate f := by
  cases step with
  | accumulate d =>
    cases hd : d.check with
    | ok f => exact .inr (.inr ⟨d, f, rfl, hd, by rw [perform_accumulate_of_ok hd]⟩)
    | error e => exact .inl (by rw [perform_accumulate_of_error hd])
  | overlaps d => cases hd : d.check <;> exact .inl (by simp [perform, hd])
  | accepts w => exact .inl rfl
  | isConsistent => exact .inl rfl
  | reset => exact .inr (.inl ⟨rfl, rfl⟩)

/-- A field with a bad range is answered by its error. -/
theorem perform_of_not_wellRanged {m : Match} {step : Step} (h : ¬ step.WellRanged) :
    ∃ d, (step = .accumulate d ∨ step = .overlaps d) ∧
      m.perform step = (m, .refused (.invalidRange d.start d.stop)) := by
  cases step with
  | accumulate d =>
    have hd := FieldDecl.check_of_not_inRange h
    exact ⟨d, .inl rfl, perform_accumulate_of_error hd⟩
  | overlaps d =>
    have hd := FieldDecl.check_of_not_inRange h
    exact ⟨d, .inr rfl, by simp [perform, hd]⟩
  | accepts w => exact absurd trivial h
  | isConsistent => exact absurd trivial h
  | reset => exact absurd trivial h

/-- **One step** that fits keeps a match consistent. -/
theorem isConsistent_perform {m : Match} {step : Step} (hm : m.isConsistent = true)
    (hfits : step.Fits) : (m.perform step).1.isConsistent = true := by
  obtain hsame | ⟨-, hempty⟩ | ⟨d, f, rfl, hd, hadd⟩ := m.perform_cases step
  · rw [hsame]
    exact hm
  · rw [hempty]
    exact isConsistent_empty
  · rw [hadd]
    exact isConsistent_accumulate hm (hfits.valueFits hd)

/-! ## §2. Runs -/

/-- The last match of a run is that of its second part, begun where its first
    part ended. -/
theorem fst_performAll_append (m : Match) (before after : List Step) :
    (m.performAll (before ++ after)).1 = ((m.performAll before).1.performAll after).1 := by
  induction before generalizing m with
  | nil => rfl
  | cons step rest ih => exact ih (m.perform step).1

/-- The replies of a run are those of its first part, then those of its second
    part. -/
theorem snd_performAll_append (m : Match) (before after : List Step) :
    (m.performAll (before ++ after)).2 =
      (m.performAll before).2 ++ ((m.performAll before).1.performAll after).2 := by
  induction before generalizing m with
  | nil => rfl
  | cons step rest ih => exact congrArg (_ :: ·) (ih (m.perform step).1)

theorem length_snd_performAll (m : Match) (steps : List Step) :
    (m.performAll steps).2.length = steps.length := by
  induction steps generalizing m with
  | nil => rfl
  | cons step rest ih => exact congrArg (· + 1) (ih (m.perform step).1)

/-- A run is consistent to its end. -/
theorem isConsistent_performAll {m : Match} {steps : List Step} (hm : m.isConsistent = true)
    (hfits : ∀ step ∈ steps, step.Fits) : (m.performAll steps).1.isConsistent = true := by
  induction steps generalizing m with
  | nil => exact hm
  | cons step rest ih =>
    have hstep := isConsistent_perform hm (hfits step List.mem_cons_self)
    exact ih hstep fun s hs => hfits s (List.mem_cons_of_mem step hs)

/-- **Stepwise narrowing.**  Let a run from a consistent match add only values
    that fit.  Then the match is consistent after each step.  A step that adds
    a field narrows the accepted words to those on which the field holds,
    provided that the field did not overlap just before.  A field whose range
    is bad is refused; and nothing changes unless a field is added or the match
    is emptied. -/
theorem performAll_narrows {m : Match} {steps : List Step} (hm : m.isConsistent = true)
    (hfits : ∀ step ∈ steps, step.Fits) {before after : List Step} {step : Step}
    (hsteps : steps = before ++ step :: after) :
    let earlier := (m.performAll before).1
    let later := (m.performAll (before ++ [step])).1
    earlier.isConsistent = true ∧ later.isConsistent = true ∧
      (∀ d, step = .accumulate d → d.InRange → ∃ f, d.check = .ok f ∧
        later = earlier.accumulate f ∧
        (earlier.overlaps f = false →
          ∀ w, later.accepts w = true ↔ earlier.accepts w = true ∧ f.Holds w)) ∧
      (¬ step.WellRanged → later = earlier ∧
        ∃ d, (step = .accumulate d ∨ step = .overlaps d) ∧
          (m.performAll steps).2[before.length]? =
            some (.refused (.invalidRange d.start d.stop))) ∧
      ((∀ d, step ≠ .accumulate d) → step ≠ .reset → later = earlier) := by
  intro earlier later
  have hbefore : ∀ s ∈ before, s.Fits := fun s hs => hfits s (by simp [hsteps, hs])
  have hstep : step.Fits := hfits step (by simp [hsteps])
  have hearlier : earlier.isConsistent = true := isConsistent_performAll hm hbefore
  have hlater : later = (earlier.perform step).1 := fst_performAll_append m before [step]
  have hreply : (m.performAll steps).2[before.length]? = some (earlier.perform step).2 := by
    rw [hsteps, snd_performAll_append, ← length_snd_performAll m before,
      List.getElem?_append_right le_rfl, Nat.sub_self]
    rfl
  refine ⟨hearlier, ?_, ?_, ?_, ?_⟩
  · rw [hlater]
    exact isConsistent_perform hearlier hstep
  · intro d hd hrange
    obtain ⟨f, hf⟩ := FieldDecl.exists_check_iff.2 hrange
    have hadd : later = earlier.accumulate f := by
      rw [hlater, hd, perform_accumulate_of_ok hf]
    have hfield : f.valueFits = true := (hd ▸ hstep).valueFits hf
    refine ⟨f, hf, hadd, ?_⟩
    intro hfree w
    rw [hadd]
    exact accepts_accumulate_iff hearlier hfield hfree w
  · intro hbad
    obtain ⟨d, hd, hrefused⟩ := perform_of_not_wellRanged (m := earlier) hbad
    refine ⟨by rw [hlater, hrefused], d, hd, ?_⟩
    rw [hreply, hrefused]
  · intro hadds hresets
    rw [hlater]
    obtain hsame | ⟨hreset, -⟩ | ⟨d, -, hd, -⟩ := earlier.perform_cases step
    · exact hsame
    · exact absurd hreset hresets
    · exact absurd hd (hadds d)

/-- The first of two fields is refused and the other is added; the bits that
    the match started with stay demanded. -/
theorem performAll_narrows_refusal :
    let m : Match := ⟨0x000000ff#32, 0x00000001#32⟩
    let f : Field := ⟨0, 7, 0xff#32, by decide, by decide⟩
    let before : List Step := [.accumulate ⟨10, 6, 0#32⟩, .overlaps ⟨24, 31, 0#32⟩]
    let steps : List Step := before ++ [.accumulate ⟨0, 7, 0xff#32⟩, .reset]
    m.isConsistent = true ∧ (∀ step ∈ steps, step.Fits) ∧
      ∀ w, (Match.mk 0xff0000ff#32 0xff000001#32).accepts w = true ↔
        m.accepts w = true ∧ f.Holds w := by
  intro m f before steps
  have hm : m.isConsistent = true := by decide
  have hfits : ∀ step ∈ steps, step.Fits := by decide
  have hsteps : steps = before ++ .accumulate f.toDecl :: [.reset] := rfl
  have hearlier : (m.performAll before).1 = m := by decide
  have hlater : (m.performAll (before ++ [.accumulate f.toDecl])).1 =
      ⟨0xff0000ff#32, 0xff000001#32⟩ := by decide
  obtain ⟨-, -, hadds, -⟩ := performAll_narrows hm hfits hsteps
  obtain ⟨g, hg, -, hnarrows⟩ := hadds f.toDecl rfl (by decide)
  obtain rfl : f = g := Except.ok.inj (f.check_toDecl.symm.trans hg)
  rw [hearlier, hlater] at hnarrows
  exact ⟨hm, hfits, hnarrows (by decide)⟩

/-- From an inconsistent match, which accepts nothing, a field that fits and
    meets nothing leads to one that accepts a word. -/
example :
    let m : Match := ⟨0x00000000#32, 0x00000001#32⟩
    let f : Field := ⟨31, 31, 1#32, by decide, by decide⟩
    m.overlaps f = false ∧ m.accepts 1 = false ∧ (m.accumulate f).accepts 1 = true := by
  decide

/-- A field that meets an earlier one replaces what was demanded. -/
example :
    let m : Match := ⟨0x00000001#32, 0x00000000#32⟩
    let f : Field := ⟨31, 31, 1#32, by decide, by decide⟩
    m.isConsistent = true ∧ m.accepts 1 = false ∧ (m.accumulate f).accepts 1 = true := by
  decide

end IsaTable.Match
