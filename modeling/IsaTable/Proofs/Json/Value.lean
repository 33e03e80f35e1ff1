import IsaTable.Proofs.Json.Number
import IsaTable.Proofs.Json.Text

/-! # Passing over values

    A value that nobody looks at is passed over by a machine that keeps the
    open brackets in a list.  It passes over exactly the well-formed values
    (`skipValue_sound`, `skipValue_complete`).

    **Completeness** goes by the grammar: each production moves the machine from
    the state in which it is due to the state behind it (`Production.IsSkipped`).
    **Soundness** goes by the machine: in every state it has passed over what
    that state and the open brackets still asked for (`Closes`, `Finishes`).
-/

namespace IsaTable.Json

/-! ## §1. Blanks -/

theorem Blanks.nil : Blanks [] := by
  intro c hc
  contradiction

theorem skipBlank_append {b : List Char} (h : Blanks b) (s : List Char) :
    skipBlank (b ++ s) = skipBlank s :=
  List.dropWhile_append_of_pos h

theorem skipBlank_append_cons {b : List Char} {c : Char} (h : Blanks b)
    (hc : isBlank c = false) (s : List Char) : skipBlank (b ++ c :: s) = c :: s := by
  rw [skipBlank_append h, skipBlank_cons_of_not_blank hc]

/-- Where a bracket or a quote opens behind blanks, what it encloses comes
    next. -/
theorem skipBlank_enclosed {first : Char} (hfirst : isBlank first = false) (last : Char)
    {b : List Char} (h : Blanks b) (inner r : List Char) :
    skipBlank (b ++ first :: (inner ++ [last]) ++ r) = first :: (inner ++ last :: r) := by
  rw [List.append_assoc, List.cons_append, skipBlank_append_cons h hfirst, List.append_assoc,
    List.singleton_append]

theorem skipBlank_eq_nil_iff {s : List Char} : skipBlank s = [] ↔ Blanks s :=
  List.dropWhile_eq_nil_iff

/-- What skipping blanks leaves stands behind blanks. -/
theorem exists_blanks {s rest : List Char} {c : Char} (h : skipBlank s = c :: rest) :
    ∃ b, Blanks b ∧ s = b ++ c :: rest := by
  refine ⟨s.takeWhile isBlank, ?_, ?_⟩
  · intro d hd
    exact List.mem_takeWhile_imp hd
  · rw [← h]
    exact List.takeWhile_append_dropWhile.symm

theorem delimited_cons {c : Char} (h : IsDelimiter c) (s : List Char) : Delimited (c :: s) := by
  intro d hd
  obtain rfl : c = d := Option.some.inj hd
  exact h

/-- Blanks delimit, and so does what delimits behind them. -/
theorem Delimited.append {b s : List Char} (hs : Delimited s) (hb : Blanks b) :
    Delimited (b ++ s) := by
  cases b with
  | nil => exact hs
  | cons c b => exact delimited_cons (.inl (hb c List.mem_cons_self)) _

/-- What follows an item, up to a closing bracket, delimits it. -/
theorem Lead.delimited {lead : List Char} (h : Lead false lead) (s : List Char) :
    Delimited (lead ++ s) := by
  cases h with
  | comma hb _ =>
    rw [List.append_assoc]
    exact (delimited_cons (.inr (.inl rfl)) _).append hb

namespace Bracket

theorem isDelimiter_closing (k : Bracket) : IsDelimiter k.closing := by
  cases k with
  | list => exact .inr (.inr (.inl rfl))
  | object => exact .inr (.inr (.inr rfl))

theorem not_blank_closing (k : Bracket) : isBlank k.closing = false := by
  cases k <;> decide

theorem closing_ne_comma (k : Bracket) : k.closing ≠ ',' := by
  cases k <;> decide

end Bracket

/-! ## §2. Scalars -/

theorem readWord_eq_ok_iff {word s r : List Char} : readWord word s = .ok r ↔ s = word ++ r := by
  fun_induction readWord word s with
  | case1 s => simp
  | case2 => simp
  | case3 ws c rest ih => simp [ih]
  | case4 w ws c rest hne => simp [hne]

/-- The characters that a value can begin with. -/
def BeginsValue (c : Char) : Prop :=
  c = 'n' ∨ c = 't' ∨ c = 'f' ∨ beginsNumber c = true ∨ c = '"' ∨ c = '[' ∨ c = '\x7b'

theorem isBlank_of_beginsValue {c : Char} (h : BeginsValue c) :
    isBlank c = false ∧ c ≠ ']' := by
  have hdigit : c.isDigit = true → isBlank c = false ∧ c ≠ ']' := by
    intro hdigit
    constructor
    · rw [← Bool.not_eq_true]
      intro hblank
      exact absurd hdigit (by simp [(IsDelimiter.not_numeric (.inl hblank)).1])
    · rintro rfl
      exact absurd hdigit (by decide)
  rcases h with rfl | rfl | rfl | h | rfl | rfl | rfl
  · decide
  · decide
  · decide
  · simp only [beginsNumber, Bool.or_eq_true, beq_iff_eq] at h
    rcases h with rfl | h
    · decide
    · exact hdigit h
  · decide
  · decide
  · decide

theorem SpellsNumeral.exists_cons {t : List Char} {n : Numeral} (h : SpellsNumeral t n) :
    ∃ c t', t = c :: t' ∧ beginsNumber c = true := by
  obtain @⟨negative, whole, fraction, fractionText, powerText, power, hwhole, -, -⟩ := h
  obtain ⟨d, ds, rfl, hd⟩ := hwhole.1.exists_cons
  cases negative with
  | true => exact ⟨_, _, rfl, by decide⟩
  | false => exact ⟨_, _, rfl, by simp [beginsNumber, hd]⟩

/-- Numbers are told from words and texts by their first character. -/
theorem skipScalar_of_beginsNumber {c : Char} (h : beginsNumber c = true) (s : List Char) :
    skipScalar (c :: s) = skipNumber (c :: s) := by
  have hn : c ≠ 'n' := by rintro rfl; exact absurd h (by decide)
  have ht : c ≠ 't' := by rintro rfl; exact absurd h (by decide)
  have hf : c ≠ 'f' := by rintro rfl; exact absurd h (by decide)
  rw [skipScalar, if_neg hn, if_neg ht, if_neg hf, if_pos h]

theorem skipScalar_text (s : List Char) : skipScalar ('"' :: s) = skipText s := by
  rw [skipScalar, if_neg (by decide), if_neg (by decide), if_neg (by decide),
    if_neg (by decide), if_pos rfl]

theorem skipScalar_sound {s r : List Char} (h : skipScalar s = .ok r) :
    ∃ t, WellFormed .value t ∧ s = t ++ r := by
  unfold skipScalar at h
  split at h
  · contradiction
  · next c rest =>
    split at h
    · next hc =>
      rw [hc, readWord_eq_ok_iff.1 h]
      exact ⟨_, .nullWord, rfl⟩
    split at h
    · next hc =>
      rw [hc, readWord_eq_ok_iff.1 h]
      exact ⟨_, .trueWord, rfl⟩
    split at h
    · next hc =>
      rw [hc, readWord_eq_ok_iff.1 h]
      exact ⟨_, .falseWord, rfl⟩
    split at h
    · obtain ⟨t, n, ht, hs⟩ := skipNumber_sound h
      exact ⟨t, .number ht, hs⟩
    split at h
    · next hc =>
      obtain ⟨t, ht, rfl⟩ := skipText_sound h
      rw [hc]
      exact ⟨_, .text ht, rfl⟩
    · contradiction

/-! ## §3. One move of the machine -/

section Moves
variable {k : Bracket} {bs : List Bracket} {s rest : List Char} {c : Char}

theorem skipIn_key (bs : List Bracket) (s : List Char) :
    skipIn .key bs s = (skipKey s).bind (skipIn .value bs) := by
  rw [skipIn]
  split
  · next he => rw [he]; rfl
  · next he => rw [he]; rfl

theorem skipIn_value (h : skipBlank s = c :: rest) :
    skipIn .value bs s =
      if c = '[' then skipIn .opened (.list :: bs) rest
      else if c = '\x7b' then skipIn .opened (.object :: bs) rest
      else (skipScalar (c :: rest)).bind (skipIn .closed bs) := by
  rw [skipIn]
  split
  · next hs => exact absurd (h.symm.trans hs) (List.cons_ne_nil _ _)
  · next hs =>
    obtain ⟨rfl, rfl⟩ := List.cons.inj (h.symm.trans hs)
    congr 2
    split
    · next he => rw [he]; rfl
    · next he => rw [he]; rfl

theorem skipIn_opened (h : skipBlank s = c :: rest) :
    skipIn .opened (k :: bs) s =
      if c = k.closing then skipIn .closed bs rest else skipIn (.item k) (k :: bs) s := by
  rw [skipIn]
  split
  · next hs => exact absurd (h.symm.trans hs) (List.cons_ne_nil _ _)
  · next hs =>
    obtain ⟨rfl, rfl⟩ := List.cons.inj (h.symm.trans hs)
    rfl

theorem skipIn_closed (h : skipBlank s = c :: rest) :
    skipIn .closed (k :: bs) s =
      if c = ',' then skipIn (.item k) (k :: bs) rest
      else if c = k.closing then skipIn .closed bs rest
      else .error k.noEnd := by
  rw [skipIn]
  split
  · next hs => exact absurd (h.symm.trans hs) (List.cons_ne_nil _ _)
  · next hs =>
    obtain ⟨rfl, rfl⟩ := List.cons.inj (h.symm.trans hs)
    rfl

end Moves

/-! ## §4. Completeness -/

/-- The machine passes over all texts of a production, and is then where a
    value has just ended. -/
def Production.IsSkipped : Production → List Char → Prop
  | .value, t => ∀ bs b r, Blanks b → Delimited r →
      skipIn .value bs (b ++ t ++ r) = skipIn .closed bs r
  | .member, t => ∀ bs b r, Blanks b → Delimited r →
      skipIn .key bs (b ++ t ++ r) = skipIn .closed bs r
  | .items k first, t => ∀ bs r,
      skipIn (if first then .opened else .closed) (k :: bs) (t ++ k.closing :: r) =
        skipIn .closed bs r

theorem Production.IsSkipped.item {k : Bracket} {t : List Char}
    (h : (Production.item k).IsSkipped t) {b r : List Char} (hb : Blanks b) (hr : Delimited r)
    (bs : List Bracket) :
    skipIn (.item k) bs (b ++ t ++ r) = skipIn .closed bs r := by
  cases k with
  | list => exact h bs b r hb hr
  | object => exact h bs b r hb hr

/-- A scalar is passed over in one move. -/
theorem isSkipped_scalar {c : Char} {t : List Char} (hc : isBlank c = false) (hlist : c ≠ '[')
    (hobject : c ≠ '\x7b')
    (h : ∀ r, Delimited r → skipScalar (c :: (t ++ r)) = .ok r) :
    Production.value.IsSkipped (c :: t) := by
  intro bs b r hb hr
  have hskip : skipBlank (b ++ c :: t ++ r) = c :: (t ++ r) := by
    rw [List.append_assoc]
    exact skipBlank_append_cons hb hc _
  rw [skipIn_value hskip, if_neg hlist, if_neg hobject, h r hr]
  rfl

theorem skipKey_complete {key b b' : List Char} (hb : Blanks b) (hkey : IsText key)
    (hb' : Blanks b') (r : List Char) : skipKey (b ++ (key ++ (b' ++ ':' :: r))) = .ok r := by
  obtain ⟨pieces, hpieces, rfl⟩ := hkey
  have hquote : skipBlank (b ++ ('"' :: (pieces.flatten ++ ['"']) ++ (b' ++ ':' :: r))) =
      '"' :: (pieces.flatten ++ '"' :: (b' ++ ':' :: r)) := by
    rw [List.cons_append, skipBlank_append_cons hb (by decide), List.append_assoc,
      List.singleton_append]
  have hcolon : skipBlank (b' ++ ':' :: r) = ':' :: r := skipBlank_append_cons hb' (by decide) r
  simp only [skipKey, hquote, skipText_complete hpieces, hcolon, if_true]

theorem WellFormed.beginsValue {t : List Char} (h : WellFormed .value t) :
    ∃ c t', t = c :: t' ∧ BeginsValue c := by
  cases h with
  | nullWord => exact ⟨_, _, rfl, .inl rfl⟩
  | trueWord => exact ⟨_, _, rfl, .inr (.inl rfl)⟩
  | falseWord => exact ⟨_, _, rfl, .inr (.inr (.inl rfl))⟩
  | number h =>
    obtain ⟨c, t', rfl, hc⟩ := h.exists_cons
    exact ⟨c, t', rfl, .inr (.inr (.inr (.inl hc)))⟩
  | text h =>
    obtain ⟨pieces, -, rfl⟩ := h
    exact ⟨_, _, rfl, .inr (.inr (.inr (.inr (.inl rfl))))⟩
  | @bracketed k _ _ =>
    refine ⟨_, _, rfl, .inr (.inr (.inr (.inr (.inr ?_))))⟩
    cases k with
    | list => exact .inl rfl
    | object => exact .inr rfl

/-- The first character of an item does not close its bracket. -/
theorem WellFormed.begins_item {k : Bracket} {t : List Char} (h : WellFormed (.item k) t) :
    ∃ c t', t = c :: t' ∧ isBlank c = false ∧ c ≠ k.closing := by
  cases k with
  | list =>
    obtain ⟨c, t', rfl, hc⟩ := h.beginsValue
    exact ⟨c, t', rfl, isBlank_of_beginsValue hc⟩
  | object =>
    cases h with
    | member hkey _ _ _ =>
      obtain ⟨pieces, -, rfl⟩ := hkey
      exact ⟨_, _, rfl, by decide, by decide⟩

/-- What follows an item inside a bracket delimits it. -/
theorem WellFormed.delimited {k : Bracket} {t : List Char}
    (h : WellFormed (.items k false) t) (r : List Char) : Delimited (t ++ k.closing :: r) := by
  cases h with
  | noItem hb => exact (delimited_cons k.isDelimiter_closing r).append hb
  | item hlead _ _ =>
    rw [List.append_assoc, List.append_assoc]
    exact hlead.delimited _

/-- **Every well-formed text is passed over.** -/
theorem WellFormed.isSkipped {p : Production} {t : List Char} (h : WellFormed p t) :
    p.IsSkipped t := by
  induction h with
  | nullWord =>
    exact isSkipped_scalar (by decide) (by decide) (by decide) fun r _ => readWord_eq_ok_iff.2 rfl
  | trueWord =>
    exact isSkipped_scalar (by decide) (by decide) (by decide) fun r _ => readWord_eq_ok_iff.2 rfl
  | falseWord =>
    exact isSkipped_scalar (by decide) (by decide) (by decide) fun r _ => readWord_eq_ok_iff.2 rfl
  | number h =>
    obtain ⟨c, t, rfl, hc⟩ := h.exists_cons
    have hblank := (isBlank_of_beginsValue (.inr (.inr (.inr (.inl hc))))).1
    refine isSkipped_scalar hblank ?_ ?_ ?_
    · rintro rfl
      exact absurd hc (by decide)
    · rintro rfl
      exact absurd hc (by decide)
    · intro r hr
      rw [skipScalar_of_beginsNumber hc]
      exact skipNumber_complete h hr
  | text h =>
    obtain ⟨pieces, hpieces, rfl⟩ := h
    refine isSkipped_scalar (by decide) (by decide) (by decide) fun r _ => ?_
    rw [skipScalar_text, List.append_assoc]
    exact skipText_complete hpieces r
  | @bracketed k s _ ih =>
    intro bs b r hb hr
    have hskip : skipBlank (b ++ k.opening :: (s ++ [k.closing]) ++ r) =
        k.opening :: (s ++ k.closing :: r) := by
      rw [List.append_assoc, List.cons_append,
        skipBlank_append_cons hb (by cases k <;> decide), List.append_assoc, List.singleton_append]
    rw [skipIn_value hskip, ← ih bs r]
    cases k with
    | list => rfl
    | object => rfl
  | @member key b₁ b₂ s hkey hb₁ hb₂ _ ih =>
    intro bs b r hb hr
    have hassoc : b ++ (key ++ b₁ ++ ':' :: (b₂ ++ s)) ++ r =
        b ++ (key ++ (b₁ ++ ':' :: (b₂ ++ s ++ r))) := by
      simp only [List.append_assoc, List.cons_append]
    rw [hassoc, skipIn_key, skipKey_complete hb hkey hb₁]
    exact ih bs b₂ r hb₂ hr
  | @noItem k first b hb =>
    intro bs r
    have hskip := skipBlank_append_cons hb k.not_blank_closing r
    cases first with
    | true => rw [if_pos rfl, skipIn_opened hskip, if_pos rfl]
    | false =>
      rw [if_neg (by decide), skipIn_closed hskip, if_neg k.closing_ne_comma, if_pos rfl]
  | @item k first lead s t hlead hitem hrest ihItem ihRest =>
    intro bs r
    have hassoc : lead ++ s ++ t ++ k.closing :: r = lead ++ s ++ (t ++ k.closing :: r) :=
      List.append_assoc _ _ _
    have hnext := hrest.delimited r
    -- Whatever leads up to it, the item is passed over from its blanks on, and
    -- what follows it as if no item had stood there.
    rw [← ihRest bs r, hassoc]
    cases hlead with
    | first hb =>
      obtain ⟨c, s', rfl, hblank, hclosing⟩ := hitem.begins_item
      have hskip := skipBlank_append_cons hb hblank (s' ++ (t ++ k.closing :: r))
      rw [← List.cons_append, ← List.append_assoc] at hskip
      rw [if_pos rfl, skipIn_opened hskip, if_neg hclosing]
      exact ihItem.item hb hnext (k :: bs)
    | @comma b b' hb hb' =>
      have hskip : skipBlank (b ++ ',' :: b' ++ s ++ (t ++ k.closing :: r)) =
          ',' :: (b' ++ s ++ (t ++ k.closing :: r)) := by
        rw [List.append_assoc, List.append_assoc, List.cons_append,
          skipBlank_append_cons hb (by decide), ← List.append_assoc]
      rw [if_neg (by decide), skipIn_closed hskip, if_pos rfl]
      exact ihItem.item hb' hnext (k :: bs)

/-- **Every well-formed value is passed over.** -/
theorem skipValue_complete {b t r : List Char} (h : WellFormed .value t) (hb : Blanks b)
    (hr : Delimited r) : skipValue (b ++ t ++ r) = .ok r := by
  rw [skipValue, h.isSkipped [] b r hb hr, skipIn]

/-! ## §5. Soundness -/

/-- What closes the brackets that are open behind an item, innermost first. -/
def Closes : List Bracket → List Char → Prop
  | [], s => s = []
  | k :: bs, s => ∃ t u, WellFormed (.items k false) t ∧ Closes bs u ∧ s = t ++ k.closing :: u

/-- What a state and the open brackets ask for. -/
def Finishes : SkipState → List Bracket → List Char → Prop
  | .value, bs, s => ∃ b t u, Blanks b ∧ WellFormed .value t ∧ Closes bs u ∧ s = b ++ t ++ u
  | .key, bs, s => ∃ b t u, Blanks b ∧ WellFormed .member t ∧ Closes bs u ∧ s = b ++ t ++ u
  | .opened, [], s => s = []
  | .opened, k :: bs, s =>
    ∃ t u, WellFormed (.items k true) t ∧ Closes bs u ∧ s = t ++ k.closing :: u
  | .closed, bs, s => Closes bs s

theorem Finishes.item {k : Bracket} {bs : List Bracket} {s : List Char}
    (h : Finishes (.item k) bs s) :
    ∃ b t u, Blanks b ∧ WellFormed (.item k) t ∧ Closes bs u ∧ s = b ++ t ++ u := by
  cases k with
  | list => exact h
  | object => exact h

theorem skipKey_sound {s r : List Char} (h : skipKey s = .ok r) :
    ∃ b key b', Blanks b ∧ IsText key ∧ Blanks b' ∧ s = b ++ key ++ b' ++ ':' :: r := by
  unfold skipKey at h
  split at h
  · contradiction
  · next hs =>
    obtain ⟨b, hb, rfl⟩ := exists_blanks hs
    split at h
    · next hc =>
      split at h
      · contradiction
      · next ht =>
        obtain ⟨t, hkey, rfl⟩ := skipText_sound ht
        split at h
        · contradiction
        · next hcolon =>
          obtain ⟨b', hb', rfl⟩ := exists_blanks hcolon
          split at h
          · next hd =>
            obtain rfl := Except.ok.inj h
            rw [hc, hd]
            exact ⟨b, _, b', hb, hkey, hb', by simp⟩
          · contradiction
    · contradiction

/-- **The machine passes over what its state asks for.** -/
theorem skipIn_sound {state : SkipState} {bs : List Bracket} {s r : List Char}
    (h : skipIn state bs s = .ok r) : ∃ t, Finishes state bs t ∧ s = t ++ r := by
  fun_induction skipIn state bs s with
  | case1 | case4 | case6 | case10 | case13 | case16 => contradiction
  | case8 | case9 =>
    obtain rfl := Except.ok.inj h
    exact ⟨[], rfl, rfl⟩
  | case2 bs s rest hs ih =>
    obtain ⟨_, ⟨t, u, ht, hu, rfl⟩, rfl⟩ := ih h
    obtain ⟨b, hb, rfl⟩ := exists_blanks hs
    exact ⟨_, ⟨b, _, u, hb, .bracketed ht, hu, rfl⟩, by simp [Bracket.opening, Bracket.closing]⟩
  | case3 bs s rest hs _ ih =>
    obtain ⟨_, ⟨t, u, ht, hu, rfl⟩, rfl⟩ := ih h
    obtain ⟨b, hb, rfl⟩ := exists_blanks hs
    exact ⟨_, ⟨b, _, u, hb, .bracketed ht, hu, rfl⟩, by simp [Bracket.opening, Bracket.closing]⟩
  | case5 bs s c rest hs _ _ rest' hr ih =>
    obtain ⟨u, hu, rfl⟩ := ih h
    obtain ⟨b, hb, rfl⟩ := exists_blanks hs
    obtain ⟨t, ht, hsplit⟩ := skipScalar_sound hr
    exact ⟨_, ⟨b, t, u, hb, ht, hu, rfl⟩, by simp [hsplit]⟩
  | case7 bs s rest hk ih =>
    obtain ⟨_, ⟨b', t, u, hb', ht, hu, rfl⟩, rfl⟩ := ih h
    obtain ⟨b, key, b'', hb, hkey, hb'', rfl⟩ := skipKey_sound hk
    exact ⟨_, ⟨b, _, u, hb, .member hkey hb'' hb' ht, hu, rfl⟩, by simp⟩
  | case11 s k bs rest hs ih =>
    obtain ⟨u, hu, rfl⟩ := ih h
    obtain ⟨b, hb, rfl⟩ := exists_blanks hs
    exact ⟨_, ⟨b, u, .noItem hb, hu, rfl⟩, by simp⟩
  | case12 s k bs c rest hs hne ih =>
    obtain ⟨v, hv, rfl⟩ := ih h
    obtain ⟨b, t, _, hb, ht, ⟨t', u, ht', hu, rfl⟩, rfl⟩ := hv.item
    exact ⟨_, ⟨_, u, .item (.first hb) ht ht', hu, rfl⟩, by simp⟩
  | case14 s k bs rest hs ih =>
    obtain ⟨v, hv, rfl⟩ := ih h
    obtain ⟨b', t, _, hb', ht, ⟨t', u, ht', hu, rfl⟩, rfl⟩ := hv.item
    obtain ⟨b, hb, rfl⟩ := exists_blanks hs
    exact ⟨_, ⟨_, u, .item (.comma hb hb') ht ht', hu, rfl⟩, by simp⟩
  | case15 s k bs rest hs _ ih =>
    obtain ⟨u, hu, rfl⟩ := ih h
    obtain ⟨b, hb, rfl⟩ := exists_blanks hs
    exact ⟨_, ⟨b, u, .noItem hb, hu, rfl⟩, by simp⟩

/-- **What is passed over is a well-formed value.** -/
theorem skipValue_sound {s r : List Char} (h : skipValue s = .ok r) :
    ∃ b t, Blanks b ∧ WellFormed .value t ∧ s = b ++ t ++ r := by
  obtain ⟨_, ⟨b, t, _, hb, ht, rfl, rfl⟩, rfl⟩ := skipIn_sound h
  exact ⟨b, t, hb, ht, by simp⟩

end IsaTable.Json
