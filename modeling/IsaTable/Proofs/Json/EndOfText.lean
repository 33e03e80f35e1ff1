import IsaTable.Proofs.Json.Reader
import IsaTable.Proofs.Text.Numeral

/-! # Readers at the end of a text

    Two things can come of reading a text that is cut short:

    * **Texts, lists and objects need all of their text** (`Reader.NeedsAll`): as
      long as the closing character is missing, the reader notices that the text
      has ended.
    * **Numbers do not.**  What is left of a number is a smaller number, but
      nothing is left behind it, and so the list or the object around it has to
      notice.

    A value is **exhausted** in either case (`Reader.Exhausts`).  Numbers and texts
    are shown to be so here, the number by its digits, the text by its characters:
    an escape that is cut short is never taken for another one
    (`readText_of_cut`).
-/

namespace IsaTable.Json

/-! ## §1. Beginnings of texts -/

/-- The text `t`, cut short: something is missing at its end. -/
def Cut (q t : List Char) : Prop :=
  q <+: t ∧ q ≠ t

section
variable {q s t : List Char}

theorem not_cut_nil : ¬ Cut q [] := by
  intro h
  exact h.2 (List.prefix_nil.1 h.1)

/-- A cut is in front of a character or behind it. -/
theorem Cut.cons_cases {c : Char} (h : Cut q (c :: t)) :
    q = [] ∨ ∃ q', Cut q' t ∧ q = c :: q' := by
  obtain ⟨hq, hne⟩ := h
  rcases List.prefix_cons_iff.1 hq with rfl | ⟨q', rfl, hq'⟩
  · exact .inl rfl
  · exact .inr ⟨q', ⟨hq', fun heq => hne (by rw [heq])⟩, rfl⟩

/-- What a text of two parts begins with is cut off in the first part, or behind
    it. -/
theorem prefix_append_cases (h : q <+: s ++ t) : Cut q s ∨ ∃ q', q' <+: t ∧ q = s ++ q' := by
  obtain ⟨r, hr⟩ := h
  rcases List.append_eq_append_iff.1 hr with ⟨as, rfl, rfl⟩ | ⟨bs, rfl, rfl⟩
  · by_cases has : as = []
    · exact .inr ⟨[], List.nil_prefix, by rw [has, List.append_nil, List.append_nil]⟩
    · exact .inl ⟨List.prefix_append q as, fun heq => has (List.self_eq_append_right.1 heq)⟩
  · exact .inr ⟨bs, List.prefix_append bs r, rfl⟩

/-- A cut is in the first part or in the second. -/
theorem Cut.append_cases (h : Cut q (s ++ t)) : Cut q s ∨ ∃ q', Cut q' t ∧ q = s ++ q' := by
  rcases prefix_append_cases h.1 with hq | ⟨q', hq', rfl⟩
  · exact .inl hq
  · exact .inr ⟨q', ⟨hq', fun heq => h.2 (by rw [heq])⟩, rfl⟩

/-- What stands between two characters lacks the last one when it is cut. -/
theorem Cut.enclosed_cases {first last : Char} (h : Cut q (first :: (s ++ [last]))) :
    q = [] ∨ ∃ q', q' <+: s ∧ q = first :: q' := by
  rcases h.cons_cases with rfl | ⟨q', ⟨hq', hne⟩, rfl⟩
  · exact .inl rfl
  · exact .inr ⟨q', (List.prefix_concat_iff.1 hq').resolve_left hne, rfl⟩

theorem Blanks.of_prefix (h : Blanks s) (hq : q <+: s) : Blanks q := by
  intro c hc
  exact h c (hq.subset hc)

/-- A beginning of what delimits a value delimits it, too. -/
theorem Delimited.of_prefix (h : Delimited s) (hq : q <+: s) : Delimited q := by
  intro c hc
  obtain ⟨r, rfl⟩ := hq
  apply h
  rw [List.head?_append, hc]
  rfl

end

/-! ## §2. Readers at the end of a text -/

/-- The outcome is that the text has ended. -/
def Ended {α : Type} (o : Except Error α) : Prop :=
  ∃ part, o = .error (.ended part)

/-- Either the text has ended, or a value has been read and nothing is left. -/
def Exhausted {α : Type} (o : Result α) : Prop :=
  Ended o ∨ ∃ a, o = .ok (a, [])

section
variable {α β : Type}

/-- Nothing follows the end of the text. -/
theorem Ended.bind {o : Except Error α} (h : Ended o) (next : α → Except Error β) :
    Ended (o.bind next) := by
  obtain ⟨part, rfl⟩ := h
  exact ⟨part, rfl⟩

theorem Ended.map {o : Except Error α} (h : Ended o) (f : α → β) : Ended (o.map f) := by
  obtain ⟨part, rfl⟩ := h
  exact ⟨part, rfl⟩

/-- **What needs to go on ends** where the text is exhausted. -/
theorem Exhausted.bind {o : Result α} {next : α × List Char → Except Error β} (h : Exhausted o)
    (hnext : ∀ a, Ended (next (a, []))) : Ended (o.bind next) := by
  rcases h with hended | ⟨a, rfl⟩
  · exact hended.bind next
  · exact hnext a

namespace Reader

/-- No strict beginning of the text will do for the reader, whatever blanks stand
    in front. -/
def NeedsAll (reader : Reader α) (t : List Char) : Prop :=
  ∀ b q, Blanks b → Cut q t → Ended (reader.run (b ++ q))

/-- The reader exhausts every beginning of the text. -/
def Exhausts (reader : Reader α) (t : List Char) : Prop :=
  ∀ b q, Blanks b → q <+: t → Exhausted (reader.run (b ++ q))

variable {reader : Reader α} {Spelling : List Char → α → Prop} {t : List Char} {a : α}

/-- What needs all of a text is exhausted with it. -/
theorem NeedsAll.exhausts (h : reader.NeedsAll t) (hreads : reader.Reads Spelling)
    (ht : Spelling t a) : reader.Exhausts t := by
  intro b q hb hq
  by_cases heq : q = t
  · have hrun := hreads.complete hb ht (r := []) nofun
    rw [List.append_nil] at hrun
    rw [heq]
    exact .inr ⟨a, hrun⟩
  · exact .inl (h b q hb ⟨hq, heq⟩)

theorem Exhausts.map (h : reader.Exhausts t) (f : α → β) : (reader.map f).Exhausts t := by
  intro b q hb hq
  rcases h b q hb hq with ⟨part, hrun⟩ | ⟨a, hrun⟩
  · exact .inl ⟨part, by simp only [Reader.map, hrun]⟩
  · exact .inr ⟨f a, by simp only [Reader.map, hrun]⟩

end Reader

end

/-! ## §3. Numbers -/

/-- What is left of a natural number is a smaller one. -/
theorem SpellsNatural.of_prefix {q t : List Char} {n : Nat} (h : SpellsNatural t n) (hq : q <+: t)
    (hne : q ≠ []) : ∃ k ≤ n, SpellsNatural q k := by
  obtain ⟨⟨hdigits, hzero⟩, rfl⟩ := h
  refine ⟨digitsValue q, ?_, ⟨⟨hne, ?_⟩, ?_⟩, rfl⟩
  · obtain ⟨r, rfl⟩ := hq
    rw [digitsValue, digitsValue, Nat.ofDigitChars_append]
    exact Text.le_ofDigitChars (by decide) r _
  · intro c hc
    exact hdigits.2 c (hq.subset hc)
  · intro d rest heq
    obtain ⟨r, rfl⟩ := hq
    exact hzero d (rest ++ r) (by rw [heq]; rfl)

/-- Numbers are exhausted. -/
theorem exhausts_below {bound n : Nat} {t : List Char} (hbound : bound ≤ UInt64.size)
    (wanted : Wanted) (h : SpellsNatural t n) (hn : n < bound) :
    (Reader.below bound wanted).Exhausts t := by
  intro b q hb hq
  by_cases hne : q = []
  · have hskip : skipBlank (b ++ q) = [] := by
      rw [hne, List.append_nil]
      exact skipBlank_eq_nil_iff.2 hb
    exact .inl ⟨.value, by simp only [Reader.below, hskip]⟩
  · obtain ⟨k, hk, hspelled⟩ := h.of_prefix hq hne
    have hrun := (reads_below hbound wanted).complete hb ⟨hspelled, by omega⟩ (r := []) nofun
    rw [List.append_nil] at hrun
    exact .inr ⟨k, hrun⟩

theorem exhausts_byte {t : List Char} {n : UInt8} (h : SpellsNatural t n.toNat) :
    Reader.byte.Exhausts t :=
  (exhausts_below (by decide) .byte h n.toNat_lt).map UInt8.ofNat

theorem exhausts_word {t : List Char} {v : Word} (h : SpellsNatural t v.toNat) :
    Reader.word.Exhausts t :=
  (exhausts_below (by decide) .word h v.isLt).map (BitVec.ofNat 32)

/-! ## §4. Texts -/

/-- A hexadecimal digit takes one byte. -/
theorem utf8Size_of_hexValue? {c : Char} {n : Nat} (h : hexValue? c = some n) :
    c.utf8Size = 1 := by
  have hbound : c.toNat ≤ 127 := (hexValue?_bounds h).2.trans (by decide)
  rwa [Char.utf8Size_eq_one_iff, UInt32.le_iff_toNat_le]

/-- A text of one-byte characters has as many bytes as characters. -/
theorem utf8Length_eq_length {s : List Char} (h : ∀ c ∈ s, c.utf8Size = 1) :
    utf8Length s = s.length := by
  unfold utf8Length
  induction s with
  | nil => rfl
  | cons c rest ih =>
    obtain ⟨hc, hrest⟩ := List.forall_mem_cons.1 h
    rw [String.ofList_cons, String.utf8ByteSize_append, String.utf8ByteSize_singleton, hc,
      ih hrest, List.length_cons, Nat.add_comm]

/-- Fewer than four digits of a code unit are the end of the text. -/
theorem readHex4_of_cut {s q : List Char} {n : Nat} (h : SpellsUnit s n) (hq : Cut q s) :
    readHex4 q = .error (.ended .text) := by
  obtain @⟨a, b, c, d, _, hvalue⟩ := h
  have hlength : q.length < 4 := by
    refine Nat.lt_of_le_of_ne hq.1.length_le ?_
    intro heq
    exact hq.2 (hq.1.eq_of_length heq)
  have hbytes : utf8Length q < 4 := by
    rw [utf8Length_eq_length]
    · exact hlength
    · intro x hx
      simp only [hexValue4?, Option.bind_eq_bind, Option.bind_eq_some_iff] at hvalue
      obtain ⟨_, ha, _, hb, _, hc, _, hd, -⟩ := hvalue
      have hx := hq.1.subset hx
      simp only [List.mem_cons, List.not_mem_nil, or_false] at hx
      rcases hx with rfl | rfl | rfl | rfl
      · exact utf8Size_of_hexValue? ha
      · exact utf8Size_of_hexValue? hb
      · exact utf8Size_of_hexValue? hc
      · exact utf8Size_of_hexValue? hd
  unfold readHex4
  split
  · simp only [List.length_cons] at hlength
    omega
  · exact if_pos hbytes

/-- The second half of a pair ends with the text when it is cut short. -/
theorem readSecondHalf_of_cut {t q : List Char} {high low : Nat} (h : SpellsUnit t low)
    (hq : Cut q ('\\' :: 'u' :: t)) : readSecondHalf high q = .error (.ended .text) := by
  rcases hq.cons_cases with rfl | ⟨q', hq', rfl⟩
  · rfl
  rcases hq'.cons_cases with rfl | ⟨q'', hq'', rfl⟩
  · rfl
  simp only [readSecondHalf, readHex4_of_cut h hq'']

/-- So does an escape. -/
theorem readEscape_of_cut {t q : List Char} {c : Char} (h : SpellsChar ('\\' :: t) c)
    (hq : Cut q t) : readEscape q = .error (.ended .text) := by
  cases h with
  | plain h => exact absurd rfl h.2.1
  | letter _ =>
    rcases hq.cons_cases with rfl | ⟨q', hq', -⟩
    · rfl
    · exact absurd hq' not_cut_nil
  | unit h =>
    rcases hq.cons_cases with rfl | ⟨q', hq', rfl⟩
    · rfl
    · simp only [readEscape, readUnitEscape, readHex4_of_cut h hq']
  | @pair s u high low _ hs hu hhigh _ _ =>
    rcases hq.cons_cases with rfl | ⟨q', hq', rfl⟩
    · rfl
    rcases hq'.append_cases with hcut | ⟨q'', hcut, rfl⟩
    · simp only [readEscape, readUnitEscape, readHex4_of_cut hs hcut]
    · -- The first half is whole, so the second one is read.
      have hnotLow : isLowSurrogate high = false := by
        rw [← Bool.not_eq_true, isLowSurrogate_iff]
        omega
      simp only [readEscape, readUnitEscape, readHex4_complete hs, hnotLow,
        isHighSurrogate_iff.2 hhigh, readSecondHalf_of_cut hu hcut, Bool.false_eq_true, if_false,
        if_true]

/-- So does every character. -/
theorem readText_of_cut {p q : List Char} {c : Char} (h : SpellsChar p c) (hq : Cut q p) :
    readText q = .error (.ended .text) := by
  have hnothing : readText [] = .error (.ended .text) := by rw [readText]
  -- Every spelling but the first begins with a backslash.
  have hescape : ∀ t, SpellsChar ('\\' :: t) c → Cut q ('\\' :: t) →
      readText q = .error (.ended .text) := by
    intro t ht hq
    rcases hq.cons_cases with rfl | ⟨q', hq', rfl⟩
    · exact hnothing
    · have hread := readEscape_of_cut ht hq'
      rw [readText, if_neg (by decide), if_pos rfl]
      split
      · next he =>
        rw [hread] at he
        rw [Except.error.inj he]
      · next he =>
        rw [hread] at he
        contradiction
  cases h with
  | plain _ =>
    rcases hq.cons_cases with rfl | ⟨q', hq', -⟩
    · exact hnothing
    · exact absurd hq' not_cut_nil
  | letter h => exact hescape _ (.letter h) hq
  | unit h => exact hescape _ (.unit h) hq
  | pair hs ht hhigh hlow hc => exact hescape _ (.pair hs ht hhigh hlow hc) hq

/-- A text without its closing quote ends with the text around it. -/
theorem readText_of_prefix {s q : List Char} {text : List Char} (h : SpellsChars s text)
    (hq : q <+: s) : readText q = .error (.ended .text) := by
  obtain ⟨pieces, hpieces, rfl⟩ := h
  induction hpieces generalizing q with
  | nil =>
    rw [List.flatten_nil, List.prefix_nil] at hq
    rw [hq, readText]
  | cons hpiece _ ih =>
    rw [List.flatten_cons] at hq
    rcases prefix_append_cases hq with hcut | ⟨q', hq', rfl⟩
    · exact readText_of_cut hpiece hcut
    · rw [readText_append hpiece, ih hq']
      rfl

/-- Texts need their closing quote. -/
theorem needsAll_text {t : List Char} {text : String} (h : SpellsText t text) :
    Reader.text.NeedsAll t := by
  obtain ⟨inner, hinner, rfl⟩ := h
  intro b q hb hq
  show Ended (Reader.takeText _)
  rcases hq.enclosed_cases with rfl | ⟨q', hq', rfl⟩
  · rw [List.append_nil, Reader.takeText, skipBlank_eq_nil_iff.2 hb]
    exact ⟨.value, rfl⟩
  · rw [Reader.takeText, skipBlank_append_cons hb (by decide)]
    refine ⟨.text, ?_⟩
    simp only [if_true, readText_of_prefix hinner hq']

end IsaTable.Json
