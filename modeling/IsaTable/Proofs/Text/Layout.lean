import IsaTable.Proofs.Text.Trimming

/-! # Texts laid out in words

    A line of words may be written in many ways: any blanks may stand at its
    two ends, and any but none between two words.  `LaidOut` is this grammar,
    said without cutting a text up:

    * **The first word may stand at the very start**; every other word comes
      behind a gap (`Spaced`).
    * **Cutting is the inverse of laying out** (`words_eq_cons_iff`).  A text
      has the given words exactly when it is one of their layouts.
-/

namespace IsaTable.Text

/-- The given words, each behind one blank or more, and any blanks after the
    last of them. -/
inductive Spaced : List Char → List (List Char) → Prop where
  /-- No word is left. -/
  | blanks {back : List Char} (hback : AllBlank back) : Spaced back []
  /-- A gap, a word, and what follows. -/
  | gap {blanks word rest : List Char} {others : List (List Char)} (hblanks : AllBlank blanks)
      (hne : blanks ≠ []) (hword : IsWord word) (hrest : Spaced rest others) :
      Spaced (blanks ++ (word ++ rest)) (word :: others)

/-- A text made of a first word and others, laid out with blanks between and
    around them. -/
def LaidOut (text word : List Char) (others : List (List Char)) : Prop :=
  ∃ front rest, AllBlank front ∧ IsWord word ∧ Spaced rest others ∧ text = front ++ (word ++ rest)

/-! ## §1. Laid out texts have their words -/

namespace Spaced

variable {rest : List Char} {others : List (List Char)}

/-- A word may stand before a gap, and before blanks at the end. -/
theorem endsWord (h : Spaced rest others) : EndsWord rest := by
  intro c hc
  cases h with
  | blanks hback => exact hback c (List.mem_of_head? hc)
  | gap hblanks hne _ _ =>
    rw [List.head?_append_of_ne_nil _ hne] at hc
    exact hblanks c (List.mem_of_head? hc)

theorem words_eq (h : Spaced rest others) : words rest = others := by
  induction h with
  | blanks hback => exact words_eq_nil hback
  | gap hblanks _ hword hrest ih =>
    rw [words_append_front hblanks, words_word_append hword hrest.endsWord, ih]

end Spaced

/-! ## §2. Texts are laid out in their words -/

/-- What a word may stand before is its words, spaced. -/
theorem spaced_words {rest : List Char} (h : EndsWord rest) : Spaced rest (words rest) := by
  -- By induction on the words: each step takes one gap and one word away.
  generalize hwords : words rest = others
  induction others generalizing rest with
  | nil =>
    apply Spaced.blanks
    by_contra hblank
    exact words_ne_nil hblank hwords
  | cons word others ih =>
    have hblank : ¬ AllBlank rest := by
      intro hall
      rw [words_eq_nil hall] at hwords
      exact nomatch hwords
    obtain ⟨front, first, after, hfront, hfirst, hafter, rfl⟩ := exists_first_word hblank
    rw [words_append_front hfront, words_word_append hfirst hafter] at hwords
    obtain ⟨rfl, hothers⟩ := List.cons.inj hwords
    have hne : front ≠ [] := by
      -- Else the text would begin with the word, that is, not with a blank.
      intro hnil
      obtain ⟨c, cs, rfl⟩ := List.exists_cons_of_ne_nil hfirst.1
      rw [hnil] at h
      have hc : isBlank c = true := h c rfl
      rw [hfirst.2 c List.mem_cons_self] at hc
      exact nomatch hc
    exact .gap hfront hne hfirst (ih hafter hothers)

/-- **Cutting is the inverse of laying out.** -/
theorem words_eq_cons_iff {text word : List Char} {others : List (List Char)} :
    words text = word :: others ↔ LaidOut text word others := by
  constructor
  · intro h
    have hblank : ¬ AllBlank text := by
      intro hall
      rw [words_eq_nil hall] at h
      exact nomatch h
    obtain ⟨front, first, rest, hfront, hfirst, hrest, rfl⟩ := exists_first_word hblank
    rw [words_append_front hfront, words_word_append hfirst hrest] at h
    obtain ⟨rfl, rfl⟩ := List.cons.inj h
    exact ⟨front, rest, hfront, hfirst, spaced_words hrest, rfl⟩
  · intro h
    obtain ⟨front, rest, hfront, hword, hrest, rfl⟩ := h
    rw [words_append_front hfront, words_word_append hword hrest.endsWord, hrest.words_eq]

end IsaTable.Text
