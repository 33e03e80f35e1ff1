import Mathlib.Data.List.DropRight
import IsaTable.Text.Blank
import IsaTable.Text.Lines

/-! # Trimmed texts and their words

    Every text is its trimmed form between two runs of blanks
    (`exists_blank_trim_blank`), and blanks at either end change neither the
    trimmed form nor the words.  So a line may be trimmed, or lose the carriage
    return of its line end, at any time before it is read.  A text that is not
    blank has a first word, behind blanks and before what its other words stand
    in (`exists_first_word`).
-/

namespace IsaTable.Text

/-- A run of blanks only. -/
def AllBlank (text : List Char) : Prop :=
  ∀ c ∈ text, isBlank c = true

instance (text : List Char) : Decidable (AllBlank text) :=
  decidable_of_iff (text.all isBlank = true) List.all_eq_true

/-! ## §1. Blanks at the ends -/

theorem trimStart_append {front : List Char} (h : AllBlank front) (text : List Char) :
    trimStart (front ++ text) = trimStart text :=
  List.dropWhile_append_of_pos h

theorem trimEnd_append {back : List Char} (h : AllBlank back) (text : List Char) :
    trimEnd (text ++ back) = trimEnd text := by
  unfold trimEnd
  rw [List.reverse_append, List.dropWhile_append_of_pos]
  intro c hc
  exact h c (List.mem_reverse.1 hc)

theorem trimStart_eq_nil_iff {text : List Char} : trimStart text = [] ↔ AllBlank text := by
  simp [trimStart, AllBlank, List.dropWhile_eq_nil_iff]

/-- What is left at the start begins with a character that is not blank. -/
theorem not_blank_of_trimStart {text rest : List Char} {c : Char}
    (h : trimStart text = c :: rest) : isBlank c = false := by
  have hhead := List.head?_dropWhile_not isBlank text
  rw [← trimStart, h] at hhead
  simpa using hhead

/-- A text is cut at its end only. -/
theorem trimEnd_prefix (text : List Char) : trimEnd text <+: text :=
  List.rdropWhile_prefix isBlank text

theorem trimEnd_eq_nil_iff {text : List Char} : trimEnd text = [] ↔ AllBlank text :=
  List.rdropWhile_eq_nil_iff

/-- A first character that is not blank stays when the end is trimmed. -/
theorem trimEnd_cons {c : Char} (h : isBlank c = false) (rest : List Char) :
    ∃ rest', trimEnd (c :: rest) = c :: rest' := by
  obtain ⟨cut, hcut⟩ := trimEnd_prefix (c :: rest)
  cases ht : trimEnd (c :: rest) with
  | nil =>
    have hc := trimEnd_eq_nil_iff.1 ht c List.mem_cons_self
    rw [h] at hc
    exact nomatch hc
  | cons d rest' =>
    rw [ht, List.cons_append] at hcut
    rw [(List.cons.inj hcut).1]
    exact ⟨rest', rfl⟩

/-! ## §2. The trimmed form -/

/-- Blanks at the start do not show in the trimmed form. -/
theorem trim_append_front {front : List Char} (h : AllBlank front) (text : List Char) :
    trim (front ++ text) = trim text := by
  rw [trim, trimStart_append h, trim]

/-- Blanks at the end do not show in the trimmed form. -/
theorem trim_append_back {back : List Char} (h : AllBlank back) (text : List Char) :
    trim (text ++ back) = trim text := by
  -- Trimming the start reaches `back` only when there is nothing before it.
  by_cases htext : AllBlank text
  · have hboth : AllBlank (text ++ back) := fun c hc =>
      (List.mem_append.1 hc).elim (htext c) (h c)
    rw [trim, trim, trimStart_eq_nil_iff.2 hboth, trimStart_eq_nil_iff.2 htext]
  · have hstart : trimStart (text ++ back) = trimStart text ++ back := by
      have hne : (List.dropWhile isBlank text).isEmpty = false := by
        simpa [trimStart] using mt trimStart_eq_nil_iff.1 htext
      rw [trimStart, List.dropWhile_append, hne]
      rfl
    rw [trim, hstart, trimEnd_append h, trim]

/-- Every text is its trimmed form between two runs of blanks. -/
theorem exists_blank_trim_blank (text : List Char) :
    ∃ front back, AllBlank front ∧ AllBlank back ∧ text = front ++ trim text ++ back := by
  -- The two runs are what the two trims take away.
  refine ⟨text.takeWhile isBlank, (trimStart text).rtakeWhile isBlank, ?_, ?_, ?_⟩
  · exact fun c hc => List.mem_takeWhile_imp hc
  · exact fun c hc => List.mem_rtakeWhile_imp hc
  · have hend : trim text ++ (trimStart text).rtakeWhile isBlank = trimStart text :=
      List.rdropWhile_append_rtakeWhile
    rw [List.append_assoc, hend]
    exact List.takeWhile_append_dropWhile.symm

/-- There is nothing more to trim on a trimmed form. -/
theorem trim_trim (text : List Char) : trim (trim text) = trim text := by
  obtain ⟨front, back, hfront, hback, htext⟩ := exists_blank_trim_blank text
  conv_rhs => rw [htext]
  rw [trim_append_back hback, trim_append_front hfront]

/-- The trimmed form is empty for runs of blanks alone. -/
theorem trim_eq_nil_iff {text : List Char} : trim text = [] ↔ AllBlank text := by
  cases hstart : trimStart text with
  | nil => simp [trim, hstart, ← trimStart_eq_nil_iff]
  | cons c rest =>
    obtain ⟨rest', hrest⟩ := trimEnd_cons (not_blank_of_trimStart hstart) rest
    rw [trim, hstart, hrest, ← trimStart_eq_nil_iff, hstart]
    simp

/-- The trimmed form begins like what is left when the start alone is
    trimmed. -/
theorem head?_trim (text : List Char) : (trim text).head? = (trimStart text).head? := by
  cases hstart : trimStart text with
  | nil => simp [trim, hstart]
  | cons c rest =>
    obtain ⟨rest', hrest⟩ := trimEnd_cons (not_blank_of_trimStart hstart) rest
    rw [trim, hstart, hrest]
    rfl

/-- A text that neither begins nor ends with a blank is its own trimmed
    form. -/
theorem trim_eq_self {text : List Char} (hhead : ∀ c, text.head? = some c → isBlank c = false)
    (hlast : ∀ c, text.getLast? = some c → isBlank c = false) : trim text = text := by
  have hstart : trimStart text = text := by
    cases text with
    | nil => rfl
    | cons c rest => simp [trimStart, hhead c rfl]
  rw [trim, hstart]
  apply List.rdropWhile_eq_self_iff.2
  intro hne
  simp [hlast _ (List.getLast?_eq_some_getLast hne)]

/-- The carriage return of a line end is a blank, so dropping it does not
    change the trimmed form. -/
theorem trim_dropReturn (line : List Char) : trim (dropReturn line) = trim line := by
  by_cases h : line.getLast? = some '\r'
  · have hline : line.dropLast ++ ['\r'] = line := List.dropLast_append_getLast? '\r' h
    rw [dropReturn, if_pos h]
    conv_rhs => rw [← hline]
    rw [trim_append_back]
    simp [AllBlank]
  · rw [dropReturn, if_neg h]

/-! ## §3. Words -/

/-- Blanks at the start belong to no word. -/
theorem words_append_front {front : List Char} (h : AllBlank front) (text : List Char) :
    words (front ++ text) = words text := by
  induction front with
  | nil => rfl
  | cons c rest ih =>
    rw [List.cons_append, words_cons_blank (h c List.mem_cons_self)]
    exact ih fun d hd => h d (List.mem_cons_of_mem c hd)

/-- A run of blanks has no words. -/
theorem words_eq_nil {text : List Char} (h : AllBlank text) : words text = [] := by
  simpa using words_append_front h []

/-- A gap stands between the words before it and those after it. -/
theorem words_append_gap {blanks : List Char} (h : AllBlank blanks) (hne : blanks ≠ [])
    (before after : List Char) :
    words (before ++ (blanks ++ after)) = words before ++ words after := by
  obtain ⟨c, rest, rfl⟩ := List.exists_cons_of_ne_nil hne
  have hrest : AllBlank rest := fun d hd => h d (List.mem_cons_of_mem c hd)
  rw [List.cons_append, words_append_blank (h c List.mem_cons_self), words_append_front hrest]

/-- Blanks at the end belong to no word. -/
theorem words_append_back {back : List Char} (h : AllBlank back) (text : List Char) :
    words (text ++ back) = words text := by
  by_cases hne : back = []
  · rw [hne, List.append_nil]
  · have hgap := words_append_gap h hne text []
    rwa [List.append_nil, words_nil, List.append_nil] at hgap

/-- Trimming keeps the words. -/
theorem words_trim (text : List Char) : words (trim text) = words text := by
  obtain ⟨front, back, hfront, hback, htext⟩ := exists_blank_trim_blank text
  conv_rhs => rw [htext]
  rw [words_append_back hback, words_append_front hfront]

/-- Cutting leaves no separator in the pieces. -/
theorem not_separator_of_mem_splitOnP {α : Type} {p : α → Bool} {items piece : List α}
    (h : piece ∈ items.splitOnP p) : ∀ item ∈ piece, p item = false := by
  induction items generalizing piece with
  | nil =>
    rw [List.splitOnP_nil, List.mem_singleton] at h
    rw [h]
    exact List.forall_mem_nil _
  | cons item rest ih =>
    rw [List.splitOnP_cons_eq_if_modifyHead] at h
    by_cases hitem : p item = true
    · rw [if_pos hitem] at h
      rcases List.mem_cons.1 h with rfl | h
      · exact List.forall_mem_nil _
      · exact ih h
    · rw [if_neg hitem] at h
      -- An item that separates nothing joins the first piece.
      obtain ⟨first, others, hpieces⟩ :=
        List.exists_cons_of_ne_nil (List.splitOnP_ne_nil p rest)
      rw [hpieces, List.modifyHead_cons] at h
      rw [hpieces] at ih
      rcases List.mem_cons.1 h with rfl | h
      · exact List.forall_mem_cons.2 ⟨by simpa using hitem, ih List.mem_cons_self⟩
      · exact ih (List.mem_cons_of_mem first h)

/-- A word holds no blanks. -/
theorem not_blank_of_mem_words {text word : List Char} (h : word ∈ words text) :
    ∀ c ∈ word, isBlank c = false :=
  not_separator_of_mem_splitOnP (List.mem_of_mem_filter h)

/-! ## §4. The first word -/

/-- A run of characters that are not blank, of which there is at least one. -/
def IsWord (word : List Char) : Prop :=
  word ≠ [] ∧ ∀ c ∈ word, isBlank c = false

instance (word : List Char) : Decidable (IsWord word) :=
  decidable_of_iff (word ≠ [] ∧ (word.all fun c => !isBlank c) = true) (by simp [IsWord])

/-- A text that a word may stand before: it is empty or begins with a blank. -/
def EndsWord (rest : List Char) : Prop :=
  ∀ c, rest.head? = some c → isBlank c = true

/-- A word that is ended comes before the words that follow. -/
theorem words_word_append {word rest : List Char} (hword : IsWord word) (hrest : EndsWord rest) :
    words (word ++ rest) = word :: words rest := by
  have hself : words word = [word] := words_of_no_blank hword.1 hword.2
  cases rest with
  | nil => rw [List.append_nil, hself, words_nil]
  | cons b after =>
    have hb : isBlank b = true := hrest b rfl
    rw [words_append_blank hb, hself, words_cons_blank hb]
    rfl

/-- A text that is not a run of blanks has a first word, which stands behind
    blanks and is ended. -/
theorem exists_first_word {text : List Char} (h : ¬ AllBlank text) :
    ∃ front word rest, AllBlank front ∧ IsWord word ∧ EndsWord rest ∧
      text = front ++ (word ++ rest) := by
  cases hstart : trimStart text with
  | nil => exact absurd (trimStart_eq_nil_iff.1 hstart) h
  | cons c rest =>
    -- The word is the first character that is not blank, and all up to the next
    -- blank.
    refine ⟨text.takeWhile isBlank, c :: rest.takeWhile (!isBlank ·),
      rest.dropWhile (!isBlank ·), ?_, ⟨List.cons_ne_nil _ _, ?_⟩, ?_, ?_⟩
    · exact fun d hd => List.mem_takeWhile_imp hd
    · intro d hd
      rcases List.mem_cons.1 hd with rfl | hd
      · exact not_blank_of_trimStart hstart
      · simpa using List.mem_takeWhile_imp hd
    · intro d hd
      have hhead := List.head?_dropWhile_not (!isBlank ·) rest
      rw [hd] at hhead
      simpa using hhead
    · rw [List.cons_append, List.takeWhile_append_dropWhile, ← hstart]
      exact List.takeWhile_append_dropWhile.symm

/-- Every text that is not a run of blanks has a word. -/
theorem words_ne_nil {text : List Char} (h : ¬ AllBlank text) : words text ≠ [] := by
  obtain ⟨front, word, rest, hfront, hword, hrest, rfl⟩ := exists_first_word h
  rw [words_append_front hfront, words_word_append hword hrest]
  exact List.cons_ne_nil _ _

end IsaTable.Text
