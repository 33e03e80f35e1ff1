import IsaTable.Proofs.Text.Trimming

/-! # Where lines start and end

    A place in a text is given by what stands in front of it and what stands
    behind it.  A line starts there if the front is empty or ends in a line feed
    (`AtLineStart`), and a line ends there if nothing or a line end stands behind
    it (`AtLineEnd`).

    * **At the start of a line** the pieces of the front and those of what
      follows do not touch (`AtLineStart.exists_pieces_before`).
    * **Anywhere else** they touch in one line, and whatever is put there without
      a line feed changes only this line (`exists_line_around`).
-/

namespace IsaTable.Text

/-! ## §1. Places -/

/-- A line starts behind the text: it is empty or ends in a line feed. -/
def AtLineStart (front : List Char) : Prop :=
  front = [] ∨ front.getLast? = some '\n'

instance (front : List Char) : Decidable (AtLineStart front) := by
  unfold AtLineStart; infer_instance

/-- A line ends before the text: the text is empty, or begins with a line feed,
    or with a carriage return and a line feed. -/
def AtLineEnd (back : List Char) : Prop :=
  back = [] ∨ (∃ rest, back = '\n' :: rest) ∨ ∃ rest, back = '\r' :: '\n' :: rest

/-- Items that are all taken come behind what is taken in front of them. -/
theorem rtakeWhile_append_of_pos {α : Type} {p : α → Bool} {back : List α}
    (h : ∀ a ∈ back, p a = true) (front : List α) :
    (front ++ back).rtakeWhile p = front.rtakeWhile p ++ back := by
  have hback : ∀ a ∈ back.reverse, p a = true := fun a ha => h a (List.mem_reverse.1 ha)
  rw [List.rtakeWhile, List.reverse_append, List.takeWhile_append_of_pos hback,
    List.reverse_append, List.reverse_reverse, ← List.rtakeWhile]

/-- Nothing is taken in front of an item that is not. -/
theorem rtakeWhile_append_cons_of_neg {α : Type} {p : α → Bool} {a : α} (h : p a = false)
    (front back : List α) : (front ++ a :: back).rtakeWhile p = back.rtakeWhile p := by
  have ha : ¬ p a = true := by simp [h]
  induction back using List.reverseRecOn with
  | nil => rw [List.rtakeWhile_concat_neg p _ a ha, List.rtakeWhile_nil]
  | append_singleton back c ih =>
    rw [← List.cons_append, ← List.append_assoc, List.rtakeWhile_concat, List.rtakeWhile_concat, ih]

/-- What stands in front of a place on its line. -/
def lineBefore (front : List Char) : List Char :=
  front.rtakeWhile (· ≠ '\n')

/-- What stands behind a place on its line. -/
def lineAfter (back : List Char) : List Char :=
  back.takeWhile (· ≠ '\n')

theorem newline_not_mem_lineBefore (front : List Char) : '\n' ∉ lineBefore front := by
  intro hmem
  simpa using List.mem_rtakeWhile_imp hmem

theorem newline_not_mem_lineAfter (back : List Char) : '\n' ∉ lineAfter back := by
  intro hmem
  simpa using List.mem_takeWhile_imp hmem

/-- Nothing stands on a line in front of its start. -/
theorem AtLineStart.lineBefore_eq_nil {front : List Char} (h : AtLineStart front) :
    lineBefore front = [] := by
  rcases h with rfl | h
  · rfl
  · obtain ⟨text, rfl⟩ := List.getLast?_eq_some_iff.1 h
    simp [lineBefore]

/-- From the start of a line on, all that stands in front of a place is on its
    line. -/
theorem AtLineStart.lineBefore_append {front line : List Char} (h : AtLineStart front)
    (hline : '\n' ∉ line) : lineBefore (front ++ line) = line := by
  have hall : ∀ c ∈ line, decide (c ≠ '\n') = true := by
    intro c hc
    exact decide_eq_true fun heq => hline (heq ▸ hc)
  have hfront : front.rtakeWhile (· ≠ '\n') = [] := h.lineBefore_eq_nil
  rw [lineBefore, rtakeWhile_append_of_pos hall, hfront, List.nil_append]

theorem lineBefore_eq_self {line : List Char} (h : '\n' ∉ line) : lineBefore line = line :=
  AtLineStart.lineBefore_append (.inl rfl) h

/-- Nothing stands on a line behind its end, unless it is the carriage return of
    its line end. -/
theorem AtLineEnd.allBlank_lineAfter {back : List Char} (h : AtLineEnd back) :
    AllBlank (lineAfter back) := by
  rcases h with rfl | ⟨rest, rfl⟩ | ⟨rest, rfl⟩ <;> simp [lineAfter, AllBlank]

/-! ## §2. Pieces -/

/-- A text is cut into one piece more than it has line feeds. -/
theorem length_splitOn_newline (text : List Char) :
    (text.splitOn '\n').length = text.count '\n' + 1 := by
  induction text with
  | nil => rfl
  | cons c rest ih =>
    rw [List.splitOn, List.splitOnP_cons_eq_if_modifyHead, List.count_cons]
    by_cases hc : c = '\n'
    · simp only [hc, beq_self_eq_true, if_true, List.length_cons]
      rw [← ih, List.splitOn]
    · simp only [beq_iff_eq, hc, if_false, List.length_modifyHead]
      exact ih

/-- **At the start of a line** there are as many pieces in front as there are
    line feeds, and what follows is cut without them. -/
theorem AtLineStart.exists_pieces_before {front : List Char} (h : AtLineStart front) :
    ∃ before : List (List Char), before.length = front.count '\n' ∧
      front.splitOn '\n' = before ++ [[]] ∧
      ∀ rest, (front ++ rest).splitOn '\n' = before ++ rest.splitOn '\n' := by
  rcases h with rfl | h
  · exact ⟨[], rfl, rfl, fun rest => rfl⟩
  · obtain ⟨text, rfl⟩ := List.getLast?_eq_some_iff.1 h
    refine ⟨text.splitOn '\n', ?_, List.splitOn_append_cons_self text [], ?_⟩
    · rw [length_splitOn_newline, List.count_append]
      rfl
    · intro rest
      rw [List.append_assoc]
      exact List.splitOn_append_cons_self text rest

/-- What stands in front of a place is the start of its line, and what stands on
    the line. -/
theorem exists_lineStart (front : List Char) :
    ∃ start, AtLineStart start ∧ front = start ++ lineBefore front := by
  refine ⟨front.rdropWhile (· ≠ '\n'), ?_, List.rdropWhile_append_rtakeWhile.symm⟩
  by_cases hne : front.rdropWhile (· ≠ '\n') = []
  · exact .inl hne
  · have hlast := List.rdropWhile_last_not (· ≠ '\n') front hne
    right
    rw [List.getLast?_eq_some_getLast hne]
    simpa using hlast

/-- What is put in front of a text takes nothing from its last line. -/
theorem lineBefore_suffix (front back : List Char) :
    lineBefore back <:+ lineBefore (front ++ back) := by
  obtain ⟨start, hstart, hback⟩ := exists_lineStart back
  have hline := newline_not_mem_lineBefore back
  generalize lineBefore back = line at hback hline ⊢
  rw [hback, ← List.append_assoc]
  rcases hstart with rfl | hstart
  · -- The last line is the whole text, and what is put there may be on it.
    obtain ⟨start', hstart', hfront⟩ := exists_lineStart front
    have hjoined : '\n' ∉ lineBefore front ++ line := by
      intro hmem
      exact (List.mem_append.1 hmem).elim (newline_not_mem_lineBefore front) hline
    rw [List.append_nil, hfront, List.append_assoc, hstart'.lineBefore_append hjoined]
    exact List.suffix_append _ _
  · have hfront : AtLineStart (front ++ start) := .inr (by simp [hstart])
    exact ⟨[], (hfront.lineBefore_append hline).symm⟩

/-- A line is cut off at its line feed, or at the end of the text. -/
theorem exists_pieces_behind (back : List Char) :
    ∃ after : List (List Char), ∀ line, '\n' ∉ line →
      (line ++ back).splitOn '\n' = (line ++ lineAfter back) :: after := by
  have hsplit : lineAfter back ++ back.dropWhile (· ≠ '\n') = back :=
    List.takeWhile_append_dropWhile
  have hline : ∀ line, '\n' ∉ line → '\n' ∉ line ++ lineAfter back := by
    intro line hline hmem
    exact (List.mem_append.1 hmem).elim hline (newline_not_mem_lineAfter back)
  cases hrest : back.dropWhile (· ≠ '\n') with
  | nil =>
    rw [hrest, List.append_nil] at hsplit
    refine ⟨[], fun line hput => ?_⟩
    rw [← List.splitOn_eq_singleton (hline line hput), hsplit]
  | cons c rest =>
    have hhead := List.head?_dropWhile_not (· ≠ '\n') back
    rw [hrest] at hhead hsplit
    obtain rfl : c = '\n' := by simpa using hhead
    refine ⟨rest.splitOn '\n', fun line hput => ?_⟩
    rw [← List.splitOn_append_cons_self_of_not_mem (hline line hput), List.append_assoc, hsplit]

/-- **Anywhere in a text** whatever is put there without a line feed belongs to
    one line. -/
theorem exists_line_around (front back : List Char) :
    ∃ before after : List (List Char), ∀ put, '\n' ∉ put →
      (front ++ (put ++ back)).splitOn '\n' =
        before ++ (lineBefore front ++ (put ++ lineAfter back)) :: after := by
  obtain ⟨start, hstart, hfront⟩ := exists_lineStart front
  obtain ⟨before, -, -, hbefore⟩ := hstart.exists_pieces_before
  obtain ⟨after, hafter⟩ := exists_pieces_behind back
  refine ⟨before, after, fun put hput => ?_⟩
  have hline : '\n' ∉ lineBefore front ++ put := by
    intro hmem
    exact (List.mem_append.1 hmem).elim (newline_not_mem_lineBefore front) hput
  calc (front ++ (put ++ back)).splitOn '\n'
      = (start ++ ((lineBefore front ++ put) ++ back)).splitOn '\n' := by
        conv_lhs => rw [hfront]
        simp only [List.append_assoc]
    _ = before ++ ((lineBefore front ++ put) ++ back).splitOn '\n' := hbefore _
    _ = before ++ (lineBefore front ++ (put ++ lineAfter back)) :: after := by
        rw [hafter _ hline, List.append_assoc]

/-- What stands around a place on its line is one of the pieces. -/
theorem line_mem_splitOn (front back : List Char) :
    lineBefore front ++ lineAfter back ∈ (front ++ back).splitOn '\n' := by
  obtain ⟨before, after, hpieces⟩ := exists_line_around front back
  have hpiece := hpieces [] List.not_mem_nil
  rw [List.nil_append, List.nil_append] at hpiece
  rw [hpiece]
  exact List.mem_append_right before List.mem_cons_self

end IsaTable.Text
