import IsaTable.Proofs.Pattern.LineGrammar
import IsaTable.Proofs.Pattern.LineNumbers

/-! # Layout of a text

    A text may be laid out anew without changing what there is to read in it.
    The single edits (`Edit`) are of two kinds:

    * **lines are put in** that are blank or comments, and all lines behind them
      move down by one;
    * **blanks are changed** on a line, at its two ends or between its words,
      and no line moves.

    After any number of them (`Relaid`) the instruction lines are the same but
    for the blanks between their words, in the same order, and each stands where
    the edits have moved it (`Relaid.moved`).
-/

namespace IsaTable

open Text

/-! ## §1. Edits -/

/-- Where a line stands after one line more has been put in behind the first
    `k`. -/
def passOver (k n : Nat) : Nat :=
  if n ≤ k then n else n + 1

theorem passOver_of_le {k n : Nat} (h : n ≤ k) : passOver k n = n :=
  if_pos h

theorem passOver_of_lt {k n : Nat} (h : k < n) : passOver k n = n + 1 :=
  if_neg (Nat.not_le.2 h)

/-- `Edit text f text'`: one change of layout makes `text'` of `text`, and moves
    line `n` to line `f n`. -/
inductive Edit : List Char → (Nat → Nat) → List Char → Prop where
  /-- A blank line or a comment is put in where a line starts. -/
  | insertLine {front line : List Char} (hfront : AtLineStart front) (hline : IsSkippedLine line)
      (hone : '\n' ∉ line) (back : List Char) :
      Edit (front ++ back) (passOver (front.count '\n')) (front ++ (line ++ '\n' :: back))
  /-- It is put in behind the last line feed. -/
  | endLine {text line : List Char} (htext : AtLineStart text) (hline : IsSkippedLine line)
      (hone : '\n' ∉ line) : Edit text id (text ++ line)
  /-- It is put in behind a last line that had no line feed. -/
  | nextLine (text : List Char) {line : List Char} (hline : IsSkippedLine line)
      (hone : '\n' ∉ line) : Edit text id (text ++ '\n' :: line)
  /-- A line end gets a carriage return. -/
  | addReturn (front back : List Char) :
      Edit (front ++ '\n' :: back) id (front ++ '\r' :: '\n' :: back)
  /-- Blanks are put where a line starts. -/
  | padStart {front blanks : List Char} (hfront : AtLineStart front) (hblanks : AllBlank blanks)
      (hone : '\n' ∉ blanks) (back : List Char) :
      Edit (front ++ back) id (front ++ (blanks ++ back))
  /-- Blanks are put where a line ends. -/
  | padEnd (front : List Char) {blanks back : List Char} (hback : AtLineEnd back)
      (hblanks : AllBlank blanks) (hone : '\n' ∉ blanks) :
      Edit (front ++ back) id (front ++ (blanks ++ back))
  /-- A gap is replaced by another. -/
  | changeGap (front : List Char) {blanks blanks' : List Char} (hblanks : AllBlank blanks)
      (hne : blanks ≠ []) (hone : '\n' ∉ blanks) (hblanks' : AllBlank blanks')
      (hne' : blanks' ≠ []) (hone' : '\n' ∉ blanks') (back : List Char) :
      Edit (front ++ (blanks ++ back)) id (front ++ (blanks' ++ back))

/-- `Relaid text f text'`: some changes of layout make `text'` of `text`, and
    together move line `n` to line `f n`. -/
inductive Relaid (text : List Char) : (Nat → Nat) → List Char → Prop where
  /-- Nothing is changed. -/
  | refl : Relaid text id text
  /-- One more change is made. -/
  | edit {f g : Nat → Nat} {text' text'' : List Char} (h : Relaid text f text')
      (hedit : Edit text' g text'') : Relaid text (g ∘ f) text''

/-! ## §2. Moved lines -/

/-- The line `l'` is the line `l` moved by `f`, with the same words. -/
structure WrittenLine.Moved (f : Nat → Nat) (l l' : WrittenLine) : Prop where
  /-- It stands where `f` says. -/
  number : l'.number = f l.number
  /-- Its words are the same. -/
  words : words l'.text = words l.text

/-- Lines may be moved twice. -/
theorem WrittenLine.Moved.trans {f g : Nat → Nat} {l l' l'' : WrittenLine} (h : Moved f l l')
    (h' : Moved g l' l'') : Moved (g ∘ f) l l'' := by
  refine ⟨?_, h'.words.trans h.words⟩
  rw [h'.number, h.number]
  rfl

/-- Nothing is moved where nothing is changed. -/
theorem forall₂_moved_refl (ls : List WrittenLine) :
    List.Forall₂ (WrittenLine.Moved id) ls ls :=
  List.forall₂_same.2 fun _ _ => ⟨rfl, rfl⟩

/-- All lines of a text may be moved twice, too. -/
theorem forall₂_moved_trans {f g : Nat → Nat} {ls ls' ls'' : List WrittenLine}
    (h : List.Forall₂ (WrittenLine.Moved f) ls ls')
    (h' : List.Forall₂ (WrittenLine.Moved g) ls' ls'') :
    List.Forall₂ (WrittenLine.Moved (g ∘ f)) ls ls'' := by
  induction h generalizing ls'' with
  | nil =>
    rw [List.forall₂_nil_left_iff] at h'
    rw [h']
    exact .nil
  | cons hl _ ih =>
    obtain ⟨l'', rest'', hl', hrest, rfl⟩ := List.forall₂_cons_left_iff.1 h'
    exact .cons (hl.trans hl') (ih hrest)

/-- Pieces with the same words hold the same instruction lines. -/
theorem forall₂_instructionsAmong {f : Nat → Nat} {numbered numbered' : List (List Char × Nat)}
    (h : List.Forall₂ (fun p p' => p'.2 = f p.2 ∧ words p'.1 = words p.1) numbered numbered') :
    List.Forall₂ (WrittenLine.Moved f) (instructionsAmong numbered)
      (instructionsAmong numbered') := by
  induction h with
  | nil => exact .nil
  | @cons p p' _ _ hp _ ih =>
    obtain ⟨hnumber, hwords⟩ := hp
    have hsame := isInstructionLine_congr hwords
    by_cases hp : isInstructionLine p.1 = true
    · rw [instructionsAmong_cons_of_instruction hp,
        instructionsAmong_cons_of_instruction (hsame.trans hp)]
      refine .cons ⟨hnumber, ?_⟩ ih
      show words (trim p'.1) = words (trim p.1)
      rw [words_trim, words_trim, hwords]
    · rw [Bool.not_eq_true] at hp
      rwa [instructionsAmong_cons_of_skipped hp, instructionsAmong_cons_of_skipped (hsame.trans hp)]

/-! ## §3. One edit -/

/-- The instruction lines of a text that is given by its characters. -/
def instructionsIn (text : List Char) : List WrittenLine :=
  instructionsAmong ((text.splitOn '\n').zipIdx 1)

/-- **A change on one line** that keeps its words moves nothing. -/
theorem moved_of_line {front put put' back : List Char} (hput : '\n' ∉ put) (hput' : '\n' ∉ put')
    (hwords : words (lineBefore front ++ (put' ++ lineAfter back)) =
      words (lineBefore front ++ (put ++ lineAfter back))) :
    List.Forall₂ (WrittenLine.Moved id) (instructionsIn (front ++ (put ++ back)))
      (instructionsIn (front ++ (put' ++ back))) := by
  obtain ⟨before, after, hsplit⟩ := exists_line_around front back
  unfold instructionsIn
  rw [hsplit put hput, hsplit put' hput', List.zipIdx_append, List.zipIdx_append,
    List.zipIdx_cons, List.zipIdx_cons]
  apply forall₂_instructionsAmong
  apply List.rel_append
  · exact List.forall₂_same.2 fun _ _ => ⟨rfl, rfl⟩
  · exact .cons ⟨rfl, hwords⟩ (List.forall₂_same.2 fun _ _ => ⟨rfl, rfl⟩)

/-- Blanks at the end of a line are such a change. -/
theorem moved_of_padEnd (front : List Char) {blanks back : List Char} (hback : AtLineEnd back)
    (hblanks : AllBlank blanks) (hone : '\n' ∉ blanks) :
    List.Forall₂ (WrittenLine.Moved id) (instructionsIn (front ++ back))
      (instructionsIn (front ++ (blanks ++ back))) := by
  have hboth : AllBlank (blanks ++ lineAfter back) := by
    intro c hc
    exact (List.mem_append.1 hc).elim (hblanks c) (hback.allBlank_lineAfter c)
  refine @moved_of_line front [] blanks back List.not_mem_nil hone ?_
  rw [words_append_back hboth, List.nil_append, words_append_back hback.allBlank_lineAfter]

/-- **A line put in** without an instruction moves those behind it. -/
theorem moved_of_insertLine {front line : List Char} (hfront : AtLineStart front)
    (hline : isInstructionLine line = false) (hone : '\n' ∉ line) (back : List Char) :
    List.Forall₂ (WrittenLine.Moved (passOver (front.count '\n'))) (instructionsIn (front ++ back))
      (instructionsIn (front ++ (line ++ '\n' :: back))) := by
  obtain ⟨before, hlength, -, hpieces⟩ := hfront.exists_pieces_before
  unfold instructionsIn
  rw [hpieces, hpieces, List.splitOn_append_cons_self_of_not_mem hone, List.zipIdx_append,
    List.zipIdx_append, List.zipIdx_cons, instructionsAmong_append, instructionsAmong_append,
    instructionsAmong_cons_of_skipped hline, hlength, instructionsAmong_zipIdx_add _ (1 + _) 1]
  apply List.rel_append
  · apply List.forall₂_same.2
    intro l hl
    obtain ⟨_, hbefore, -, -⟩ := exists_of_mem_instructionsAmong hl
    have hnumber : l.number < 1 + before.length := List.snd_lt_add_of_mem_zipIdx hbefore
    exact ⟨(passOver_of_le (by omega)).symm, rfl⟩
  · rw [List.forall₂_map_right_iff]
    apply List.forall₂_same.2
    intro l hl
    obtain ⟨_, hbehind, -, -⟩ := exists_of_mem_instructionsAmong hl
    have hnumber : 1 + front.count '\n' ≤ l.number := List.le_snd_of_mem_zipIdx hbehind
    exact ⟨(passOver_of_lt (by omega)).symm, rfl⟩

/-- **A last line put in** without an instruction is not seen, whether there was
    a line feed to put it behind or not. -/
theorem instructionsIn_of_endLine {text line : List Char} (htext : AtLineStart text)
    (hline : isInstructionLine line = false) (hone : '\n' ∉ line) :
    instructionsIn (text ++ line) = instructionsIn text := by
  obtain ⟨before, -, halone, hpieces⟩ := htext.exists_pieces_before
  unfold instructionsIn
  rw [hpieces, halone, List.splitOn_eq_singleton hone,
    instructionsAmong_concat_of_skipped hline, instructionsAmong_concat_of_skipped rfl]

theorem instructionsIn_of_nextLine (text : List Char) {line : List Char}
    (hline : isInstructionLine line = false) (hone : '\n' ∉ line) :
    instructionsIn (text ++ '\n' :: line) = instructionsIn text := by
  unfold instructionsIn
  rw [List.splitOn_append_cons_self, List.splitOn_eq_singleton hone,
    instructionsAmong_concat_of_skipped hline]

/-- **One edit** keeps the instruction lines, and moves them as it says. -/
theorem Edit.moved {text text' : List Char} {f : Nat → Nat} (h : Edit text f text') :
    List.Forall₂ (WrittenLine.Moved f) (instructionsIn text) (instructionsIn text') := by
  cases h with
  | insertLine hfront hline hone back =>
    exact moved_of_insertLine hfront (isInstructionLine_of_skipped hline) hone back
  | endLine htext hline hone =>
    rw [instructionsIn_of_endLine htext (isInstructionLine_of_skipped hline) hone]
    exact forall₂_moved_refl _
  | nextLine text hline hone =>
    rw [instructionsIn_of_nextLine text (isInstructionLine_of_skipped hline) hone]
    exact forall₂_moved_refl _
  | addReturn front back =>
    have hend : AtLineEnd ('\n' :: back) := .inr (.inl ⟨back, rfl⟩)
    exact @moved_of_padEnd front ['\r'] _ hend (by decide) (by decide)
  | @padStart front blanks hfront hblanks hone back =>
    refine @moved_of_line front [] blanks back List.not_mem_nil hone ?_
    rw [hfront.lineBefore_eq_nil, List.nil_append, List.nil_append, List.nil_append,
      words_append_front hblanks]
  | padEnd front hback hblanks hone => exact moved_of_padEnd front hback hblanks hone
  | changeGap front hblanks hne hone hblanks' hne' hone' back =>
    apply moved_of_line hone hone'
    rw [words_append_gap hblanks hne, words_append_gap hblanks' hne']

/-! ## §4. Any number of edits -/

/-- **What there is to read stays.**  However a text is laid out anew, its
    instruction lines are the same lines, moved. -/
theorem Relaid.moved {text text' : String} {f : Nat → Nat}
    (h : Relaid text.toList f text'.toList) :
    List.Forall₂ (WrittenLine.Moved f) (instructionLines text) (instructionLines text') := by
  rw [instructionLines_eq_among_pieces, instructionLines_eq_among_pieces]
  generalize text'.toList = relaid at h
  show List.Forall₂ _ (instructionsIn _) (instructionsIn relaid)
  induction h with
  | refl => exact forall₂_moved_refl _
  | edit _ hedit ih => exact forall₂_moved_trans ih hedit.moved

end IsaTable
