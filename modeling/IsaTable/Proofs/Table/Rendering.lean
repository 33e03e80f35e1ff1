import IsaTable.Proofs.Table.Loading
import IsaTable.Proofs.Text.Numeral

/-! # Rendering loses nothing

    A rendered table is read back from its text.  Opcodes are copied as they
    are, so a line is read from both of its ends: what stands in front of the
    opcode has a fixed length, and what stands behind it ends in two marked
    numerals, which can be cut off whatever the opcode looks like.  Lines are
    found by their line feeds, as long as no opcode holds one; none that is
    loaded from a pattern text does (`oneLine_of_ofPatterns`).
-/

namespace IsaTable

open Text (hexadecimal cutHexadecimal)

/-! ## §1. Lines -/

/-- The text that consists of the given lines, each ended by a line feed. -/
def Text.ofLines (lines : List (List Char)) : List Char :=
  lines.flatMap (· ++ ['\n'])

/-- The lines are found again; behind the last line feed stands nothing. -/
theorem Text.splitOn_ofLines {lines : List (List Char)} (h : ∀ line ∈ lines, '\n' ∉ line) :
    (Text.ofLines lines).splitOn '\n' = lines ++ [[]] := by
  induction lines with
  | nil => rfl
  | cons line rest ih =>
    obtain ⟨hline, hrest⟩ := List.forall_mem_cons.1 h
    show ((line ++ ['\n']) ++ Text.ofLines rest).splitOn '\n' = _
    rw [List.append_assoc, List.singleton_append,
      List.splitOn_append_cons_self_of_not_mem hline, ih hrest]
    rfl

theorem Text.ofLines_append (front back : List (List Char)) :
    Text.ofLines (front ++ back) = Text.ofLines front ++ Text.ofLines back :=
  List.flatMap_append

/-- A text has a line feed for each of its lines, and those inside of lines. -/
theorem Text.count_newline_ofLines (lines : List (List Char)) :
    (Text.ofLines lines).count '\n' = lines.length + (lines.map (List.count '\n')).sum := by
  induction lines with
  | nil => rfl
  | cons line rest ih =>
    show ((line ++ ['\n']) ++ Text.ofLines rest).count '\n' = _
    rw [List.count_append, List.count_append, ih, List.length_cons, List.map_cons, List.sum_cons]
    show line.count '\n' + 1 + _ = _
    omega

/-- **Lines are told by their number.**  Where a text is divided into lines
    without line feeds, as many pieces as there are lines can only be these
    lines. -/
theorem Text.eq_of_ofLines_eq {pieces lines : List (List Char)} (h : ∀ line ∈ lines, '\n' ∉ line)
    (hlength : pieces.length = lines.length) (heq : Text.ofLines pieces = Text.ofLines lines) :
    pieces = lines := by
  have hnone : (lines.map (List.count '\n')).sum = 0 := by
    rw [List.sum_eq_zero_iff_forall_eq_nat, List.forall_mem_map]
    exact fun line hline => List.count_eq_zero.2 (h line hline)
  -- A line feed inside of a piece would be one too many.
  have hcount := congrArg (List.count '\n') heq
  rw [Text.count_newline_ofLines, Text.count_newline_ofLines, hnone, hlength] at hcount
  have hpieces : ∀ piece ∈ pieces, '\n' ∉ piece := by
    have hzero : (pieces.map (List.count '\n')).sum = 0 := by omega
    rw [List.sum_eq_zero_iff_forall_eq_nat, List.forall_mem_map] at hzero
    exact fun piece hpiece => List.count_eq_zero.1 (hzero piece hpiece)
  have hsplit := Text.splitOn_ofLines hpieces
  rw [heq, Text.splitOn_ofLines h] at hsplit
  exact (List.append_cancel_right hsplit).symm

/-! ## §2. Entries -/

namespace Entry

/-- The line of an entry, without its line feed. -/
def line (e : Entry) : List Char :=
  ("    " ++ e.display).toList

/-- A line in its parts: the opcode and the two numerals, between fixed
    texts. -/
theorem line_eq (e : Entry) :
    e.line = ((([' ', ' ', ' ', ' ', '"'] ++ e.opcode.toList ++ ['"', ' ', '&', ' ']) ++
      (hexadecimal e.matcher.mask.toNat).toList ++ [' ', '=', '=', ' ']) ++
      (hexadecimal e.matcher.bits.toNat).toList) ++ [';'] := by
  simp [line, display]

theorem newline_not_mem_line {e : Entry} (h : '\n' ∉ e.opcode.toList) : '\n' ∉ e.line := by
  have hmask := Text.newline_not_mem_hexadecimal e.matcher.mask.toNat
  have hbits := Text.newline_not_mem_hexadecimal e.matcher.bits.toNat
  rw [line_eq]
  simp [h, hmask, hbits]

/-- The entry that stands on a line, read from the end of the line. -/
def ofLine (line : List Char) : Entry :=
  let bits := cutHexadecimal (line.rdrop 1)
  let mask := cutHexadecimal (bits.1.rdrop 4)
  ⟨String.ofList ((mask.1.rdrop 4).drop 5), ⟨BitVec.ofNat 32 mask.2, BitVec.ofNat 32 bits.2⟩⟩

/-- **An entry is read back from its line**, whatever its opcode is. -/
theorem ofLine_line (e : Entry) : ofLine e.line = e := by
  have hword : ∀ w : Word, BitVec.ofNat 32 w.toNat = w := by
    intro w
    rw [BitVec.ofNat_toNat, BitVec.setWidth_eq]
  have hend : ∀ front : List Char, (front ++ [';']).rdrop 1 = front :=
    fun _ => List.rdrop_append_length
  have hequals : ∀ front : List Char, (front ++ [' ', '=', '=', ' ']).rdrop 4 = front :=
    fun _ => List.rdrop_append_length
  have hand : ∀ front : List Char, (front ++ ['"', ' ', '&', ' ']).rdrop 4 = front :=
    fun _ => List.rdrop_append_length
  -- First the bits are cut off, then the mask.
  simp only [ofLine, line_eq, hend, Text.cutHexadecimal_append, hequals, hand, hword]
  show Entry.mk (String.ofList e.opcode.toList) _ = e
  rw [String.ofList_toList]

end Entry

/-! ## §3. Tables -/

namespace Table

/-- No opcode of the table holds a line feed. -/
def OneLine (t : Table) : Prop :=
  ∀ e ∈ t.entries, '\n' ∉ e.opcode.toList

/-- The lines of the rendered block. -/
def sourceLines (t : Table) (space : String) : List (List Char) :=
  [("use " ++ space ++ "::isa;").toList, [], ['i', 's', 'a', '!', ' ', '\x7b']] ++
    t.entries.map Entry.line ++ [['\x7d']]

/-- A rendered block consists of its lines. -/
theorem toList_source (t : Table) (space : String) :
    (t.source space).toList = Text.ofLines (t.sourceLines space) := by
  have hentries : (String.join (t.entries.map entryLine)).toList =
      Text.ofLines (t.entries.map Entry.line) := by
    rw [String.toList_join, Text.ofLines, List.flatMap_map, List.flatMap_map]
    congr
    funext e
    simp [entryLine, Entry.line]
  rw [source, String.toList_append, String.toList_append, hentries]
  simp [header, footer, sourceLines, Text.ofLines]

theorem newline_not_mem_sourceLines {t : Table} (h : t.OneLine) {space : String}
    (hspace : '\n' ∉ space.toList) : ∀ line ∈ t.sourceLines space, '\n' ∉ line := by
  have hentries : ∀ line ∈ t.entries.map Entry.line, '\n' ∉ line := by
    intro line hline
    obtain ⟨e, he, rfl⟩ := List.mem_map.1 hline
    exact Entry.newline_not_mem_line (h e he)
  have hheader : ∀ line ∈ [("use " ++ space ++ "::isa;").toList, [],
      ['i', 's', 'a', '!', ' ', '\x7b']], '\n' ∉ line := by
    simp [hspace]
  exact List.forall_mem_append.2
    ⟨List.forall_mem_append.2 ⟨hheader, hentries⟩, by simp⟩

/-- The namespace and the table that a text shows: the first from its first
    line, the second from the lines between the three in front and the one at
    the end. -/
def ofSource (text : String) : String × Table :=
  let lines := text.toList.splitOn '\n'
  (String.ofList (((lines.headD []).drop 4).rdrop 6),
    ⟨((lines.drop 3).rdrop 2).map Entry.ofLine⟩)

/-- **A table is read back from its text**, and so is the namespace. -/
theorem ofSource_source_eq {t : Table} (h : t.OneLine) {space : String}
    (hspace : '\n' ∉ space.toList) : ofSource (t.source space) = (space, t) := by
  have hsplit := Text.splitOn_ofLines (newline_not_mem_sourceLines h hspace)
  have hheader : (("use " ++ space ++ "::isa;").toList.drop 4).rdrop 6 = space.toList := by
    have hfront : ("use " ++ space ++ "::isa;").toList.drop 4 =
        space.toList ++ [':', ':', 'i', 's', 'a', ';'] := by simp
    rw [hfront]
    exact List.rdrop_append_length
  have hentries : ((t.sourceLines space ++ [[]]).drop 3).rdrop 2 = t.entries.map Entry.line := by
    have hfront : (t.sourceLines space ++ [[]]).drop 3 =
        t.entries.map Entry.line ++ [['\x7d'], []] := by simp [sourceLines]
    rw [hfront]
    exact List.rdrop_append_length
  have hread : (t.entries.map Entry.line).map Entry.ofLine = t.entries := by
    rw [List.map_map]
    exact (List.map_congr_left fun e _ => Entry.ofLine_line e).trans (List.map_id _)
  unfold ofSource
  rw [toList_source, hsplit]
  simp only [hentries, hread]
  refine Prod.ext ?_ rfl
  show String.ofList ((("use " ++ space ++ "::isa;").toList.drop 4).rdrop 6) = space
  rw [hheader, String.ofList_toList]

/-- An opcode that is loaded from a pattern text is a word, hence holds no
    blank. -/
theorem not_blank_of_ofPatterns {text : String} {t : Table}
    (ht : (ofPatterns text).outcome = .ok t) :
    ∀ e ∈ t.entries, ∀ c ∈ e.opcode.toList, Text.isBlank c = false := by
  intro e he
  rw [(ofPatterns_of_ok ht).1] at he
  obtain ⟨l, hl, rfl⟩ := List.mem_map.1 he
  have hword : l.opcode.toList ∈ Text.words l.text := by
    rw [words_of_mem_instructionLines hl]
    exact List.mem_cons_self
  exact Text.not_blank_of_mem_words hword

/-- In particular it holds no line feed. -/
theorem oneLine_of_ofPatterns {text : String} {t : Table}
    (ht : (ofPatterns text).outcome = .ok t) : t.OneLine := by
  intro e he hmem
  exact absurd (not_blank_of_ofPatterns ht e he _ hmem) (by simp)

/-- **Rendering loses nothing.**  Where no opcode and no namespace holds a line
    feed, which is so for all that is loaded from a pattern text, the namespace
    and the entries can be read back from the text, and so no other pair has
    the same text.  The text has four lines more than the table has entries,
    each ended by a line feed, and the entries stand on the lines from the
    fourth on. -/
theorem source_recoverable {t : Table} (h : t.OneLine) {space : String}
    (hspace : '\n' ∉ space.toList) :
    (∀ text u, (ofPatterns text).outcome = .ok u → u.OneLine) ∧
    ofSource (t.source space) = (space, t) ∧
    (∀ (t' : Table) (space' : String), t'.OneLine → '\n' ∉ space'.toList →
      t'.source space' = t.source space → space' = space ∧ t' = t) ∧
    ∃ lines : List (List Char),
      (t.source space).toList = lines.flatMap (· ++ ['\n']) ∧
      (∀ line ∈ lines, '\n' ∉ line) ∧
      lines.length = t.size + 4 ∧
      ∀ i (hi : i < t.entries.length),
        lines[i + 3]? = some ("    " ++ t.entries[i].display).toList := by
  refine ⟨fun _ _ => oneLine_of_ofPatterns, ofSource_source_eq h hspace, ?_, ?_⟩
  · intro t' space' h' hspace' heq
    have hread := ofSource_source_eq h' hspace'
    rw [heq, ofSource_source_eq h hspace] at hread
    exact Prod.mk.inj hread.symm
  · refine ⟨t.sourceLines space, toList_source t space,
      newline_not_mem_sourceLines h hspace, ?_, ?_⟩
    · simp [sourceLines, size]
    · intro i hi
      have hentry : (t.entries.map Entry.line ++ [['\x7d']])[i]? =
          some ("    " ++ t.entries[i].display).toList := by
        rw [List.getElem?_append_left (by simpa using hi)]
        simp [Entry.line, hi]
      exact hentry

/-- An opcode that looks like the tail of a line, and a namespace that looks
    like the header, are told from the real ones. -/
theorem source_recoverable_lookalike :
    OneLine ⟨[⟨"a\" & 0x1 == 0x2;", ⟨0, 0⟩⟩, ⟨"", ⟨0xffffffff, 0xff⟩⟩]⟩ ∧
    '\n' ∉ "m::isa; isa!".toList ∧
    ofSource (source ⟨[⟨"a\" & 0x1 == 0x2;", ⟨0, 0⟩⟩, ⟨"", ⟨0xffffffff, 0xff⟩⟩]⟩ "m::isa; isa!") =
      ("m::isa; isa!", ⟨[⟨"a\" & 0x1 == 0x2;", ⟨0, 0⟩⟩, ⟨"", ⟨0xffffffff, 0xff⟩⟩]⟩) := by
  have hopcodes : OneLine ⟨[⟨"a\" & 0x1 == 0x2;", ⟨0, 0⟩⟩, ⟨"", ⟨0xffffffff, 0xff⟩⟩]⟩ := by
    unfold OneLine
    decide
  have hspace : '\n' ∉ "m::isa; isa!".toList := by decide
  exact ⟨hopcodes, hspace, (source_recoverable hopcodes hspace).2.1⟩

end Table

end IsaTable
