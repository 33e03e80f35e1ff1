import IsaTable.Json.Table
import IsaTable.Proofs.Declaration
import IsaTable.Proofs.Table.Rendering
import IsaTable.Proofs.Text.Literal

/-! # The block as the macro reads it

    The macro reads the rendered block line by line, and on each line a string
    literal and two numbers.  The renderer copies opcodes as they are, so what
    the macro reads depends on them:

    * **One line is one statement** about an entry exactly when the opcode,
      put between quotes, denotes itself and stays on the line
      (`Entry.isStatement_line_iff`).
    * **The block is read as the table** exactly when this is so for every
      opcode (`Table.isBlock_source_iff`).
    * **The loaders let other opcodes through**: quotes and backslashes stand
      in words of pattern texts, and line ends in JSON strings
      (`Table.LoadedWith`, `Table.source_isBlock_iff`).
-/

namespace IsaTable

open Text (hexadecimal)

/-! ## §1. Statements -/

/-- An opcode that may be put between quotes as it is: it neither ends the
    literal nor the line, and nothing in it is an escape. -/
def IsQuotable (opcode : String) : Prop :=
  ∀ c ∈ opcode.toList, c ≠ '"' ∧ c ≠ '\\' ∧ c ≠ '\n' ∧ c ≠ '\r'

instance (opcode : String) : Decidable (IsQuotable opcode) :=
  List.decidableBAll _ opcode.toList

/-- An opcode is quotable when its characters are plain and none is a line
    feed, which a literal may hold but a line may not. -/
theorem isQuotable_iff {opcode : String} :
    IsQuotable opcode ↔
      '\n' ∉ opcode.toList ∧ ∀ c ∈ opcode.toList, Text.Literal.IsPlain c := by
  constructor
  · intro h
    refine ⟨fun hmem => (h _ hmem).2.2.1 rfl, ?_⟩
    intro c hc
    obtain ⟨hquote, hbackslash, -, hreturn⟩ := h c hc
    exact ⟨hquote, hbackslash, hreturn⟩
  · intro h c hc
    obtain ⟨hquote, hbackslash, hreturn⟩ := h.2 c hc
    refine ⟨hquote, hbackslash, ?_, hreturn⟩
    intro hnewline
    exact h.1 (hnewline ▸ hc)

namespace Entry

/-- What stands behind the opcode of an entry: the closing quote and the two
    numerals. -/
def comparison (e : Entry) : String :=
  "\" & " ++ hexadecimal e.matcher.mask.toNat ++ " == " ++
    hexadecimal e.matcher.bits.toNat ++ ";"

/-- The line states the entry: behind four spaces it has a literal that denotes
    the opcode, and then the mask and the bits. -/
def IsStatement (e : Entry) (line : List Char) : Prop :=
  ∃ raw, Text.Literal.Reads raw e.opcode.toList ∧
    line = "    \"".toList ++ (raw ++ e.comparison.toList)

/-- The line of an entry has the opcode verbatim. -/
theorem line_eq_verbatim (e : Entry) :
    e.line = "    \"".toList ++ (e.opcode.toList ++ e.comparison.toList) := by
  simp [line, display, comparison]

/-- The line of an entry states it when the opcode denotes itself. -/
theorem isStatement_line_iff (e : Entry) :
    e.IsStatement e.line ↔ ∀ c ∈ e.opcode.toList, Text.Literal.IsPlain c := by
  rw [← Text.Literal.reads_self_iff, line_eq_verbatim]
  constructor
  · intro h
    obtain ⟨raw, hreads, hline⟩ := h
    -- Between what stands in front and behind there is only the opcode.
    have hraw : e.opcode.toList = raw :=
      List.append_cancel_right (List.append_cancel_left hline)
    rw [← hraw] at hreads
    exact hreads
  · intro h
    exact ⟨e.opcode.toList, h, rfl⟩

theorem newline_mem_line_iff (e : Entry) : '\n' ∈ e.line ↔ '\n' ∈ e.opcode.toList := by
  constructor
  · exact not_imp_not.1 newline_not_mem_line
  · intro h
    rw [line_eq_verbatim, List.mem_append, List.mem_append]
    exact .inr (.inl h)

/-- The line is one line and states its entry exactly when the opcode is
    quotable. -/
theorem oneStatement_line_iff (e : Entry) :
    '\n' ∉ e.line ∧ e.IsStatement e.line ↔ IsQuotable e.opcode := by
  rw [isQuotable_iff, newline_mem_line_iff, isStatement_line_iff]

end Entry

/-! ## §2. Blocks -/

namespace Table

/-- The lines of a block with the given statements. -/
def blockLines (space : String) (statements : List (List Char)) : List (List Char) :=
  [("use " ++ space ++ "::isa;").toList, [], ['i', 's', 'a', '!', ' ', '\x7b']] ++
    statements ++ [['\x7d']]

/-- The text is a block that the macro reads as the table: between the lines in
    front and the closing one it has one line for each entry, in order, which
    states that entry. -/
def IsBlock (t : Table) (space text : String) : Prop :=
  ∃ statements, text.toList = Text.ofLines (blockLines space statements) ∧
    (∀ line ∈ statements, '\n' ∉ line) ∧ List.Forall₂ Entry.IsStatement t.entries statements

/-- A rendered table is a block of the lines of its entries, whatever is on
    them. -/
theorem toList_source_eq_blockLines (t : Table) (space : String) :
    (t.source space).toList = Text.ofLines (blockLines space (t.entries.map Entry.line)) :=
  toList_source t space

/-- Blocks of one text have the same statements, if there are as many and those
    of one are lines. -/
theorem statements_unique {space : String} {statements statements' : List (List Char)}
    (h : ∀ line ∈ statements', '\n' ∉ line) (hlength : statements.length = statements'.length)
    (heq : Text.ofLines (blockLines space statements) =
      Text.ofLines (blockLines space statements')) : statements = statements' := by
  unfold blockLines at heq
  rw [Text.ofLines_append, Text.ofLines_append, Text.ofLines_append, Text.ofLines_append] at heq
  exact Text.eq_of_ofLines_eq h hlength
    (List.append_cancel_left (List.append_cancel_right heq))

/-- **The block is read as the table** exactly when every opcode is
    quotable. -/
theorem isBlock_source_iff (t : Table) (space : String) :
    t.IsBlock space (t.source space) ↔ ∀ e ∈ t.entries, IsQuotable e.opcode := by
  simp only [← Entry.oneStatement_line_iff]
  constructor
  · intro h
    obtain ⟨statements, htext, hlines, hstates⟩ := h
    rw [toList_source_eq_blockLines] at htext
    -- There is no other way to find as many lines in the text.
    have hlength : (t.entries.map Entry.line).length = statements.length := by
      rw [List.length_map, hstates.length_eq]
    obtain rfl := statements_unique hlines hlength htext
    rw [List.forall₂_map_right_iff, List.forall₂_same] at hstates
    rw [List.forall_mem_map] at hlines
    intro e he
    exact ⟨hlines e he, hstates e he⟩
  · intro h
    refine ⟨t.entries.map Entry.line, toList_source_eq_blockLines t space, ?_, ?_⟩
    · rw [List.forall_mem_map]
      exact fun e he => (h e he).1
    · rw [List.forall₂_map_right_iff, List.forall₂_same]
      exact fun e he => (h e he).2

/-! ## §3. Loaded tables -/

/-- The table has been loaded from a text with the given opcodes, in order, by
    one of the two loaders. -/
inductive LoadedWith : Table → List String → Prop where
  /-- From the instruction lines of a pattern text. -/
  | ofPatterns {text : String} {t : Table} (h : (Table.ofPatterns text).outcome = .ok t) :
      LoadedWith t ((instructionLines text).map WrittenLine.opcode)
  /-- From the declared instructions of a JSON text. -/
  | ofJson {text : String} {d : TableDecl} {t : Table} (hread : TableDecl.ofJson text = .ok d)
      (h : (Table.ofDecl d).outcome = .ok t) :
      LoadedWith t (d.instructions.map InstructionDecl.opcode)

/-- What is loaded from a declaration has one entry for each of its
    instructions. -/
theorem opcodes_of_ofDecl {d : TableDecl} {t : Table} (ht : (ofDecl d).outcome = .ok t) :
    t.entries.map Entry.opcode = d.instructions.map InstructionDecl.opcode := by
  unfold ofDecl at ht
  cases hcheck : d.check with
  | error e =>
    rw [hcheck] at ht
    exact nomatch ht
  | ok instructions =>
    rw [hcheck] at ht
    rw [entries_of_compile ht, List.map_map, ← TableDecl.opcodes_of_check hcheck]
    rfl

/-- **Opcodes are copied**: the entries have the opcodes of the input, in input
    order. -/
theorem LoadedWith.opcodes_eq {t : Table} {opcodes : List String} (h : t.LoadedWith opcodes) :
    t.entries.map Entry.opcode = opcodes := by
  cases h with
  | ofPatterns ht =>
    rw [(ofPatterns_of_ok ht).1, List.map_map]
    rfl
  | ofJson _ ht => exact opcodes_of_ofDecl ht

/-- In what is loaded from a pattern text, quotes and backslashes are all that
    can go wrong. -/
theorem isQuotable_iff_of_ofPatterns {text : String} {t : Table}
    (ht : (ofPatterns text).outcome = .ok t) {e : Entry} (he : e ∈ t.entries) :
    IsQuotable e.opcode ↔ '"' ∉ e.opcode.toList ∧ '\\' ∉ e.opcode.toList := by
  have hblank := not_blank_of_ofPatterns ht e he
  constructor
  · intro h
    exact ⟨fun hmem => (h _ hmem).1 rfl, fun hmem => (h _ hmem).2.1 rfl⟩
  · intro h c hc
    refine ⟨fun hquote => h.1 (hquote ▸ hc), fun hbackslash => h.2 (hbackslash ▸ hc), ?_, ?_⟩
    -- Line feeds and carriage returns are blank.
    · intro hnewline
      exact absurd (hblank c hc) (by simp [hnewline])
    · intro hreturn
      exact absurd (hblank c hc) (by simp [hreturn])

/-- **What the macro reads.**  A loaded table, rendered with the default
    namespace, has the lines in front, then for each instruction of the input,
    in order, four spaces and the opcode verbatim between quotes with the mask
    and the bits, and the closing line.  What stands there for an instruction
    is one line and states it exactly when its opcode holds no quote, no
    backslash and no line feed or carriage return; and the macro reads the
    block as the table exactly when this is so for all opcodes of the input.
    For pattern texts quotes and backslashes are all that matters. -/
theorem source_isBlock_iff {t : Table} {opcodes : List String} (h : t.LoadedWith opcodes) :
    t.entries.map Entry.opcode = opcodes ∧
      (t.source defaultNamespace).toList =
        Text.ofLines (blockLines defaultNamespace (t.entries.map fun e =>
          ("    \"" ++ e.opcode ++ "\" & " ++ hexadecimal e.matcher.mask.toNat ++ " == " ++
            hexadecimal e.matcher.bits.toNat ++ ";").toList)) ∧
      (∀ e ∈ t.entries, '\n' ∉ e.line ∧ e.IsStatement e.line ↔ IsQuotable e.opcode) ∧
      (t.IsBlock defaultNamespace (t.source defaultNamespace) ↔
        ∀ opcode ∈ opcodes, IsQuotable opcode) ∧
      ∀ text, (ofPatterns text).outcome = .ok t → ∀ e ∈ t.entries,
        (IsQuotable e.opcode ↔ '"' ∉ e.opcode.toList ∧ '\\' ∉ e.opcode.toList) := by
  refine ⟨h.opcodes_eq, ?_, fun e _ => e.oneStatement_line_iff, ?_, ?_⟩
  · have hline : Entry.line = fun e => ("    \"" ++ e.opcode ++ "\" & " ++
        hexadecimal e.matcher.mask.toNat ++ " == " ++ hexadecimal e.matcher.bits.toNat ++
          ";").toList := by
      funext e
      simp [e.line_eq_verbatim, Entry.comparison]
    rw [toList_source_eq_blockLines, hline]
  · rw [isBlock_source_iff, ← h.opcodes_eq, List.forall_mem_map]
  · exact fun text ht e he => isQuotable_iff_of_ofPatterns ht he

/-- Opcodes that look like the end of a line, or like a comment, are quotable:
    the block is read as the table. -/
theorem source_isBlock_iff_lookalike :
    let t : Table := ⟨[⟨"&==;", ⟨0xfc000000#32, 0x04000000#32⟩⟩,
      ⟨"//n", ⟨0xfc000000#32, 0x08000000#32⟩⟩]⟩
    t.LoadedWith ["&==;", "//n"] ∧ t.IsBlock defaultNamespace (t.source defaultNamespace) := by
  intro t
  have hpatterns : (ofPatterns "&==; 0,5,1\n//n 0,5,2").outcome = .ok t := rfl
  have hload : t.LoadedWith ["&==;", "//n"] := .ofPatterns hpatterns
  exact ⟨hload, (source_isBlock_iff hload).2.2.2.1.2 (by decide)⟩

/-- **A quote in an opcode ends its literal.**  This text is loaded, and its
    block is not read as the table. -/
theorem source_not_isBlock_quote :
    let t : Table := ⟨[⟨"a\"b", ⟨0xfc000000#32, 0x04000000#32⟩⟩]⟩
    (ofPatterns "a\"b 0,5,1").outcome = .ok t ∧ t.LoadedWith ["a\"b"] ∧
      ¬ t.IsBlock defaultNamespace (t.source defaultNamespace) := by
  intro t
  have hload : (ofPatterns "a\"b 0,5,1").outcome = .ok t := rfl
  refine ⟨hload, LoadedWith.ofPatterns hload, ?_⟩
  rw [isBlock_source_iff]
  decide

end Table

end IsaTable
