import IsaTable.Proofs.Agreement
import IsaTable.Proofs.Pattern.Relayout
import IsaTable.Proofs.Table.Loading

/-! # Loading does not see the layout

    Two layouts of one text are loaded as one table, or refused for the same
    thing at the same line, wherever that line stands in each
    (`Table.ofPatterns_relaid`).

    Each step of loading does the same on both sides: reading a line sees its
    words alone, compiling it sees what was read, and neither the number nor the
    blanks decide which line is the first to fail.  So the two layouts **agree**
    line by line, in both phases, and therefore as a whole.
-/

namespace IsaTable

open Text

/-! ## §1. What is moved -/

/-- The source line `s'` is the source line `s` moved by `f`: it says the same
    in the same words. -/
structure SourceLine.Moved (f : Nat → Nat) (s s' : SourceLine) : Prop where
  /-- It stands where `f` says. -/
  line : s'.line = f s.line
  /-- Its words are the same. -/
  words : words s'.text.toList = words s.text.toList
  /-- It says the same. -/
  instruction : s'.instruction = s.instruction

/-- The error `e'` is the error `e` moved by `f`: the same is wrong with a line
    of the same words. -/
structure LineError.Moved (f : Nat → Nat) (e e' : LineError) : Prop where
  /-- It stands where `f` says. -/
  line : e'.line = f e.line
  /-- The words of its line are the same. -/
  words : words e'.text.toList = words e.text.toList
  /-- The same is wrong. -/
  kind : e'.kind = e.kind

variable {f : Nat → Nat}

theorem SourceLine.Moved.error {s s' : SourceLine} (h : Moved f s s') (kind : PatternError) :
    LineError.Moved f (s.error kind) (s'.error kind) :=
  ⟨h.line, h.words, rfl⟩

/-! ## §2. The two phases -/

/-- A moved line is read as before. -/
theorem WrittenLine.Moved.read_agrees {l l' : WrittenLine} (h : Moved f l l') :
    Agree (SourceLine.Moved f) (LineError.Moved f) l.read l'.read := by
  have hopcode : l'.opcode = l.opcode := by rw [opcode, opcode, h.words]
  have htokens : l'.tokens = l.tokens := by rw [tokens, tokens, h.words]
  have hwords : Text.words (String.ofList l'.text).toList =
      Text.words (String.ofList l.text).toList := by
    rw [String.toList_ofList, String.toList_ofList, h.words]
  rw [read, read, htokens, hopcode]
  cases l.tokens.mapM Field.ofToken with
  | ok fields => exact .ok ⟨h.number, hwords, rfl⟩
  | error kind => exact .error ⟨h.number, hwords, rfl⟩

/-- What was read compiles as before. -/
theorem SourceLine.Moved.compileLine_agrees {s s' : SourceLine} (h : Moved f s s') :
    Agree Eq (LineError.Moved f) (Table.compileLine s).outcome (Table.compileLine s').outcome := by
  have hfields : s'.instruction.fields = s.instruction.fields := by rw [h.instruction]
  by_cases hne : s.instruction.fields ≠ []
  · rw [Table.compileLine_of_ne_nil hne, Table.compileLine_of_ne_nil (hfields ▸ hne)]
    exact .ok (congrArg Instruction.entry h.instruction.symm)
  · rw [Table.compileLine_of_nil hne, Table.compileLine_of_nil (hfields ▸ hne)]
    exact .error (h.error _)

namespace Table

/-- Source lines that are moved compile as the same table. -/
theorem ofSourceLines_of_moved {lines lines' : List SourceLine}
    (h : List.Forall₂ (SourceLine.Moved f) lines lines') :
    Agree Eq (LineError.Moved f) (ofSourceLines lines).outcome (ofSourceLines lines').outcome := by
  have hentries : Agree (List.Forall₂ Eq) (LineError.Moved f) (compileLines lines).outcome
      (compileLines lines').outcome := by
    rw [compileLines_eq_traverse, compileLines_eq_traverse, Logged.outcome_traverse,
      Logged.outcome_traverse]
    exact Agree.mapM (h.imp fun _ _ hs => hs.compileLine_agrees)
  apply hentries.map
  intro entries entries' hsame
  rw [List.forall₂_eq_eq_eq] at hsame
  rw [hsame]

/-! ## §3. Both layouts -/

/-- Two layouts agree: on the table, and on the error but for its place. -/
theorem ofPatterns_of_relaid {text text' : String} (h : Relaid text.toList f text'.toList) :
    Agree Eq (LineError.Moved f) (ofPatterns text).outcome (ofPatterns text').outcome := by
  have hread : Agree (List.Forall₂ (SourceLine.Moved f)) (LineError.Moved f)
      (SourceLine.ofText text) (SourceLine.ofText text') := by
    rw [SourceLine.ofText_eq_mapM, SourceLine.ofText_eq_mapM]
    exact Agree.mapM (h.moved.imp fun _ _ hl => hl.read_agrees)
  rw [ofPatterns, ofPatterns]
  -- An error of the first phase ends the loading of both.
  generalize SourceLine.ofText text = sources at hread ⊢
  generalize SourceLine.ofText text' = sources' at hread ⊢
  cases hread with
  | ok hsources => exact ofSourceLines_of_moved hsources
  | error herror => exact .error herror

/-- **Layout is irrelevant.**  Let `text'` be made of `text` by any number of
    edits: blank lines and comments put in between lines, carriage returns put
    before line feeds, blanks put at the ends of lines, gaps replaced by other
    gaps.  Then both texts are loaded as the same table, or both are refused for
    the same thing, at lines that correspond under the edits and have the same
    words. -/
theorem ofPatterns_relaid (text text' : String) (f : Nat → Nat)
    (h : Relaid text.toList f text'.toList) :
    (∃ t, (ofPatterns text).outcome = .ok t ∧ (ofPatterns text').outcome = .ok t) ∨
      ∃ e e', (ofPatterns text).outcome = .error e ∧ (ofPatterns text').outcome = .error e' ∧
        e'.kind = e.kind ∧ e'.line = f e.line ∧ words e'.text.toList = words e.text.toList := by
  have hagree := ofPatterns_of_relaid h
  generalize (ofPatterns text).outcome = outcome at hagree ⊢
  generalize (ofPatterns text').outcome = outcome' at hagree ⊢
  cases hagree with
  | @ok t t' hsame => exact .inl ⟨t, rfl, congrArg Except.ok hsame.symm⟩
  | @error e e' hmoved =>
    exact .inr ⟨e, e', rfl, rfl, hmoved.kind, hmoved.line, hmoved.words⟩

/-- A comment is put in, a gap widened, a carriage return added, a line moved
    away from its start, and the last line ended.  The line without tokens was
    the second and becomes the third. -/
theorem ofPatterns_relaid_incomplete :
    Relaid "a 0,5,1\nsync".toList (passOver 0) "# isa\na\u3000 0,5,1\r\n\tsync\n".toList ∧
      ∃ e', (ofPatterns "# isa\na\u3000 0,5,1\r\n\tsync\n").outcome = .error e' ∧
        e'.kind = .compile .emptyFieldList ∧ e'.line = 3 := by
  have hcomment : Edit "a 0,5,1\nsync".toList (passOver 0) "# isa\na 0,5,1\nsync".toList :=
    @Edit.insertLine [] "# isa".toList (.inl rfl) (.inr ⟨[], " isa".toList, by decide, rfl⟩)
      (by decide) "a 0,5,1\nsync".toList
  have hgap : Edit "# isa\na 0,5,1\nsync".toList id "# isa\na\u3000 0,5,1\nsync".toList :=
    @Edit.changeGap "# isa\na".toList " ".toList "\u3000 ".toList (by decide) (by decide)
      (by decide) (by decide) (by decide) (by decide) "0,5,1\nsync".toList
  have hreturn : Edit "# isa\na\u3000 0,5,1\nsync".toList id
      "# isa\na\u3000 0,5,1\r\nsync".toList :=
    .addReturn "# isa\na\u3000 0,5,1".toList "sync".toList
  have hpad : Edit "# isa\na\u3000 0,5,1\r\nsync".toList id
      "# isa\na\u3000 0,5,1\r\n\tsync".toList :=
    @Edit.padStart "# isa\na\u3000 0,5,1\r\n".toList "\t".toList (by decide) (by decide)
      (by decide) "sync".toList
  have hend : Edit "# isa\na\u3000 0,5,1\r\n\tsync".toList id
      "# isa\na\u3000 0,5,1\r\n\tsync\n".toList :=
    @Edit.nextLine "# isa\na\u3000 0,5,1\r\n\tsync".toList [] (.inl (by decide)) (by decide)
  have hrelaid : Relaid "a 0,5,1\nsync".toList (passOver 0)
      "# isa\na\u3000 0,5,1\r\n\tsync\n".toList :=
    ((((Relaid.refl.edit hcomment).edit hgap).edit hreturn).edit hpad).edit hend
  have herror : (ofPatterns "a 0,5,1\nsync").outcome =
      .error ⟨2, "sync", .compile .emptyFieldList⟩ := by rfl
  refine ⟨hrelaid, ?_⟩
  rcases ofPatterns_relaid _ _ _ hrelaid with ⟨t, ht, -⟩ | ⟨e, e', he, he', hkind, hline, -⟩
  · rw [herror] at ht
    exact nomatch ht
  · obtain rfl := Except.error.inj (herror.symm.trans he)
    exact ⟨e', he', hkind, hline⟩

end Table

end IsaTable
