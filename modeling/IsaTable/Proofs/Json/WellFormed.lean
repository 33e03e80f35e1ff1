import IsaTable.Proofs.Json.Number
import IsaTable.Proofs.Text.LineEnds

/-! # Tables as well-formed values

    Whatever a reader looks at would also be passed over: a text that spells a
    table is a well-formed value (`TableDecl.IsSpelledBy.wellFormed`), of which
    each part comes from a part of the structure.  So what is known of all
    well-formed values is known of spelled tables.

    One such fact is that `#` stands between quotes only, and that quotes hold no
    line feed.  Hence **no line of a well-formed value begins with `#`**; every
    `#` has a quote in front of it on its line (`WellFormed.hashesQuoted`).
-/

namespace IsaTable.Json

/-! ## §1. Tokens -/

theorem SpellsNatural.wellFormed {s : List Char} {n : Nat} (h : SpellsNatural s n) :
    WellFormed .value s :=
  .number h.spellsNumeral

/-- The spelling of a character is one piece, or two if it is a surrogate
    pair. -/
theorem SpellsChar.exists_pieces {s : List Char} {c : Char} (h : SpellsChar s c) :
    ∃ pieces : List (List Char), (∀ piece ∈ pieces, IsTextPiece piece) ∧ s = pieces.flatten := by
  cases h with
  | plain hc => exact ⟨[[c]], by simpa using .plain hc, rfl⟩
  | @letter e _ he => exact ⟨[['\\', e]], by simpa using .letter he, rfl⟩
  | @unit t _ ht => exact ⟨['\\' :: 'u' :: t], by simpa using .unit ht, by simp⟩
  | @pair t t' _ _ _ ht ht' _ _ _ =>
    refine ⟨['\\' :: 'u' :: t, '\\' :: 'u' :: t'], ?_, by simp⟩
    simpa using ⟨.unit ht, .unit ht'⟩

/-- So a run of spelled characters is a run of pieces. -/
theorem SpellsChars.exists_pieces {s text : List Char} (h : SpellsChars s text) :
    ∃ pieces : List (List Char), (∀ piece ∈ pieces, IsTextPiece piece) ∧ s = pieces.flatten := by
  obtain ⟨spellings, hspellings, rfl⟩ := h
  induction hspellings with
  | nil => exact ⟨[], by simp, rfl⟩
  | cons hchar _ ih =>
    obtain ⟨first, hfirst, rfl⟩ := hchar.exists_pieces
    obtain ⟨others, hothers, heq⟩ := ih
    refine ⟨first ++ others, ?_, ?_⟩
    · intro piece hpiece
      exact (List.mem_append.1 hpiece).elim (hfirst piece) (hothers piece)
    · rw [List.flatten_cons, heq, List.flatten_append]

/-- What spells a text is passed over as a text. -/
theorem SpellsText.isText {s : List Char} {text : String} (h : SpellsText s text) : IsText s := by
  obtain ⟨inner, hinner, rfl⟩ := h
  obtain ⟨pieces, hpieces, rfl⟩ := hinner.exists_pieces
  exact ⟨pieces, hpieces, rfl⟩

theorem SpellsText.wellFormed {s : List Char} {text : String} (h : SpellsText s text) :
    WellFormed .value s :=
  .text h.isText

/-! ## §2. Brackets -/

section
variable {α : Type} {Item : List Char → α → Prop}

/-- Items that are well-formed in a bracket make its inside well-formed. -/
theorem Items.wellFormed {bracket : Bracket} {first : Bool} {s : List Char} {as : List α}
    (h : Items Item first s as)
    (hitem : ∀ a ∈ as, ∀ t, Item t a → WellFormed (.item bracket) t) :
    WellFormed (.items bracket first) s := by
  induction h with
  | none hb => exact .noItem hb
  | item hlead ha _ ih =>
    obtain ⟨hfirst, hothers⟩ := List.forall_mem_cons.1 hitem
    exact .item hlead (hfirst _ ha) (ih hothers)

theorem SpellsList.wellFormed {s : List Char} {as : List α} (h : SpellsList Item s as)
    (hitem : ∀ a ∈ as, ∀ t, Item t a → WellFormed .value t) : WellFormed .value s := by
  obtain ⟨inner, hitems, rfl⟩ := h
  exact @WellFormed.bracketed .list _ (hitems.wellFormed hitem)

end

theorem SpellsMember.wellFormed {s : List Char} {m : Member} (h : SpellsMember s m)
    (hvalue : WellFormed .value m.value) : WellFormed .member s := by
  obtain ⟨hkey, hb, hb'⟩ := h
  exact .member hkey.isText hb hb' hvalue

/-- **A structure is well-formed** if its parts are. -/
theorem IsStructure.wellFormed {components : List Component} {s : List Char}
    (h : IsStructure components s)
    (hparts : ∀ c ∈ components, ∀ t, c.IsSpelledBy t → WellFormed .value t) :
    WellFormed .value s := by
  cases h with
  | @object inner members hitems hgiven hothers =>
    refine @WellFormed.bracketed .object _ (hitems.wellFormed ?_)
    intro m hm t ht
    refine ht.wellFormed ?_
    -- A member gives a part, or has a key of its own.
    by_cases hkey : ∀ c ∈ components, m.key ≠ c.key
    · exact hothers m hm hkey
    · push Not at hkey
      obtain ⟨c, hc, hkey⟩ := hkey
      have hmem : m ∈ membersOf c.key members := List.mem_filter.2 ⟨hm, by simpa using hkey⟩
      rcases hgiven c hc with ⟨m', hone, hspelled⟩ | ⟨-, hnone⟩
      · rw [hone, List.mem_singleton] at hmem
        rw [hmem]
        exact hparts c hc _ hspelled
      · rw [hnone] at hmem
        exact absurd hmem List.not_mem_nil
  | @list inner given missing hsplit hitems _ =>
    refine @WellFormed.bracketed .list _ (hitems.wellFormed ?_)
    intro c hc t ht
    refine hparts c ?_ t ht
    rw [hsplit]
    exact List.mem_append_left missing hc

/-- A structure ends in a closing bracket. -/
theorem IsStructure.exists_closing {components : List Component} {s : List Char}
    (h : IsStructure components s) :
    ∃ (bracket : Bracket) (front : List Char), s = front ++ [bracket.closing] := by
  cases h with
  | @object inner _ _ _ _ => exact ⟨.object, '\x7b' :: inner, rfl⟩
  | @list inner _ _ _ _ _ => exact ⟨.list, '[' :: inner, rfl⟩

end IsaTable.Json

/-! ## §3. Tables -/

namespace IsaTable

open Json

theorem FieldDecl.IsSpelledBy.wellFormed {d : FieldDecl} {s : List Char}
    (h : d.IsSpelledBy s) : WellFormed .value s := by
  refine IsStructure.wellFormed h ?_
  simp only [FieldDecl.components, List.forall_mem_cons]
  exact ⟨fun t ht => ht.wellFormed, fun t ht => ht.wellFormed, fun t ht => ht.wellFormed,
    List.forall_mem_nil _⟩

theorem InstructionDecl.IsSpelledBy.wellFormed {d : InstructionDecl} {s : List Char}
    (h : d.IsSpelledBy s) : WellFormed .value s := by
  refine IsStructure.wellFormed h ?_
  simp only [InstructionDecl.components, List.forall_mem_cons]
  refine ⟨fun t ht => ht.wellFormed, fun t ht => ht.wellFormed ?_, List.forall_mem_nil _⟩
  exact fun f _ t ht => FieldDecl.IsSpelledBy.wellFormed ht

/-- **Spelled tables are well-formed values.** -/
theorem TableDecl.IsSpelledBy.wellFormed {d : TableDecl} {s : List Char}
    (h : d.IsSpelledBy s) : WellFormed .value s := by
  refine IsStructure.wellFormed h ?_
  simp only [TableDecl.components, List.forall_mem_cons]
  refine ⟨fun t ht => ht.wellFormed ?_, List.forall_mem_nil _⟩
  exact fun i _ t ht => InstructionDecl.IsSpelledBy.wellFormed ht

end IsaTable

/-! ## §4. Number signs -/

namespace IsaTable.Json

/-- Every `#` has a quote in front of it on its line. -/
def HashesQuoted (s : List Char) : Prop :=
  ∀ front back, s = front ++ '#' :: back → '"' ∈ Text.lineBefore front

namespace HashesQuoted

variable {s t : List Char}

theorem of_not_mem (h : '#' ∉ s) : HashesQuoted s := by
  intro front back heq
  rw [heq] at h
  exact absurd (List.mem_append_right front List.mem_cons_self) h

/-- A quote that is in front of a `#` stays there, whatever is put before
    it. -/
theorem append (hs : HashesQuoted s) (ht : HashesQuoted t) : HashesQuoted (s ++ t) := by
  intro front back heq
  rcases List.append_eq_append_iff.1 heq with ⟨middle, rfl, hmiddle⟩ | ⟨middle, hmiddle, heq⟩
  · exact (Text.lineBefore_suffix s middle).subset (ht middle back hmiddle)
  · cases middle with
    | nil =>
      rw [List.append_nil] at hmiddle
      have hquote : '"' ∈ Text.lineBefore [] := ht [] back heq.symm
      exact absurd hquote List.not_mem_nil
    | cons c rest =>
      rw [List.cons_append] at heq
      obtain ⟨rfl, -⟩ := List.cons.inj heq
      exact hs front rest hmiddle

theorem cons {c : Char} (hc : c ≠ '#') (h : HashesQuoted s) : HashesQuoted (c :: s) := by
  have hhead : HashesQuoted [c] := of_not_mem (by simpa using hc.symm)
  exact hhead.append h

theorem enclosed {first last : Char} (hfirst : first ≠ '#') (h : HashesQuoted s)
    (hlast : last ≠ '#') : HashesQuoted (first :: (s ++ [last])) := by
  have hend : HashesQuoted [last] := of_not_mem (by simpa using hlast.symm)
  exact (h.append hend).cons hfirst

/-- What stands between two quotes, on one line, may hold any. -/
theorem quoted (h : '\n' ∉ s) : HashesQuoted ('"' :: (s ++ ['"'])) := by
  intro front back heq
  cases front with
  | nil => exact absurd (List.cons.inj heq).1 (by decide)
  | cons c rest =>
    obtain ⟨rfl, hrest⟩ := List.cons.inj heq
    -- All that stands in front is on the line of the first quote.
    have hline : '\n' ∉ '"' :: rest := by
      intro hmem
      have hrest' : '\n' ∈ s ++ ['"'] := by
        rw [hrest]
        exact List.mem_append_left _ (by simpa using hmem)
      exact h (by simpa using hrest')
    rw [Text.lineBefore_eq_self hline]
    exact List.mem_cons_self

end HashesQuoted

theorem Blanks.hash_not_mem {b : List Char} (h : Blanks b) : '#' ∉ b := by
  intro hmem
  exact absurd (h '#' hmem) (by decide)

theorem Lead.hash_not_mem {first : Bool} {lead : List Char} (h : Lead first lead) :
    '#' ∉ lead := by
  cases h with
  | first hb => exact hb.hash_not_mem
  | comma hb hb' => simp [hb.hash_not_mem, hb'.hash_not_mem]

theorem IsDigits.hash_not_mem {s : List Char} (h : IsDigits s) : '#' ∉ s := by
  intro hmem
  exact absurd (h.2 '#' hmem) (by decide)

theorem SpellsNumeral.hash_not_mem {s : List Char} {n : Numeral} (h : SpellsNumeral s n) :
    '#' ∉ s := by
  obtain ⟨hwhole, hfraction, hpower⟩ := h
  have hmark : ∀ {mark : Char}, IsPowerMark mark → '#' ≠ mark := by
    intro mark hmark
    rcases hmark with rfl | rfl <;> decide
  simp only [List.mem_append, not_or]
  refine ⟨⟨⟨?_, hwhole.1.hash_not_mem⟩, ?_⟩, ?_⟩
  · unfold signText
    split <;> decide
  · cases hfraction with
    | absent => exact List.not_mem_nil
    | digits hs => simp [hs.hash_not_mem]
  · cases hpower with
    | absent => exact List.not_mem_nil
    | unsigned hm hs => simp [hmark hm, hs.hash_not_mem]
    | plus hm hs => simp [hmark hm, hs.hash_not_mem]
    | minus hm hs => simp [hmark hm, hs.hash_not_mem]

/-- Texts hold no line feeds, since control characters are escaped. -/
theorem IsTextPiece.newline_not_mem {piece : List Char} (h : IsTextPiece piece) :
    '\n' ∉ piece := by
  cases h with
  | plain hc =>
    intro hmem
    rw [List.mem_singleton] at hmem
    exact absurd hc.2.2 (by rw [← hmem]; decide)
  | @letter e _ he =>
    have hne : '\n' ≠ e := by
      intro heq
      rw [← heq] at he
      exact nomatch he
    simp [hne]
  | unit hunit =>
    cases hunit with
    | @digits a b c d n hvalue =>
      have hdigit : ∀ {c : Char} {k : Nat}, hexValue? c = some k → '\n' ≠ c := by
        intro c k hk heq
        have hnone : hexValue? '\n' = none := by decide
        rw [← heq, hnone] at hk
        exact nomatch hk
      simp only [hexValue4?, Option.bind_eq_bind, Option.bind_eq_some_iff] at hvalue
      obtain ⟨_, ha, _, hb, _, hc, _, hd, _⟩ := hvalue
      simp [hdigit ha, hdigit hb, hdigit hc, hdigit hd]

theorem IsText.hashesQuoted {s : List Char} (h : IsText s) : HashesQuoted s := by
  obtain ⟨pieces, hpieces, rfl⟩ := h
  apply HashesQuoted.quoted
  intro hmem
  obtain ⟨piece, hpiece, hmem⟩ := List.mem_flatten.1 hmem
  exact (hpieces piece hpiece).newline_not_mem hmem

/-- **Number signs stand in texts**, hence behind a quote on their line. -/
theorem WellFormed.hashesQuoted {p : Production} {s : List Char} (h : WellFormed p s) :
    HashesQuoted s := by
  induction h with
  | nullWord | trueWord | falseWord => exact .of_not_mem (by decide)
  | number hnumeral => exact .of_not_mem hnumeral.hash_not_mem
  | text htext => exact htext.hashesQuoted
  | @bracketed bracket _ _ ih => cases bracket <;> exact ih.enclosed (by decide) (by decide)
  | member hkey hb hb' _ ih =>
    have hvalue := ((HashesQuoted.of_not_mem hb'.hash_not_mem).append ih).cons
      (c := ':') (by decide)
    exact (hkey.hashesQuoted.append (.of_not_mem hb.hash_not_mem)).append hvalue
  | noItem hb => exact .of_not_mem hb.hash_not_mem
  | item hlead _ _ ih ih' => exact ((HashesQuoted.of_not_mem hlead.hash_not_mem).append ih).append ih'

end IsaTable.Json
