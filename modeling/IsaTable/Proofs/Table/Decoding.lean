import IsaTable.Proofs.Table.Loading

/-! # Decoding with a loaded text

    A word is looked up in a table by masks; what its text declares is that
    runs of positions spell numbers.  Where loading has warned about nothing,
    the two agree: the answer is the entry of the earliest instruction line
    whose declared fields all hold (`Table.firstMatch_earliest_line`).
-/

namespace IsaTable

/-! ## §1. What a line declares -/

namespace WrittenLine

/-- Whether the fields that a line declares all hold on a word: each token
    spells a range of positions and the number that stands there. -/
def HoldsOn (l : WrittenLine) (w : Word) : Prop :=
  ∀ token ∈ l.tokens, ∃ start stop value,
    Spells token start stop value ∧ w.slice start (stop - start + 1) = value

/-- A readable line declares what its instruction says. -/
theorem holdsOn_iff {l : WrittenLine} (h : l.Readable) (w : Word) :
    l.HoldsOn w ↔ l.source.instruction.Holds w := by
  have hspells := forall₂_spells h
  unfold HoldsOn
  show _ ↔ ∀ f ∈ l.fields, f.Holds w
  -- Token by token: each spells one triple of numbers only, that of its field.
  generalize l.tokens = tokens at hspells ⊢
  generalize l.fields = fields at hspells ⊢
  induction hspells with
  | nil => simp
  | @cons token f tokens fields hf _ ih =>
    have htoken : (∃ start stop value, Spells token start stop value ∧
        w.slice start (stop - start + 1) = value) ↔ f.Holds w := by
      constructor
      · intro h
        obtain ⟨start, stop, value, hnumbers, hslice⟩ := h
        obtain ⟨rfl, rfl, rfl⟩ := hf.unique hnumbers
        exact hslice
      · intro hholds
        exact ⟨_, _, _, hf, hholds⟩
    rw [List.forall_mem_cons, List.forall_mem_cons, htoken, ih]

end WrittenLine

/-! ## §2. Looking up -/

namespace Table

/-- Where loading has warned about nothing, each entry accepts the words on
    which the fields of its line hold. -/
theorem accepts_entry_iff_holdsOn {text : String} {t : Table}
    (ht : (ofPatterns text).outcome = .ok t)
    (hquiet : ∀ r ∈ (ofPatterns text).log, r.level ≠ .warn) {l : WrittenLine}
    (hl : l ∈ instructionLines text) (w : Word) :
    l.source.instruction.entry.matcher.accepts w = true ↔ l.HoldsOn w := by
  rw [(ofPatterns_of_ok ht).2] at hquiet
  -- A warning about the line would have been recorded.
  have hwarnings : l.source.instruction.warnings = [] := by
    refine Instruction.records_quiet_iff.1 fun r hr => hquiet r ?_
    exact List.mem_flatMap.2 ⟨l, hl, List.mem_append_left _ hr⟩
  rw [(Instruction.accepts_entry_of_no_warnings hwarnings).2 w,
    WrittenLine.holdsOn_iff (complete_of_ofPatterns ht l hl).2]

/-- **The earliest line decides.**  For a text that loads without a warning,
    the first match of a word is the entry of the earliest instruction line
    whose declared fields all hold on the word, and there is none exactly when
    there is no such line. -/
theorem firstMatch_earliest_line {text : String} {t : Table}
    (ht : (ofPatterns text).outcome = .ok t)
    (hquiet : ∀ r ∈ (ofPatterns text).log, r.level ≠ .warn) (w : Word) :
    t.entries.map Entry.opcode = (instructionLines text).map WrittenLine.opcode ∧
    (∀ e, t.firstMatch w = some e ↔
      ∃ before l after, instructionLines text = before ++ l :: after ∧
        l.HoldsOn w ∧ (∀ k ∈ before, ¬ k.HoldsOn w) ∧ t.entries[before.length]? = some e) ∧
    (t.firstMatch w = none ↔ ∀ l ∈ instructionLines text, ¬ l.HoldsOn w) := by
  have hentries := (ofPatterns_of_ok ht).1
  -- Entry by entry, accepting is holding; both sides then look for the first.
  have haccepts : ∀ l ∈ instructionLines text,
      l.source.instruction.entry.matcher.accepts w = true ↔ l.HoldsOn w :=
    fun l hl => accepts_entry_iff_holdsOn ht hquiet hl w
  refine ⟨by simp [hentries, Instruction.entry, WrittenLine.source], ?_, ?_⟩
  · intro e
    rw [firstMatch, hentries, List.find?_map, Option.map_eq_some_iff]
    constructor
    · intro h
      obtain ⟨l, hfind, rfl⟩ := h
      obtain ⟨hl, before, after, hlines, hbefore⟩ := List.find?_eq_some_iff_append.1 hfind
      have hmem : l ∈ instructionLines text := by simp [hlines]
      refine ⟨before, l, after, hlines, (haccepts l hmem).1 hl, ?_, ?_⟩
      · intro k hk
        have hmem' : k ∈ instructionLines text := by simp [hlines, hk]
        rw [← haccepts k hmem']
        simpa using hbefore k hk
      · simp [hlines]
    · intro h
      obtain ⟨before, l, after, hlines, hl, hbefore, he⟩ := h
      have hmem : l ∈ instructionLines text := by simp [hlines]
      refine ⟨l, List.find?_eq_some_iff_append.2 ⟨(haccepts l hmem).2 hl, ?_⟩, ?_⟩
      · refine ⟨before, after, hlines, ?_⟩
        intro k hk
        have hmem' : k ∈ instructionLines text := by simp [hlines, hk]
        have hnot := mt (haccepts k hmem').1 (hbefore k hk)
        simpa using hnot
      · simpa [hlines] using he
  · rw [firstMatch, hentries, List.find?_map, Option.map_eq_none_iff, List.find?_eq_none]
    apply forall₂_congr
    intro l hl
    exact not_congr (haccepts l hl)

/-- A word that only the later of two lines describes, behind a comment and a
    blank line. -/
theorem firstMatch_earliest_line_generic :
    let text := "# forms\n\nspecific 0,5,31 21,30,266\r\n  generic 0,5,31"
    let t : Table :=
      ⟨[⟨"specific", ⟨0xfc0007fe, 0x7c000214⟩⟩, ⟨"generic", ⟨0xfc000000, 0x7c000000⟩⟩]⟩
    let w : Word := 0x7c000000
    (ofPatterns text).outcome = .ok t ∧ (∀ r ∈ (ofPatterns text).log, r.level ≠ .warn) ∧
      ∃ before l after, instructionLines text = before ++ l :: after ∧
        l.HoldsOn w ∧ (∀ k ∈ before, ¬ k.HoldsOn w) ∧
        t.entries[before.length]? = some ⟨"generic", ⟨0xfc000000, 0x7c000000⟩⟩ := by
  intro text t w
  have hok : (ofPatterns text).outcome = .ok t := by
    unfold text t
    rfl
  have hquiet : ∀ r ∈ (ofPatterns text).log, r.level ≠ .warn := by decide
  exact ⟨hok, hquiet, ((firstMatch_earliest_line hok hquiet w).2.1 _).1 (by decide)⟩

end Table

end IsaTable
