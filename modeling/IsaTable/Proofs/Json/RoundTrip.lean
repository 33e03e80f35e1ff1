import IsaTable.Proofs.Json.Table
import IsaTable.Proofs.Text.Numeral

/-! # Tables read back from their text

    What is written for a table is one of its spellings
    (`TableDecl.isSpelledBy_jsonChars`), and so it is read back as that table.
    The proof goes by the structure of the text: numerals, characters, texts,
    lists, members, objects.  The two halves of the round trip meet at the
    grammar, and neither knows of the other.
-/

namespace IsaTable

open Text (decimalDigits)

namespace Json

/-! ## §1. Numbers -/

/-- A decimal numeral spells its number. -/
theorem spellsNatural_decimalDigits (n : Nat) : SpellsNatural (decimalDigits n) n := by
  refine ⟨⟨⟨Text.decimalDigits_ne_nil n, fun c hc => Text.isDigit_of_mem_decimalDigits hc⟩, ?_⟩, ?_⟩
  · intro d rest heq
    obtain rfl | hn := Nat.eq_zero_or_pos n
    · cases (List.cons.inj heq).2
    · obtain ⟨c, cs, hc, hne⟩ := Text.head_decimalDigits hn
      exact hne (List.cons.inj (hc.symm.trans heq)).1
  · exact Nat.ofDigitChars_toDigits (by decide) (by decide)

/-! ## §2. Texts -/

/-- The code units of the control characters need two digits. -/
theorem spellsUnit_control {n : Nat} (h : n < 0x20) :
    SpellsUnit ['0', '0', Nat.digitChar (n / 16), Nat.digitChar (n % 16)] n := by
  have hvalue : ∀ k < 0x20,
      hexValue4? '0' '0' (Nat.digitChar (k / 16)) (Nat.digitChar (k % 16)) = some k := by
    decide
  exact .digits (hvalue n h)

/-- A character is written as one of its spellings. -/
theorem spellsChar_escapeChar (c : Char) : SpellsChar (escapeChar c) c := by
  unfold escapeChar
  split
  · next h => subst h; exact .letter rfl
  · next hquote =>
    split
    · next h => subst h; exact .letter rfl
    · next hbackslash =>
      -- The five control characters with a letter of their own.
      split
      · next h => subst h; exact .letter rfl
      split
      · next h => subst h; exact .letter rfl
      split
      · next h => subst h; exact .letter rfl
      split
      · next h => subst h; exact .letter rfl
      split
      · next h => subst h; exact .letter rfl
      split
      · next hcontrol => exact .unit (spellsUnit_control (by simpa [isControl] using hcontrol))
      · next hcontrol => exact .plain ⟨hquote, hbackslash, by simpa using hcontrol⟩

/-- Characters are written as spellings of them. -/
theorem spellsChars_escapeText (text : List Char) : SpellsChars (escapeText text) text := by
  refine ⟨text.map escapeChar, ?_, List.flatMap_def⟩
  rw [List.forall₂_map_left_iff]
  exact List.forall₂_same.2 fun c _ => spellsChar_escapeChar c

/-- A text is written as one of its spellings. -/
theorem spellsText_jsonText (text : String) : SpellsText (jsonText text.toList) text :=
  ⟨_, spellsChars_escapeText text.toList, rfl⟩

/-! ## §3. Brackets -/

section
variable {α : Type*} {Item : List Char → α → Prop} {write : α → List Char}

/-- Items with commas between them, behind something that leads up to them. -/
theorem items_commaSeparated_cons (h : ∀ a, Item (write a) a) (as : List α) {first : Bool}
    {lead : List Char} {a : α} (hlead : Lead first lead) :
    Items Item first (lead ++ commaSeparated ((a :: as).map write)) (a :: as) := by
  induction as generalizing first lead a with
  | nil =>
    have hitems := Items.item hlead (h a) (.none Blanks.nil)
    rwa [List.append_nil] at hitems
  | cons b as ih =>
    have hitems := Items.item hlead (h a) (ih (Lead.comma Blanks.nil Blanks.nil) (a := b))
    rwa [List.append_assoc] at hitems

/-- Items with commas between them are what stands between two brackets. -/
theorem items_commaSeparated (h : ∀ a, Item (write a) a) (as : List α) :
    Items Item true (commaSeparated (as.map write)) as := by
  cases as with
  | nil => exact .none Blanks.nil
  | cons a as => exact items_commaSeparated_cons h as (.first Blanks.nil)

end

/-- A list is written as one of its spellings, if its elements are. -/
theorem spellsList_jsonList {α : Type} {Item : List Char → α → Prop} {write : α → List Char}
    (h : ∀ a, Item (write a) a) (as : List α) : SpellsList Item (jsonList (as.map write)) as :=
  ⟨_, items_commaSeparated h as, rfl⟩

/-- A member as it is written. -/
def Member.jsonChars (m : Member) : List Char :=
  jsonMember m.key m.value

/-- A member is written as one of its spellings. -/
theorem spellsMember_jsonChars (m : Member) : SpellsMember m.jsonChars m :=
  spellsMember_iff.2 ⟨escapeText m.key.toList, [], [], spellsChars_escapeText _, Blanks.nil,
    Blanks.nil, by simp [Member.jsonChars, jsonMember, jsonText]⟩

/-! ## §4. Objects -/

/-- The members give the components one by one. -/
def GiveAll (members : List Member) (components : List Component) : Prop :=
  List.Forall₂ (fun m c => m.key = c.key ∧ c.IsSpelledBy m.value) members components

namespace GiveAll

variable {members : List Member} {components : List Component}

theorem map_key (h : GiveAll members components) :
    members.map Member.key = components.map Component.key := by
  induction h with
  | nil => rfl
  | cons hhead _ ih => rw [List.map_cons, List.map_cons, hhead.1, ih]

theorem membersOf_eq_nil {key : String} (h : key ∉ members.map Member.key) :
    membersOf key members = [] := by
  rw [membersOf, List.filter_eq_nil_iff]
  intro m hm
  rw [beq_iff_eq]
  rintro rfl
  exact h (List.mem_map_of_mem hm)

/-- With distinct keys, every component is given by exactly one member. -/
theorem isGivenBy (h : GiveAll members components)
    (hnodup : (components.map Component.key).Nodup) :
    ∀ c ∈ components, c.IsGivenBy members := by
  induction h with
  | nil => exact List.forall_mem_nil _
  | @cons m c members components hhead htail ih =>
    rw [List.map_cons, List.nodup_cons] at hnodup
    intro c' hc'
    obtain rfl | hc' := List.mem_cons.1 hc'
    · refine .inl ⟨m, ?_, hhead.2⟩
      rw [membersOf_cons_self hhead.1, membersOf_eq_nil]
      rw [map_key htail]
      exact hnodup.1
    · have hne : m.key ≠ c'.key := by
        intro heq
        apply hnodup.1
        rw [← hhead.1, heq]
        exact List.mem_map_of_mem hc'
      unfold Component.IsGivenBy
      rw [membersOf_cons_of_ne hne]
      exact ih hnodup.2 c' hc'

/-- **An object that gives every component once** is one of the spellings of the
    structure. -/
theorem isStructure (h : GiveAll members components)
    (hnodup : (components.map Component.key).Nodup) :
    IsStructure components (jsonObject (members.map Member.jsonChars)) := by
  refine .object (items_commaSeparated spellsMember_jsonChars members) (h.isGivenBy hnodup) ?_
  intro m hm hunknown
  have hkey : m.key ∈ components.map Component.key := h.map_key ▸ List.mem_map_of_mem hm
  obtain ⟨c, hc, heq⟩ := List.mem_map.1 hkey
  exact absurd heq.symm (hunknown c hc)

end GiveAll

end Json

/-! ## §5. Tables -/

open Json

/-- A field is written as one of its spellings. -/
theorem FieldDecl.isSpelledBy_jsonChars (d : FieldDecl) : d.IsSpelledBy d.jsonChars := by
  have hgive : GiveAll
      [⟨"start", decimalDigits d.start.toNat⟩, ⟨"stop", decimalDigits d.stop.toNat⟩,
       ⟨"value", decimalDigits d.value.toNat⟩] d.components :=
    .cons ⟨rfl, spellsNatural_decimalDigits _⟩
      (.cons ⟨rfl, spellsNatural_decimalDigits _⟩
        (.cons ⟨rfl, spellsNatural_decimalDigits _⟩ .nil))
  exact hgive.isStructure (show ["start", "stop", "value"].Nodup by decide)

/-- An instruction is written as one of its spellings. -/
theorem InstructionDecl.isSpelledBy_jsonChars (d : InstructionDecl) :
    d.IsSpelledBy d.jsonChars := by
  have hgive : GiveAll
      [⟨"opcode", jsonText d.opcode.toList⟩,
       ⟨"fields", jsonList (d.fields.map FieldDecl.jsonChars)⟩] d.components :=
    .cons ⟨rfl, spellsText_jsonText _⟩
      (.cons ⟨rfl, spellsList_jsonList FieldDecl.isSpelledBy_jsonChars _⟩ .nil)
  exact hgive.isStructure (show ["opcode", "fields"].Nodup by decide)

namespace TableDecl

/-- A table is written as one of its spellings. -/
theorem isSpelledBy_jsonChars (d : TableDecl) : d.IsSpelledBy d.jsonChars := by
  have hgive : GiveAll
      [⟨"instructions", jsonList (d.instructions.map InstructionDecl.jsonChars)⟩] d.components :=
    .cons ⟨rfl, spellsList_jsonList InstructionDecl.isSpelledBy_jsonChars _⟩ .nil
  exact hgive.isStructure (show ["instructions"].Nodup by decide)

/-- What is written for a table is read back as that table. -/
theorem ofJson_jsonChars (d : TableDecl) : TableDecl.ofJson (String.ofList d.jsonChars) = .ok d :=
  reads.document_eq_ok_iff.2 ⟨[], d.jsonChars, [], Blanks.nil, Blanks.nil,
    d.isSpelledBy_jsonChars, by simp⟩

/-- **The round trip.**  Every table is read back from its text.  So a text that
    is accepted, in whatever spelling, becomes a text that is read as the same
    table and is written as the same bytes again. -/
theorem ofJson_toJson :
    (∀ d : TableDecl, TableDecl.ofJson d.toJson = .ok d) ∧
      ∀ (text : String) (d : TableDecl), TableDecl.ofJson text = .ok d →
        ∃ d', TableDecl.ofJson d.toJson = .ok d' ∧ d' = d ∧ d'.toJson.toUTF8 = d.toJson.toUTF8 := by
  refine ⟨ofJson_jsonChars, ?_⟩
  intro text d _
  exact ⟨d, ofJson_jsonChars d, rfl, rfl⟩

end TableDecl

end IsaTable
