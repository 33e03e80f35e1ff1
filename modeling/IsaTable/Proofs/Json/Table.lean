import IsaTable.Proofs.Json.Structure

/-! # Reading tables

    The three structures of a table are made of typed slots, so their readers
    read what the grammar says: `FieldDecl.reads`, `InstructionDecl.reads` and
    `TableDecl.reads`, one from the other.  A document is one value with blanks
    around it (`Reader.Reads.document_eq_ok_iff`), so it is accepted exactly if
    it spells a table.
-/

namespace IsaTable

open Json

/-! ## §1. Numbers -/

/-- A number below `2 ^ 8` is taken as it is. -/
theorem Json.reads_byte : Reader.byte.Reads fun t n => SpellsNatural t n.toNat := by
  refine (reads_below (by decide) .byte |>.map UInt8.ofNat).congr fun t n => ?_
  constructor
  · rintro ⟨k, ⟨hk, hlt⟩, rfl⟩
    rwa [UInt8.toNat_ofNat', Nat.mod_eq_of_lt hlt]
  · intro h
    exact ⟨n.toNat, ⟨h, n.toNat_lt⟩, UInt8.ofNat_toNat⟩

/-- A number below `2 ^ 32` is taken as it is. -/
theorem Json.reads_word : Reader.word.Reads fun t n => SpellsNatural t n.toNat := by
  refine (reads_below (by decide) .word |>.map (BitVec.ofNat 32)).congr fun t n => ?_
  constructor
  · rintro ⟨k, ⟨hk, hlt⟩, rfl⟩
    rwa [BitVec.toNat_ofNat, Nat.mod_eq_of_lt hlt]
  · intro h
    exact ⟨n.toNat, ⟨h, n.isLt⟩, by rw [BitVec.ofNat_toNat, BitVec.setWidth_eq]⟩

/-- A slot of a number that must be there; `number` is what its values count
    as. -/
def Json.numberSlot {δ α Value : Type} (key : String) (reader : Reader Value)
    (number : Value → Nat) (get : δ → Option Value) (set : δ → Value → δ) (part : α → Value) :
    TypedSlot δ α where
  Value := Value
  key := key
  reader := reader
  Spelling t n := SpellsNatural t (number n)
  get := get
  set := set
  part := part
  Optional _ := False

/-! ## §2. Fields -/

namespace FieldDecl

/-- The slot of the first position. -/
def startSlot : TypedSlot FieldDraft FieldDecl :=
  numberSlot "start" Reader.byte UInt8.toNat FieldDraft.start
    (fun d n => ⟨some n, d.stop, d.value⟩) FieldDecl.start

/-- The slot of the last position. -/
def stopSlot : TypedSlot FieldDraft FieldDecl :=
  numberSlot "stop" Reader.byte UInt8.toNat FieldDraft.stop
    (fun d n => ⟨d.start, some n, d.value⟩) FieldDecl.stop

/-- The slot of the demanded number. -/
def valueSlot : TypedSlot FieldDraft FieldDecl :=
  numberSlot "value" Reader.word BitVec.toNat FieldDraft.value
    (fun d n => ⟨d.start, d.stop, some n⟩) FieldDecl.value

theorem shape_madeOf : shape.MadeOf [startSlot, stopSlot, valueSlot] where
  slots_eq := rfl
  nodup_keys := by decide
  reads := by
    simp only [List.forall_mem_cons]
    exact ⟨reads_byte, reads_byte, reads_word, List.forall_mem_nil _⟩
  get_blank := by
    simp only [List.forall_mem_cons]
    exact ⟨rfl, rfl, rfl, List.forall_mem_nil _⟩
  get_set := by
    simp only [List.forall_mem_cons]
    exact ⟨fun _ _ => rfl, fun _ _ => rfl, fun _ _ => rfl, List.forall_mem_nil _⟩
  get_set_of_ne := by
    simp only [List.forall_mem_cons]
    refine ⟨⟨?_, ?_, ?_, List.forall_mem_nil _⟩, ⟨?_, ?_, ?_, List.forall_mem_nil _⟩,
      ⟨?_, ?_, ?_, List.forall_mem_nil _⟩, List.forall_mem_nil _⟩
    all_goals intro hkey d v
    all_goals first | rfl | exact absurd rfl hkey
  finish_iff := by
    rintro ⟨start, stop, value⟩ ⟨start', stop', value'⟩
    simp only [List.forall_mem_cons, startSlot, stopSlot, valueSlot, numberSlot]
    cases start <;> cases stop <;> cases value <;> simp [shape]

/-- The reader of fields reads fields. -/
theorem reads : shape.reader.Reads fun t d => IsSpelledBy d t :=
  shape_madeOf.reader_reads

end FieldDecl

/-! ## §3. Instructions -/

namespace InstructionDecl

/-- The slot of the name. -/
def opcodeSlot : TypedSlot InstructionDraft InstructionDecl where
  Value := String
  key := "opcode"
  reader := Reader.text
  Spelling := SpellsText
  get := InstructionDraft.opcode
  set d t := ⟨some t, d.fields⟩
  part := InstructionDecl.opcode
  Optional _ := False

/-- The slot of the fields, which is as good as filled with none. -/
def fieldsSlot : TypedSlot InstructionDraft InstructionDecl where
  Value := List FieldDecl
  key := "fields"
  reader := Reader.list FieldDecl.shape.reader
  Spelling := SpellsList fun s f => FieldDecl.IsSpelledBy f s
  get := InstructionDraft.fields
  set d fs := ⟨d.opcode, some fs⟩
  part := InstructionDecl.fields
  Optional d := d.fields = []

theorem shape_madeOf : shape.MadeOf [opcodeSlot, fieldsSlot] where
  slots_eq := rfl
  nodup_keys := by decide
  reads := by
    simp only [List.forall_mem_cons]
    exact ⟨reads_text, FieldDecl.reads.list, List.forall_mem_nil _⟩
  get_blank := by
    simp only [List.forall_mem_cons]
    exact ⟨rfl, rfl, List.forall_mem_nil _⟩
  get_set := by
    simp only [List.forall_mem_cons]
    exact ⟨fun _ _ => rfl, fun _ _ => rfl, List.forall_mem_nil _⟩
  get_set_of_ne := by
    simp only [List.forall_mem_cons]
    refine ⟨⟨?_, ?_, List.forall_mem_nil _⟩, ⟨?_, ?_, List.forall_mem_nil _⟩,
      List.forall_mem_nil _⟩
    all_goals intro hkey d v
    all_goals first | rfl | exact absurd rfl hkey
  finish_iff := by
    rintro ⟨opcode, fields⟩ ⟨opcode', fields'⟩
    simp only [List.forall_mem_cons, opcodeSlot, fieldsSlot]
    cases opcode <;> cases fields <;> simp [shape, eq_comm]

/-- The reader of instructions reads instructions. -/
theorem reads : shape.reader.Reads fun t d => IsSpelledBy d t :=
  shape_madeOf.reader_reads

end InstructionDecl

/-! ## §4. Tables -/

namespace TableDecl

/-- The slot of the instructions. -/
def instructionsSlot : TypedSlot (Option (List InstructionDecl)) TableDecl where
  Value := List InstructionDecl
  key := "instructions"
  reader := Reader.list InstructionDecl.shape.reader
  Spelling := SpellsList fun s i => InstructionDecl.IsSpelledBy i s
  get d := d
  set _ is := some is
  part := TableDecl.instructions
  Optional _ := False

theorem shape_madeOf : shape.MadeOf [instructionsSlot] where
  slots_eq := rfl
  nodup_keys := by decide
  reads := List.forall_mem_singleton.2 InstructionDecl.reads.list
  get_blank := List.forall_mem_singleton.2 rfl
  get_set := List.forall_mem_singleton.2 fun _ _ => rfl
  get_set_of_ne := List.forall_mem_singleton.2 (List.forall_mem_singleton.2 fun h => absurd rfl h)
  finish_iff := by
    rintro instructions ⟨instructions'⟩
    rw [List.forall_mem_singleton]
    cases instructions <;> simp [shape, instructionsSlot]

/-- The reader of tables reads tables. -/
theorem reads : shape.reader.Reads fun t d => IsSpelledBy d t :=
  shape_madeOf.reader_reads

end TableDecl

/-! ## §5. Documents -/

namespace Json.Reader.Reads

variable {α : Type} {reader : Reader α} {Spelling : List Char → α → Prop}

/-- A document is one value, with blanks around it. -/
theorem document_eq_ok_iff (h : reader.Reads Spelling) {s : List Char} {a : α} :
    reader.document s = .ok a ↔
      ∃ b t b', Blanks b ∧ Blanks b' ∧ Spelling t a ∧ s = b ++ t ++ b' := by
  constructor
  · intro hdoc
    unfold Reader.document at hdoc
    split at hdoc
    · contradiction
    · next hrun =>
      obtain ⟨b, t, hb, ht, rfl⟩ := h.sound hrun
      split at hdoc
      · next hrest =>
        obtain rfl := Except.ok.inj hdoc
        exact ⟨b, t, _, hb, skipBlank_eq_nil_iff.1 hrest, ht, rfl⟩
      · contradiction
  · rintro ⟨b, t, b', hb, hb', ht, rfl⟩
    have hdelimited : Delimited b' := by
      intro c hc
      exact .inl (hb' c (List.mem_of_head? hc))
    simp only [Reader.document, h.complete hb ht hdelimited, skipBlank_eq_nil_iff.2 hb']

end Json.Reader.Reads

/-- **A text is accepted exactly if it spells a table**, blanks around it apart,
    and then it is read as the table that it spells: every declared part stands
    there once, in one of the two spellings of its structure, and every number
    is an integer literal within its range. -/
theorem TableDecl.ofJson_eq_ok_iff (text : String) (d : TableDecl) :
    TableDecl.ofJson text = .ok d ↔
      ∃ b s b', Blanks b ∧ Blanks b' ∧ d.IsSpelledBy s ∧ text.toList = b ++ s ++ b' :=
  TableDecl.reads.document_eq_ok_iff

end IsaTable
