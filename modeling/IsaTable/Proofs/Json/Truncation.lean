import IsaTable.CommandLine.Run
import IsaTable.Proofs.Json.EndOfText
import IsaTable.Proofs.Json.RoundTrip

/-! # Tables that are cut short

    A text of a table that stops too early is refused for that, wherever it
    stops (`TableDecl.ofJson_of_cut`).

    The cut is in one element of a list, or in what leads up to one.  The elements
    in front of it are read as they are, and the one that is cut is exhausted; in
    either case the closing bracket is still to come, and the reader notices
    (`ended_elements`).  An object is the same with its members
    (`Shape.MadeOf.ended_readMembers`): whether the draft could be finished there
    does not matter, since it is finished at the closing brace only.
-/

namespace IsaTable

namespace Json

/-! ## §1. Lists -/

section
variable {first : Bool} {lead q : List Char}

/-- What leads up to an item is blanks, with or without the comma that is due,
    wherever it is cut off. -/
theorem Lead.prefix_cases (hlead : Lead first lead) (hq : q <+: lead) :
    Blanks q ∨ first = false ∧ ∃ b b', Blanks b ∧ Blanks b' ∧ q = b ++ ',' :: b' := by
  cases hlead with
  | first hb => exact .inl (hb.of_prefix hq)
  | @comma b b' hb hb' =>
    rcases prefix_append_cases hq with hcut | ⟨q', hq', rfl⟩
    · exact .inl (hb.of_prefix hcut.1)
    · rcases List.prefix_cons_iff.1 hq' with rfl | ⟨q'', rfl, hq''⟩
      · rw [List.append_nil]
        exact .inl hb
      · exact .inr ⟨rfl, b, q'', hb, hb'.of_prefix hq'', rfl⟩

theorem nextElement_of_blanks (first : Bool) {b : List Char} (hb : Blanks b) :
    nextElement first b = .error (.ended .list) := by
  rw [nextElement, skipBlank_eq_nil_iff.2 hb]

/-- A list is not over where an element is due. -/
theorem ended_nextElement (hlead : Lead first lead) (hq : q <+: lead) :
    Ended (nextElement first q) := by
  rcases hlead.prefix_cases hq with hb | ⟨rfl, b, b', hb, hb', rfl⟩
  · exact ⟨.list, nextElement_of_blanks first hb⟩
  · refine ⟨.value, ?_⟩
    rw [nextElement, skipBlank_append_cons hb (by decide)]
    simp only [if_neg (show ',' ≠ ']' by decide), Bool.false_eq_true, if_false, if_true,
      skipBlank_eq_nil_iff.2 hb']

end

section
variable {α : Type} {element : Reader α} {Spelling : List Char → α → Prop}

/-- Elements without the closing bracket end with the text, wherever it is cut
    off. -/
theorem ended_elements (hreads : element.Reads Spelling) {first : Bool} {s q : List Char}
    {as : List α} (h : Items (fun t a => Spelling t a ∧ element.Exhausts t) first s as)
    (hq : q <+: s) : Ended (Reader.elements element first q) := by
  have hnothing : Ended (Reader.elements element false []) := by
    rw [elements_eq]
    exact Ended.bind ⟨.list, nextElement_of_blanks false Blanks.nil⟩ _
  induction h generalizing q with
  | @none first b hb =>
    rw [elements_eq]
    exact Ended.bind ⟨.list, nextElement_of_blanks first (hb.of_prefix hq)⟩ _
  | @item first lead t rest a as hlead hitem hrest ih =>
    obtain ⟨hspelled, hexhausts⟩ := hitem
    obtain ⟨c, t', rfl, hc⟩ := hreads.begins hspelled
    obtain ⟨hblank, hclosing⟩ := isBlank_of_beginsValue hc
    rw [List.append_assoc] at hq
    rw [elements_eq]
    rcases prefix_append_cases hq with hcut | ⟨q', hq', rfl⟩
    · exact (ended_nextElement hlead hcut.1).bind _
    rcases List.prefix_cons_iff.1 hq' with rfl | ⟨q'', rfl, -⟩
    · rw [List.append_nil]
      exact (ended_nextElement hlead (List.prefix_refl lead)).bind _
    rw [nextElement_item hlead hblank hclosing]
    show Ended ((element.run (c :: q'')).bind _)
    rcases prefix_append_cases hq' with hcut | ⟨r, hr, hsplit⟩
    · apply (hexhausts [] _ Blanks.nil hcut.1).bind
      intro _
      exact hnothing.map _
    · -- The element is whole, so the cut is in what follows it.
      have hdelimited : Delimited (rest ++ [']']) :=
        hrest.delimited (.inr (.inr (.inl rfl))) []
      have hrun := hreads.complete Blanks.nil hspelled
        (hdelimited.of_prefix (hr.trans (List.prefix_append rest [']'])))
      rw [List.nil_append] at hrun
      rw [hsplit, hrun]
      exact (ih hr).map _

/-- Lists need their closing bracket, if their elements are exhausted. -/
theorem needsAll_list (hreads : element.Reads Spelling) {t : List Char} {as : List α}
    (h : SpellsList (fun t a => Spelling t a ∧ element.Exhausts t) t as) :
    (Reader.list element).NeedsAll t := by
  obtain ⟨inner, hinner, rfl⟩ := h
  intro b q hb hq
  rcases hq.enclosed_cases with rfl | ⟨q', hq', rfl⟩
  · refine ⟨.value, ?_⟩
    simp only [Reader.list, List.append_nil, skipBlank_eq_nil_iff.2 hb]
  · have hskip : skipBlank (b ++ '[' :: q') = '[' :: q' := skipBlank_append_cons hb (by decide) q'
    simp only [Reader.list, hskip, if_true]
    exact ended_elements hreads hinner hq'

end

/-! ## §2. Objects -/

section
variable {first : Bool} {lead q : List Char}

theorem nextMember_of_blanks (first : Bool) {b : List Char} (hb : Blanks b) :
    nextMember first b = .error (.ended .object) := by
  rw [nextMember, skipBlank_eq_nil_iff.2 hb]

/-- An object is not over where a member is due. -/
theorem ended_nextMember (hlead : Lead first lead) (hq : q <+: lead) :
    Ended (nextMember first q) := by
  rcases hlead.prefix_cases hq with hb | ⟨rfl, b, b', hb, hb', rfl⟩
  · exact ⟨.object, nextMember_of_blanks first hb⟩
  · refine ⟨.value, ?_⟩
    rw [nextMember, skipBlank_append_cons hb (by decide)]
    simp only [if_neg (show ',' ≠ '\x7d' by decide), Bool.false_eq_true, if_false, if_true,
      skipBlank_eq_nil_iff.2 hb']

end

section
variable {δ α : Type} {shape : Shape δ α} {slots : List (TypedSlot δ α)}

theorem takeColon_of_blanks {b : List Char} (hb : Blanks b) :
    takeColon b = .error (.ended .object) := by
  rw [takeColon, skipBlank_eq_nil_iff.2 hb]

/-- Behind a known key, its slot is filled. -/
theorem Shape.MadeOf.readMember_of_key (h : shape.MadeOf slots) {p : TypedSlot δ α} (hp : p ∈ slots)
    {d : δ} (hempty : p.get d = none) {key : List Char} (hkey : SpellsChars key p.key.toList)
    (s : List Char) : shape.readMember d (key ++ '"' :: s) =
      (takeColon s).bind (p.reader.map (p.set d)).run := by
  have hfilled : p.slot.filled d = false := by simp [TypedSlot.slot, hempty]
  simp only [Shape.readMember, readText_complete hkey, h.find?_known hp, hfilled,
    Bool.false_eq_true, if_false]
  cases takeColon s <;> rfl

/-- A member is exhausted, if its value is. -/
theorem Shape.MadeOf.exhausted_readMember (h : shape.MadeOf slots) {p : TypedSlot δ α}
    (hp : p ∈ slots) {d : δ} (hempty : p.get d = none) {m : Member} {s q : List Char}
    (hm : SpellsMember ('"' :: s) m) (hkey : m.key = p.key) (hvalue : p.reader.Exhausts m.value)
    (hq : q <+: s) : Exhausted (shape.readMember d q) := by
  obtain ⟨key, b, b', hchars, hb, hb', hs⟩ := spellsMember_iff.1 hm
  obtain rfl := (List.cons.inj hs).2
  rw [hkey] at hchars
  have hinKey : ∀ q', q' <+: key → Exhausted (shape.readMember d q') := by
    intro q' hq'
    exact .inl ⟨.text, by simp only [Shape.readMember, readText_of_prefix hchars hq']⟩
  have hbeforeColon : ∀ b, Blanks b → Exhausted (shape.readMember d (key ++ '"' :: b)) := by
    intro b hb
    rw [h.readMember_of_key hp hempty hchars, takeColon_of_blanks hb]
    exact .inl ⟨.object, rfl⟩
  rcases prefix_append_cases hq with hcut | ⟨q₁, hq₁, rfl⟩
  · exact hinKey q hcut.1
  rcases List.prefix_cons_iff.1 hq₁ with rfl | ⟨q₂, rfl, hq₂⟩
  · rw [List.append_nil]
    exact hinKey key (List.prefix_refl key)
  rcases prefix_append_cases hq₂ with hcut | ⟨q₃, hq₃, rfl⟩
  · exact hbeforeColon q₂ (hb.of_prefix hcut.1)
  rcases List.prefix_cons_iff.1 hq₃ with rfl | ⟨q₄, rfl, hq₄⟩
  · rw [List.append_nil]
    exact hbeforeColon b hb
  rw [h.readMember_of_key hp hempty hchars, takeColon_eq_ok_iff.2 ⟨b, hb, rfl⟩]
  show Exhausted ((p.reader.map (p.set d)).run q₄)
  rcases prefix_append_cases hq₄ with hcut | ⟨q₅, hq₅, rfl⟩
  · have hnothing := hvalue.map (p.set d) q₄ [] (hb'.of_prefix hcut.1) List.nil_prefix
    rwa [List.append_nil] at hnothing
  · exact hvalue.map (p.set d) b' q₅ hb' hq₅

/-- Members without the closing brace end with the text, wherever it is cut
    off, if they are all known and have exhausted values. -/
theorem Shape.MadeOf.ended_readMembers (h : shape.MadeOf slots) {first : Bool} {d : δ} {a : α}
    {s q : List Char} {members : List Member} (hitems : Items SpellsMember first s members)
    (hc : Completes slots d a members)
    (hknown : ∀ m ∈ members, ∃ p ∈ slots, m.key = p.key ∧ p.reader.Exhausts m.value)
    (hq : q <+: s) : Ended (shape.readMembers first d q) := by
  induction hitems generalizing d q with
  | @none first b hb =>
    rw [Shape.readMembers_eq]
    exact Ended.bind ⟨.object, nextMember_of_blanks first (hb.of_prefix hq)⟩ _
  | @item first lead t rest m members hlead hm hrest ih =>
    obtain ⟨d', htakes, hc'⟩ := h.exists_takes hc
    obtain ⟨p, hp, hkey, hvalue⟩ := hknown m List.mem_cons_self
    have hempty := ((TypedSlot.wants_cons_self hkey members).1 (hc.wanted p hp)).1
    obtain ⟨t', rfl⟩ : ∃ t', t = '"' :: t' := by
      obtain ⟨key, b, b', -, -, -, rfl⟩ := spellsMember_iff.1 hm
      exact ⟨_, rfl⟩
    rw [List.append_assoc] at hq
    rw [Shape.readMembers_eq]
    rcases prefix_append_cases hq with hcut | ⟨q', hq', rfl⟩
    · exact (ended_nextMember hlead hcut.1).bind _
    rcases List.prefix_cons_iff.1 hq' with rfl | ⟨q'', rfl, hq''⟩
    · rw [List.append_nil]
      exact (ended_nextMember hlead (List.prefix_refl lead)).bind _
    rw [nextMember_item hlead]
    show Ended ((shape.readMember d q'').bind _)
    rcases prefix_append_cases hq'' with hcut | ⟨r, hr, rfl⟩
    · apply (h.exhausted_readMember hp hempty hm hkey hvalue hcut.1).bind
      intro d''
      show Ended (shape.readMembers false d'' [])
      rw [Shape.readMembers_eq]
      exact Ended.bind ⟨.object, nextMember_of_blanks false Blanks.nil⟩ _
    · -- The member is whole, so the cut is in what follows it.
      have hdelimited : Delimited (rest ++ ['\x7d']) :=
        hrest.delimited (.inr (.inr (.inr rfl))) []
      rw [h.readMember_complete hm htakes
        (hdelimited.of_prefix (hr.trans (List.prefix_append rest ['\x7d'])))]
      exact ih hc' (fun m' hm' => hknown m' (List.mem_cons_of_mem m hm')) hr

/-- What is in a list belongs to something in a list that goes with it. -/
theorem exists_of_forall₂ {α β : Type*} {R : α → β → Prop} {as : List α} {bs : List β}
    (h : List.Forall₂ R as bs) {a : α} (ha : a ∈ as) : ∃ b ∈ bs, R a b := by
  induction h with
  | nil => exact absurd ha List.not_mem_nil
  | @cons a' b' _ _ hab _ ih =>
    rcases List.mem_cons.1 ha with rfl | ha
    · exact ⟨b', List.mem_cons_self, hab⟩
    · obtain ⟨b, hb, hR⟩ := ih ha
      exact ⟨b, List.mem_cons_of_mem b' hb, hR⟩

/-- The members give the parts of a structure one by one, by values that are
    exhausted. -/
def GiveExhausted (a : α) (members : List Member) (slots : List (TypedSlot δ α)) : Prop :=
  List.Forall₂ (fun m p => m.key = p.key ∧ SpellsPart a m.value p ∧ p.reader.Exhausts m.value)
    members slots

/-- **Objects need their closing brace**, if they give every part by a value that
    is exhausted. -/
theorem Shape.MadeOf.needsAll_jsonObject (h : shape.MadeOf slots) {a : α} {members : List Member}
    (hgive : GiveExhausted a members slots) :
    shape.reader.NeedsAll (jsonObject (members.map Member.jsonChars)) := by
  have hall : GiveAll members (slots.map (·.component a)) := by
    rw [GiveAll, List.forall₂_map_right_iff]
    exact hgive.imp fun _ _ hm => ⟨hm.1, hm.2.1⟩
  have hnodup : ((slots.map (·.component a)).map Component.key).Nodup := by
    rw [List.map_map]
    exact h.nodup_keys
  have hknown : ∀ m ∈ members, ∃ p ∈ slots, m.key = p.key ∧ p.reader.Exhausts m.value := by
    intro m hm
    obtain ⟨p, hp, hkey, -, hvalue⟩ := exists_of_forall₂ hgive hm
    exact ⟨p, hp, hkey, hvalue⟩
  have hcompletes : Completes slots shape.blank a members := by
    refine h.completes_blank_iff.2 ⟨List.forall_mem_map.1 (hall.isGivenBy hnodup), ?_⟩
    intro m hm hunknown
    obtain ⟨p, hp, hkey, -⟩ := hknown m hm
    exact absurd hkey (hunknown p hp)
  have hitems := items_commaSeparated spellsMember_jsonChars members
  intro b q hb hq
  rcases hq.enclosed_cases with rfl | ⟨q', hq', rfl⟩
  · refine ⟨.value, ?_⟩
    simp only [Shape.reader, List.append_nil, skipBlank_eq_nil_iff.2 hb]
  · have hskip : skipBlank (b ++ '\x7b' :: q') = '\x7b' :: q' :=
      skipBlank_append_cons hb (by decide) q'
    simp only [Shape.reader, hskip, if_neg (show '\x7b' ≠ '[' by decide), if_true]
    exact h.ended_readMembers hitems hcompletes hknown hq'

end

/-- A list is written as one that needs its closing bracket, if its elements
    are written as values that need all of their text. -/
theorem needsAll_jsonList {α : Type} {element : Reader α} {Spelling : List Char → α → Prop}
    {write : α → List Char} (hreads : element.Reads Spelling)
    (hwrite : ∀ a, Spelling (write a) a) (hneeds : ∀ a, element.NeedsAll (write a))
    (as : List α) : (Reader.list element).NeedsAll (jsonList (as.map write)) := by
  have hlist : SpellsList (fun t a => Spelling t a ∧ element.Exhausts t)
      (jsonList (as.map write)) as := by
    apply spellsList_jsonList
    intro a
    exact ⟨hwrite a, (hneeds a).exhausts hreads (hwrite a)⟩
  exact needsAll_list hreads hlist

end Json

/-! ## §3. Tables -/

open Json CommandLine

/-- A field needs its closing brace. -/
theorem FieldDecl.needsAll_jsonChars (d : FieldDecl) : shape.reader.NeedsAll d.jsonChars := by
  have hbyte : ∀ n : UInt8, Reader.byte.Exhausts (Text.decimalDigits n.toNat) :=
    fun n => exhausts_byte (spellsNatural_decimalDigits _)
  have hword : ∀ v : Word, Reader.word.Exhausts (Text.decimalDigits v.toNat) :=
    fun v => exhausts_word (spellsNatural_decimalDigits _)
  have hgive : GiveExhausted d
      [⟨"start", Text.decimalDigits d.start.toNat⟩, ⟨"stop", Text.decimalDigits d.stop.toNat⟩,
       ⟨"value", Text.decimalDigits d.value.toNat⟩] [startSlot, stopSlot, valueSlot] :=
    .cons ⟨rfl, spellsNatural_decimalDigits _, hbyte _⟩
      (.cons ⟨rfl, spellsNatural_decimalDigits _, hbyte _⟩
        (.cons ⟨rfl, spellsNatural_decimalDigits _, hword _⟩ .nil))
  exact shape_madeOf.needsAll_jsonObject hgive

/-- So does an instruction, though it could do without its fields. -/
theorem InstructionDecl.needsAll_jsonChars (d : InstructionDecl) :
    shape.reader.NeedsAll d.jsonChars := by
  have hopcode := spellsText_jsonText d.opcode
  have hfields : fieldsSlot.Spelling (jsonList (d.fields.map FieldDecl.jsonChars)) d.fields :=
    spellsList_jsonList FieldDecl.isSpelledBy_jsonChars d.fields
  have hneeds : fieldsSlot.reader.NeedsAll (jsonList (d.fields.map FieldDecl.jsonChars)) :=
    needsAll_jsonList FieldDecl.reads FieldDecl.isSpelledBy_jsonChars
      FieldDecl.needsAll_jsonChars d.fields
  have hgive : GiveExhausted d
      [⟨"opcode", jsonText d.opcode.toList⟩,
       ⟨"fields", jsonList (d.fields.map FieldDecl.jsonChars)⟩] [opcodeSlot, fieldsSlot] :=
    .cons ⟨rfl, hopcode, (needsAll_text hopcode).exhausts reads_text hopcode⟩
      (.cons ⟨rfl, hfields, hneeds.exhausts FieldDecl.reads.list hfields⟩ .nil)
  exact shape_madeOf.needsAll_jsonObject hgive

namespace TableDecl

/-- So does a table. -/
theorem needsAll_jsonChars (d : TableDecl) : shape.reader.NeedsAll d.jsonChars := by
  have hinstructions : instructionsSlot.Spelling
      (jsonList (d.instructions.map InstructionDecl.jsonChars)) d.instructions :=
    spellsList_jsonList InstructionDecl.isSpelledBy_jsonChars d.instructions
  have hneeds : instructionsSlot.reader.NeedsAll
      (jsonList (d.instructions.map InstructionDecl.jsonChars)) :=
    needsAll_jsonList InstructionDecl.reads InstructionDecl.isSpelledBy_jsonChars
      InstructionDecl.needsAll_jsonChars d.instructions
  have hgive : GiveExhausted d
      [⟨"instructions", jsonList (d.instructions.map InstructionDecl.jsonChars)⟩]
      [instructionsSlot] :=
    .cons ⟨rfl, hinstructions, hneeds.exhausts InstructionDecl.reads.list hinstructions⟩ .nil
  exact shape_madeOf.needsAll_jsonObject hgive

/-- **A table that is cut short is no table.**  Wherever the text of a table
    stops before its end, the empty text included, it is refused because it has
    ended, and so nothing is loaded from it. -/
theorem ofJson_of_cut (d : TableDecl) (text : String) (hbegins : text.toList <+: d.toJson.toList)
    (hne : text ≠ d.toJson) :
    ∃ e, ofJson text = .error e ∧ e.category = .ended ∧
      ∀ path, isJsonPath path = true → loadTable path text = .fail (.parse path e) := by
  have hcut : Cut text.toList d.jsonChars := by
    rw [toJson, String.toList_ofList] at hbegins
    refine ⟨hbegins, fun heq => hne ?_⟩
    rw [toJson, ← heq, String.ofList_toList]
  obtain ⟨part, hrun⟩ := d.needsAll_jsonChars [] text.toList Blanks.nil hcut
  have hread : ofJson text = .error (.ended part) := by
    rw [List.nil_append] at hrun
    simp only [ofJson, Reader.document, hrun]
  refine ⟨.ended part, hread, rfl, ?_⟩
  intro path hpath
  rw [loadTable, if_pos hpath, loadDecl, hread]

/-- The text is cut off inside of the last number, of which 31 becomes 3. -/
theorem ofJson_of_cut_number :
    let d : TableDecl := ⟨[⟨"a\n", [⟨0, 5, 31⟩]⟩]⟩
    let text := "\x7b\"instructions\":[\x7b\"opcode\":\"a\\n\",\"fields\":[" ++
      "\x7b\"start\":0,\"stop\":5,\"value\":3"
    text.toList <+: d.toJson.toList ∧ text ≠ d.toJson ∧
      ∃ e, ofJson text = .error e ∧ e.category = .ended := by
  intro d text
  have hbegins : text.toList <+: d.toJson.toList := by decide
  have hne : text ≠ d.toJson := by decide
  obtain ⟨e, hread, hcategory, -⟩ := ofJson_of_cut d text hbegins hne
  exact ⟨hbegins, hne, e, hread, hcategory⟩

end TableDecl

end IsaTable
