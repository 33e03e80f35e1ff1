import IsaTable.Proofs.Json.Value

/-! # Readers and the grammar

    A reader is tied to a notion of spelling by `Reader.Reads`: whatever it
    takes is spelled, behind blanks, and whatever is spelled is taken, where
    something follows that delimits it.  The readers of texts and bounded numbers
    have it (`reads_text`, `reads_below`), and the combinators keep it, so every
    reader has it by the way it is built (`Reader.Reads.map`,
    `Reader.Reads.list`).
-/

namespace IsaTable.Json

/-! ## §1. What a reader reads -/

/-- **A reader reads a notion of spelling.** -/
structure Reader.Reads {α : Type} (reader : Reader α) (Spelling : List Char → α → Prop) :
    Prop where
  /-- Whatever is taken is spelled, behind blanks. -/
  sound : ∀ {s r : List Char} {a : α}, reader.run s = .ok (a, r) →
    ∃ b t, Blanks b ∧ Spelling t a ∧ s = b ++ t ++ r
  /-- Whatever is spelled is taken. -/
  complete : ∀ {b t r : List Char} {a : α}, Blanks b → Spelling t a → Delimited r →
    reader.run (b ++ t ++ r) = .ok (a, r)
  /-- A spelling begins like a value. -/
  begins : ∀ {t : List Char} {a : α}, Spelling t a → ∃ c t', t = c :: t' ∧ BeginsValue c

namespace Reader.Reads

variable {α β : Type} {reader : Reader α} {Spelling Spelling' : List Char → α → Prop}

theorem congr (h : reader.Reads Spelling) (hiff : ∀ t a, Spelling t a ↔ Spelling' t a) :
    reader.Reads Spelling' := by
  obtain rfl : Spelling = Spelling' := funext fun t => funext fun a => propext (hiff t a)
  exact h

/-- A mapped value is spelled as its source. -/
theorem map (h : reader.Reads Spelling) (f : α → β) :
    (reader.map f).Reads fun t b => ∃ a, Spelling t a ∧ f a = b where
  sound := by
    intro s r b hrun
    simp only [Reader.map] at hrun
    split at hrun
    · contradiction
    · next a _ hr =>
      obtain ⟨rfl, rfl⟩ := Prod.mk.inj (Except.ok.inj hrun)
      obtain ⟨b, t, hb, ht, rfl⟩ := h.sound hr
      exact ⟨b, t, hb, ⟨a, ht, rfl⟩, rfl⟩
  complete := by
    intro b t r c hb ht hr
    obtain ⟨a, ha, rfl⟩ := ht
    simp only [Reader.map, h.complete hb ha hr]
  begins := by
    intro t b ht
    obtain ⟨a, ha, -⟩ := ht
    exact h.begins ha

end Reader.Reads

/-! ## §2. Texts and numbers -/

theorem SpellsText.begins {t : List Char} {text : String} (h : SpellsText t text) :
    ∃ t', t = '"' :: t' := by
  obtain ⟨inner, -, rfl⟩ := h
  exact ⟨_, rfl⟩

/-- The reader of texts reads their spellings. -/
theorem reads_text : Reader.text.Reads SpellsText where
  sound := by
    intro s r text h
    change Reader.takeText s = _ at h
    unfold Reader.takeText at h
    split at h
    · contradiction
    · next hs =>
      obtain ⟨b, hb, rfl⟩ := exists_blanks hs
      split at h
      · next hc =>
        split at h
        · contradiction
        · next chars _ ht =>
          obtain ⟨rfl, rfl⟩ := Prod.mk.inj (Except.ok.inj h)
          obtain ⟨inner, hinner, rfl⟩ := readText_sound ht
          refine ⟨b, _, hb, ⟨inner, ?_, rfl⟩, ?_⟩
          · rw [String.toList_ofList]
            exact hinner
          · simp [hc]
      · contradiction
  complete := by
    intro b t r text hb ht _
    obtain ⟨inner, hinner, rfl⟩ := ht
    have hskip := skipBlank_enclosed (show isBlank '"' = false by decide) '"' hb inner r
    show Reader.takeText _ = _
    simp only [Reader.takeText, hskip, if_true, readText_complete hinner, String.ofList_toList]
  begins := by
    intro t text h
    obtain ⟨t', rfl⟩ := h.begins
    exact ⟨_, _, rfl, .inr (.inr (.inr (.inr (.inl rfl))))⟩

theorem SpellsNatural.begins {t : List Char} {n : Nat} (h : SpellsNatural t n) :
    ∃ c t', t = c :: t' ∧ beginsNumber c = true := by
  obtain ⟨c, t', rfl, hc⟩ := h.1.1.exists_cons
  exact ⟨c, t', rfl, by simp [beginsNumber, hc]⟩

/-- A found number counts if it is a natural number below the bound. -/
theorem natural_eq_ok_iff {bound n : Nat} {wanted : Wanted} {found : Found} :
    Reader.natural bound wanted found = .ok n ↔ found = .integer (.ofNat n) ∧ n < bound := by
  constructor
  · intro h
    unfold Reader.natural at h
    split at h
    · split at h
      · obtain rfl := Except.ok.inj h
        exact ⟨rfl, ‹_›⟩
      · contradiction
    · contradiction
    · contradiction
  · rintro ⟨rfl, hn⟩
    exact if_pos hn

/-- The reader of bounded numbers reads the integer literals of the natural
    numbers below the bound. -/
theorem reads_below {bound : Nat} (hbound : bound ≤ UInt64.size) (wanted : Wanted) :
    (Reader.below bound wanted).Reads fun t n => SpellsNatural t n ∧ n < bound where
  sound := by
    intro s r n h
    simp only [Reader.below] at h
    split at h
    · contradiction
    · next hs =>
      obtain ⟨b, hb, rfl⟩ := exists_blanks hs
      split at h
      · split at h
        · contradiction
        · next found r' hfound =>
          cases hn : Reader.natural bound wanted found with
          | error e =>
            rw [hn] at h
            contradiction
          | ok m =>
            rw [hn] at h
            obtain ⟨rfl, rfl⟩ := Prod.mk.inj (Except.ok.inj h)
            obtain ⟨rfl, hlt⟩ := natural_eq_ok_iff.1 hn
            obtain ⟨t, ht, hsplit⟩ := readNumber_natural hfound
            exact ⟨b, t, hb, ⟨ht, hlt⟩, by rw [hsplit, List.append_assoc]⟩
      · contradiction
  complete := by
    intro b t r n hb ht hr
    obtain ⟨hspelled, hlt⟩ := ht
    have hread := readNumber_of_spellsNatural hspelled (Nat.lt_of_lt_of_le hlt hbound) hr
    obtain ⟨c, t', rfl, hc⟩ := hspelled.begins
    have hblank := (isBlank_of_beginsValue (.inr (.inr (.inr (.inl hc))))).1
    have hskip : skipBlank (b ++ c :: t' ++ r) = c :: (t' ++ r) := by
      rw [List.append_assoc]
      exact skipBlank_append_cons hb hblank _
    rw [List.cons_append] at hread
    simp only [Reader.below, hskip, hc, if_true, hread, natural_eq_ok_iff.2 ⟨rfl, hlt⟩]
    rfl
  begins := by
    intro t n h
    obtain ⟨c, t', rfl, hc⟩ := h.1.begins
    exact ⟨c, t', rfl, .inr (.inr (.inr (.inl hc)))⟩

/-! ## §3. Lists -/

/-- Further blanks may follow what leads up to an item. -/
theorem Lead.append {first : Bool} {lead b : List Char} (h : Lead first lead) (hb : Blanks b) :
    Lead first (lead ++ b) := by
  have happend : ∀ {b' : List Char}, Blanks b' → Blanks (b' ++ b) := fun hb' c hc =>
    (List.mem_append.1 hc).elim (hb' c) (hb c)
  cases h with
  | first hb' => exact .first (happend hb')
  | comma hb₁ hb₂ =>
    rw [List.append_assoc]
    exact .comma hb₁ (happend hb₂)

/-- What follows an item delimits it. -/
theorem Items.delimited {α : Type*} {Item : List Char → α → Prop} {t : List Char} {as : List α}
    (h : Items Item false t as) {c : Char} (hc : IsDelimiter c) (r : List Char) :
    Delimited (t ++ c :: r) := by
  cases h with
  | none hb => exact (delimited_cons hc r).append hb
  | item hlead _ _ =>
    rw [List.append_assoc, List.append_assoc]
    exact hlead.delimited _

theorem Items.map_iff {α β : Type*} {Item : List Char → β → Prop} {f : α → β} {first : Bool}
    {s : List Char} {as : List α} :
    Items Item first s (as.map f) ↔ Items (fun t a => Item t (f a)) first s as := by
  constructor
  · intro h
    induction as generalizing first s with
    | nil =>
      cases h with
      | none hb => exact .none hb
    | cons a as ih =>
      cases h with
      | item hlead hitem hrest => exact .item hlead hitem (ih hrest)
  · intro h
    induction h with
    | none hb => exact .none hb
    | item hlead hitem _ ih => exact .item hlead hitem ih

section
variable {first : Bool} {s r lead b : List Char} {c : Char}

theorem nextElement_close (hb : Blanks b) (r : List Char) :
    nextElement first (b ++ ']' :: r) = .ok (.close r) := by
  rw [nextElement, skipBlank_append_cons hb (by decide)]
  rfl

theorem nextElement_item (hlead : Lead first lead) (hblank : isBlank c = false) (hc : c ≠ ']')
    (s : List Char) : nextElement first (lead ++ c :: s) = .ok (.item (c :: s)) := by
  cases hlead with
  | first hb => simp only [nextElement, skipBlank_append_cons hb hblank, if_neg hc, if_true]
  | @comma b b' hb hb' =>
    have hskip : skipBlank (b ++ ',' :: b' ++ c :: s) = ',' :: (b' ++ c :: s) := by
      rw [List.append_assoc, List.cons_append, skipBlank_append_cons hb (by decide)]
    simp only [nextElement, hskip, skipBlank_append_cons hb' hblank, if_neg hc,
      if_neg (show ',' ≠ ']' by decide), Bool.false_eq_true, if_false, if_true]

theorem nextElement_close_sound (h : nextElement first s = .ok (.close r)) :
    ∃ b, Blanks b ∧ s = b ++ ']' :: r := by
  unfold nextElement at h
  split at h
  · contradiction
  · next hs =>
    obtain ⟨b, hb, rfl⟩ := exists_blanks hs
    split at h
    · next hc =>
      obtain rfl := Next.close.inj (Except.ok.inj h)
      exact ⟨b, hb, by rw [hc]⟩
    · split at h
      · cases h
      · split at h
        · split at h
          · contradiction
          · split at h <;> cases h
        · contradiction

theorem nextElement_item_sound (h : nextElement first s = .ok (.item r)) :
    ∃ lead, Lead first lead ∧ s = lead ++ r := by
  unfold nextElement at h
  split at h
  · contradiction
  · next hs =>
    obtain ⟨b, hb, rfl⟩ := exists_blanks hs
    split at h
    · cases h
    · split at h
      · next hfirst =>
        obtain rfl := Next.item.inj (Except.ok.inj h)
        rw [hfirst]
        exact ⟨b, .first hb, rfl⟩
      · next hfirst =>
        split at h
        · next hcomma =>
          split at h
          · contradiction
          · next hd =>
            obtain ⟨b', hb', rfl⟩ := exists_blanks hd
            split at h
            · contradiction
            · obtain rfl := Next.item.inj (Except.ok.inj h)
              rw [Bool.not_eq_true] at hfirst
              rw [hfirst, hcomma]
              exact ⟨_, .comma hb hb', by simp⟩
        · contradiction

end

section
variable {α : Type} {element : Reader α} {Spelling : List Char → α → Prop}

/-- What the reader of elements does in one step. -/
theorem elements_eq (element : Reader α) (first : Bool) (s : List Char) :
    Reader.elements element first s = (nextElement first s).bind fun
      | .close rest => .ok ([], rest)
      | .item rest => (element.run rest).bind fun head =>
        (Reader.elements element false head.2).map fun tail => (head.1 :: tail.1, tail.2) := by
  rw [Reader.elements]
  split
  · next h =>
    rw [h]
    rfl
  · next h =>
    rw [h]
    rfl
  · next h =>
    rw [h]
    show _ = (element.run _).bind _
    split
    · next hrun =>
      rw [hrun]
      rfl
    · next rest' hrun =>
      rw [hrun]
      show _ = (Reader.elements element false rest').map _
      cases Reader.elements element false rest' <;> rfl

theorem elements_of_close {first : Bool} {s r : List Char}
    (h : nextElement first s = .ok (.close r)) :
    Reader.elements element first s = .ok ([], r) := by
  rw [elements_eq, h]
  rfl

theorem elements_of_item {first : Bool} {s t r r' : List Char} {a : α} {as : List α}
    (h : nextElement first s = .ok (.item t)) (hrun : element.run t = .ok (a, r))
    (hrest : Reader.elements element false r = .ok (as, r')) :
    Reader.elements element first s = .ok (a :: as, r') := by
  rw [elements_eq, h]
  show (element.run t).bind _ = _
  rw [hrun]
  show (Reader.elements element false r).map _ = _
  rw [hrest]
  rfl

/-- Elements that are spelled are read to the closing bracket. -/
theorem elements_complete (helement : element.Reads Spelling) {first : Bool} {s : List Char}
    {as : List α} (h : Items Spelling first s as) (r : List Char) :
    Reader.elements element first (s ++ ']' :: r) = .ok (as, r) := by
  induction h with
  | none hb => exact elements_of_close (nextElement_close hb r)
  | @item first lead t rest a as hlead hitem hrest ih =>
    obtain ⟨c, t', rfl, hc⟩ := helement.begins hitem
    obtain ⟨hblank, hclosing⟩ := isBlank_of_beginsValue hc
    have hnext := nextElement_item hlead hblank hclosing (t' ++ (rest ++ ']' :: r))
    have hrun := helement.complete Blanks.nil hitem
      (hrest.delimited (.inr (.inr (.inl rfl))) r)
    rw [List.append_assoc, List.append_assoc, List.cons_append]
    exact elements_of_item hnext hrun ih

theorem elements_sound (helement : element.Reads Spelling) {first : Bool} {s r : List Char}
    {as : List α} (h : Reader.elements element first s = .ok (as, r)) :
    ∃ t, Items Spelling first t as ∧ s = t ++ ']' :: r := by
  fun_induction Reader.elements element first s generalizing as with
  | case1 | case3 | case4 => contradiction
  | case2 first s rest hn =>
    obtain ⟨rfl, rfl⟩ := Prod.mk.inj (Except.ok.inj h)
    obtain ⟨b, hb, rfl⟩ := nextElement_close_sound hn
    exact ⟨b, .none hb, rfl⟩
  | case5 first s rest hn a rest' hr as r' hs ih =>
    obtain ⟨rfl, rfl⟩ := Prod.mk.inj (Except.ok.inj h)
    obtain ⟨lead, hlead, rfl⟩ := nextElement_item_sound hn
    obtain ⟨b, t, hb, ht, rfl⟩ := helement.sound hr
    obtain ⟨u, hu, rfl⟩ := ih hs
    exact ⟨_, .item (hlead.append hb) ht hu, by simp⟩

/-- The reader of lists reads lists of what its element reads. -/
theorem Reader.Reads.list (helement : element.Reads Spelling) :
    (Reader.list element).Reads (SpellsList Spelling) where
  sound := by
    intro s r as h
    simp only [Reader.list] at h
    split at h
    · contradiction
    · next hs =>
      obtain ⟨b, hb, rfl⟩ := exists_blanks hs
      split at h
      · next hc =>
        obtain ⟨inner, hinner, rfl⟩ := elements_sound helement h
        exact ⟨b, _, hb, ⟨inner, hinner, rfl⟩, by simp [hc]⟩
      · contradiction
  complete := by
    intro b t r as hb ht _
    obtain ⟨inner, hinner, rfl⟩ := ht
    have hskip := skipBlank_enclosed (show isBlank '[' = false by decide) ']' hb inner r
    simp only [Reader.list, hskip, if_true, elements_complete helement hinner]
  begins := by
    intro t as h
    obtain ⟨inner, -, rfl⟩ := h
    exact ⟨_, _, rfl, .inr (.inr (.inr (.inr (.inr (.inl rfl)))))⟩

end

end IsaTable.Json
