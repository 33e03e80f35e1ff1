import Mathlib.Data.List.Nodup
import IsaTable.Proofs.Json.Reader

/-! # Reading structures

    A structure is read part by part into a draft.  `TypedSlot` says what one
    slot does in terms of the part that it stands for, and a shape that is
    `MadeOf` such slots is read in both of its spellings, and in no other
    (`Shape.MadeOf.reads`).

    For objects the invariant is `Completes`: the members that are still to come
    complete the draft to the structure.  One member takes the draft a step
    further and leaves the rest to complete it (`Takes.completes`,
    `Completes.exists_takes`).  For lists it is that the draft holds the parts in
    front of those still to come.
-/

namespace IsaTable.Json

/-! ## §1. Slots with their types -/

/-- A slot of a structure of type `α`, with the part that it stands for. -/
structure TypedSlot (δ α : Type) where
  /-- The type of the part. -/
  Value : Type
  /-- The key of the part. -/
  key : String
  /-- What the part is read by. -/
  reader : Reader Value
  /-- How the part is spelled. -/
  Spelling : List Char → Value → Prop
  /-- The part of a draft, if it has been read. -/
  get : δ → Option Value
  /-- Puts the part into a draft. -/
  set : δ → Value → δ
  /-- The part of a finished structure. -/
  part : α → Value
  /-- Whether a structure can do without the part. -/
  Optional : α → Prop

namespace TypedSlot

variable {δ α : Type}

/-- The slot without the type of its part. -/
def slot (p : TypedSlot δ α) : Slot δ :=
  ⟨p.key, fun d => (p.get d).isSome, fun d => p.reader.map (p.set d)⟩

/-- The part of a certain structure. -/
def component (p : TypedSlot δ α) (a : α) : Component :=
  ⟨p.key, fun s => p.Spelling s (p.part a), p.Optional a⟩

/-- What the members still to come must give, if they are to complete the
    draft to the structure: a part that the draft holds is the structure's and
    may not come again, and any other part has to come. -/
def Wants (p : TypedSlot δ α) (d : δ) (a : α) (members : List Member) : Prop :=
  match p.get d with
  | some v => v = p.part a ∧ membersOf p.key members = []
  | none => (p.component a).IsGivenBy members

end TypedSlot

/-- **A shape made of typed slots.**  Each slot reads its part, and touches no
    other part of the draft. -/
structure Shape.MadeOf {δ α : Type} (shape : Shape δ α) (slots : List (TypedSlot δ α)) :
    Prop where
  slots_eq : shape.slots = slots.map TypedSlot.slot
  nodup_keys : (slots.map TypedSlot.key).Nodup
  reads : ∀ p ∈ slots, p.reader.Reads p.Spelling
  get_blank : ∀ p ∈ slots, p.get shape.blank = none
  get_set : ∀ p ∈ slots, ∀ d v, p.get (p.set d v) = some v
  get_set_of_ne : ∀ p ∈ slots, ∀ q ∈ slots, q.key ≠ p.key → ∀ d v, q.get (p.set d v) = q.get d
  finish_iff : ∀ d a, shape.finish d = .ok a ↔
    ∀ p ∈ slots, p.get d = some (p.part a) ∨ p.get d = none ∧ p.Optional a

section
variable {δ α : Type} {shape : Shape δ α} {slots : List (TypedSlot δ α)}

/-- A slot is known by its key. -/
theorem Shape.MadeOf.slot_unique (h : shape.MadeOf slots) {p q : TypedSlot δ α} (hp : p ∈ slots)
    (hq : q ∈ slots) (hkey : p.key = q.key) : p = q :=
  List.inj_on_of_nodup_map h.nodup_keys hp hq hkey

/-! ## §2. One member -/

/-- What a member does to a draft: a known key fills its slot, which must be
    empty, and an unknown one does nothing. -/
inductive Takes (slots : List (TypedSlot δ α)) : δ → Member → δ → Prop
  | known {d : δ} {m : Member} {p : TypedSlot δ α} {v : p.Value} (hp : p ∈ slots)
      (hkey : m.key = p.key) (hempty : p.get d = none) (hvalue : p.Spelling m.value v) :
      Takes slots d m (p.set d v)
  | unknown {d : δ} {m : Member} (hkey : ∀ p ∈ slots, m.key ≠ p.key)
      (hvalue : WellFormed .value m.value) : Takes slots d m d

/-- The slot with a known key is found. -/
theorem Shape.MadeOf.find?_known (h : shape.MadeOf slots) {p : TypedSlot δ α} (hp : p ∈ slots) :
    (shape.slots.find? fun slot => slot.key.toList == p.key.toList) = some p.slot := by
  rw [h.slots_eq, List.find?_map]
  have hsome : (slots.find? fun q => q.key.toList == p.key.toList).isSome := by
    rw [List.find?_isSome]
    exact ⟨p, hp, by simp⟩
  obtain ⟨q, hq⟩ := Option.isSome_iff_exists.1 hsome
  have hkey : q.key = p.key := by
    have := List.find?_some hq
    simpa [String.toList_inj] using this
  obtain rfl := h.slot_unique (List.mem_of_find?_eq_some hq) hp hkey
  show Option.map _ (slots.find? fun r => r.key.toList == q.key.toList) = _
  rw [hq]
  rfl

/-- No slot is found for an unknown key. -/
theorem Shape.MadeOf.find?_unknown (h : shape.MadeOf slots) {key : String}
    (hkey : ∀ p ∈ slots, key ≠ p.key) :
    (shape.slots.find? fun slot => slot.key.toList == key.toList) = none := by
  rw [h.slots_eq, List.find?_eq_none]
  intro slot hslot
  obtain ⟨p, hp, rfl⟩ := List.mem_map.1 hslot
  have : p.key ≠ key := fun heq => hkey p hp heq.symm
  simpa [TypedSlot.slot, String.toList_inj] using this

theorem takeColon_eq_ok_iff {s r : List Char} :
    takeColon s = .ok r ↔ ∃ b, Blanks b ∧ s = b ++ ':' :: r := by
  constructor
  · intro h
    unfold takeColon at h
    split at h
    · contradiction
    · next hs =>
      obtain ⟨b, hb, rfl⟩ := exists_blanks hs
      split at h
      · next hc =>
        obtain rfl := Except.ok.inj h
        exact ⟨b, hb, by rw [hc]⟩
      · contradiction
  · rintro ⟨b, hb, rfl⟩
    rw [takeColon, skipBlank_append_cons hb (by decide)]
    rfl

/-- A member of an object from its opening quote on. -/
theorem spellsMember_iff {s : List Char} {m : Member} :
    SpellsMember s m ↔ ∃ key b b', SpellsChars key m.key.toList ∧ Blanks b ∧ Blanks b' ∧
      s = '"' :: (key ++ '"' :: (b ++ ':' :: (b' ++ m.value))) := by
  constructor
  · rintro ⟨⟨key, hkey, rfl⟩, hb, hb'⟩
    exact ⟨key, _, _, hkey, hb, hb', by simp⟩
  · rintro ⟨key, b, b', hkey, hb, hb', rfl⟩
    have h := SpellsMember.parts (m := m) ⟨key, hkey, rfl⟩ hb hb'
    simpa using h

/-- A member is read for what it does to the draft. -/
theorem Shape.MadeOf.readMember_complete (h : shape.MadeOf slots) {d d' : δ} {m : Member}
    {s r : List Char} (hm : SpellsMember ('"' :: s) m) (hd : Takes slots d m d')
    (hr : Delimited r) : shape.readMember d (s ++ r) = .ok (d', r) := by
  obtain ⟨key, b, b', hkey, hb, hb', hs⟩ := spellsMember_iff.1 hm
  obtain rfl := (List.cons.inj hs).2
  have htext : readText (key ++ '"' :: (b ++ ':' :: (b' ++ m.value)) ++ r) =
      .ok (m.key.toList, b ++ ':' :: (b' ++ m.value ++ r)) := by
    rw [List.append_assoc, List.cons_append, readText_complete hkey, List.append_assoc,
      List.cons_append]
  have hcolon := takeColon_eq_ok_iff.2 ⟨b, hb, Eq.refl (b ++ ':' :: (b' ++ m.value ++ r))⟩
  cases hd with
  | @known p v hp hmp hempty hvalue =>
    have hfilled : p.slot.filled d = false := by simp [TypedSlot.slot, hempty]
    have hfill : (p.slot.fill d).run (b' ++ m.value ++ r) = .ok (p.set d v, r) :=
      ((h.reads p hp).map (p.set d)).complete hb' ⟨v, hvalue, rfl⟩ hr
    simp only [Shape.readMember, htext, hmp, h.find?_known hp, hfilled, hcolon, hfill,
      Bool.false_eq_true, if_false]
  | unknown hunknown hvalue =>
    simp only [Shape.readMember, htext, h.find?_unknown hunknown, hcolon,
      skipValue_complete hvalue hb' hr]
    rfl

/-- What is read as a member spells one, and does to the draft what it does. -/
theorem Shape.MadeOf.readMember_sound (h : shape.MadeOf slots) {d d' : δ} {s r : List Char}
    (hrun : shape.readMember d s = .ok (d', r)) :
    ∃ t m, SpellsMember ('"' :: t) m ∧ Takes slots d m d' ∧ s = t ++ r := by
  unfold Shape.readMember at hrun
  split at hrun
  · contradiction
  · next key afterKey hkey =>
    obtain ⟨k, hk, rfl⟩ := readText_sound hkey
    -- Whatever the key is, the value follows the colon.
    have hmember : ∀ {b b' t : List Char}, Blanks b → Blanks b' →
        SpellsMember ('"' :: (k ++ '"' :: (b ++ ':' :: (b' ++ t)))) ⟨String.ofList key, t⟩ := by
      intro b b' t hb hb'
      exact spellsMember_iff.2 ⟨k, b, b', by simpa using hk, hb, hb', rfl⟩
    split at hrun
    · next slot hslot =>
      have hmem := List.mem_of_find?_eq_some hslot
      rw [h.slots_eq] at hmem
      obtain ⟨p, hp, rfl⟩ := List.mem_map.1 hmem
      have hkeys : String.ofList key = p.key := by
        have := List.find?_some hslot
        rw [beq_iff_eq] at this
        rw [← this]
        exact String.ofList_toList
      split at hrun
      · contradiction
      · next hfilled =>
        have hempty : p.get d = none := by simpa [TypedSlot.slot] using hfilled
        split at hrun
        · contradiction
        · next hcolon =>
          obtain ⟨b, hb, rfl⟩ := takeColon_eq_ok_iff.1 hcolon
          obtain ⟨b', t, hb', ⟨v, hv, rfl⟩, rfl⟩ :=
            ((h.reads p hp).map (p.set d)).sound hrun
          exact ⟨_, _, hmember hb hb', .known hp hkeys hempty hv, by simp⟩
    · next hnone =>
      have hunknown : ∀ p ∈ slots, String.ofList key ≠ p.key := by
        intro p hp heq
        rw [h.slots_eq] at hnone
        have := List.find?_eq_none.1 hnone p.slot (List.mem_map_of_mem hp)
        simp [TypedSlot.slot, ← heq] at this
      split at hrun
      · contradiction
      · next rest hcolon =>
        obtain ⟨b, hb, rfl⟩ := takeColon_eq_ok_iff.1 hcolon
        cases hskip : skipValue rest with
        | error e =>
          rw [hskip] at hrun
          contradiction
        | ok r' =>
          rw [hskip] at hrun
          obtain ⟨rfl, rfl⟩ := Prod.mk.inj (Except.ok.inj hrun)
          obtain ⟨b', t, hb', ht, rfl⟩ := skipValue_sound hskip
          exact ⟨_, _, hmember hb hb', .unknown hunknown ht, by simp⟩

/-! ## §3. The members that complete a draft -/

theorem membersOf_cons_self {key : String} {m : Member} (h : m.key = key)
    (members : List Member) : membersOf key (m :: members) = m :: membersOf key members := by
  simp [membersOf, h]

theorem membersOf_cons_of_ne {key : String} {m : Member} (h : m.key ≠ key)
    (members : List Member) : membersOf key (m :: members) = membersOf key members := by
  simp [membersOf, h]

/-- **The members complete the draft to the structure.** -/
structure Completes (slots : List (TypedSlot δ α)) (d : δ) (a : α) (members : List Member) :
    Prop where
  /-- Every slot gets what it wants. -/
  wanted : ∀ p ∈ slots, p.Wants d a members
  /-- Members that no slot wants are well-formed. -/
  others : ∀ m ∈ members, (∀ p ∈ slots, m.key ≠ p.key) → WellFormed .value m.value

/-- Without a further member the draft has to be finished. -/
theorem Shape.MadeOf.completes_nil_iff (h : shape.MadeOf slots) {d : δ} {a : α} :
    Completes slots d a [] ↔ shape.finish d = .ok a := by
  have hwants : ∀ p : TypedSlot δ α, p.Wants d a [] ↔
      (p.get d = some (p.part a) ∨ p.get d = none ∧ p.Optional a) := by
    intro p
    unfold TypedSlot.Wants
    cases p.get d with
    | none => simp [Component.IsGivenBy, membersOf, TypedSlot.component]
    | some v => simp [membersOf]
  rw [h.finish_iff]
  constructor
  · intro hc p hp
    exact (hwants p).1 (hc.wanted p hp)
  · intro hc
    exact ⟨fun p hp => (hwants p).2 (hc p hp), List.forall_mem_nil _⟩

/-- In the blank draft every part has to be given. -/
theorem Shape.MadeOf.completes_blank_iff (h : shape.MadeOf slots) {a : α}
    {members : List Member} :
    Completes slots shape.blank a members ↔
      (∀ p ∈ slots, (p.component a).IsGivenBy members) ∧
        ∀ m ∈ members, (∀ p ∈ slots, m.key ≠ p.key) → WellFormed .value m.value := by
  have hwants : ∀ p ∈ slots, p.Wants shape.blank a members ↔
      (p.component a).IsGivenBy members := by
    intro p hp
    rw [TypedSlot.Wants, h.get_blank p hp]
  constructor
  · intro hc
    exact ⟨fun p hp => (hwants p hp).1 (hc.wanted p hp), hc.others⟩
  · rintro ⟨hgiven, hothers⟩
    exact ⟨fun p hp => (hwants p hp).2 (hgiven p hp), hothers⟩

/-- A slot does not want a member with another key. -/
theorem TypedSlot.wants_cons_of_ne {p : TypedSlot δ α} {d : δ} {a : α} {m : Member}
    (hkey : m.key ≠ p.key) (members : List Member) :
    p.Wants d a (m :: members) ↔ p.Wants d a members := by
  unfold TypedSlot.Wants Component.IsGivenBy
  rw [membersOf_cons_of_ne hkey, show membersOf (p.component a).key (m :: members) = _ from
    membersOf_cons_of_ne hkey members]
  rfl

/-- A slot of which a member has the key wants just this member, and only if it
    is empty. -/
theorem TypedSlot.wants_cons_self {p : TypedSlot δ α} {d : δ} {a : α} {m : Member}
    (hkey : m.key = p.key) (members : List Member) :
    p.Wants d a (m :: members) ↔
      p.get d = none ∧ p.Spelling m.value (p.part a) ∧ membersOf p.key members = [] := by
  unfold TypedSlot.Wants Component.IsGivenBy
  rw [membersOf_cons_self hkey, show membersOf (p.component a).key (m :: members) = _ from
    membersOf_cons_self hkey members]
  cases p.get d with
  | none => simp [TypedSlot.component, and_comm]
  | some v => simp

/-- What a member does to other slots is nothing. -/
theorem Shape.MadeOf.wants_set (h : shape.MadeOf slots) {p q : TypedSlot δ α} (hp : p ∈ slots)
    (hq : q ∈ slots) (hkey : q.key ≠ p.key) (d : δ) (v : p.Value) (a : α)
    (members : List Member) : q.Wants (p.set d v) a members ↔ q.Wants d a members := by
  unfold TypedSlot.Wants
  rw [h.get_set_of_ne p hp q hq hkey]

/-- A filled slot wants nothing more. -/
theorem Shape.MadeOf.wants_set_self (h : shape.MadeOf slots) {p : TypedSlot δ α} (hp : p ∈ slots)
    (d : δ) (v : p.Value) (a : α) (members : List Member) :
    p.Wants (p.set d v) a members ↔ v = p.part a ∧ membersOf p.key members = [] := by
  unfold TypedSlot.Wants
  rw [h.get_set p hp]

/-- **One step.**  The member that took the draft further belongs to the
    members that complete it. -/
theorem Shape.MadeOf.completes_of_takes (h : shape.MadeOf slots) {d d' : δ} {m : Member} {a : α}
    {members : List Member} (htakes : Takes slots d m d') (hc : Completes slots d' a members) :
    Completes slots d a (m :: members) := by
  cases htakes with
  | @known p v hp hkey hempty hvalue =>
    constructor
    · intro q hq
      by_cases hqp : q.key = p.key
      · obtain rfl := h.slot_unique hq hp hqp
        obtain ⟨rfl, hnone⟩ := (h.wants_set_self hq d v a members).1 (hc.wanted q hq)
        exact (TypedSlot.wants_cons_self hkey members).2 ⟨hempty, hvalue, hnone⟩
      · rw [TypedSlot.wants_cons_of_ne (fun heq => hqp (heq ▸ hkey)),
          ← h.wants_set hp hq hqp d v]
        exact hc.wanted q hq
    · intro m' hm' hunknown
      obtain rfl | hm' := List.mem_cons.1 hm'
      · exact absurd hkey (hunknown p hp)
      · exact hc.others m' hm' hunknown
  | unknown hunknown hvalue =>
    constructor
    · intro q hq
      exact (TypedSlot.wants_cons_of_ne (hunknown q hq) members).2 (hc.wanted q hq)
    · intro m' hm' hunknown'
      obtain rfl | hm' := List.mem_cons.1 hm'
      · exact hvalue
      · exact hc.others m' hm' hunknown'

/-- **One step, the other way.**  The first of the members that complete a draft
    takes it further, and the others complete what comes out. -/
theorem Shape.MadeOf.exists_takes (h : shape.MadeOf slots) {d : δ} {m : Member} {a : α}
    {members : List Member} (hc : Completes slots d a (m :: members)) :
    ∃ d', Takes slots d m d' ∧ Completes slots d' a members := by
  have hothers : ∀ m' ∈ members, (∀ p ∈ slots, m'.key ≠ p.key) → WellFormed .value m'.value :=
    fun m' hm' => hc.others m' (List.mem_cons_of_mem _ hm')
  by_cases hknown : ∃ p ∈ slots, m.key = p.key
  · obtain ⟨p, hp, hkey⟩ := hknown
    obtain ⟨hempty, hvalue, hnone⟩ :=
      (TypedSlot.wants_cons_self hkey members).1 (hc.wanted p hp)
    refine ⟨p.set d (p.part a), .known hp hkey hempty hvalue, ?_, hothers⟩
    intro q hq
    by_cases hqp : q.key = p.key
    · obtain rfl := h.slot_unique hq hp hqp
      exact (h.wants_set_self hq d _ a members).2 ⟨rfl, hnone⟩
    · rw [h.wants_set hp hq hqp, ← TypedSlot.wants_cons_of_ne (m := m) fun heq => hqp (heq ▸ hkey)]
      exact hc.wanted q hq
  · have hunknown : ∀ p ∈ slots, m.key ≠ p.key := fun p hp heq => hknown ⟨p, hp, heq⟩
    refine ⟨d, .unknown hunknown (hc.others m List.mem_cons_self hunknown), ?_, hothers⟩
    intro q hq
    exact (TypedSlot.wants_cons_of_ne (hunknown q hq) members).1 (hc.wanted q hq)

/-! ## §4. Objects -/

theorem nextMember_close {first : Bool} {b : List Char} (hb : Blanks b) (r : List Char) :
    nextMember first (b ++ '\x7d' :: r) = .ok (.close r) := by
  rw [nextMember, skipBlank_append_cons hb (by decide)]
  rfl

theorem nextMember_item {first : Bool} {lead : List Char} (hlead : Lead first lead)
    (s : List Char) : nextMember first (lead ++ '"' :: s) = .ok (.item s) := by
  cases hlead with
  | first hb =>
    rw [nextMember, skipBlank_append_cons hb (by decide)]
    rfl
  | @comma b b' hb hb' =>
    have hskip : skipBlank (b ++ ',' :: b' ++ '"' :: s) = ',' :: (b' ++ '"' :: s) := by
      rw [List.append_assoc, List.cons_append, skipBlank_append_cons hb (by decide)]
    have hskip' : skipBlank (b' ++ '"' :: s) = '"' :: s :=
      skipBlank_append_cons hb' (by decide) s
    simp only [nextMember, hskip, hskip', if_neg (show ',' ≠ '\x7d' by decide),
      Bool.false_eq_true, if_false, if_true]

theorem nextMember_close_sound {first : Bool} {s r : List Char}
    (h : nextMember first s = .ok (.close r)) : ∃ b, Blanks b ∧ s = b ++ '\x7d' :: r := by
  unfold nextMember at h
  split at h
  · contradiction
  · next hs =>
    obtain ⟨b, hb, rfl⟩ := exists_blanks hs
    split at h
    · next hc =>
      obtain rfl := Next.close.inj (Except.ok.inj h)
      exact ⟨b, hb, by rw [hc]⟩
    · split at h
      · split at h <;> cases h
      · split at h
        · split at h
          · contradiction
          · split at h
            · cases h
            · split at h <;> contradiction
        · contradiction

theorem nextMember_item_sound {first : Bool} {s r : List Char}
    (h : nextMember first s = .ok (.item r)) :
    ∃ lead, Lead first lead ∧ s = lead ++ '"' :: r := by
  unfold nextMember at h
  split at h
  · contradiction
  · next hs =>
    obtain ⟨b, hb, rfl⟩ := exists_blanks hs
    split at h
    · cases h
    · split at h
      · next hfirst =>
        split at h
        · next hquote =>
          obtain rfl := Next.item.inj (Except.ok.inj h)
          rw [hfirst, hquote]
          exact ⟨b, .first hb, rfl⟩
        · contradiction
      · next hfirst =>
        rw [Bool.not_eq_true] at hfirst
        split at h
        · next hcomma =>
          split at h
          · contradiction
          · next hd =>
            obtain ⟨b', hb', rfl⟩ := exists_blanks hd
            split at h
            · next hquote =>
              obtain rfl := Next.item.inj (Except.ok.inj h)
              rw [hfirst, hcomma, hquote]
              exact ⟨_, .comma hb hb', by simp⟩
            · split at h <;> contradiction
        · contradiction

/-- What the reader of members does in one step. -/
theorem Shape.readMembers_eq (shape : Shape δ α) (first : Bool) (d : δ) (s : List Char) :
    shape.readMembers first d s = (nextMember first s).bind fun
      | .close rest => ((shape.finish d).mapError .missing).map (·, rest)
      | .item rest => (shape.readMember d rest).bind fun next =>
        shape.readMembers false next.1 next.2 := by
  rw [Shape.readMembers]
  split
  · next h =>
    rw [h]
    rfl
  · next h =>
    rw [h]
    show _ = ((shape.finish d).mapError _).map _
    cases shape.finish d <;> rfl
  · next h =>
    rw [h]
    show _ = (shape.readMember d _).bind _
    split
    · next hm =>
      rw [hm]
      rfl
    · next hm =>
      rw [hm]
      rfl

theorem Shape.readMembers_of_close {first : Bool} {d : δ} {a : α} {s r : List Char}
    (h : nextMember first s = .ok (.close r)) (hfinish : shape.finish d = .ok a) :
    shape.readMembers first d s = .ok (a, r) := by
  rw [Shape.readMembers_eq, h]
  show ((shape.finish d).mapError _).map _ = _
  rw [hfinish]
  rfl

theorem Shape.readMembers_of_item {first : Bool} {d d' : δ} {s t r : List Char}
    (h : nextMember first s = .ok (.item t)) (hm : shape.readMember d t = .ok (d', r)) :
    shape.readMembers first d s = shape.readMembers false d' r := by
  rw [Shape.readMembers_eq, h]
  show (shape.readMember d t).bind _ = _
  rw [hm]
  rfl

/-- Members that complete the draft are read to the closing brace. -/
theorem Shape.MadeOf.readMembers_complete (h : shape.MadeOf slots) {first : Bool} {d : δ} {a : α}
    {s : List Char} {members : List Member} (hitems : Items SpellsMember first s members)
    (hc : Completes slots d a members) (r : List Char) :
    shape.readMembers first d (s ++ '\x7d' :: r) = .ok (a, r) := by
  induction hitems generalizing d with
  | none hb =>
    exact Shape.readMembers_of_close (nextMember_close hb r) (h.completes_nil_iff.1 hc)
  | @item first lead t rest m members hlead hm hrest ih =>
    obtain ⟨d', htakes, hc'⟩ := h.exists_takes hc
    obtain ⟨t', rfl⟩ : ∃ t', t = '"' :: t' := by
      obtain ⟨key, b, b', -, -, -, rfl⟩ := spellsMember_iff.1 hm
      exact ⟨_, rfl⟩
    have hnext := nextMember_item hlead (t' ++ (rest ++ '\x7d' :: r))
    have hmember := h.readMember_complete hm htakes
      (hrest.delimited (.inr (.inr (.inr rfl))) r)
    rw [List.append_assoc, List.append_assoc, List.cons_append,
      Shape.readMembers_of_item hnext hmember]
    exact ih hc'

/-- What is read to the closing brace is members that complete the draft. -/
theorem Shape.MadeOf.readMembers_sound (h : shape.MadeOf slots) {first : Bool} {d : δ} {a : α}
    {s r : List Char} (hrun : shape.readMembers first d s = .ok (a, r)) :
    ∃ t members, Items SpellsMember first t members ∧ Completes slots d a members ∧
      s = t ++ '\x7d' :: r := by
  fun_induction Shape.readMembers shape first d s with
  | case1 | case2 | case4 => contradiction
  | case3 first d s rest hn a' hfinish =>
    obtain ⟨rfl, rfl⟩ := Prod.mk.inj (Except.ok.inj hrun)
    obtain ⟨b, hb, rfl⟩ := nextMember_close_sound hn
    exact ⟨b, [], .none hb, h.completes_nil_iff.2 hfinish, rfl⟩
  | case5 first d s rest hn d' rest' hm ih =>
    obtain ⟨lead, hlead, rfl⟩ := nextMember_item_sound hn
    obtain ⟨t, m, hspelled, htakes, rfl⟩ := h.readMember_sound hm
    obtain ⟨u, members, hitems, hc, rfl⟩ := ih hrun
    exact ⟨_, _, .item hlead hspelled hitems, h.completes_of_takes htakes hc, by simp⟩

/-! ## §5. Lists of parts -/

theorem takeListEnd_eq_ok_iff {s r : List Char} :
    takeListEnd s = .ok r ↔ ∃ b, Blanks b ∧ s = b ++ ']' :: r := by
  constructor
  · intro h
    unfold takeListEnd at h
    split at h
    · contradiction
    · next hs =>
      obtain ⟨b, hb, rfl⟩ := exists_blanks hs
      split at h
      · next hc =>
        obtain rfl := Except.ok.inj h
        exact ⟨b, hb, by rw [hc]⟩
      · split at h <;> contradiction
  · rintro ⟨b, hb, rfl⟩
    rw [takeListEnd, skipBlank_append_cons hb (by decide)]
    rfl

/-- The spelling of a part of a certain structure. -/
def SpellsPart (a : α) (s : List Char) (p : TypedSlot δ α) : Prop :=
  p.Spelling s (p.part a)

/-- Parts that are spelled are read to the closing bracket, where the draft
    holds every part in front of them and those behind them can be left out. -/
theorem Shape.MadeOf.readParts_complete (h : shape.MadeOf slots)
    {given missing : List (TypedSlot δ α)} {count : Nat} {d : δ} {a : α} {s : List Char}
    (hitems : Items (SpellsPart a) (count == 0) s given)
    (hmem : ∀ p ∈ given ++ missing, p ∈ slots) (hmissing : ∀ p ∈ missing, p.Optional a)
    (hdraft : ∀ p ∈ slots, p.get d = some (p.part a) ∨ p ∈ given ++ missing ∧ p.get d = none)
    (r : List Char) :
    shape.readParts ((given ++ missing).map TypedSlot.slot) count d (s ++ ']' :: r) =
      .ok (a, r) := by
  induction given generalizing count d s with
  | nil =>
    cases hitems with
    | none hb =>
      have hfinish : shape.finish d = .ok a := by
        refine (h.finish_iff d a).2 fun p hp => (hdraft p hp).imp_right ?_
        rintro ⟨hm, hnone⟩
        exact ⟨hnone, hmissing p hm⟩
      cases missing with
      | nil =>
        simp only [List.append_nil, List.map_nil, Shape.readParts, hfinish,
          takeListEnd_eq_ok_iff.2 ⟨_, hb, rfl⟩]
        rfl
      | cons p missing =>
        simp only [List.nil_append, List.map_cons, Shape.readParts,
          nextElement_close hb, hfinish]
  | cons p given ih =>
    generalize hfirst : (count == 0) = first at hitems
    cases hitems with
    | @item _ lead t rest _ _ hlead hpart hrest =>
      have hp := hmem p List.mem_cons_self
      obtain ⟨c, t', rfl, hc⟩ := (h.reads p hp).begins hpart
      obtain ⟨hblank, hclosing⟩ := isBlank_of_beginsValue hc
      have hnext := nextElement_item hlead hblank hclosing (t' ++ (rest ++ ']' :: r))
      have hfill : (p.slot.fill d).run (c :: (t' ++ (rest ++ ']' :: r))) =
          .ok (p.set d (p.part a), rest ++ ']' :: r) :=
        ((h.reads p hp).map (p.set d)).complete Blanks.nil ⟨_, hpart, rfl⟩
          (hrest.delimited (.inr (.inr (.inl rfl))) r)
      have hdraft' : ∀ q ∈ slots, q.get (p.set d (p.part a)) = some (q.part a) ∨
          q ∈ given ++ missing ∧ q.get (p.set d (p.part a)) = none := by
        intro q hq
        by_cases hqp : q.key = p.key
        · obtain rfl := h.slot_unique hq hp hqp
          exact .inl (h.get_set q hq d _)
        · rw [h.get_set_of_ne p hp q hq hqp]
          refine (hdraft q hq).imp_right ?_
          rintro ⟨hm, hnone⟩
          obtain rfl | hm := List.mem_cons.1 hm
          · exact absurd rfl hqp
          · exact ⟨hm, hnone⟩
      rw [List.append_assoc, List.append_assoc, List.cons_append]
      simp only [List.cons_append, List.map_cons, Shape.readParts, hfirst, hnext, hfill]
      exact ih hrest (fun q hq => hmem q (List.mem_cons_of_mem _ hq)) hdraft'

/-- What is read to the closing bracket is some of the parts that are due, and
    the others can be left out.  What the draft holds belongs to the
    structure. -/
theorem Shape.MadeOf.readParts_sound (h : shape.MadeOf slots)
    {others : List (TypedSlot δ α)} {count : Nat} {d : δ} {a : α} {s r : List Char}
    (hmem : ∀ p ∈ others, p ∈ slots) (hnodup : (others.map TypedSlot.key).Nodup)
    (hempty : ∀ p ∈ others, p.get d = none)
    (hrun : shape.readParts (others.map TypedSlot.slot) count d s = .ok (a, r)) :
    (∀ p ∈ slots, ∀ v, p.get d = some v → v = p.part a) ∧
      ∃ given missing t, others = given ++ missing ∧
        Items (SpellsPart a) (count == 0) t given ∧ (∀ p ∈ missing, p.Optional a) ∧
          s = t ++ ']' :: r := by
  -- A finished draft holds the parts of the structure.
  have hfinished : ∀ {d' : δ} {a' : α}, shape.finish d' = .ok a' →
      ∀ p ∈ slots, ∀ v, p.get d' = some v → v = p.part a' := by
    intro d' a' hfinish p hp v hv
    obtain hsome | ⟨hnone, -⟩ := (h.finish_iff d' a').1 hfinish p hp
    · exact Option.some.inj (hv.symm.trans hsome)
    · cases hv.symm.trans hnone
  induction others generalizing count d s with
  | nil =>
    simp only [List.map_nil, Shape.readParts] at hrun
    split at hrun
    · contradiction
    · next a' hfinish =>
      cases hend : takeListEnd s with
      | error e =>
        rw [hend] at hrun
        contradiction
      | ok r' =>
        rw [hend] at hrun
        obtain ⟨rfl, rfl⟩ := Prod.mk.inj (Except.ok.inj hrun)
        obtain ⟨b, hb, rfl⟩ := takeListEnd_eq_ok_iff.1 hend
        exact ⟨hfinished hfinish, [], [], b, rfl, .none hb, List.forall_mem_nil _, rfl⟩
  | cons p others ih =>
    simp only [List.map_cons, Shape.readParts] at hrun
    split at hrun
    · contradiction
    · next hn =>
      split at hrun
      · contradiction
      · next a' hfinish =>
        obtain ⟨rfl, rfl⟩ := Prod.mk.inj (Except.ok.inj hrun)
        obtain ⟨b, hb, rfl⟩ := nextElement_close_sound hn
        refine ⟨hfinished hfinish, [], p :: others, b, rfl, .none hb, ?_, rfl⟩
        intro q hq
        obtain hsome | ⟨-, hoptional⟩ := (h.finish_iff d _).1 hfinish q (hmem q hq)
        · cases hsome.symm.trans (hempty q hq)
        · exact hoptional
    · next hn =>
      obtain ⟨lead, hlead, rfl⟩ := nextElement_item_sound hn
      split at hrun
      · contradiction
      · next d' rest' hfill =>
        have hp := hmem p List.mem_cons_self
        obtain ⟨b, t, hb, ⟨v, hv, rfl⟩, rfl⟩ := ((h.reads p hp).map (p.set d)).sound hfill
        rw [List.map_cons, List.nodup_cons] at hnodup
        have hempty' : ∀ q ∈ others, q.get (p.set d v) = none := by
          intro q hq
          have hne : q.key ≠ p.key := fun heq =>
            hnodup.1 (heq ▸ List.mem_map_of_mem hq)
          rw [h.get_set_of_ne p hp q (hmem q (List.mem_cons_of_mem _ hq)) hne]
          exact hempty q (List.mem_cons_of_mem _ hq)
        obtain ⟨hdraft, given, missing, u, rfl, hitems, hmissing, rfl⟩ :=
          ih (fun q hq => hmem q (List.mem_cons_of_mem _ hq)) hnodup.2 hempty' hrun
        obtain rfl := hdraft p hp v (h.get_set p hp d v)
        refine ⟨?_, p :: given, missing, _, rfl, .item (hlead.append hb) hv hitems, hmissing,
          by simp⟩
        intro q hq w hw
        by_cases hqp : q.key = p.key
        · obtain rfl := h.slot_unique hq hp hqp
          cases hw.symm.trans (hempty q List.mem_cons_self)
        · exact hdraft q hq w ((h.get_set_of_ne p hp q hq hqp d _).trans hw)

/-! ## §6. Structures -/

/-- **A structure is read in both of its spellings**, and in no other. -/
theorem Shape.MadeOf.reader_reads (h : shape.MadeOf slots) :
    shape.reader.Reads fun t a => IsStructure (slots.map (·.component a)) t where
  sound := by
    intro s r a hrun
    simp only [Shape.reader] at hrun
    split at hrun
    · contradiction
    · next hs =>
      obtain ⟨b, hb, rfl⟩ := exists_blanks hs
      split at hrun
      · next hc =>
        rw [h.slots_eq] at hrun
        obtain ⟨-, given, missing, t, hsplit, hitems, hmissing, rfl⟩ :=
          h.readParts_sound (fun p hp => hp) h.nodup_keys h.get_blank hrun
        have hcomponents : slots.map (·.component a) =
            given.map (·.component a) ++ missing.map (·.component a) := by
          rw [hsplit, List.map_append]
        have hspelled : Items (fun s (c : Component) => c.IsSpelledBy s) true t
            (given.map (·.component a)) := Items.map_iff.2 hitems
        exact ⟨b, _, hb, .list hcomponents hspelled (List.forall_mem_map.2 hmissing),
          by simp [hc]⟩
      · split at hrun
        · next hc =>
          obtain ⟨t, members, hitems, hcompletes, rfl⟩ := h.readMembers_sound hrun
          obtain ⟨hgiven, hothers⟩ := h.completes_blank_iff.1 hcompletes
          refine ⟨b, _, hb, .object hitems (List.forall_mem_map.2 hgiven) ?_, by simp [hc]⟩
          intro m hm hunknown
          exact hothers m hm fun p hp => hunknown _ (List.mem_map_of_mem hp)
        · contradiction
  complete := by
    intro b t r a hb ht _
    cases ht with
    | @object inner members hitems hgiven hothers =>
      have hskip := skipBlank_enclosed (show isBlank '\x7b' = false by decide) '\x7d' hb inner r
      have hcompletes : Completes slots shape.blank a members :=
        h.completes_blank_iff.2 ⟨List.forall_mem_map.1 hgiven,
          fun m hm hunknown => hothers m hm (List.forall_mem_map.2 hunknown)⟩
      simp only [Shape.reader, hskip, if_neg (show '\x7b' ≠ '[' by decide), if_true,
        h.readMembers_complete hitems hcompletes]
    | @list inner given missing hsplit hitems hmissing =>
      have hskip := skipBlank_enclosed (show isBlank '[' = false by decide) ']' hb inner r
      obtain ⟨given, missing, rfl, rfl, rfl⟩ := List.map_eq_append_iff.1 hsplit
      have hgiven : Items (SpellsPart a) (0 == 0) inner given :=
        (Items.map_iff (f := fun p : TypedSlot δ α => p.component a)).1 hitems
      have hparts := h.readParts_complete hgiven (fun p hp => hp) (List.forall_mem_map.1 hmissing)
        (fun p hp => .inr ⟨hp, h.get_blank p hp⟩) r
      simp only [Shape.reader, hskip, if_true, h.slots_eq, hparts]
  begins := by
    intro t a ht
    cases ht with
    | object => exact ⟨_, _, rfl, .inr (.inr (.inr (.inr (.inr (.inr rfl)))))⟩
    | list => exact ⟨_, _, rfl, .inr (.inr (.inr (.inr (.inr (.inl rfl)))))⟩

end

end IsaTable.Json
