import Mathlib.Data.List.FinRange
import IsaTable.Proofs.Match.Comparison
import IsaTable.Table

/-! # The order of entries

    The first entry that accepts a word answers, so the order of the entries
    matters where two of them compete for a word.  Entries that are equal, or
    that exclude each other, do not compete (`Entry.swappable_iff`), and any
    rearrangement that turns around only such pairs leaves every answer as it
    was (`Table.firstMatch_reorder_of_swappable`).

    The reason is one pair, the entry that answered before and the entry that
    answers now.  If they are not the same, the new one stood behind the old one
    and now stands in front of it, so the pair has been turned around; and both
    accept the word.
-/

namespace IsaTable

/-! ## §1. Entries that do not compete -/

/-- Two entries may be swapped when they are equal, or when they expect
    different bits at a position that both mask, or when one of them is
    inconsistent. -/
def Entry.Swappable (a b : Entry) : Prop :=
  a = b ∨ a.matcher.Excludes b.matcher

instance (a b : Entry) : Decidable (a.Swappable b) := by
  unfold Entry.Swappable; infer_instance

/-- Entries may be swapped exactly when no word is accepted by both, unless
    they are equal. -/
theorem Entry.swappable_iff {a b : Entry} :
    a.Swappable b ↔
      ∀ w, a.matcher.accepts w = true → b.matcher.accepts w = true → a = b := by
  rw [Swappable, Match.excludes_iff]
  constructor
  · intro h w ha hb
    rcases h with heq | hexcludes
    · exact heq
    · exact absurd ⟨ha, hb⟩ (hexcludes w)
  · intro h
    by_cases heq : a = b
    · exact .inl heq
    · exact .inr fun w hw => heq (h w hw.1 hw.2)

namespace Table

/-! ## §2. Rearranged tables -/

/-- The entry at an index. -/
def entryAt (t : Table) (k : Fin t.size) : Entry :=
  t.entries.get k

/-- The table rearranged: at index `k` stands the entry that stood at
    `order k`. -/
def reorder (t : Table) (order : Equiv.Perm (Fin t.size)) : Table :=
  ⟨List.ofFn fun k => t.entryAt (order k)⟩

variable {t : Table} {w : Word}

@[simp] theorem reorder_refl (t : Table) : t.reorder (Equiv.refl _) = t := by
  obtain ⟨entries⟩ := t
  exact congrArg Table.mk (List.ofFn_get entries)

/-- A rearranged table has the same entries. -/
theorem perm_entries_reorder (t : Table) (order : Equiv.Perm (Fin t.size)) :
    (t.reorder order).entries.Perm t.entries := by
  have hsame : List.ofFn t.entryAt = t.entries := List.ofFn_get t.entries
  have hperm := order.ofFn_comp_perm t.entryAt
  rw [hsame] at hperm
  exact hperm

/-- A rearranged table is searched in its own order. -/
theorem firstMatch_reorder_eq_some_iff (order : Equiv.Perm (Fin t.size)) {e : Entry} :
    (t.reorder order).firstMatch w = some e ↔
      ∃ k, t.entryAt (order k) = e ∧ e.matcher.accepts w = true ∧
        ∀ j < k, ¬ (t.entryAt (order j)).matcher.accepts w = true := by
  rw [firstMatch, List.find?_eq_some_iff_getElem]
  simp only [reorder, List.length_ofFn, List.getElem_ofFn, Bool.not_eq_true', ← Bool.not_eq_true]
  constructor
  · intro h
    obtain ⟨haccepts, k, hk, hentry, hbefore⟩ := h
    exact ⟨⟨k, hk⟩, hentry, haccepts, fun j hj => hbefore j hj⟩
  · intro h
    obtain ⟨k, hentry, haccepts, hbefore⟩ := h
    exact ⟨haccepts, k, k.isLt, hentry, fun j hj => hbefore ⟨j, hj.trans k.isLt⟩ hj⟩

/-- The case of the table as it is. -/
theorem firstMatch_eq_some_iff {e : Entry} :
    t.firstMatch w = some e ↔
      ∃ k, t.entryAt k = e ∧ e.matcher.accepts w = true ∧
        ∀ j < k, ¬ (t.entryAt j).matcher.accepts w = true := by
  have h := firstMatch_reorder_eq_some_iff (w := w) (Equiv.refl (Fin t.size)) (e := e)
  rwa [reorder_refl] at h

/-- Rearranging neither gives an answer to a word without one nor takes it
    away. -/
theorem firstMatch_reorder_eq_none_iff {order : Equiv.Perm (Fin t.size)} :
    (t.reorder order).firstMatch w = none ↔ t.firstMatch w = none := by
  rw [firstMatch, firstMatch, List.find?_eq_none, List.find?_eq_none]
  simp only [(perm_entries_reorder t order).mem_iff]

/-! ## §3. Looking up -/

/-- **Order without competition.**  Where every two entries that change their
    relative order may be swapped, a rearranged table answers every look-up as
    before. -/
theorem firstMatch_reorder_of_swappable (t : Table) (order : Equiv.Perm (Fin t.size))
    (h : ∀ i j, i < j → order j < order i →
      (t.entryAt (order i)).Swappable (t.entryAt (order j))) (w : Word) :
    (t.reorder order).firstMatch w = t.firstMatch w := by
  cases hold : t.firstMatch w with
  | none => exact firstMatch_reorder_eq_none_iff.2 hold
  | some e =>
    cases hnew : (t.reorder order).firstMatch w with
    | none =>
      rw [firstMatch_reorder_eq_none_iff, hold] at hnew
      exact nomatch hnew
    | some d =>
      obtain ⟨p, rfl, hpaccepts, hpbefore⟩ := firstMatch_eq_some_iff.1 hold
      obtain ⟨q, rfl, hqaccepts, hqbefore⟩ := (firstMatch_reorder_eq_some_iff order).1 hnew
      -- The old answer has come to stand at `r`, and both answers accept the word.
      obtain ⟨r, rfl⟩ := order.surjective p
      have hnotBefore : ¬ r < q := fun hr => hqbefore r hr hpaccepts
      have hnotEarlier : ¬ order q < order r := fun hq => hpbefore (order q) hq hqaccepts
      by_cases hsame : q = r
      · rw [hsame]
      · -- The new answer stood behind the old one, and now stands in front of it.
        have hbefore : q < r := lt_of_le_of_ne (not_lt.1 hnotBefore) hsame
        have hearlier : order r < order q :=
          lt_of_le_of_ne (not_lt.1 hnotEarlier) fun heq => hsame (order.injective heq.symm)
        rw [Entry.swappable_iff.1 (h q r hbefore hearlier) w hqaccepts hpaccepts]

/-- Four entries turned back to front: two are equal, two demand different
    primary opcodes, and one expects a bit where it masks nothing. -/
theorem firstMatch_reorder_of_swappable_reversed :
    let add : Entry := ⟨"add", ⟨0xfc0007fe#32, 0x7c000214#32⟩⟩
    let spilled : Entry := ⟨"spilled", ⟨0x00000001#32, 0x00000003#32⟩⟩
    let lwz : Entry := ⟨"lwz", ⟨0xfc000000#32, 0x80000000#32⟩⟩
    let t : Table := ⟨[add, spilled, add, lwz]⟩
    let order : Equiv.Perm (Fin t.size) := Fin.revPerm
    (∀ i j, i < j → order j < order i →
      (t.entryAt (order i)).Swappable (t.entryAt (order j))) ∧
    ∀ w, firstMatch ⟨[lwz, add, spilled, add]⟩ w = t.firstMatch w := by
  intro add spilled lwz t order
  have hswappable : ∀ i j, i < j → order j < order i →
      (t.entryAt (order i)).Swappable (t.entryAt (order j)) := by decide
  exact ⟨hswappable, firstMatch_reorder_of_swappable t order hswappable⟩

end Table

end IsaTable
