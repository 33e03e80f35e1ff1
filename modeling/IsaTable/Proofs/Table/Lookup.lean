import IsaTable.Proofs.Match.Satisfiability
import IsaTable.Table

/-! # Which entries matter to a look-up

    A look-up answers with an entry that accepts the word, so an entry that
    accepts no word is never the answer.  Such entries are the inconsistent
    ones, and a table may be rid of all of them at once
    (`Table.firstMatch_consistentPart`).

    Equal entries may stand in a table more than once, so which of them answers
    is told by its index (`Table.firstIndex?`).
-/

namespace IsaTable.Table

/-! ## §1. Entries that accept nothing -/

/-- The table without its inconsistent entries. -/
def consistentPart (t : Table) : Table :=
  ⟨t.entries.filter fun e => e.matcher.isConsistent⟩

theorem consistentPart_cons_of_consistent {e : Entry} (h : e.matcher.isConsistent = true)
    (rest : List Entry) :
    consistentPart ⟨e :: rest⟩ = ⟨e :: (consistentPart ⟨rest⟩).entries⟩ := by
  simp [consistentPart, h]

theorem consistentPart_cons_of_inconsistent {e : Entry} (h : ¬ e.matcher.isConsistent = true)
    (rest : List Entry) : consistentPart ⟨e :: rest⟩ = consistentPart ⟨rest⟩ := by
  simp [consistentPart, h]

/-- **Inconsistent entries do not matter** to any look-up. -/
theorem firstMatch_consistentPart (t : Table) (w : Word) :
    t.consistentPart.firstMatch w = t.firstMatch w := by
  obtain ⟨entries⟩ := t
  induction entries with
  | nil => rfl
  | cons e rest ih =>
    by_cases hconsistent : e.matcher.isConsistent = true
    · -- The entry stands first in both tables.
      rw [consistentPart_cons_of_consistent hconsistent]
      by_cases haccepts : e.matcher.accepts w = true
      · rw [firstMatch_cons_of_accepts haccepts, firstMatch_cons_of_accepts haccepts]
      · have hpassed : e.matcher.accepts w = false := Bool.eq_false_of_not_eq_true haccepts
        rw [firstMatch_cons_of_not_accepts hpassed, firstMatch_cons_of_not_accepts hpassed]
        exact ih
    · -- The entry is gone from one table, and passed over in the other.
      have hpassed : e.matcher.accepts w = false :=
        Bool.eq_false_of_not_eq_true (mt Match.isConsistent_of_accepts hconsistent)
      rw [consistentPart_cons_of_inconsistent hconsistent,
        firstMatch_cons_of_not_accepts hpassed]
      exact ih

/-- **Consistency decides satisfiability.**  Some word is accepted exactly when
    a match is consistent.  The accepted words are then the bits of the match
    with anything at the positions that are not masked, and there are as many
    of them as ways to fill those.  Hence a table without its inconsistent
    entries answers every look-up as before. -/
theorem consistency_decides :
    (∀ m : Match,
      ((∃ w, m.accepts w = true) ↔ m.isConsistent = true) ∧
      (m.isConsistent = true →
        (∀ w, m.accepts w = true ↔ ∃ x, w = m.bits ||| (x &&& ~~~m.mask)) ∧
        Nat.card {w : Word // m.accepts w = true} = 2 ^ (32 - m.mask.cpop.toNat))) ∧
    ∀ (t : Table) (w : Word), t.consistentPart.firstMatch w = t.firstMatch w := by
  refine ⟨?_, firstMatch_consistentPart⟩
  intro m
  refine ⟨m.exists_accepts_iff, ?_⟩
  intro hconsistent
  exact ⟨Match.accepts_iff_exists_fill hconsistent, Match.card_accepts hconsistent⟩

/-- Sixteen of the positions are masked, so `2 ^ 16` words are accepted.  An
    entry that expects a bit where it masks nothing stands in front, to no
    effect. -/
theorem consistency_decides_sixteen :
    let m : Match := ⟨0xfc0007fe#32, 0x7c000214#32⟩
    let t : Table := ⟨[⟨"spilled", ⟨0x00000001#32, 0x00000003#32⟩⟩, ⟨"add", m⟩]⟩
    m.isConsistent = true ∧ Nat.card {w : Word // m.accepts w = true} = 65536 ∧
      ∀ w, firstMatch ⟨[⟨"add", m⟩]⟩ w = t.firstMatch w := by
  intro m t
  have hconsistent : m.isConsistent = true := by decide
  have hcount : m.mask.cpop.toNat = 16 := by decide
  have hpart : t.consistentPart = ⟨[⟨"add", m⟩]⟩ := by decide
  obtain ⟨hmatch, htable⟩ := consistency_decides
  obtain ⟨-, hcard⟩ := (hmatch m).2 hconsistent
  rw [hcount] at hcard
  refine ⟨hconsistent, hcard, ?_⟩
  intro w
  rw [← hpart]
  exact htable t w

/-! ## §2. Where the answer stands -/

variable {t : Table} {w : Word}

/-- The index of the entry that answers a look-up. -/
def firstIndex? (t : Table) (w : Word) : Option Nat :=
  t.entries.findIdx? fun e => e.matcher.accepts w

theorem firstIndex?_cons_of_accepts {e : Entry} (h : e.matcher.accepts w = true)
    (rest : List Entry) : firstIndex? ⟨e :: rest⟩ w = some 0 := by
  rw [firstIndex?, List.findIdx?_cons, if_pos h]

theorem firstIndex?_cons_of_not_accepts {e : Entry} (h : ¬ e.matcher.accepts w = true)
    (rest : List Entry) : firstIndex? ⟨e :: rest⟩ w = (firstIndex? ⟨rest⟩ w).map (· + 1) := by
  rw [firstIndex?, List.findIdx?_cons, if_neg h]
  rfl

/-- The answer is the entry at its index. -/
theorem firstMatch_eq_bind_firstIndex? (t : Table) (w : Word) :
    t.firstMatch w = (t.firstIndex? w).bind fun k => t.entries[k]? :=
  List.find?_eq_bind_findIdx?_getElem?

/-- The entry that answers accepts the word, and none before it does. -/
theorem firstIndex?_eq_some_iff {k : Nat} :
    t.firstIndex? w = some k ↔
      (∃ e, t.entries[k]? = some e ∧ e.matcher.accepts w = true) ∧
        ∀ j < k, ∀ e, t.entries[j]? = some e → ¬ e.matcher.accepts w = true := by
  rw [firstIndex?, List.findIdx?_eq_some_iff_getElem]
  constructor
  · intro h
    obtain ⟨hk, haccepts, hbefore⟩ := h
    refine ⟨⟨_, List.getElem?_eq_getElem hk, haccepts⟩, ?_⟩
    intro j hj e he
    obtain ⟨_, rfl⟩ := List.getElem?_eq_some_iff.1 he
    exact hbefore j hj
  · intro h
    obtain ⟨⟨e, he, haccepts⟩, hbefore⟩ := h
    obtain ⟨hk, rfl⟩ := List.getElem?_eq_some_iff.1 he
    refine ⟨hk, haccepts, ?_⟩
    intro j hj
    exact hbefore j hj _ (List.getElem?_eq_getElem (hj.trans hk))

end IsaTable.Table
