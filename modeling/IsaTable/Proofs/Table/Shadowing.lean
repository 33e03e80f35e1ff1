import IsaTable.Proofs.Match.Comparison
import IsaTable.Proofs.Table.Lookup

/-! # Shadowed entries

    An entry is dead when an earlier one accepts every word that it accepts.
    Which entry shadows which is read off their masks and bits
    (`Match.shadows_iff`), whatever stands between the two:

    * **A shadowed entry never answers** (`Table.firstIndex?_ne_of_shadowed`).
    * **An entry that does not answer may be deleted**
      (`Table.firstMatch_without`): the look-up then ends at the same entry, or
      passes over all the others as before.
-/

namespace IsaTable.Table

variable {t : Table} {w : Word}

/-- The table without the entry at an index. -/
def without (t : Table) (j : Nat) : Table :=
  ⟨t.entries.eraseIdx j⟩

/-- **An entry that does not answer may be deleted**, as far as that word is
    concerned. -/
theorem firstMatch_without {j : Nat} (h : t.firstIndex? w ≠ some j) :
    (t.without j).firstMatch w = t.firstMatch w := by
  obtain ⟨entries⟩ := t
  induction entries generalizing j with
  | nil => rfl
  | cons e rest ih =>
    by_cases haccepts : e.matcher.accepts w = true
    · cases j with
      | zero => exact absurd (firstIndex?_cons_of_accepts haccepts rest) h
      | succ j =>
        -- The first entry answers in both tables.
        rw [firstMatch_cons_of_accepts haccepts]
        exact firstMatch_cons_of_accepts haccepts _
    · have hpassed : e.matcher.accepts w = false := Bool.eq_false_of_not_eq_true haccepts
      rw [firstMatch_cons_of_not_accepts hpassed]
      cases j with
      | zero => rfl
      | succ j =>
        have hrest : firstIndex? ⟨rest⟩ w ≠ some j := by
          intro hj
          rw [firstIndex?_cons_of_not_accepts haccepts, hj] at h
          exact h rfl
        exact (firstMatch_cons_of_not_accepts hpassed _).trans (ih hrest)

/-- **A shadowed entry never answers.** -/
theorem firstIndex?_ne_of_shadowed {i j : Nat} {a b : Entry} (hij : i < j)
    (ha : t.entries[i]? = some a) (hb : t.entries[j]? = some b)
    (h : a.matcher.Shadows b.matcher) (w : Word) : t.firstIndex? w ≠ some j := by
  intro hj
  obtain ⟨⟨e, he, haccepts⟩, hbefore⟩ := firstIndex?_eq_some_iff.1 hj
  obtain rfl : b = e := Option.some.inj (hb.symm.trans he)
  -- The word that `b` accepts would have been answered by `a`.
  exact hbefore i hij a ha ((Match.shadows_iff _ _).2 h w haccepts)

/-- **Shadowing is decided by masks and bits.**  One match accepts every word
    that another accepts exactly when the other is inconsistent, or masks
    nothing less and has the same bits there.  An entry that stands behind
    another with such a match is the answer for no word, and the table answers
    every look-up as before when it is deleted. -/
theorem shadowing_decides :
    (∀ a b : Match, (∀ w, b.accepts w = true → a.accepts w = true) ↔
      b.isConsistent = false ∨ (a.mask &&& ~~~b.mask = 0 ∧ b.bits &&& a.mask = a.bits)) ∧
    (∀ (t : Table) (w : Word),
      t.firstMatch w = (t.firstIndex? w).bind fun k => t.entries[k]?) ∧
    ∀ (t : Table) (i j : Nat) (a b : Entry), i < j → t.entries[i]? = some a →
      t.entries[j]? = some b → a.matcher.Shadows b.matcher →
        ∀ w, t.firstIndex? w ≠ some j ∧ (t.without j).firstMatch w = t.firstMatch w := by
  refine ⟨Match.shadows_iff, firstMatch_eq_bind_firstIndex?, ?_⟩
  intro t i j a b hij ha hb h w
  have hnever := firstIndex?_ne_of_shadowed hij ha hb h w
  exact ⟨hnever, firstMatch_without hnever⟩

/-- The last of three entries fixes more positions than the first, and the same
    bits where the first does. -/
theorem shadowing_decides_generic :
    let generic : Entry := ⟨"generic", ⟨0xfc000000#32, 0x7c000000#32⟩⟩
    let other : Entry := ⟨"other", ⟨0xfc000000#32, 0x80000000#32⟩⟩
    let specific : Entry := ⟨"specific", ⟨0xfc0007fe#32, 0x7c000214#32⟩⟩
    let t : Table := ⟨[generic, other, specific]⟩
    generic.matcher.Shadows specific.matcher ∧
      (∀ w, specific.matcher.accepts w = true → generic.matcher.accepts w = true) ∧
      ∀ w, t.firstIndex? w ≠ some 2 ∧ firstMatch ⟨[generic, other]⟩ w = t.firstMatch w := by
  intro generic other specific t
  have hshadows : generic.matcher.Shadows specific.matcher := by decide
  obtain ⟨hpairs, -, htables⟩ := shadowing_decides
  have htable := htables t 0 2 generic specific (by decide) rfl rfl hshadows
  exact ⟨hshadows, (hpairs _ _).2 hshadows, htable⟩

end IsaTable.Table
