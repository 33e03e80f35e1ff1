import Mathlib.Data.List.Forall2
import IsaTable.Logged

/-! # First failures

    Reading and compiling check their items one after the other and stop at
    the first that fails.  Which one that is does not depend on how the check
    is carried out: either every item passes, or there is a first failure, an
    item that does not pass behind items that all do.

    Main definitions:
    - `FirstFailure`, an item that fails a condition behind items that meet it;
    - `Logged.traverse`, a check that makes records on the way.

    Main statements:
    - `all_or_firstFailure`, one of the two is always the case;
    - `mapM_eq_ok_iff` and `mapM_eq_error_iff`, what a check yields in each;
    - `Logged.traverse_of_all` and `Logged.traverse_of_firstFailure`, the same
      with the records.
-/

namespace IsaTable

/-- `x` is the first member of `xs` that fails `p`, and `before` is what stands
    before it. -/
structure FirstFailure {α : Type} (p : α → Prop) (xs before : List α) (x : α) : Prop where
  /-- The item stands in the list, behind `before`. -/
  split : ∃ after, xs = before ++ x :: after
  /-- Everything before it passes. -/
  passed : ∀ y ∈ before, p y
  /-- The item itself fails. -/
  failed : ¬ p x

section
variable {α β ε : Type} {p : α → Prop} {xs before : List α} {x : α}

theorem FirstFailure.mem (h : FirstFailure p xs before x) : x ∈ xs := by
  obtain ⟨after, rfl⟩ := h.split
  exact List.mem_append_right before List.mem_cons_self

/-- A failure that stands first. -/
theorem FirstFailure.head (h : ¬ p x) (rest : List α) : FirstFailure p (x :: rest) [] x :=
  ⟨⟨rest, rfl⟩, by simp, h⟩

/-- A first failure stays one behind an item that passes. -/
theorem FirstFailure.cons {y : α} (hy : p y) (h : FirstFailure p xs before x) :
    FirstFailure p (y :: xs) (y :: before) x := by
  obtain ⟨after, rfl⟩ := h.split
  exact ⟨⟨after, rfl⟩, by simpa using ⟨hy, h.passed⟩, h.failed⟩

/-- A first failure among images is the image of one. -/
theorem FirstFailure.map {q : β → Prop} {g : α → β}
    (h : FirstFailure (fun y => q (g y)) xs before x) :
    FirstFailure q (xs.map g) (before.map g) (g x) := by
  obtain ⟨after, rfl⟩ := h.split
  refine ⟨⟨after.map g, by simp⟩, ?_, h.failed⟩
  intro y hy
  obtain ⟨z, hz, rfl⟩ := List.mem_map.1 hy
  exact h.passed z hz

/-- A condition may be replaced by one that means the same on the list. -/
theorem FirstFailure.congr {q : α → Prop} (hpq : ∀ y ∈ xs, p y ↔ q y)
    (h : FirstFailure p xs before x) : FirstFailure q xs before x := by
  obtain ⟨after, rfl⟩ := h.split
  refine ⟨⟨after, rfl⟩, ?_, ?_⟩
  · intro y hy
    exact (hpq y (List.mem_append_left _ hy)).1 (h.passed y hy)
  · intro hx
    exact h.failed ((hpq x h.mem).2 hx)

/-- What stands before the first failure is what passes from the start on. -/
theorem FirstFailure.takeWhile_eq [DecidablePred p] (h : FirstFailure p xs before x) :
    xs.takeWhile (fun y => decide (p y)) = before := by
  obtain ⟨after, rfl⟩ := h.split
  rw [List.takeWhile_append_of_pos fun y hy => decide_eq_true (h.passed y hy),
    List.takeWhile_cons_of_neg (by simpa using h.failed), List.append_nil]

/-- There is only one first failure. -/
theorem FirstFailure.unique {before' : List α} {x' : α} (h : FirstFailure p xs before x)
    (h' : FirstFailure p xs before' x') : x = x' := by
  classical
  -- Searching the list has only one answer, and both are it.
  have hfind : ∀ {before x}, FirstFailure p xs before x →
      xs.find? (fun y => decide ¬ p y) = some x := by
    intro before x h
    obtain ⟨after, hsplit⟩ := h.split
    refine List.find?_eq_some_iff_append.2 ⟨by simpa using h.failed, before, after, hsplit, ?_⟩
    intro y hy
    simpa using h.passed y hy
  exact Option.some.inj ((hfind h).symm.trans (hfind h'))

/-- The first failure of the first group that does not pass as a whole is the
    first failure of all groups together. -/
theorem FirstFailure.flatMap {g : β → List α} {groups earlier : List β} {group : β}
    (h : FirstFailure (fun y => ∀ z ∈ g y, p z) groups earlier group)
    (hx : FirstFailure p (g group) before x) :
    FirstFailure p (groups.flatMap g) (earlier.flatMap g ++ before) x := by
  obtain ⟨later, rfl⟩ := h.split
  obtain ⟨after, hgroup⟩ := hx.split
  refine ⟨⟨after ++ later.flatMap g, by simp [hgroup]⟩, ?_, hx.failed⟩
  intro z hz
  rcases List.mem_append.1 hz with hz | hz
  · obtain ⟨y, hy, hz⟩ := List.mem_flatMap.1 hz
    exact h.passed y hy z hz
  · exact hx.passed z hz

/-- Either every item passes, or there is a first failure. -/
theorem all_or_firstFailure (p : α → Prop) (xs : List α) :
    (∀ x ∈ xs, p x) ∨ ∃ before x, FirstFailure p xs before x := by
  induction xs with
  | nil => exact .inl (by simp)
  | cons y rest ih =>
    by_cases hy : p y
    · rcases ih with hall | ⟨before, x, h⟩
      · exact .inl (by simpa using ⟨hy, hall⟩)
      · exact .inr ⟨y :: before, x, h.cons hy⟩
    · exact .inr ⟨[], y, .head hy rest⟩

/-- What is not true of all items fails first somewhere. -/
theorem exists_firstFailure (h : ¬ ∀ x ∈ xs, p x) : ∃ before x, FirstFailure p xs before x :=
  (all_or_firstFailure p xs).resolve_left h

/-- The first failure of all groups together stands in the first group that
    does not pass as a whole, and is its first failure. -/
theorem FirstFailure.exists_of_flatMap {g : β → List α} {groups : List β}
    (h : FirstFailure p (groups.flatMap g) before x) :
    ∃ earlier group inside,
      FirstFailure (fun y => ∀ z ∈ g y, p z) groups earlier group ∧
        FirstFailure p (g group) inside x := by
  have hnot : ¬ ∀ y ∈ groups, ∀ z ∈ g y, p z := by
    intro hall
    obtain ⟨y, hy, hx⟩ := List.mem_flatMap.1 h.mem
    exact h.failed (hall y hy x hx)
  obtain ⟨earlier, group, hgroup⟩ := exists_firstFailure hnot
  obtain ⟨inside, x', hx'⟩ := exists_firstFailure hgroup.failed
  -- The first failure of the group is one of the whole, and there is only one.
  obtain rfl := h.unique (hgroup.flatMap hx')
  exact ⟨earlier, group, inside, hgroup, hx'⟩

/-! ## Checks -/

variable {f : α → Except ε β}

/-- Mapping the value of an outcome keeps its success. -/
theorem map_eq_ok_iff {o : Except ε α} {g : α → β} {b : β} :
    o.map g = .ok b ↔ ∃ a, o = .ok a ∧ g a = b := by
  cases o with
  | ok a => simp [Except.map]
  | error e => simp [Except.map]

/-- It keeps the error, too. -/
theorem map_eq_error_iff {o : Except ε α} {g : α → β} {e : ε} :
    o.map g = .error e ↔ o = .error e := by
  cases o with
  | ok a => simp [Except.map]
  | error e' => simp [Except.map]

/-- A traversal fails at once with an item that does. -/
theorem mapM_cons_of_error {e : ε} (h : f x = .error e) (rest : List α) :
    (x :: rest).mapM f = .error e := by
  rw [List.mapM_cons, h]
  rfl

/-- A traversal puts the result of an item before those of the others. -/
theorem mapM_cons_of_ok {y : β} (h : f x = .ok y) (rest : List α) :
    (x :: rest).mapM f = (rest.mapM f).map (y :: ·) := by
  rw [List.mapM_cons, h]
  cases rest.mapM f <;> simp [bind, Except.bind, Except.map, pure, Except.pure]

/-- A traversal succeeds exactly when every item does, with its own result. -/
theorem mapM_eq_ok_iff {ys : List β} :
    xs.mapM f = .ok ys ↔ List.Forall₂ (fun x y => f x = .ok y) xs ys := by
  induction xs generalizing ys with
  | nil => simp [pure, Except.pure, eq_comm]
  | cons x rest ih =>
    rw [List.forall₂_cons_left_iff]
    constructor
    · intro h
      cases hx : f x with
      | error e =>
        rw [mapM_cons_of_error hx] at h
        exact nomatch h
      | ok y =>
        rw [mapM_cons_of_ok hx] at h
        cases hrest : rest.mapM f with
        | error e =>
          rw [hrest] at h
          exact nomatch h
        | ok zs =>
          rw [hrest] at h
          exact ⟨y, zs, rfl, ih.1 hrest, (Except.ok.inj h).symm⟩
    · rintro ⟨y, zs, hy, hzs, rfl⟩
      rw [mapM_cons_of_ok hy, ih.2 hzs]
      rfl

/-- A traversal succeeds when every item does, and only then. -/
theorem exists_mapM_eq_ok_iff :
    (∃ ys, xs.mapM f = .ok ys) ↔ ∀ x ∈ xs, ∃ y, f x = .ok y := by
  simp only [mapM_eq_ok_iff]
  induction xs with
  | nil => simp
  | cons x rest ih =>
    rw [List.forall_mem_cons, ← ih]
    simp only [List.forall₂_cons_left_iff]
    constructor
    · rintro ⟨_, y, ys, hy, hys, rfl⟩
      exact ⟨⟨y, hy⟩, ys, hys⟩
    · rintro ⟨⟨y, hy⟩, ys, hys⟩
      exact ⟨_, y, ys, hy, hys, rfl⟩

/-- A traversal fails with the error of the first item that has one. -/
theorem mapM_eq_error {e : ε} (h : FirstFailure (fun x => ∃ y, f x = .ok y) xs before x)
    (he : f x = .error e) : xs.mapM f = .error e := by
  obtain ⟨⟨after, rfl⟩, hpassed, -⟩ := h
  -- By induction on what stands before the failure, all of which succeeds.
  induction before with
  | nil => exact mapM_cons_of_error he after
  | cons y rest ih =>
    obtain ⟨z, hz⟩ := hpassed y List.mem_cons_self
    rw [List.cons_append, mapM_cons_of_ok hz, ih fun u hu => hpassed u (List.mem_cons_of_mem y hu)]
    rfl

/-- A traversal fails when some item does, with the error of the first one. -/
theorem mapM_eq_error_iff {e : ε} :
    xs.mapM f = .error e ↔
      ∃ before x, FirstFailure (fun x => ∃ y, f x = .ok y) xs before x ∧ f x = .error e := by
  constructor
  · intro h
    have hnot : ¬ ∀ x ∈ xs, ∃ y, f x = .ok y := by
      intro hall
      obtain ⟨ys, hys⟩ := exists_mapM_eq_ok_iff.2 hall
      rw [h] at hys
      exact nomatch hys
    obtain ⟨before, x, hfirst⟩ := exists_firstFailure hnot
    cases hx : f x with
    | ok y => exact absurd ⟨y, hx⟩ hfirst.failed
    | error e' =>
      -- The traversal has one error, so it is the one sought.
      have he : xs.mapM f = .error e' := mapM_eq_error hfirst hx
      obtain rfl : e' = e := Except.error.inj (he.symm.trans h)
      exact ⟨before, x, hfirst, hx⟩
  · intro h
    obtain ⟨before, x, hfirst, hx⟩ := h
    exact mapM_eq_error hfirst hx

/-! ## Checks with records -/

/-- Carries out a logged check on every item, in order, up to the first
    failure. -/
def Logged.traverse (g : α → Logged ε β) : List α → Logged ε (List β)
  | [] => .done []
  | x :: rest => (g x).andThen fun y => (traverse g rest).map (y :: ·)

namespace Logged

variable {g : α → Logged ε β} {records : α → List Record} {result : α → β}

/-- Without its records it is a check without records. -/
theorem outcome_traverse (g : α → Logged ε β) (xs : List α) :
    (traverse g xs).outcome = xs.mapM fun x => (g x).outcome := by
  induction xs with
  | nil => rfl
  | cons x rest ih =>
    rw [traverse, outcome_andThen]
    cases hx : (g x).outcome with
    | error e =>
      rw [mapM_cons_of_error (f := fun x => (g x).outcome) hx]
      rfl
    | ok y =>
      rw [mapM_cons_of_ok (f := fun x => (g x).outcome) hx, ← ih]
      rfl

/-- Where every item passes, the records of all items are made in order. -/
theorem traverse_of_all (h : ∀ y ∈ xs, g y = ⟨records y, .ok (result y)⟩) :
    traverse g xs = ⟨xs.flatMap records, .ok (xs.map result)⟩ := by
  induction xs with
  | nil => rfl
  | cons y rest ih =>
    have hrest := ih fun z hz => h z (List.mem_cons_of_mem y hz)
    rw [traverse, h y List.mem_cons_self, andThen, hrest]
    rfl

/-- Otherwise those of the items before the first failure are made, and then
    those of the failure itself. -/
theorem traverse_of_firstFailure {log : List Record} {e : ε}
    (hg : ∀ y ∈ xs, p y → g y = ⟨records y, .ok (result y)⟩)
    (h : FirstFailure p xs before x) (hx : g x = ⟨log, .error e⟩) :
    traverse g xs = ⟨before.flatMap records ++ log, .error e⟩ := by
  obtain ⟨⟨after, rfl⟩, hpassed, -⟩ := h
  -- What stands behind the failure is never looked at, so the induction is on
  -- what stands before it.
  induction before with
  | nil =>
    rw [List.nil_append, traverse, hx]
    rfl
  | cons y rest ih =>
    have hy := hg y List.mem_cons_self (hpassed y List.mem_cons_self)
    have hrest := ih (fun z hz => hpassed z (List.mem_cons_of_mem y hz))
      fun z hz => hg z (List.mem_cons_of_mem y hz)
    rw [List.cons_append, traverse, hy, andThen, hrest]
    simp [map, Except.map]

end Logged

end

end IsaTable
