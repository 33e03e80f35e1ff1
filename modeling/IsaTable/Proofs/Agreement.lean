import Mathlib.Data.List.Forall2
import IsaTable.Proofs.FirstFailure

/-! # Agreement of two ways

    Two ways to one result may word their errors differently, and one of them
    may keep a longer log.  They **agree** when they succeed together, with
    values that belong together, and fail together, with errors that do
    (`Agree`).  Steps that agree make traversals that agree (`Agree.mapM`,
    `Logged.AgreesUpToDebug.traverse`), so it is enough to compare what is
    done with one item.
-/

namespace IsaTable

section
variable {α β γ κ ε δ : Type} {R : α → β → Prop} {Q : γ → κ → Prop} {S : ε → δ → Prop}

/-! ## §1. Outcomes -/

/-- The outcomes are two values that `R` relates, or two errors that `S`
    relates. -/
inductive Agree (R : α → β → Prop) (S : ε → δ → Prop) : Except ε α → Except δ β → Prop where
  /-- Both succeed. -/
  | ok {a : α} {b : β} (h : R a b) : Agree R S (.ok a) (.ok b)
  /-- Both fail. -/
  | error {e : ε} {f : δ} (h : S e f) : Agree R S (.error e) (.error f)

namespace Agree

/-- Ways that agree on equal values succeed with the same ones. -/
theorem ok_iff {x : Except ε α} {y : Except δ α} (h : Agree Eq S x y) {a : α} :
    x = .ok a ↔ y = .ok a := by
  cases h with
  | ok h => rw [h, Except.ok.injEq, Except.ok.injEq]
  | error _ => exact ⟨nofun, nofun⟩

/-- The second way fails with exactly the errors that belong to one of the
    first, where no two belong to the same. -/
theorem error_iff (hS : Relator.RightUnique S) {x : Except ε α} {y : Except δ β}
    (h : Agree R S x y) {f : δ} : y = .error f ↔ ∃ e, x = .error e ∧ S e f := by
  cases h with
  | ok _ => exact ⟨nofun, fun ⟨_, h, _⟩ => nomatch h⟩
  | @error e g hg =>
    -- Both sides have failed, so `f` can only be the error that belongs to `e`.
    constructor
    · intro hf
      rw [← Except.error.inj hf]
      exact ⟨e, rfl, hg⟩
    · rintro ⟨e', he, hf⟩
      rw [← Except.error.inj he] at hf
      rw [hS hg hf]

/-- Agreement on values may be weakened. -/
theorem mono {R' : α → β → Prop} {x : Except ε α} {y : Except δ β} (h : Agree R S x y)
    (hR : ∀ a b, R a b → R' a b) : Agree R' S x y := by
  cases h with
  | ok h => exact .ok (hR _ _ h)
  | error h => exact .error h

/-- What agrees may be followed by what agrees. -/
theorem bind {x : Except ε α} {y : Except δ β} {f : α → Except ε γ} {g : β → Except δ κ}
    (h : Agree R S x y) (hnext : ∀ a b, R a b → Agree Q S (f a) (g b)) :
    Agree Q S (x.bind f) (y.bind g) := by
  cases h with
  | ok h => exact hnext _ _ h
  | error h => exact .error h

/-- Related values make related results. -/
theorem map {x : Except ε α} {y : Except δ β} {f : α → γ} {g : β → κ}
    (h : Agree R S x y) (hfg : ∀ a b, R a b → Q (f a) (g b)) :
    Agree Q S (x.map f) (y.map g) := by
  cases h with
  | ok h => exact .ok (hfg _ _ h)
  | error h => exact .error h

/-- Traversals agree when they do on every item. -/
theorem mapM {f : α → Except ε γ} {g : β → Except δ κ} {xs : List α} {ys : List β}
    (h : List.Forall₂ (fun x y => Agree Q S (f x) (g y)) xs ys) :
    Agree (List.Forall₂ Q) S (xs.mapM f) (ys.mapM g) := by
  induction h with
  | nil => exact .ok .nil
  | cons hxy _ ih =>
    rw [List.mapM_cons, List.mapM_cons]
    exact hxy.bind fun a b hab => ih.bind fun as bs habs => .ok (.cons hab habs)

end Agree

/-! ## §2. Outcomes with records -/

/-- The outcomes agree, and the second way makes the records of the first
    except those for debugging. -/
structure Logged.AgreesUpToDebug (R : α → β → Prop) (S : ε → δ → Prop) (x : Logged ε α)
    (y : Logged δ β) : Prop where
  /-- The outcomes agree. -/
  outcome : Agree R S x.outcome y.outcome
  /-- So do the records. -/
  log : y.log = x.log.filter fun r => r.level ≠ .debug

namespace Logged.AgreesUpToDebug

theorem done {a : α} {b : β} (h : R a b) :
    AgreesUpToDebug R S (Logged.done a) (Logged.done b) :=
  ⟨.ok h, rfl⟩

theorem fail {e : ε} {f : δ} (h : S e f) :
    AgreesUpToDebug R S (Logged.fail e) (Logged.fail f) :=
  ⟨.error h, rfl⟩

theorem map {x : Logged ε α} {y : Logged δ β} {f : α → γ} {g : β → κ}
    (h : AgreesUpToDebug R S x y) (hfg : ∀ a b, R a b → Q (f a) (g b)) :
    AgreesUpToDebug Q S (x.map f) (y.map g) :=
  ⟨h.outcome.map hfg, h.log⟩

/-- What agrees may be followed by what agrees; after a failure nothing
    follows on either side. -/
theorem andThen {x : Logged ε α} {y : Logged δ β} {f : α → Logged ε γ} {g : β → Logged δ κ}
    (h : AgreesUpToDebug R S x y)
    (hnext : ∀ a b, R a b → AgreesUpToDebug Q S (f a) (g b)) :
    AgreesUpToDebug Q S (x.andThen f) (y.andThen g) := by
  obtain ⟨xlog, xoutcome⟩ := x
  obtain ⟨ylog, youtcome⟩ := y
  obtain ⟨houtcome, hlog⟩ := h
  cases houtcome with
  | ok hab =>
    refine ⟨(hnext _ _ hab).outcome, ?_⟩
    -- The log is in two parts, and each is filtered on its own.
    show ylog ++ (g _).log = (xlog ++ (f _).log).filter _
    rw [List.filter_append, ← (hnext _ _ hab).log, ← hlog]
  | error h => exact ⟨.error h, hlog⟩

/-- Traversals agree when they do on every item. -/
theorem traverse {f : α → Logged ε γ} {g : β → Logged δ κ} {xs : List α} {ys : List β}
    (h : List.Forall₂ (fun x y => AgreesUpToDebug Q S (f x) (g y)) xs ys) :
    AgreesUpToDebug (List.Forall₂ Q) S (Logged.traverse f xs) (Logged.traverse g ys) := by
  induction h with
  | nil => exact done .nil
  | cons hxy _ ih =>
    exact hxy.andThen fun a b hab => ih.map fun as bs habs => .cons hab habs

end Logged.AgreesUpToDebug

end

end IsaTable
