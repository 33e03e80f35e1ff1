import IsaTable.Field
import IsaTable.Proofs.FirstFailure

/-! # Checking what is declared

    A declared table is accepted exactly when all its ranges are in order and
    in the word; nothing else is looked at.  The error is the first bad range
    in the order of the declaration, whichever instruction it stands in
    (`TableDecl.check_of_badRange`).
-/

namespace IsaTable

/-! ## §1. Fields -/

namespace FieldDecl

/-- The bounds are in order, and in the word. -/
def InRange (d : FieldDecl) : Prop :=
  d.start.toNat ≤ d.stop.toNat ∧ d.stop.toNat ≤ 31

instance (d : FieldDecl) : Decidable d.InRange := by
  unfold InRange; infer_instance

variable {d : FieldDecl}

/-- A declared field is accepted as the field with its numbers, if there is
    one. -/
theorem check_eq_ok_iff {f : Field} :
    d.check = .ok f ↔
      d.start.toNat = f.start ∧ d.stop.toNat = f.stop ∧ d.value = f.value := by
  constructor
  · intro h
    unfold check at h
    split at h
    · obtain rfl := Except.ok.inj h
      exact ⟨rfl, rfl, rfl⟩
    · cases h
  · rintro ⟨hstart, hstop, hvalue⟩
    have hrange : d.start.toNat ≤ d.stop.toNat ∧ d.stop.toNat ≤ 31 := by
      rw [hstart, hstop]
      exact ⟨f.start_le_stop, f.stop_le⟩
    obtain ⟨start, stop, value, _, _⟩ := f
    simp only at hstart hstop hvalue
    subst hstart hstop hvalue
    rw [check, dif_pos hrange]

theorem exists_check_iff : (∃ f, d.check = .ok f) ↔ d.InRange := by
  constructor
  · rintro ⟨f, hf⟩
    obtain ⟨hstart, hstop, -⟩ := check_eq_ok_iff.1 hf
    rw [InRange, hstart, hstop]
    exact ⟨f.start_le_stop, f.stop_le⟩
  · intro h
    exact ⟨_, dif_pos h⟩

theorem check_of_not_inRange (h : ¬ d.InRange) :
    d.check = .error (.invalidRange d.start d.stop) :=
  dif_neg h

end FieldDecl

/-! ## §2. Instructions -/

namespace InstructionDecl

variable {d : InstructionDecl}

theorem exists_check_iff : (∃ i, d.check = .ok i) ↔ ∀ f ∈ d.fields, f.InRange := by
  simp only [← FieldDecl.exists_check_iff]
  rw [← exists_mapM_eq_ok_iff, check]
  cases d.fields.mapM FieldDecl.check with
  | ok fields => exact ⟨fun _ => ⟨_, rfl⟩, fun _ => ⟨_, rfl⟩⟩
  | error e => exact ⟨nofun, nofun⟩

/-- The first bad range is the error of an instruction. -/
theorem check_of_badRange {before : List FieldDecl} {f : FieldDecl}
    (h : FirstFailure FieldDecl.InRange d.fields before f) :
    d.check = .error (.invalidRange f.start f.stop) := by
  have hfirst := h.congr fun _ _ => FieldDecl.exists_check_iff.symm
  rw [check, mapM_eq_error hfirst (FieldDecl.check_of_not_inRange h.failed)]
  rfl

/-- A declared instruction is accepted as the one with its opcode and with what
    its fields are accepted as. -/
theorem check_eq_ok_iff {i : Instruction} :
    d.check = .ok i ↔
      d.opcode = i.opcode ∧ List.Forall₂ (fun c f => c.check = .ok f) d.fields i.fields := by
  rw [check, map_eq_ok_iff, ← mapM_eq_ok_iff]
  constructor
  · intro h
    obtain ⟨fields, hfields, rfl⟩ := h
    exact ⟨rfl, hfields⟩
  · intro h
    obtain ⟨hopcode, hfields⟩ := h
    refine ⟨i.fields, hfields, ?_⟩
    rw [hopcode]

/-- A checked instruction has as many fields as were declared. -/
theorem length_fields_of_check {i : Instruction} (h : d.check = .ok i) :
    d.fields.length = i.fields.length :=
  (check_eq_ok_iff.1 h).2.length_eq

end InstructionDecl

/-! ## §3. Tables -/

namespace TableDecl

variable {d : TableDecl}

/-- All declared fields, in order. -/
def fields (d : TableDecl) : List FieldDecl :=
  d.instructions.flatMap InstructionDecl.fields

theorem exists_check_iff : (∃ is, d.check = .ok is) ↔ ∀ f ∈ d.fields, f.InRange := by
  rw [check, exists_mapM_eq_ok_iff]
  simp only [InstructionDecl.exists_check_iff, fields, List.forall_mem_flatMap]

/-- **The first bad range** of the whole table is its error. -/
theorem check_of_badRange {before : List FieldDecl} {f : FieldDecl}
    (h : FirstFailure FieldDecl.InRange d.fields before f) :
    d.check = .error (.invalidRange f.start f.stop) := by
  -- It stands in the first instruction with a bad range, and comes first there.
  obtain ⟨earlier, i, inside, hi, hf⟩ := h.exists_of_flatMap
  have hfirst := hi.congr fun _ _ => InstructionDecl.exists_check_iff.symm
  exact mapM_eq_error hfirst (InstructionDecl.check_of_badRange hf)

/-- Checking keeps the opcodes, in order. -/
theorem opcodes_of_check {is : List Instruction} (h : d.check = .ok is) :
    is.map Instruction.opcode = d.instructions.map InstructionDecl.opcode := by
  have hsame : List.Forall₂ (fun (c : InstructionDecl) (i : Instruction) => c.opcode = i.opcode)
      d.instructions is :=
    (mapM_eq_ok_iff.1 h).imp fun _ _ hcheck => (InstructionDecl.check_eq_ok_iff.1 hcheck).1
  rw [← List.forall₂_eq_eq_eq, List.forall₂_map_left_iff, List.forall₂_map_right_iff]
  exact hsame.flip.imp fun _ _ hopcode => hopcode.symm

/-- Checking neither gives fields to an instruction without any nor takes all
    from one that has some. -/
theorem exists_fields_eq_nil_iff {is : List Instruction} (h : d.check = .ok is) :
    (∃ i ∈ is, i.fields = []) ↔ ∃ i ∈ d.instructions, i.fields = [] := by
  rw [check, mapM_eq_ok_iff] at h
  generalize d.instructions = declared at h ⊢
  induction h with
  | nil => simp
  | @cons c i declared is hcheck _ ih =>
    have hnil : i.fields = [] ↔ c.fields = [] := by
      rw [← List.length_eq_zero_iff, ← InstructionDecl.length_fields_of_check hcheck,
        List.length_eq_zero_iff]
    simp only [List.mem_cons, exists_eq_or_imp, hnil, ih]

end TableDecl

end IsaTable
