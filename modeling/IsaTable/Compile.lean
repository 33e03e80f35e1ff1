import IsaTable.Logged

/-! # Compiling an instruction

    The match of an instruction is its fields, accumulated in order.  On the
    way each field is looked at twice: its value may be too wide for it, and
    it may cover a position that an earlier field covers.  Both are reported
    and compiled as written; only an instruction without fields is refused.
-/

namespace IsaTable

/-! ## §1. Warnings -/

/-- What is odd about one field, given the match of the fields before it; the
    width comes before the overlap. -/
def Match.warnings (earlier : Match) (f : Field) : List Warning :=
  (if f.valueFits then [] else [.wideValue f]) ++
    (if earlier.overlaps f then [.overlap f] else [])

/-- The warnings about all fields, in order, each field seen after those
    before it. -/
def Match.warningsAlong (earlier : Match) : List Field → List Warning
  | [] => []
  | f :: rest => earlier.warnings f ++ (earlier.accumulate f).warningsAlong rest

@[simp] theorem Match.warningsAlong_nil (m : Match) : m.warningsAlong [] = [] := rfl

@[simp] theorem Match.warningsAlong_cons (m : Match) (f : Field) (rest : List Field) :
    m.warningsAlong (f :: rest) = m.warnings f ++ (m.accumulate f).warningsAlong rest := rfl

/-- Warnings along two lists are those along the first, then those along the
    second with the first accumulated. -/
theorem Match.warningsAlong_append (m : Match) (fs gs : List Field) :
    m.warningsAlong (fs ++ gs) =
      m.warningsAlong fs ++ (fs.foldl Match.accumulate m).warningsAlong gs := by
  induction fs generalizing m with
  | nil => rfl
  | cons f rest ih => simp [ih, List.append_assoc]

/-! ## §2. Compilation -/

namespace Instruction

/-- The warnings about the instruction's fields. -/
def warnings (i : Instruction) : List Warning :=
  Match.empty.warningsAlong i.fields

/-- The match of the instruction's fields, with its warnings. -/
def compileFields (i : Instruction) : Logged CompileError Match :=
  -- Without fields the match would be the empty one, which accepts every word.
  if i.fields.isEmpty then
    .fail .emptyFieldList
  else
    ⟨i.warnings.map (.warning i.opcode), .ok (.ofFields i.fields)⟩

/-- The table entry of the instruction, with its warnings. -/
def compile (i : Instruction) : Logged CompileError Entry :=
  i.compileFields.map (Entry.mk i.opcode)

/-- An instruction without fields is refused, and nothing is recorded. -/
@[simp] theorem compileFields_nil (opcode : String) :
    compileFields ⟨opcode, []⟩ = .fail .emptyFieldList := rfl

/-- Any other instruction compiles. -/
@[simp] theorem compileFields_cons (opcode : String) (f : Field) (rest : List Field) :
    compileFields ⟨opcode, f :: rest⟩ =
      ⟨(Match.empty.warningsAlong (f :: rest)).map (.warning opcode),
        .ok (.ofFields (f :: rest))⟩ := rfl

end Instruction

end IsaTable
