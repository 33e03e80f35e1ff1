import IsaTable.Json.Table
import IsaTable.Proofs.Match.Guards
import IsaTable.Proofs.Pattern.LineGrammar
import IsaTable.Proofs.Table.ReportedLines

/-! # From numbers in an input to arithmetic on them

    Fields come into a program on several ways: from numbers that are given
    directly, from tokens, lines and texts of patterns, and from JSON documents.
    The numbers that an input declares are any that can be written down
    (`Input.Declares`).  On every way they are checked before there is a field
    (`Input.exists_declared`), so whatever is computed from the fields that an
    input makes stays within its bounds (`Input.arithmetic_in_bounds`).
-/

namespace IsaTable

open Text

/-! ## §1. Inputs -/

/-- What fields can be made of. -/
inductive Input where
  /-- The numbers of an instruction, given directly. -/
  | numbers (declared : List FieldDecl)
  /-- A field token. -/
  | token (text : String)
  /-- A line of pattern text. -/
  | line (text : String)
  /-- A pattern text. -/
  | patterns (text : String)
  /-- A JSON document. -/
  | json (text : String)

/-- Every token spells the numbers of a declared field, in order. -/
def SpelledBy (tokens : List (List Char)) (declared : List FieldDecl) : Prop :=
  List.Forall₂ (fun token d => Spells token d.start.toNat d.stop.toNat d.value.toNat)
    tokens declared

namespace Input

/-- **The numbers that an input declares**, instruction by instruction.  Their
    ranges are not looked at. -/
inductive Declares : Input → List (List FieldDecl) → Prop
  | numbers (declared : List FieldDecl) : Declares (.numbers declared) [declared]
  | token {text : String} {d : FieldDecl} (h : SpelledBy [text.toList] [d]) :
      Declares (.token text) [[d]]
  | line {text : String} {opcode : List Char} {tokens : List (List Char)}
      {declared : List FieldDecl} (hline : LaidOut text.toList opcode tokens)
      (h : SpelledBy tokens declared) : Declares (.line text) [declared]
  | patterns {text : String} {declared : List (List FieldDecl)}
      (h : List.Forall₂ (fun l ds => SpelledBy l.tokens ds) (instructionLines text) declared) :
      Declares (.patterns text) declared
  | json {text : String} {d : TableDecl} (h : TableDecl.ofJson text = .ok d) :
      Declares (.json text) (d.instructions.map InstructionDecl.fields)

/-- **The fields that are made of an input**, instruction by instruction, by the
    function that reads inputs of its kind. -/
inductive Makes : Input → List (List Field) → Prop
  | numbers {declared : List FieldDecl} {fields : List Field}
      (h : declared.mapM FieldDecl.check = .ok fields) : Makes (.numbers declared) [fields]
  | token {text : String} {f : Field} (h : Field.ofToken text.toList = .ok f) :
      Makes (.token text) [[f]]
  | line {text : String} {i : Instruction} (h : Instruction.ofLine text.toList = .ok (some i)) :
      Makes (.line text) [i.fields]
  | patterns {text : String} {lines : List SourceLine} (h : SourceLine.ofText text = .ok lines) :
      Makes (.patterns text) (lines.map fun s => s.instruction.fields)
  | json {text : String} {d : TableDecl} {instructions : List Instruction}
      (hread : TableDecl.ofJson text = .ok d) (h : d.check = .ok instructions) :
      Makes (.json text) (instructions.map Instruction.fields)

end Input

/-! ## §2. Every way leads through the check -/

/-- The fields are what the declared ones have been accepted as, in order. -/
def AcceptedAs (declared : List FieldDecl) (fields : List Field) : Prop :=
  List.Forall₂ (fun d f => d.check = .ok f) declared fields

theorem acceptedAs_toDecl (fields : List Field) : AcceptedAs (fields.map Field.toDecl) fields := by
  rw [AcceptedAs, List.forall₂_map_left_iff]
  exact List.forall₂_same.2 fun f _ => f.check_toDecl

/-- Tokens that are read as fields spell their numbers. -/
theorem spelledBy_toDecl {tokens : List (List Char)} {fields : List Field}
    (h : List.Forall₂ (fun token f => Field.ofToken token = .ok f) tokens fields) :
    SpelledBy tokens (fields.map Field.toDecl) := by
  rw [SpelledBy, List.forall₂_map_right_iff]
  refine h.imp fun token f hf => ?_
  obtain ⟨hstart, hstop, hvalue⟩ := FieldDecl.check_eq_ok_iff.1 f.check_toDecl
  rw [hstart, hstop, hvalue]
  exact Field.ofToken_eq_ok_iff.1 hf

namespace Input

variable {input : Input} {made : List (List Field)}

/-- **Fields are made of declared numbers that have been accepted.** -/
theorem exists_declared (h : input.Makes made) :
    ∃ declared, input.Declares declared ∧ List.Forall₂ AcceptedAs declared made := by
  cases h with
  | @numbers declared fields h =>
    exact ⟨[declared], .numbers declared, .cons (mapM_eq_ok_iff.1 h) .nil⟩
  | @token text f h =>
    exact ⟨[[f.toDecl]], .token (spelledBy_toDecl (.cons h .nil)),
      .cons (acceptedAs_toDecl [f]) .nil⟩
  | @line text i h =>
    obtain ⟨-, tokens, hline, htokens⟩ := Instruction.ofLine_eq_some_iff.1 h
    exact ⟨[i.fields.map Field.toDecl], .line hline (spelledBy_toDecl htokens),
      .cons (acceptedAs_toDecl i.fields) .nil⟩
  | @patterns text lines h =>
    obtain ⟨hread, rfl⟩ := SourceLine.ofText_eq_ok_iff.1 h
    refine ⟨(instructionLines text).map fun l => l.fields.map Field.toDecl, .patterns ?_, ?_⟩
    · rw [List.forall₂_map_right_iff]
      exact List.forall₂_same.2 fun l hl =>
        spelledBy_toDecl (WrittenLine.forall₂_fields (hread l hl))
    · rw [List.map_map, List.forall₂_map_left_iff, List.forall₂_map_right_iff]
      exact List.forall₂_same.2 fun l _ => acceptedAs_toDecl l.fields
  | @json text d instructions hread h =>
    refine ⟨_, .json hread, ?_⟩
    rw [List.forall₂_map_left_iff, List.forall₂_map_right_iff]
    exact (mapM_eq_ok_iff.1 h).imp fun c i hcheck => (InstructionDecl.check_eq_ok_iff.1 hcheck).2

end Input

/-! ## §3. Arithmetic -/

namespace Guarded

/-- **The numbers of an instruction get through as its fields**: every operation
    on one of them has the result for the field, and so has compiling them one
    after the other, with the findings that compilation warns about. -/
structure GetsThrough (declared : List FieldDecl) (fields : List Field) : Prop where
  passes : List.Forall₂ Passes declared fields
  compile : ∃ findings,
    compile? Match.empty declared = some (Match.ofFields fields, findings) ∧
      ∀ opcode, Instruction.warnings ⟨opcode, fields⟩ = reported (fields.zip findings)

theorem getsThrough_of_accepted {declared : List FieldDecl} {fields : List Field}
    (h : AcceptedAs declared fields) : GetsThrough declared fields where
  passes := h.imp fun _ _ hcheck => passes_of_check hcheck
  compile := ⟨findingsAlong Match.empty fields, compile?_eq_some_iff.2 ⟨fields, h, rfl⟩,
    fun _ => warningsAlong_eq_reported Match.empty fields⟩

/-- Numbers get through all guards exactly when their bounds are in order and in
    the word. -/
theorem exists_compile?_iff {m : Match} {declared : List FieldDecl} :
    (∃ result, compile? m declared = some result) ↔
      ∀ d ∈ declared, d.start ≤ d.stop ∧ d.stop ≤ 31 := by
  have hrange : ∀ d : FieldDecl, (∃ f, d.check = .ok f) ↔ d.start ≤ d.stop ∧ d.stop ≤ 31 := by
    intro d
    rw [FieldDecl.exists_check_iff, UInt8.le_iff_toNat_le, UInt8.le_iff_toNat_le]
    rfl
  simp only [← hrange, ← exists_mapM_eq_ok_iff, mapM_eq_ok_iff, compile?_eq_some_iff]
  constructor
  · rintro ⟨_, fields, hfields, -⟩
    exact ⟨fields, hfields⟩
  · rintro ⟨fields, hfields⟩
    exact ⟨_, fields, hfields, rfl⟩

end Guarded

/-- **No guard fails on what an input makes.**  The fields are made of numbers
    that stand in the input, and those get through: their bounds are in order
    and in the word, every width is one that a run of ones can have, every shift
    is by less than the size of the word, no difference goes below zero, and the
    results are those of compilation.  The guards are not for nothing: numbers
    out of range never get through. -/
theorem Input.arithmetic_in_bounds {input : Input} {made : List (List Field)}
    (h : input.Makes made) :
    (∃ declared, input.Declares declared ∧
      List.Forall₂ Guarded.GetsThrough declared made) ∧
    ∀ (m : Match) (declared : List FieldDecl),
      (∃ result, Guarded.compile? m declared = some result) ↔
        ∀ d ∈ declared, d.start ≤ d.stop ∧ d.stop ≤ 31 := by
  obtain ⟨declared, hdeclares, haccepted⟩ := exists_declared h
  have hthrough := haccepted.imp fun _ _ hfields => Guarded.getsThrough_of_accepted hfields
  exact ⟨⟨declared, hdeclares, hthrough⟩, fun m declared => Guarded.exists_compile?_iff⟩

/-- A field as wide as the word, and one at either end of it that is as narrow
    as can be. -/
theorem Input.arithmetic_in_bounds_ends :
    let text := "w 0,31,4294967295\n# ends\nb 0,0,1 31,31,1"
    let whole : Field := ⟨0, 31, 0xffffffff#32, by decide, by decide⟩
    let first : Field := ⟨0, 0, 1#32, by decide, by decide⟩
    let last : Field := ⟨31, 31, 1#32, by decide, by decide⟩
    (Input.patterns text).Makes [[whole], [first, last]] ∧
      ∃ declared, (Input.patterns text).Declares declared ∧
        List.Forall₂ Guarded.GetsThrough declared [[whole], [first, last]] := by
  intro text whole first last
  have hread : SourceLine.ofText "w 0,31,4294967295\n# ends\nb 0,0,1 31,31,1" =
      .ok [⟨1, "w 0,31,4294967295", ⟨"w", [⟨0, 31, 0xffffffff#32, by decide, by decide⟩]⟩⟩,
        ⟨3, "b 0,0,1 31,31,1", ⟨"b", [⟨0, 0, 1#32, by decide, by decide⟩,
          ⟨31, 31, 1#32, by decide, by decide⟩]⟩⟩] := by decide
  have hmakes : (Input.patterns text).Makes [[whole], [first, last]] := .patterns hread
  exact ⟨hmakes, (Input.arithmetic_in_bounds hmakes).1⟩

end IsaTable
