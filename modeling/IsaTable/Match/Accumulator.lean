import IsaTable.Match

/-! # Accumulators

    A match that is built up step by step, by declared fields that may turn
    out to be no fields at all.  A step either changes the match or asks it a
    question; a field with a bad range is answered by its error and changes
    nothing.

    Main definitions:
    - `Match.Step` and `Match.Reply`, what can be done and what comes back;
    - `Match.perform` and `Match.performAll`, one step and a run of steps.
-/

namespace IsaTable.Match

/-- A step of an accumulator. -/
inductive Step where
  /-- Add a field. -/
  | accumulate (field : FieldDecl)
  /-- Ask whether a field meets what is constrained. -/
  | overlaps (field : FieldDecl)
  /-- Ask whether a word is accepted. -/
  | accepts (word : Word)
  /-- Ask whether the match is consistent. -/
  | isConsistent
  /-- Start again from the empty match. -/
  | reset
  deriving DecidableEq, Repr

/-- What a step answers. -/
inductive Reply where
  /-- The match after a change. -/
  | changed (state : Match)
  /-- The answer to a question. -/
  | answer (yes : Bool)
  /-- The field is none. -/
  | refused (error : CompileError)
  deriving DecidableEq, Repr

/-- Performs one step. -/
def perform (m : Match) : Step → Match × Reply
  | .accumulate d =>
    match d.check with
    | .ok f => (m.accumulate f, .changed (m.accumulate f))
    | .error e => (m, .refused e)
  | .overlaps d =>
    match d.check with
    | .ok f => (m, .answer (m.overlaps f))
    | .error e => (m, .refused e)
  | .accepts w => (m, .answer (m.accepts w))
  | .isConsistent => (m, .answer m.isConsistent)
  | .reset => (empty, .changed empty)

/-- Performs steps in order, and returns the last match with all replies. -/
def performAll (m : Match) : List Step → Match × List Reply
  | [] => (m, [])
  | step :: rest =>
    let (next, reply) := m.perform step
    let (last, replies) := next.performAll rest
    (last, reply :: replies)

@[simp] theorem performAll_nil (m : Match) : m.performAll [] = (m, []) := rfl

/-- A question leaves the match alone. -/
@[simp] theorem perform_isConsistent (m : Match) :
    m.perform .isConsistent = (m, .answer m.isConsistent) := rfl

/-- A refused field leaves the match alone. -/
theorem perform_accumulate_of_error {m : Match} {d : FieldDecl} {e : CompileError}
    (h : d.check = .error e) : m.perform (.accumulate d) = (m, .refused e) := by
  simp [perform, h]

/-- An accepted field is accumulated. -/
theorem perform_accumulate_of_ok {m : Match} {d : FieldDecl} {f : Field}
    (h : d.check = .ok f) :
    m.perform (.accumulate d) = (m.accumulate f, .changed (m.accumulate f)) := by
  simp [perform, h]

end IsaTable.Match
