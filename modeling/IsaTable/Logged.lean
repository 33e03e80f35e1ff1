import IsaTable.Match

/-! # Records and logged results

    Compiling reports what is odd but legal, so its result is a list of
    records beside the outcome.  The records are data; `Record.message` gives
    their wording.  Records made before a failure are kept.
-/

namespace IsaTable

open Text (decimal hexadecimalPadded)

/-! ## §1. Records -/

/-- How urgent a record is, most urgent first. -/
inductive Level where
  | error
  | warn
  | info
  | debug
  | trace
  deriving DecidableEq, Repr

namespace Level

/-- Position in the order of urgency; smaller is more urgent. -/
def rank : Level → Nat
  | error => 1
  | warn => 2
  | info => 3
  | debug => 4
  | trace => 5

/-- The level's name. -/
def name : Level → String
  | error => "ERROR"
  | warn => "WARN"
  | info => "INFO"
  | debug => "DEBUG"
  | trace => "TRACE"

end Level

/-- What is odd about one field of an instruction. -/
inductive Warning where
  /-- The value needs more bits than the field has. -/
  | wideValue (field : Field)
  /-- An earlier field of the instruction covers one of its positions. -/
  | overlap (field : Field)
  deriving DecidableEq, Repr

/-- Something that happened while compiling. -/
inductive Record where
  /-- A field of the named instruction is odd. -/
  | warning (opcode : String) (what : Warning)
  /-- The instruction on a numbered source line has been compiled. -/
  | compiled (line : Nat) (entry : Entry)
  deriving DecidableEq, Repr

/-- The text of a warning, without the instruction's name. -/
def Warning.message : Warning → String
  | .wideValue f =>
    "value " ++ decimal f.value.toNat ++ " does not fit in bits " ++ decimal f.start ++
      "..=" ++ decimal f.stop ++ " (" ++ decimal f.width ++ " bits wide)"
  | .overlap f =>
    "bits " ++ decimal f.start ++ "..=" ++ decimal f.stop ++ " overlap an earlier field"

namespace Record

/-- Warnings are warnings; a compiled line is of interest only when
    debugging. -/
def level : Record → Level
  | warning .. => .warn
  | compiled .. => .debug

/-- The part of the program that speaks, as it is named in the log. -/
def target : Record → String
  | warning .. => "opmask::compiled"
  | compiled .. => "opmask::table"

/-- The text of a record. -/
def message : Record → String
  | warning opcode what => opcode ++ ": " ++ what.message
  | compiled line entry =>
    "line " ++ decimal line ++ ": " ++ entry.opcode ++
      " mask=" ++ hexadecimalPadded 8 entry.matcher.mask.toNat ++
      " bits=" ++ hexadecimalPadded 8 entry.matcher.bits.toNat

end Record

/-! ## §2. Logged results -/

/-- An outcome and the records made on the way to it. -/
structure Logged (ε α : Type) where
  /-- The records, in the order in which they were made. -/
  log : List Record
  /-- The value, or what stopped it. -/
  outcome : Except ε α

namespace Logged

variable {ε ε' α β : Type}

/-- A value that needed no record. -/
def done (a : α) : Logged ε α :=
  ⟨[], .ok a⟩

/-- A failure before any record. -/
def fail (e : ε) : Logged ε α :=
  ⟨[], .error e⟩

/-- Goes on with the value; a failure keeps the records made so far and makes
    no more. -/
def andThen (x : Logged ε α) (next : α → Logged ε β) : Logged ε β :=
  match x.outcome with
  | .ok a => ⟨x.log ++ (next a).log, (next a).outcome⟩
  | .error e => ⟨x.log, .error e⟩

/-- Applies a function to the value. -/
def map (f : α → β) (x : Logged ε α) : Logged ε β :=
  ⟨x.log, x.outcome.map f⟩

/-- Applies a function to the failure. -/
def mapError (f : ε → ε') (x : Logged ε α) : Logged ε' α :=
  ⟨x.log, x.outcome.mapError f⟩

@[simp] theorem log_done (a : α) : (done a : Logged ε α).log = [] := rfl

@[simp] theorem outcome_done (a : α) : (done a : Logged ε α).outcome = .ok a := rfl

@[simp] theorem log_fail (e : ε) : (fail e : Logged ε α).log = [] := rfl

@[simp] theorem outcome_fail (e : ε) : (fail e : Logged ε α).outcome = .error e := rfl

@[simp] theorem log_map (f : α → β) (x : Logged ε α) : (x.map f).log = x.log := rfl

@[simp] theorem log_mapError (f : ε → ε') (x : Logged ε α) :
    (x.mapError f).log = x.log := rfl

/-- The failure is the image of one. -/
theorem outcome_mapError_eq_error_iff {f : ε → ε'} {x : Logged ε α} {e' : ε'} :
    (x.mapError f).outcome = .error e' ↔ ∃ e, x.outcome = .error e ∧ e' = f e := by
  show x.outcome.mapError f = .error e' ↔ _
  cases x.outcome with
  | error e =>
    show Except.error (f e) = .error e' ↔ _
    simp [eq_comm]
  | ok a =>
    show Except.ok a = .error e' ↔ _
    simp

/-- The outcome is that of the two outcomes in sequence. -/
theorem outcome_andThen (x : Logged ε α) (next : α → Logged ε β) :
    (x.andThen next).outcome = x.outcome.bind fun a => (next a).outcome := by
  cases h : x.outcome <;> simp [andThen, h, Except.bind]

end Logged

end IsaTable
