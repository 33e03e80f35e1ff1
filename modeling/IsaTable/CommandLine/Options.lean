import IsaTable.Table
import IsaTable.Text.ControlSequence

/-! # Command line options

    The program has three settings, each with a value, and two flags that
    end it at once.  Arguments are taken from left to right:

    - a value attached to its option counts at once, a value that follows as
      an argument of its own counts when the next option is met;
    - an argument that fits nowhere is an error even if an option before it
      still waits to be counted;
    - after `--` nothing but the end of the arguments fits.

    Main definitions:
    - `Options.ofArguments`, the options, or why the program halts;
    - `Halt`, the ways to halt, and `UsageError.message`.
-/

namespace IsaTable.CommandLine

open Text (visible)

/-! ## §1. Settings and errors -/

/-- A setting of the program. -/
inductive Setting where
  | input
  | output
  | space
  deriving DecidableEq, Repr

/-- A flag that ends the program. -/
inductive Flag where
  | help
  | version
  deriving DecidableEq, Repr

/-- The options of a run. -/
structure Options where
  /-- The file that is read. -/
  input : String
  /-- The file that is written. -/
  output : String
  /-- Where the rendered block imports its macro from. -/
  space : String
  deriving DecidableEq, Repr

/-- Why arguments are refused. -/
inductive UsageError where
  /-- An argument that fits nowhere, as it is shown. -/
  | unexpectedArgument (shown : String)
  /-- A setting without its value. -/
  | missingValue (setting : Setting)
  /-- A setting given twice. -/
  | repeated (setting : Setting)
  /-- A flag with a value. -/
  | unneededValue (flag : Flag) (value : String)
  deriving DecidableEq, Repr

/-- Why the program ends before it has read anything. -/
inductive Halt where
  | flag (flag : Flag)
  | usage (error : UsageError)
  deriving DecidableEq, Repr

/-- What an option is called by. -/
inductive Key where
  | setting (setting : Setting)
  | flag (flag : Flag)
  deriving DecidableEq, Repr

namespace Setting

/-- How a setting is shown in messages. -/
def shown : Setting → String
  | input => "--input <INPUT>"
  | output => "--output <OUTPUT>"
  | space => "--namespace <NAMESPACE>"

/-- A path must not be empty; the place of the macro may be. -/
def allowsEmpty : Setting → Bool
  | space => true
  | _ => false

end Setting

/-- How a flag is shown in messages. -/
def Flag.shown : Flag → String
  | help => "--help"
  | version => "--version"

namespace Key

/-- The option with a long name; names are not abbreviated. -/
def ofLong? : List Char → Option Key
  | ['i', 'n', 'p', 'u', 't'] => some (setting .input)
  | ['o', 'u', 't', 'p', 'u', 't'] => some (setting .output)
  | ['n', 'a', 'm', 'e', 's', 'p', 'a', 'c', 'e'] => some (setting .space)
  | ['h', 'e', 'l', 'p'] => some (flag .help)
  | ['v', 'e', 'r', 's', 'i', 'o', 'n'] => some (flag .version)
  | _ => none

/-- The option with a short name. -/
def ofShort? : Char → Option Key
  | 'i' => some (setting .input)
  | 'o' => some (setting .output)
  | 'n' => some (setting .space)
  | 'h' => some (flag .help)
  | 'V' => some (flag .version)
  | _ => none

end Key

/-- The text shown for a usage error.  Of an argument only what is visible is
    shown. -/
def UsageError.message : UsageError → String
  | .unexpectedArgument shown => "error: unexpected argument '" ++ visible shown ++ "' found"
  | .missingValue setting =>
    "error: a value is required for '" ++ setting.shown ++ "' but none was supplied"
  | .repeated setting =>
    "error: the argument '" ++ setting.shown ++ "' cannot be used multiple times"
  | .unneededValue flag value =>
    "error: unexpected value '" ++ visible value ++ "' for '" ++ flag.shown ++
      "' found; no more were expected"

/-! ## §2. Counting settings -/

/-- The settings that have been counted. -/
structure Chosen where
  /-- The input file. -/
  input : Option String
  /-- The output file. -/
  output : Option String
  /-- The place of the macro. -/
  space : Option String
  deriving DecidableEq, Repr

/-- The option that was met last, if it takes its value from the next
    argument, and that value, if it has come. -/
structure Waiting where
  /-- The setting. -/
  setting : Setting
  /-- Its value. -/
  value : Option String
  deriving DecidableEq, Repr

namespace Chosen

/-- Nothing has been counted. -/
def none : Chosen :=
  ⟨.none, .none, .none⟩

/-- The value of a setting. -/
def value (c : Chosen) : Setting → Option String
  | .input => c.input
  | .output => c.output
  | .space => c.space

/-- The settings with one of them given. -/
def give (c : Chosen) (value : String) : Setting → Chosen
  | .input => ⟨some value, c.output, c.space⟩
  | .output => ⟨c.input, some value, c.space⟩
  | .space => ⟨c.input, c.output, some value⟩

/-- Counts a setting with its value.  That it is given twice is noticed before
    its value is looked at. -/
def count (c : Chosen) (setting : Setting) (value : String) : Except UsageError Chosen :=
  if (c.value setting).isSome then .error (.repeated setting)
  else if value = "" ∧ ¬ setting.allowsEmpty then .error (.missingValue setting)
  else .ok (c.give value setting)

/-- Counts the option that waits, if there is one. -/
def countWaiting (c : Chosen) : Option Waiting → Except UsageError Chosen
  | .none => .ok c
  | some ⟨setting, .none⟩ => .error (.missingValue setting)
  | some ⟨setting, some value⟩ => c.count setting value

/-- The options of a run, with the defaults for what was not given. -/
def toOptions (c : Chosen) : Options :=
  ⟨c.input.getD "patterns.txt", c.output.getD "isa.rs", c.space.getD Table.defaultNamespace⟩

end Chosen

/-! ## §3. Taking arguments -/

/-- How far the arguments have been taken. -/
structure Progress where
  /-- What has been counted. -/
  chosen : Chosen
  /-- What waits to be counted. -/
  waiting : Option Waiting
  deriving DecidableEq, Repr

namespace Progress

/-- Nothing has been taken. -/
def start : Progress :=
  ⟨.none, .none⟩

/-- Counts what waits, now that something else has been met. -/
def settle (p : Progress) : Except Halt Chosen :=
  (p.chosen.countWaiting p.waiting).mapError .usage

/-- Meets a setting with its value attached. -/
def attached (p : Progress) (setting : Setting) (value : String) : Except Halt Progress :=
  p.settle.bind fun chosen =>
    ((chosen.count setting value).mapError .usage).map fun chosen => ⟨chosen, none⟩

/-- Meets a setting whose value is to follow. -/
def detached (p : Progress) (setting : Setting) : Except Halt Progress :=
  p.settle.map fun chosen => ⟨chosen, some ⟨setting, none⟩⟩

/-- Meets a flag, which ends the program once everything before it has been
    counted. -/
def flagged (p : Progress) (flag : Flag) : Except Halt Progress :=
  p.settle.bind fun _ => .error (.flag flag)

/-- Takes an argument that begins with two dashes, given what follows them.  A
    value is attached by an equals sign. -/
def takeLong (p : Progress) (body : List Char) : Except Halt Progress :=
  let name := body.takeWhile (· != '=')
  let value := (body.dropWhile (· != '=')).tail?.map String.ofList
  match Key.ofLong? name, value with
  | some (.setting setting), some value => p.attached setting value
  | some (.setting setting), none => p.detached setting
  | some (.flag flag), some value => .error (.usage (.unneededValue flag value))
  | some (.flag flag), none => p.flagged flag
  | none, _ => .error (.usage (.unexpectedArgument ("--" ++ String.ofList name)))

/-- Takes a run of short names.  What follows a setting in the run is its
    value, an equals sign in front of it apart. -/
def takeShort (p : Progress) : List Char → Except Halt Progress
  | [] => .ok p
  | c :: rest =>
    match Key.ofShort? c, rest with
    | some (.setting setting), [] => p.detached setting
    -- An equals sign alone attaches the empty value.
    | some (.setting setting), '=' :: value => p.attached setting (String.ofList value)
    | some (.setting setting), value => p.attached setting (String.ofList value)
    | some (.flag flag), _ => p.flagged flag
    | none, _ => .error (.usage (.unexpectedArgument (String.ofList ['-', c])))

/-- Takes an argument that is no option: the value that an option waits for,
    or else one too many. -/
def takePlain (p : Progress) (argument : String) : Except Halt Progress :=
  match p.waiting with
  | some ⟨setting, none⟩ => .ok ⟨p.chosen, some ⟨setting, some argument⟩⟩
  | _ => .error (.usage (.unexpectedArgument argument))

/-- Takes one argument other than `--`. -/
def take (p : Progress) (argument : String) : Except Halt Progress :=
  match argument.toList with
  | '-' :: '-' :: body => p.takeLong body
  | '-' :: c :: rest => p.takeShort (c :: rest)
  | _ => p.takePlain argument

/-- Takes all arguments. -/
def takeAll (p : Progress) : List String → Except Halt Options
  | [] => p.settle.map Chosen.toOptions
  | argument :: rest =>
    if argument = "--" then
      match rest with
      | [] => p.settle.map Chosen.toOptions
      | extra :: _ => .error (.usage (.unexpectedArgument extra))
    else
      match p.take argument with
      | .ok p' => takeAll p' rest
      | .error halt => .error halt

end Progress

/-- The options that the arguments spell, or why the program halts. -/
def Options.ofArguments (arguments : List String) : Except Halt Options :=
  Progress.start.takeAll arguments

/-- Without arguments the defaults apply. -/
example : Options.ofArguments [] = .ok ⟨"patterns.txt", "isa.rs", "ppc750cl_macros"⟩ := rfl

/-! ## §4. Texts of the flags -/

/-- The text that a flag shows. -/
def Flag.text : Flag → String
  | version => "opmask-gen 0.1.0\n"
  | help =>
    "Generate an isa! opcode table from bit-field patterns\n\n" ++
    "Usage: opmask-gen [OPTIONS]\n\n" ++
    "Options:\n" ++
    "  -i, --input <INPUT>          Pattern file, one `OPCODE start,stop,value ...` per line " ++
    "(`.json` for a JSON table) [default: patterns.txt]\n" ++
    "  -o, --output <OUTPUT>        Generated Rust source [default: isa.rs]\n" ++
    "  -n, --namespace <NAMESPACE>  Crate path providing the `isa!` macro " ++
    "[default: ppc750cl_macros]\n" ++
    "  -h, --help                   Print help\n" ++
    "  -V, --version                Print version\n"

end IsaTable.CommandLine
