import IsaTable.CommandLine.FileSystem
import IsaTable.CommandLine.Options
import IsaTable.Json.Table
import IsaTable.Text.ControlSequence
import IsaTable.Text.Lines
import IsaTable.Text.Quoted

/-! # A run of the program

    A run reads the input file, loads the table, renders it and replaces the
    output file.  The new content is first written to a temporary file beside
    the output and then moved over it, so that the output is never half
    written; whatever fails, the temporary file is taken away again.

    The stages are written once, over any `Disk`: the real one, and the
    `FileSystem` that `FileSystem.disk` gives.

    Main definitions:
    - `loadTable`, the table of a file's content, by `loadDecl` or `loadPatterns`;
    - `replaceFile`, `finish` and `generate`, the stages;
    - `run`, arguments to exit status and printed texts.
-/

namespace IsaTable.CommandLine

open Text (decimal quote visible)

/-! ## §1. Log lines -/

/-- A line of the program's log. -/
structure LogLine where
  /-- How urgent it is. -/
  level : Level
  /-- The part of the program that speaks. -/
  target : String
  /-- What it says. -/
  text : String
  deriving DecidableEq, Repr

/-- A text whose further lines are moved to the right, to stand under the
    first. -/
def indented (width : Nat) (text : String) : String :=
  String.ofList (text.toList.flatMap fun c =>
    if c = '\n' then '\n' :: List.replicate width ' ' else [c])

namespace LogLine

/-- The line of a record made while compiling. -/
def ofRecord (r : Record) : LogLine :=
  ⟨r.level, r.target, r.message⟩

/-- The line that the program writes itself. -/
def ofProgram (text : String) : LogLine :=
  ⟨.info, "opmask_gen", text⟩

/-- The line as it is printed; all levels take the same width.  Orders to a
    terminal in its text are left out, and one that has not ended takes the
    line end with it. -/
def render (l : LogLine) : String :=
  "[" ++ String.ofList (l.level.name.toList.rightpad 5 ' ') ++ " " ++ l.target ++ "] " ++
    visible (indented 4 l.text ++ "\n")

/-- Whether the line is urgent enough to be printed; without a threshold none
    is. -/
def isShown (threshold : Option Level) (l : LogLine) : Bool :=
  match threshold with
  | none => false
  | some least => l.level.rank ≤ least.rank

end LogLine

/-- The threshold that a variable of the environment asks for, in any case of
    letters.  Without the variable it is `info`. -/
def thresholdOf (wish : Option String) : Option Level :=
  match wish with
  | none => some .info
  | some name =>
    [Level.error, .warn, .info, .debug, .trace].find? fun level =>
      level.name.toList == name.toList.map Char.toUpper

/-! ## §2. Failures -/

/-- Why a run fails, by stage. -/
inductive Failure where
  /-- The input cannot be read. -/
  | read (path : String) (cause : ReadError)
  /-- The input is no JSON table. -/
  | parse (path : String) (cause : Json.Error)
  /-- The declared table does not compile. -/
  | compileDecl (path : String) (cause : CompileError)
  /-- The pattern text cannot be read or does not compile. -/
  | compilePatterns (path : String) (cause : LineError)
  /-- No temporary file can be made in the directory. -/
  | createTemp (directory : String) (cause : OsError)
  /-- The temporary file in the directory cannot be written. -/
  | fillTemp (directory : String) (cause : OsError)
  /-- The temporary file cannot be moved over the output. -/
  | write (path : String) (cause : OsError)
  deriving DecidableEq, Repr

/-- The path of the temporary file in a directory, by the pattern of its name:
    the name itself is drawn anew each time. -/
def tempPath (directory : String) : String :=
  let base := if directory.toList.head? = some '/' then directory else "./" ++ directory
  (if base.toList.getLast? = some '/' then base else base ++ "/") ++ ".tmpXXXXXX"

namespace Failure

/-- What the program was doing. -/
def context : Failure → String
  | read path _ => "read " ++ path
  | parse path _ => "parse " ++ path
  | compileDecl path _ => "compile " ++ path
  | compilePatterns path _ => "compile " ++ path
  | createTemp directory _ => "create temp file in " ++ directory
  | fillTemp directory _ => "write " ++ tempPath directory
  | write path _ => "write " ++ path

/-- Why it failed, from the nearest cause to the last. -/
def causes : Failure → List String
  | read _ cause => [cause.message]
  | parse _ cause => [cause.message]
  | compileDecl _ cause => [cause.message]
  | compilePatterns _ cause => [cause.message]
  | createTemp directory cause =>
    [cause.message ++ " at path " ++ quote (tempPath directory)]
  | fillTemp _ cause => [cause.message]
  | write _ cause =>
    ["failed to persist temporary file: " ++ cause.message, cause.message]

/-- A cause as it is printed: a single one is indented, several are
    numbered. -/
def causeLine (alone : Bool) (number : Nat) (cause : String) : String :=
  if alone then "    " ++ indented 4 cause ++ "\n"
  else "    " ++ decimal number ++ ": " ++ indented 7 cause ++ "\n"

/-- The failure as it is printed. -/
def render (f : Failure) : String :=
  "Error: " ++ f.context ++ "\n\nCaused by:\n" ++
    String.join (f.causes.zipIdx.map fun numbered =>
      causeLine (f.causes.length == 1) numbered.2 numbered.1)

end Failure

/-! ## §3. Loading -/

/-- Whether the file is read as JSON: its extension decides, not its
    content. -/
def isJsonPath (path : String) : Bool :=
  Path.extension? path.toList == some ['j', 's', 'o', 'n']

/-- The table of a file that is read as JSON. -/
def loadDecl (path text : String) : Logged Failure Table :=
  match TableDecl.ofJson text with
  | .error e => .fail (.parse path e)
  | .ok d => (Table.ofDecl d).mapError (.compileDecl path)

/-- The table of a file that is read as pattern text. -/
def loadPatterns (path text : String) : Logged Failure Table :=
  (Table.ofPatterns text).mapError (.compilePatterns path)

/-- The table of a file's content. -/
def loadTable (path text : String) : Logged Failure Table :=
  if isJsonPath path then loadDecl path text else loadPatterns path text

/-! ## §4. Stages -/

/-- What a run does with files, in some monad; `τ` is what a temporary file is
    known by. -/
structure Disk (m : Type → Type) (τ : Type) where
  /-- Reads a file as a text. -/
  readText : (path : String) → m (Except ReadError String)
  /-- Makes an empty file of a fresh name in a directory. -/
  createTemp : (directory : String) → m (Except OsError τ)
  /-- Writes the content of a temporary file. -/
  writeText : τ → (text : String) → m (Except OsError Unit)
  /-- Moves a temporary file to a path, replacing a file that is there. -/
  rename : τ → (path : String) → m (Except OsError Unit)
  /-- Takes a temporary file away. -/
  remove : τ → m Unit

/-- The path of the directory where a path's file is. -/
def parentPath (path : String) : String :=
  String.ofList (Path.directory path.toList)

section Stages

variable {m : Type → Type} [Monad m] {τ : Type}

/-- Replaces a file by a text, all at once. -/
def replaceFile (disk : Disk m τ) (path text : String) : m (Except Failure Unit) := do
  let directory := parentPath path
  match ← disk.createTemp directory with
  | .error e => return .error (.createTemp directory e)
  | .ok temp =>
    match ← disk.writeText temp text with
    | .error e =>
      disk.remove temp
      return .error (.fillTemp directory e)
    | .ok () =>
      match ← disk.rename temp path with
      | .error e =>
        disk.remove temp
        return .error (.write path e)
      | .ok () => return .ok ()

/-- What is left to do once the input has been loaded, or has failed to be. -/
def finish (disk : Disk m τ) (o : Options) (loaded : Logged Failure Table) :
    m (List LogLine × Except Failure Unit) := do
  let log := loaded.log.map LogLine.ofRecord
  match loaded.outcome with
  | .error e => return (log, .error e)
  | .ok table =>
    let compiled := LogLine.ofProgram
      ("compiled " ++ decimal table.size ++ " instructions from " ++ o.input)
    match ← replaceFile disk o.output (table.source o.space) with
    | .error e => return (log ++ [compiled], .error e)
    | .ok () =>
      return (log ++ [compiled, LogLine.ofProgram ("wrote " ++ o.output)], .ok ())

/-- All stages of a run, with the log. -/
def generate (disk : Disk m τ) (o : Options) : m (List LogLine × Except Failure Unit) := do
  match ← disk.readText o.input with
  | .error e => return ([], .error (.read o.input e))
  | .ok text => finish disk o (loadTable o.input text)

/-! ## §5. Runs -/

/-- What a run leaves besides files. -/
structure Outcome where
  /-- The exit status: 0 for success, 1 for a failure, 2 for wrong usage. -/
  status : Nat
  /-- What is printed as output. -/
  stdout : String
  /-- What is printed as log and errors. -/
  stderr : String
  deriving DecidableEq, Repr

/-- The printed log: the lines that reach the threshold. -/
def renderLog (threshold : Option Level) (log : List LogLine) : String :=
  String.join ((log.filter (LogLine.isShown threshold)).map LogLine.render)

/-- The first line of a text, without its line end. -/
def firstLine (text : String) : String :=
  String.ofList ((Text.lines text.toList).head?.getD [])

/-- A run with the given arguments. -/
def run (disk : Disk m τ) (threshold : Option Level) (arguments : List String) :
    m Outcome := do
  match Options.ofArguments arguments with
  | .error (.flag flag) => return ⟨0, flag.text, ""⟩
  | .error (.usage e) => return ⟨2, "", firstLine e.message⟩
  | .ok o =>
    let (log, result) ← generate disk o
    match result with
    | .ok () => return ⟨0, "", renderLog threshold log⟩
    | .error e => return ⟨1, "", renderLog threshold log ++ e.render⟩

end Stages

/-! ## §6. Runs on a file system -/

namespace FileSystem

/-- A file system as a disk.  A failed operation changes nothing. -/
def disk : Disk (StateM FileSystem) Location where
  readText path := do return (← get).readText path
  createTemp directory := do
    match (← get).createTemp directory with
    | .error e => return .error e
    | .ok (temp, fs) =>
      set fs
      return .ok temp
  writeText temp text := do
    modify (·.insert temp (.file text.toUTF8))
    return .ok ()
  rename temp path := do
    match (← get).rename temp path with
    | .error e => return .error e
    | .ok fs =>
      set fs
      return .ok ()
  remove temp := modify (·.erase temp)

end FileSystem

/-- A run on a file system: what it leaves, and the file system after it. -/
def runOn (fs : FileSystem) (threshold : Option Level) (arguments : List String) :
    Outcome × FileSystem :=
  (run FileSystem.disk threshold arguments).run fs

end IsaTable.CommandLine
