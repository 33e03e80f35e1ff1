import IsaTable.CommandLine.Run

/-! # The program

    The run of `IsaTable.CommandLine.Run` on the real disk.  Everything here
    only carries out single operations; what they are for is decided there.
-/

namespace IsaTable.CommandLine

/-- An error of the runtime as one of the operating system. -/
def osError : IO.Error → OsError
  | .noFileOrDirectory .. => .notFound
  | .resourceBusy .. => .busy
  | .inappropriateType _ code _ => if code = 21 then .isDirectory else .notDirectory
  | e => .other (toString e)

/-- Carries out an operation and returns its error as a value. -/
def attempt {α : Type} (action : IO α) : IO (Except OsError α) := do
  match ← action.toBaseIO with
  | .ok a => return .ok a
  | .error e => return .error (osError e)

/-- Makes an empty file in a directory, under one of a number of random
    names that is still free. -/
def createIn (directory : String) : (attempts : Nat) → IO String
  | 0 => throw (IO.userError "no free name for a temporary file")
  | attempts + 1 => do
    let path := directory ++ "/.tmp" ++ Text.decimal (← IO.rand 100000 999999)
    match ← (IO.FS.Handle.mk path .writeNew).toBaseIO with
    | .ok _ => return path
    | .error (.alreadyExists ..) => createIn directory attempts
    | .error e => throw e

/-- The disk of the machine; a temporary file is known by its path. -/
def realDisk : Disk IO String where
  readText path := do
    match ← attempt (IO.FS.readBinFile path) with
    | .error e => return .error (.os e)
    | .ok content =>
      match String.fromUTF8? content with
      | some text => return .ok text
      | none => return .error .notText
  createTemp directory := attempt (createIn directory 100)
  writeText temp text := attempt (IO.FS.writeFile temp text)
  rename temp path := attempt (IO.FS.rename temp path)
  remove temp := do
    let _ ← attempt (IO.FS.removeFile temp)

end IsaTable.CommandLine

open IsaTable.CommandLine in
/-- Runs the program and prints what the run leaves. -/
def main (arguments : List String) : IO UInt32 := do
  let threshold := thresholdOf (← IO.getEnv "RUST_LOG")
  let outcome ← run realDisk threshold arguments
  IO.print outcome.stdout
  IO.eprint outcome.stderr
  if outcome.status = 2 then IO.eprintln ""
  return UInt32.ofNat outcome.status
