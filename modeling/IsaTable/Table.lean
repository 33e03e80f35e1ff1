import IsaTable.Pattern

/-! # Tables

    A table is the compiled entries in input order.  It is searched in that
    order, so that an earlier entry wins, and rendered as the block that the
    `isa!` macro reads:

    ```text
    use ppc750cl_macros::isa;

    isa! {
        "add" & 0xffe007ff == 0x7c000214;
    }
    ```
-/

namespace IsaTable

open Text (hexadecimal)

/-- An entry as one statement of the block; the opcode stands verbatim
    between quotes. -/
def Entry.display (e : Entry) : String :=
  "\"" ++ e.opcode ++ "\" & " ++ hexadecimal e.matcher.mask.toNat ++ " == " ++
    hexadecimal e.matcher.bits.toNat ++ ";"

/-- Compiled entries in input order. -/
structure Table where
  /-- The entries. -/
  entries : List Entry
  deriving DecidableEq, Repr

namespace Table

/-! ## §1. Loading -/

/-- The table without entries. -/
def empty : Table :=
  ⟨[]⟩

/-- Compiles instructions in order; the first that does not compile is the
    error. -/
def compileEntries : List Instruction → Logged CompileError (List Entry)
  | [] => .done []
  | i :: rest => i.compile.andThen fun entry => (compileEntries rest).map (entry :: ·)

/-- The table of a list of instructions. -/
def compile (instructions : List Instruction) : Logged CompileError Table :=
  (compileEntries instructions).map Table.mk

/-- Compiles one source line.  An error is located at the line, and a
    successful compilation is recorded after its warnings. -/
def compileLine (s : SourceLine) : Logged LineError Entry :=
  (s.instruction.compile.mapError fun cause => s.error (.compile cause)).andThen fun entry =>
    ⟨[.compiled s.line entry], .ok entry⟩

/-- Compiles source lines in order; the first that does not compile is the
    error. -/
def compileLines : List SourceLine → Logged LineError (List Entry)
  | [] => .done []
  | s :: rest => (compileLine s).andThen fun entry => (compileLines rest).map (entry :: ·)

/-- The table of a list of source lines. -/
def ofSourceLines (lines : List SourceLine) : Logged LineError Table :=
  (compileLines lines).map Table.mk

/-- The table of a pattern text.  The whole text is read before anything is
    compiled, so a line that cannot be read hides one that does not
    compile. -/
def ofPatterns (text : String) : Logged LineError Table :=
  match SourceLine.ofText text with
  | .error e => .fail e
  | .ok lines => ofSourceLines lines

/-- The table of a declared table.  All ranges are checked before anything is
    compiled. -/
def ofDecl (d : TableDecl) : Logged CompileError Table :=
  match d.check with
  | .error e => .fail e
  | .ok instructions => compile instructions

/-! ## §2. Looking up -/

/-- How many entries there are. -/
def size (t : Table) : Nat :=
  t.entries.length

/-- Whether there is no entry. -/
def isEmpty (t : Table) : Bool :=
  t.entries.isEmpty

/-- The first entry that accepts the word. -/
def firstMatch (t : Table) (w : Word) : Option Entry :=
  t.entries.find? (·.matcher.accepts w)

@[simp] theorem entries_empty : empty.entries = [] := rfl

@[simp] theorem firstMatch_empty (w : Word) : empty.firstMatch w = none := rfl

/-- An entry that accepts the word and stands first is the answer. -/
theorem firstMatch_cons_of_accepts {e : Entry} {w : Word} (h : e.matcher.accepts w = true)
    (rest : List Entry) : firstMatch ⟨e :: rest⟩ w = some e := by
  simp [firstMatch, h]

/-- An entry that does not accept the word is passed over. -/
theorem firstMatch_cons_of_not_accepts {e : Entry} {w : Word}
    (h : e.matcher.accepts w = false) (rest : List Entry) :
    firstMatch ⟨e :: rest⟩ w = firstMatch ⟨rest⟩ w := by
  simp [firstMatch, h]

/-! ## §3. Rendering -/

/-- Where the macro is imported from, unless something else is asked for. -/
def defaultNamespace : String :=
  "ppc750cl_macros"

/-- The line that imports the macro, with the line that opens the block. -/
def header (space : String) : String :=
  "use " ++ space ++ "::isa;\n\nisa! \x7b\n"

/-- The line of an entry. -/
def entryLine (e : Entry) : String :=
  "    " ++ e.display ++ "\n"

/-- The line that closes the block. -/
def footer : String :=
  "\x7d\n"

/-- The rendered block: header, one line for each entry, footer. -/
def source (t : Table) (space : String) : String :=
  header space ++ String.join (t.entries.map entryLine) ++ footer

end Table

end IsaTable
