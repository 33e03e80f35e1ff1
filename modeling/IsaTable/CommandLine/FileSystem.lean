import IsaTable.CommandLine.Path

/-! # File systems

    A file system says for each place whether a directory or a file with some
    content is there.  Places are lists of names from the root, so a path is
    resolved by a walk: every name but the last must lead to a directory, and
    a slash at the end of a path asks for a directory too.

    Main definitions:
    - `FileSystem.node?`, the view that all operations are described by;
    - `FileSystem.resolve`, the place that a path leads to;
    - `readText`, `createTemp`, `insert`, `rename` and `erase`, what a program
      can do.
-/

namespace IsaTable.CommandLine

/-! ## §1. Errors -/

/-- An error of the operating system. -/
inductive OsError where
  | notFound
  | busy
  | notDirectory
  | isDirectory
  | nameTooLong
  /-- Any other error, by its text. -/
  | other (text : String)
  deriving DecidableEq, Repr

/-- The text shown for an error of the operating system. -/
def OsError.message : OsError → String
  | notFound => "No such file or directory (os error 2)"
  | busy => "Device or resource busy (os error 16)"
  | notDirectory => "Not a directory (os error 20)"
  | isDirectory => "Is a directory (os error 21)"
  | nameTooLong => "File name too long (os error 36)"
  | other text => text

/-- Why a text cannot be read from a file. -/
inductive ReadError where
  | os (error : OsError)
  /-- The content is not UTF-8. -/
  | notText
  deriving DecidableEq, Repr

/-- The text shown for a read error. -/
def ReadError.message : ReadError → String
  | os error => error.message
  | notText => "stream did not contain valid UTF-8"

/-! ## §2. Nodes -/

/-- A place, by the names that lead to it from the root. -/
abbrev Location := List String

/-- What is at a place. -/
inductive Node where
  | directory
  | file (content : ByteArray)
  deriving BEq

/-- Directories and files by their places, and the directory that relative
    paths start from. -/
structure FileSystem where
  /-- Every place where something is, the root apart; the first entry of a
      place counts. -/
  nodes : List (Location × Node)
  /-- Where relative paths start. -/
  workingDirectory : Location

namespace FileSystem

/-- What is at a place.  The root is always a directory. -/
def node? (fs : FileSystem) (place : Location) : Option Node :=
  if place = [] then some .directory else fs.nodes.lookup place

/-- Puts a node at a place, instead of what is there. -/
def insert (fs : FileSystem) (place : Location) (node : Node) : FileSystem :=
  { fs with nodes := (place, node) :: fs.nodes }

/-- Takes away what is at a place. -/
def erase (fs : FileSystem) (place : Location) : FileSystem :=
  { fs with nodes := fs.nodes.filter fun entry => entry.1 != place }

theorem node?_insert_self (fs : FileSystem) {place : Location} (h : place ≠ [])
    (node : Node) : (fs.insert place node).node? place = some node := by
  simp [node?, insert, h]

theorem node?_insert_of_ne (fs : FileSystem) {place other : Location} (h : other ≠ place)
    (node : Node) : (fs.insert place node).node? other = fs.node? other := by
  have : (other == place) = false := by simpa using h
  simp [node?, insert, List.lookup_cons, this]

theorem lookup_filter_ne (entries : List (Location × Node)) {place other : Location}
    (h : other ≠ place) :
    (entries.filter fun entry => entry.1 != place).lookup other = entries.lookup other := by
  induction entries with
  | nil => rfl
  | cons entry rest ih =>
    obtain ⟨key, node⟩ := entry
    by_cases hk : key = place
    · subst hk
      have hne : (other == key) = false := by simpa using h
      simp [ih, List.lookup_cons, hne]
    · simp [hk, List.lookup_cons, ih]

theorem lookup_filter_self (entries : List (Location × Node)) (place : Location) :
    (entries.filter fun entry => entry.1 != place).lookup place = none := by
  induction entries with
  | nil => rfl
  | cons entry rest ih =>
    obtain ⟨key, node⟩ := entry
    by_cases hk : key = place
    · simpa [hk] using ih
    · have hne : (place == key) = false := by simpa using fun h => hk h.symm
      simpa [hk, List.lookup_cons, hne] using ih

theorem node?_erase_self (fs : FileSystem) {place : Location} (h : place ≠ []) :
    (fs.erase place).node? place = none := by
  simp [node?, erase, h, lookup_filter_self]

theorem node?_erase_of_ne (fs : FileSystem) {place other : Location} (h : other ≠ place) :
    (fs.erase place).node? other = fs.node? other := by
  simp only [node?, erase, lookup_filter_ne fs.nodes h]

/-! ## §3. Resolving paths -/

/-- The longest name that a directory can hold, in bytes. -/
def maxNameSize : Nat :=
  255

/-- Follows one name from a place, which must be a directory.  An idle name
    stays there, two dots lead up, and any other name must be found. -/
def step (fs : FileSystem) (place : Location) (name : String) : Except OsError Location :=
  match fs.node? place with
  | none => .error .notFound
  | some (.file _) => .error .notDirectory
  | some .directory =>
    if Path.isIdle name.toList then .ok place
    else if name = ".." then .ok place.dropLast
    else if maxNameSize < name.utf8ByteSize then .error .nameTooLong
    else if (fs.node? (place ++ [name])).isSome then .ok (place ++ [name])
    else .error .notFound

/-- Follows names one after the other. -/
def walk (fs : FileSystem) (place : Location) : List String → Except OsError Location
  | [] => .ok place
  | name :: rest =>
    match fs.step place name with
    | .ok next => walk fs next rest
    | .error e => .error e

/-- Where a path starts. -/
def origin (fs : FileSystem) (path : String) : Location :=
  if path.toList.head? = some '/' then [] else fs.workingDirectory

/-- The names of a path. -/
def names (path : String) : List String :=
  (Path.parts path.toList).map String.ofList

/-- The longest path that can be followed, in bytes. -/
def maxPathSize : Nat :=
  4095

/-- The place that a path leads to, if something is there.  The length of the
    path is looked at before anything else. -/
def resolve (fs : FileSystem) (path : String) : Except OsError Location :=
  if maxPathSize < path.utf8ByteSize then .error .nameTooLong
  else fs.walk (fs.origin path) (names path)

/-- The directory that a path leads to. -/
def resolveDirectory (fs : FileSystem) (path : String) : Except OsError Location :=
  match fs.resolve path with
  | .error e => .error e
  | .ok place =>
    match fs.node? place with
    | some .directory => .ok place
    | some (.file _) => .error .notDirectory
    | none => .error .notFound

/-- The place that a file would get if it were moved to a path, whether or not
    something is there.  The last name must be a proper one; `slash` tells
    that a slash follows it, which only a directory could bear. -/
def target (fs : FileSystem) (start : Location) (names : List String) (slash : Bool) :
    Except OsError Location :=
  match names.getLast? with
  | none => .error .busy
  | some name =>
    match fs.walk start names.dropLast with
    | .error e => .error e
    | .ok place =>
      match fs.node? place with
      | none => .error .notFound
      | some (.file _) => .error .notDirectory
      | some .directory =>
        -- The kind of name is looked at before its length, and that before the
        -- slash.
        if name = "." ∨ name = ".." then .error .busy
        else if maxNameSize < name.utf8ByteSize then .error .nameTooLong
        else if slash then .error .notDirectory
        else .ok (place ++ [name])

/-- The place that a file would get if it were moved to a path. -/
def resolveTarget (fs : FileSystem) (path : String) : Except OsError Location :=
  if maxPathSize < path.utf8ByteSize then .error .nameTooLong
  else
    let reversed := (names path).reverse
    fs.target (fs.origin path) (reversed.dropWhile (· == "")).reverse
      ((reversed.head?).getD "" == "")

/-! ## §4. What a program can do -/

/-- Reads the file that a path leads to as a text. -/
def readText (fs : FileSystem) (path : String) : Except ReadError String :=
  match fs.resolve path with
  | .error e => .error (.os e)
  | .ok place =>
    match fs.node? place with
    | none => .error (.os .notFound)
    | some .directory => .error (.os .isDirectory)
    | some (.file content) =>
      match String.fromUTF8? content with
      | some text => .ok text
      | none => .error .notText

/-- The letters of all names that lead to a place. -/
def nameLetters (place : Location) : List Char :=
  place.flatMap String.toList

/-- A name that nothing has: it is longer than all names together. -/
def freshName (fs : FileSystem) : String :=
  ".tmp" ++ String.ofList
    (List.replicate (fs.nodes.flatMap fun entry => nameLetters entry.1).length 'X')

theorem length_nameLetters_le {entries : List (Location × Node)} {entry : Location × Node}
    (h : entry ∈ entries) :
    (nameLetters entry.1).length ≤ (entries.flatMap fun entry => nameLetters entry.1).length := by
  induction entries with
  | nil => cases h
  | cons first rest ih =>
    simp only [List.flatMap_cons, List.length_append]
    rcases List.mem_cons.1 h with rfl | h
    · omega
    · have := ih h
      omega

/-- Nothing is at a fresh name, in whatever directory. -/
theorem node?_freshName (fs : FileSystem) (place : Location) :
    fs.node? (place ++ [fs.freshName]) = none := by
  simp only [node?, List.append_eq_nil_iff, List.cons_ne_self, and_false, if_false,
    List.lookup_eq_none_iff]
  intro entry hmem
  have hle := length_nameLetters_le hmem
  simp only [ne_eq, bne_iff_ne]
  intro heq
  rw [← heq] at hle
  have hmark : ".tmp".length = 4 := by decide
  simp only [nameLetters, freshName, List.flatMap_append, List.flatMap_cons, List.flatMap_nil,
    List.append_nil, List.length_append, String.length_toList, String.length_append,
    String.length_ofList, List.length_replicate, hmark] at hle
  omega

/-- How long the path of a temporary file in a directory is, in bytes.  It
    starts at the root; the name, of ten characters, stands after a slash. -/
def tempPathSize (fs : FileSystem) (directory : String) : Nat :=
  let above := String.join ((fs.origin directory).map ("/" ++ ·))
  above.utf8ByteSize + (if directory.toList.head? = some '/' then 0 else 1) +
    directory.utf8ByteSize + 11

/-- Makes an empty file of a fresh name in the directory that a path leads
    to, and returns its place. -/
def createTemp (fs : FileSystem) (directory : String) :
    Except OsError (Location × FileSystem) :=
  if maxPathSize < fs.tempPathSize directory then .error .nameTooLong
  else
    match fs.resolveDirectory directory with
    | .error e => .error e
    | .ok place =>
      let temp := place ++ [fs.freshName]
      .ok (temp, fs.insert temp (.file .empty))

/-- Moves the file at a place to a path, over a file that may be there, but
    not over a directory. -/
def rename (fs : FileSystem) (source : Location) (path : String) :
    Except OsError FileSystem :=
  match fs.resolveTarget path with
  | .error e => .error e
  | .ok place =>
    match fs.node? place, fs.node? source with
    | some .directory, _ => .error .isDirectory
    | _, none => .error .notFound
    | _, some node => .ok ((fs.erase source).insert place node)

/-! ## §5. Comparing -/

/-- Puts directories at a place and at all places above it, where nothing is
    yet. -/
def addDirectory (fs : FileSystem) (place : Location) : FileSystem :=
  (List.range (place.length + 1)).foldl (fun fs depth =>
    let upper := place.take depth
    if (fs.node? upper).isSome then fs else fs.insert upper .directory) fs

/-- Puts a file at a place, and directories above it. -/
def addFile (fs : FileSystem) (place : Location) (content : ByteArray) : FileSystem :=
  (fs.addDirectory place.dropLast).insert place (.file content)

/-- The places where two file systems differ. -/
def changes (before after : FileSystem) : List Location :=
  ((before.nodes ++ after.nodes).map Prod.fst).eraseDups.filter fun place =>
    before.node? place != after.node? place

end FileSystem

end IsaTable.CommandLine
