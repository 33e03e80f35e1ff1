/-! # File paths as texts

    A path is names joined by slashes.  Seen as a text it has a last name,
    which may have an extension, and a directory, the text in front of that
    name.  Empty names and single dots name nothing new and are passed over
    at the end of a path, but a dot or a slash at its very start is kept.

    Main definitions:
    - `Path.parts`, the names of a path, empty ones included;
    - `Path.extension?`, what follows the last dot of the last name;
    - `Path.directory`, the path of the directory that holds the path's file.
-/

namespace IsaTable.CommandLine.Path

/-- The names between the slashes of a path; neighbouring slashes have an
    empty name between them. -/
def parts (path : List Char) : List (List Char) :=
  path.splitOn '/'

/-- Whether a name stays where it is. -/
def isIdle (name : List Char) : Bool :=
  name.isEmpty || name == ['.']

/-- How many characters at the start of a path say where it begins: one for a
    slash, and one for a dot that is a name by itself. -/
def leadLength : List Char → Nat
  | '/' :: _ => 1
  | ['.'] => 1
  | '.' :: '/' :: _ => 1
  | _ => 0

/-- The names without idle ones at the end. -/
def dropIdleEnd (names : List (List Char)) : List (List Char) :=
  (names.reverse.dropWhile isIdle).reverse

/-- The names of a path behind its lead, without idle ones at the end. -/
def body (path : List Char) : List (List Char) :=
  dropIdleEnd (parts (path.drop (leadLength path)))

/-- The last name of a path, if it has one besides its lead. -/
def lastName? (path : List Char) : Option (List Char) :=
  (body path).getLast?

/-- What follows the last dot of a name.  A dot that begins the name does not
    count, and the name of the upper directory has none. -/
def nameExtension? (name : List Char) : Option (List Char) :=
  if name = ['.', '.'] then none
  else
    let reversed := name.reverse
    match reversed.dropWhile (· != '.') with
    | [] | [_] => none
    | _ :: _ :: _ => some (reversed.takeWhile (· != '.')).reverse

/-- The extension of a path is that of its last name. -/
def extension? (path : List Char) : Option (List Char) :=
  (lastName? path).bind nameExtension?

/-- The path of the directory that holds the path's file: what stands in
    front of the last name, or a dot if nothing does. -/
def directory (path : List Char) : List Char :=
  match (body path).reverse with
  | [] => ['.']
  | _ :: before =>
    let text := path.take (leadLength path) ++
      ['/'].intercalate (dropIdleEnd before.reverse)
    if text.isEmpty then ['.'] else text

example : extension? "a.b/x.tar.json".toList = some "json".toList := by decide

example : extension? "a/.json".toList = none ∧ extension? "x.".toList = some [] := by decide

example : directory "./a//b/./c".toList = "./a//b".toList ∧ directory "x".toList = ['.'] := by
  decide

end IsaTable.CommandLine.Path
