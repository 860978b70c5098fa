/-!
# Paths

A path is a text whose parts are separated by slashes. Empty parts and single dots do not count,
except that a path may begin with a dot or a slash.
-/

namespace QueryScope.File

/-- A part of a path. -/
inductive Part where
  | root
  | here
  | parent
  | name (text : String)
deriving DecidableEq

/-- The texts between the slashes of a path. -/
def pieces (path : String) : List String :=
  (path.toList.splitOn '/').map String.ofList

/-- What a piece of a path counts as behind its start. -/
def part? : String → Option Part
  | "" => none
  | "." => none
  | ".." => some .parent
  | text => some (.name text)

/-- The parts of a path. -/
def parts (path : String) : List Part :=
  match pieces path with
  | [] => []
  | first :: rest =>
    let start : List Part :=
      if first = "." then [.here]
      else if first.isEmpty && !rest.isEmpty then [.root]
      else (part? first).toList
    start ++ rest.filterMap part?

/-- The place of a part in the order of paths. -/
def Part.rank : Part → Nat
  | root => 0
  | here => 1
  | parent => 2
  | name _ => 3

/-- The text of a part that is a name. -/
def Part.text : Part → String
  | name text => text
  | _ => ""

/-- The order of parts: a name comes last, and names are ordered by their characters. -/
def Part.before (a b : Part) : Bool :=
  a.rank < b.rank || (a.rank == b.rank && a.text < b.text)

/-- The order of lists of parts, by the first part in which they differ. -/
def partsBefore : List Part → List Part → Bool
  | _, [] => false
  | [], _ :: _ => true
  | a :: as, b :: bs => a.before b || (a = b && partsBefore as bs)

/-- Paths in order. Of paths with the same parts none is moved. -/
def sorted (paths : List String) : List String :=
  paths.mergeSort fun a b => !partsBefore (parts b) (parts a)

/-- The path is the directory that relative paths start from. -/
def isHere (path : String) : Bool :=
  parts path == [.here]

/-- The path of an entry of a directory. -/
def join (directory entry : String) : String :=
  if entry.startsWith "/" || directory.isEmpty then entry
  else if directory.endsWith "/" then directory ++ entry
  else directory ++ "/" ++ entry

/-- The parts before the last one. A path without parts has no such parts, nor has the root. -/
def parentParts? (path : String) : Option (List Part) :=
  match (parts path).getLast? with
  | none => none
  | some .root => none
  | some _ => some (parts path).dropLast

/-- The last part, if it is a name. -/
def fileName? (path : String) : Option String :=
  match (parts path).getLast? with
  | some (.name text) => some text
  | _ => none

/-- The path with the given parts. -/
def ofParts (parts : List Part) : String :=
  let piece : Part → String
    | .root => ""
    | .here => "."
    | .parent => ".."
    | .name text => text
  if parts = [.root] then "/" else "/".intercalate (parts.map piece)

end QueryScope.File
