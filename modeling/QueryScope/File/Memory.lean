import QueryScope.File.Path
import QueryScope.File.Source

/-!
# Files in memory

A collection of files with their paths below one directory, from which relative paths start. The
directories are those that the paths of the files go through.
-/

namespace QueryScope.File

/-- A file in memory: the names on the way to it, and its content. -/
structure Stored where
  path : List String
  content : ByteArray

/-- A collection of files. -/
abbrev Memory := List Stored

/-- What a path leads to. -/
inductive Target where
  | file (content : ByteArray)
  | directory (path : List String)

namespace Memory

/-- The collection of the given files. -/
def ofFiles (files : List (String × String)) : Memory :=
  files.map fun (path, text) => ⟨pieces path, text.toUTF8⟩

/-- The names of the files and directories directly inside of a directory, each once. -/
def inside (files : Memory) (directory : List String) : List String :=
  (files.filterMap fun file =>
    if directory.isPrefixOf file.path then (file.path.drop directory.length).head? else none).eraseDups

/-- What an entry of a directory is. -/
def entry? (files : Memory) (directory : List String) (name : String) : Option Target :=
  match files.find? (·.path == directory ++ [name]) with
  | some file => some (.file file.content)
  | none =>
    if (files.inside directory).contains name then some (.directory (directory ++ [name])) else none

/-- Goes from a target along the pieces of a path. -/
def walk (files : Memory) : Target → List String → Except Fault Target
  | target, [] => .ok target
  | .file _, _ :: _ => .error .notDirectory
  | .directory path, piece :: rest =>
    if piece = "" || piece = "." then files.walk (.directory path) rest
    else if piece = ".." then files.walk (.directory path.dropLast) rest
    else
      match files.entry? path piece with
      | some target => files.walk target rest
      | none => .error .missing

/-- What a path leads to. -/
def find (files : Memory) (path : String) : Except Fault Target :=
  if path.isEmpty || path.startsWith "/" then .error .missing
  else files.walk (.directory []) (pieces path)

/-- The files as a source. They stay as they are: a directory that could be made is not kept. -/
def source (files : Memory) : Source Id where
  read path :=
    match files.find path with
    | .ok (.file content) => .ok content
    | .ok (.directory _) => .error .isDirectory
    | .error fault => .error fault
  isPresent path := (files.find path).toBool
  isDirectory path :=
    match files.find path with
    | .ok (.directory _) => true
    | _ => false
  entries path :=
    match files.find path with
    | .ok (.directory path) => files.inside path
    | _ => []
  makeDirectory path :=
    match files.find path with
    | .ok (.file _) => .error .alreadyPresent
    | .error .notDirectory => .error .notDirectory
    | _ => .ok ()

end Memory

end QueryScope.File
