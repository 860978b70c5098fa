import QueryScope.File.Path
import QueryScope.File.Source
import QueryScope.Glob.Pattern

/-!
# Files that match a pattern

The parts of a pattern are matched against the names in directories, one after the other. Parts
without wildcards are looked up, so that they also find a dot or two dots.
-/

namespace QueryScope.Glob

variable {m : Type → Type} [Monad m]

/-- The parts of a pattern between slashes, without an empty part at the end. -/
def patternParts (pattern : String) : List String :=
  match (File.pieces pattern).reverse with
  | "" :: rest => rest.reverse
  | _ => File.pieces pattern

/-- The path of an entry, where paths of the directory that all start from are written without it. -/
def entryPath (directory entry : String) : String :=
  if File.isHere directory then entry else File.join directory entry

/-- The part is two stars. -/
def isRecursive (part : List Step) : Bool :=
  part.contains .anyDirectories

/-- The parts behind the two stars at their start. -/
def behindRecursive (parts : List (List Step)) : List (List Step) :=
  parts.dropWhile isRecursive

mutual

/-- The paths inside of a directory that match the parts. -/
def search (source : File.Source m) (onlyDirectories : Bool) :
    Nat → List (List Step) → String → m (List String)
  | 0, _, _ => return []
  | _, [], _ => return []
  | bound + 1, part :: rest, directory => do
    let arrive (path : String) : m (List String) := do
      if !rest.isEmpty then search source onlyDirectories bound rest path
      else if onlyDirectories && !(← source.isDirectory path) then return []
      else return [path]
    match literal? part with
    | some name =>
      let path := entryPath directory name
      let isFound ←
        if name = "." || name = ".." then source.isDirectory directory else source.isPresent path
      if isFound then arrive path else return []
    | none =>
      if ← source.isDirectory directory then
        let names := (← source.entries directory).mergeSort
        let dots :=
          if part.head? = some (.char '.') then ["..", "."].filter (isMatch part ·.toList) else []
        let fromDots ← dots.mapM fun dot => arrive (File.join directory dot)
        let fromNames ← names.mapM fun name =>
          visit source onlyDirectories bound (part :: rest) (entryPath directory name) name
        return (fromDots ++ fromNames).flatten
      else return []

/-- The paths at or inside of an entry with the given name that match the parts. -/
def visit (source : File.Source m) (onlyDirectories : Bool) :
    Nat → List (List Step) → String → String → m (List String)
  | 0, _, _, _ => return []
  | _, [], _, _ => return []
  | bound + 1, part :: rest, path, name => do
    let isDirectory ← source.isDirectory path
    let matchName (parts : List (List Step)) : m (List String) := do
      match parts with
      | [] => return []
      | part :: rest =>
        if !isMatch part name.toList then return []
        else if !rest.isEmpty then search source onlyDirectories bound rest path
        else if onlyDirectories && !isDirectory then return []
        else return [path]
    if isRecursive part then
      let behind := behindRecursive rest
      if isDirectory then
        let below ← search source onlyDirectories bound (part :: behind) path
        if behind.isEmpty then return path :: below
        else return (← matchName behind) ++ below
      else matchName behind
    else matchName (part :: rest)

end

/-- No path has more parts than this, nor a search more than thrice as many steps. -/
def pathLimit : Nat := 4096

/-- The paths that match a pattern, in order. -/
def expand (source : File.Source m) (pattern : String) :
    m (Except PatternError (List String)) := do
  match parse pattern, (patternParts pattern).mapM parse with
  | .error e, _ => return .error e
  | .ok _, .error e => return .error e
  | .ok _, .ok parts =>
    let isAbsolute := pattern.startsWith "/"
    let found ← search source (pattern.endsWith "/") (3 * pathLimit)
      (if isAbsolute then parts.drop 1 else parts) (if isAbsolute then "/" else ".")
    return .ok (File.sorted found)

end QueryScope.Glob
