import QueryScope.Glob.Search
import QueryScope.Text.Escaped

/-!
# Paths of rule files

An argument with wildcards stands for the paths that match it, of which there is at least one; any
other argument is a path.
-/

namespace QueryScope.Rule

/-- Why an argument stands for no paths. -/
inductive PathFault where
  | pattern (argument : String) (e : Glob.PatternError)
  | noMatch (argument : String)
deriving DecidableEq

/-- The fault in one line. -/
def PathFault.message : PathFault → String
  | pattern argument e => "invalid glob pattern " ++ Text.escaped argument ++ ": " ++ e.message
  | noMatch argument => "no rule files match " ++ Text.escaped argument

/-- The argument has wildcards. -/
def hasWildcard (argument : String) : Bool :=
  argument.any fun c => c == '*' || c == '?' || c == '['

variable {m : Type → Type} [Monad m]

/-- The paths that an argument stands for. -/
def argumentPaths (source : File.Source m) (argument : String) :
    m (Except PathFault (List String)) := do
  if hasWildcard argument then
    match ← Glob.expand source argument with
    | .error e => return .error (.pattern argument e)
    | .ok [] => return .error (.noMatch argument)
    | .ok paths => return .ok paths
  else return .ok [argument]

/-- The paths that arguments stand for, up to the first fault. -/
def paths (source : File.Source m) : List String → m (Except PathFault (List String))
  | [] => return .ok []
  | argument :: rest => do
    match ← argumentPaths source argument with
    | .error fault => return .error fault
    | .ok found =>
      match ← paths source rest with
      | .error fault => return .error fault
      | .ok more => return .ok (found ++ more)

end QueryScope.Rule
