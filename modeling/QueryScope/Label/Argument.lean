import QueryScope.Injection

/-!
# Labels as arguments

An argument writes one label: its name and its value with one equals sign between them.
-/

namespace QueryScope

/-- An argument that writes no label. -/
inductive ArgumentFault where
  | malformed
deriving DecidableEq

/-- The fault in one line. -/
def ArgumentFault.message : ArgumentFault → String
  | malformed => "malformed label injector"

namespace LabelSet

/-- The name and the value that an argument writes. -/
def argument? (argument : String) : Option (String × String) :=
  match argument.toList.splitOn '=' with
  | [name, value] => some (String.ofList name, String.ofList value)
  | _ => none

/-- The labels that arguments write. Of two values for one label the later one counts. -/
def ofArguments (arguments : List String) : Except ArgumentFault LabelSet :=
  match arguments.mapM argument? with
  | some entries => .ok (.ofList entries)
  | none => .error .malformed

end LabelSet

end QueryScope
