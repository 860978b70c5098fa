import QueryScope.Text.Lead

/-!
# Scanners

A scanner reads a value from the start of a text. A failure says where the text stood, what was
wrong with it, and whether another alternative may still be tried.
-/

namespace QueryScope.Scan

/-- A remark on a failure. -/
inductive Note where
  /-- what is wrong, in full -/
  | label (text : String)
  /-- what should have stood here -/
  | expected (what : String)
deriving DecidableEq

/-- Why a scanner gave up. -/
structure Failure where
  /-- no other alternative is tried -/
  committed : Bool
  /-- remarks, the innermost first -/
  notes : List Note
  /-- the text that was not read -/
  rest : List Char
deriving DecidableEq

/-- A reader of the start of a text. -/
abbrev Scanner := StateT (List Char) (Except Failure)

/-- A failure that leaves room for other alternatives. -/
def miss {α : Type} : Scanner α :=
  fun input => .error ⟨false, [], input⟩

/-- A final failure without a remark. -/
def halt {α : Type} : Scanner α :=
  fun input => .error ⟨true, [], input⟩

/-- A final failure that says what is wrong. -/
def refuse {α : Type} (text : String) : Scanner α :=
  fun input => .error ⟨true, [.label text], input⟩

/-- A final failure that says what should have stood here. -/
def demand {α : Type} (what : String) : Scanner α :=
  fun input => .error ⟨true, [.expected what], input⟩

/-- The scanner with its failures made final. -/
def commit {α : Type} (scanner : Scanner α) : Scanner α := fun input =>
  match scanner input with
  | .ok result => .ok result
  | .error failure => .error { failure with committed := true }

/-- The scanner with a remark added to its failures. -/
def expecting {α : Type} (what : String) (scanner : Scanner α) : Scanner α := fun input =>
  match scanner input with
  | .ok result => .ok result
  | .error failure => .error { failure with notes := failure.notes ++ [.expected what] }

/-- The scanner's value, or nothing where it fails without being final. -/
def opt {α : Type} (scanner : Scanner α) : Scanner (Option α) := fun input =>
  match scanner input with
  | .ok (value, rest) => .ok (some value, rest)
  | .error failure => if failure.committed then .error failure else .ok (none, input)

/-- The first scanner's value, or the second's where the first fails without being final. -/
def orElse {α : Type} (first second : Scanner α) : Scanner α := fun input =>
  match first input with
  | .ok result => .ok result
  | .error failure => if failure.committed then .error failure else second input

/-- Exactly this text. -/
def literal (text : String) : Scanner Unit := fun input =>
  match Text.after? text.toList input with
  | some rest => .ok ((), rest)
  | none => .error ⟨false, [], input⟩

/-- This text if it comes next. -/
def optLiteral (text : String) : Scanner Bool := do
  return (← opt (literal text)).isSome

/-- The next character, which is not read. -/
def peek : Scanner (Option Char) :=
  fun input => .ok (input.head?, input)

/-- The characters up to the first one outside a class. -/
def takeWhile (inClass : Char → Bool) : Scanner (List Char) :=
  fun input => .ok (input.takeWhile inClass, input.dropWhile inClass)

end QueryScope.Scan
