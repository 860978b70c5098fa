import QueryScope.Scan.Basic
import QueryScope.Text.Position

/-!
# Syntax errors

A failure of a scanner on a whole text becomes an error with a position and one sentence.
-/

namespace QueryScope.Scan

/-- What is wrong with a text, and where. -/
structure SyntaxError where
  position : Text.Position
  complaint : String
deriving DecidableEq

/-- The error in one line. -/
def SyntaxError.message (e : SyntaxError) : String :=
  s!"parse error at line {e.position.line}, col {e.position.column}: syntax error: " ++ e.complaint

/-- The text of a label. -/
def Note.label? : Note → Option String
  | label text => some text
  | expected _ => none

/-- What a remark expects. -/
def Note.expected? : Note → Option String
  | label _ => none
  | expected what => some what

/-- The first label if there is one; otherwise what was found and what was expected. -/
def Failure.complaint (failure : Failure) : String :=
  match failure.notes.findSome? Note.label? with
  | some text => text
  | none =>
    let found := "unexpected " ++ Text.describe failure.rest
    match failure.notes.filterMap Note.expected? with
    | [] => found
    | wanted => found ++ ", expected " ++ " or ".intercalate wanted

/-- The error of a failure in a source text. -/
def Failure.report (source : List Char) (failure : Failure) : SyntaxError where
  position := .behind (source.take (source.length - failure.rest.length))
  complaint := failure.complaint

/-- The value of a scanner that reads a whole text. -/
def readAll {α : Type} (scanner : Scanner α) (source : List Char) : Except SyntaxError α :=
  match scanner source with
  | .ok (value, []) => .ok value
  | .ok (_, rest) => .error (Failure.report source ⟨false, [], rest⟩)
  | .error failure => .error (failure.report source)

end QueryScope.Scan
