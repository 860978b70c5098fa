import QueryScope.Text.Lead
import QueryScope.Yaml.Chars

/-!
# Places in a document

A cursor is the text that is still to be read and its place: how many characters stand before it,
and its line and column, all counted from zero.
-/

namespace QueryScope.Yaml

/-- A place in a document. -/
structure Cursor where
  rest : List Char
  index : Nat := 0
  line : Nat := 0
  column : Nat := 0

namespace Cursor

/-- The next character. -/
def head? (c : Cursor) : Option Char :=
  c.rest.head?

/-- The next character is the given one. -/
def sees (c : Cursor) (x : Char) : Bool :=
  c.head? == some x

/-- Passes over characters of the same line. -/
def skip (n : Nat) (c : Cursor) : Cursor :=
  { c with rest := c.rest.drop n, index := c.index + n, column := c.column + n }

/-- Passes over the characters of a class. -/
def skipWhile (inClass : Char → Bool) (c : Cursor) : Cursor :=
  c.skip (c.rest.takeWhile inClass).length

/-- Passes over the end of the line. -/
def skipBreak (c : Cursor) : Cursor :=
  let width := match c.rest with
    | '\r' :: '\n' :: _ => 2
    | _ => 1
  ⟨c.rest.drop width, c.index + width, c.line + 1, 0⟩

/-- Passes over blanks and a comment up to the end of the line, and over that. Nothing else may
stand there. -/
def skipLine? (c : Cursor) : Option Cursor :=
  let behind := c.skipWhile isGap
  let bare := if behind.sees '#' then behind.skipWhile (!isBreak ·) else behind
  match bare.rest with
  | [] => some bare
  | x :: _ => if isBreak x then some bare.skipBreak else none

/-- A line begins here with three marks that stand alone. -/
def atMarks (marks : String) (c : Cursor) : Bool :=
  c.column == 0 && (Text.after? marks.toList c.rest).any endsWord

/-- A line begins here that starts or ends a document. -/
def atDocumentMark (c : Cursor) : Bool :=
  c.atMarks "---" || c.atMarks "..."

end Cursor

end QueryScope.Yaml
