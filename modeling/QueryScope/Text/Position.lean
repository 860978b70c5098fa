import QueryScope.Text.Blank
import QueryScope.Text.Escaped

/-!
# Positions in a text

Lines and columns count from one; columns count characters.
-/

namespace QueryScope.Text

/-- A place in a text. -/
structure Position where
  line : Nat
  column : Nat
deriving DecidableEq

/-- The place right behind a text. -/
def Position.behind (before : List Char) : Position where
  line := before.count '\n' + 1
  column := (before.reverse.takeWhile (· != '\n')).length + 1

/-- The first word of a text, at most sixteen characters of it. -/
def firstWord (text : List Char) : List Char :=
  ((trimStart text).takeWhile fun c => !isBlank c).take 16

/-- How a message names what stands at the start of the remaining text. -/
def describe (rest : List Char) : String :=
  match firstWord rest with
  | [] => "end of input"
  | word => escaped (String.ofList word)

end QueryScope.Text
