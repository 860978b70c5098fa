/-!
# Regular expressions

A regular expression as far as it decides whether the empty text matches: which characters a
class holds plays no part in that.
-/

namespace QueryScope

/-- A condition on a place between two characters. -/
inductive Pattern.Assertion where
  | lineStart
  | lineEnd
  | textStart
  | textEnd
  | wordBoundary
  | notWordBoundary
  | wordStart
  | wordEnd
  | wordStartHalf
  | wordEndHalf
deriving DecidableEq

/-- A regular expression. -/
inductive Pattern where
  /-- the empty text -/
  | empty
  /-- one character of some class -/
  | character
  | assertion (condition : Pattern.Assertion)
  | sequence (first second : Pattern)
  | choice (first second : Pattern)
  /-- the body at least `least` times -/
  | repeated (least : Nat) (body : Pattern)

namespace Pattern

/-- The condition holds at the only place of the empty text. -/
def Assertion.holdsOnEmpty : Assertion → Bool
  | lineStart | lineEnd | textStart | textEnd | notWordBoundary | wordStartHalf | wordEndHalf => true
  | wordBoundary | wordStart | wordEnd => false

/-- The pattern matches the empty text. -/
def matchesEmpty : Pattern → Bool
  | empty => true
  | character => false
  | assertion condition => condition.holdsOnEmpty
  | sequence first second => first.matchesEmpty && second.matchesEmpty
  | choice first second => first.matchesEmpty || second.matchesEmpty
  | repeated least body => least == 0 || body.matchesEmpty

end Pattern

end QueryScope
