import QueryScope.Pattern.Reader
import QueryScope.Text.Quoted

/-!
# Label matchers

A matcher is a condition on the value of one label.
-/

namespace QueryScope

/-- How a matcher compares. -/
inductive Matcher.Comparison where
  | equal
  | notEqual
  | matching
  | notMatching
deriving DecidableEq

/-- A condition `name op "value"` of a selector. -/
structure Matcher where
  name : String
  comparison : Matcher.Comparison
  value : String
deriving DecidableEq

namespace Matcher

/-- The written form of a comparison. -/
def Comparison.symbol : Comparison → String
  | equal => "="
  | notEqual => "!="
  | matching => "=~"
  | notMatching => "!~"

/-- The comparison is with a regular expression. -/
def Comparison.isPattern : Comparison → Bool
  | matching | notMatching => true
  | equal | notEqual => false

/-- A series without the label satisfies the matcher. A value that is no regular expression matches
nothing. -/
def matchesEmpty (m : Matcher) : Bool :=
  match m.comparison with
  | .equal => m.value.isEmpty
  | .notEqual => !m.value.isEmpty
  | .matching => Pattern.acceptsEmpty m.value
  | .notMatching => !Pattern.acceptsEmpty m.value

/-- The written form of a matcher. -/
def chars (m : Matcher) : List Char :=
  m.name.toList ++ m.comparison.symbol.toList ++ Text.quoteChars m.value.toList

/-- The written form of a matcher, as a string. -/
def text (m : Matcher) : String :=
  String.ofList m.chars

end Matcher

end QueryScope
