import QueryScope.Matcher.Basic
import QueryScope.Scan.Lexeme
import QueryScope.Scan.Literal

/-!
# Reading label matchers
-/

namespace QueryScope.Matcher

open Scan

/-- The comparisons by their written forms; one that starts another stands behind it. -/
def comparisons : List (String × Comparison) :=
  [("=~", .matching), ("!~", .notMatching), ("!=", .notEqual), ("=", .equal)]

/-- A comparison. -/
def scanComparison : Scanner Comparison :=
  literalOf comparisons

/-- A matcher. The value of a regular expression comparison must be a regular expression. -/
def scan : Scanner Matcher := do
  let name ← labelName
  blanks
  let op ← expecting "matcher operator (=, !=, =~, !~)" (commit scanComparison)
  blanks
  let before ← get
  let value ← expecting "quoted label value" (commit stringLiteral)
  if op.isPattern && !Pattern.isValid value then
    set before
    refuse "invalid regular expression in label matcher"
  return ⟨name, op, value⟩

/-- Matchers in braces. -/
def block : Scanner (List Matcher) := do
  literal "\x7b"
  listUntil (expecting "label matcher" (commit scan)) "\x7d" "',' or '\x7d'"

end QueryScope.Matcher
