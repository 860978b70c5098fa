import QueryScope.Dialect
import QueryScope.NameMap

/-!
# Injection of matchers

Every selector of a query gets an equality matcher for each label of a set that it does not
constrain already.
-/

namespace QueryScope

/-- Values of labels. -/
abbrev LabelSet := NameMap String

namespace LabelSet

/-- The matchers for the labels that none of the given matchers constrains, by name. -/
def missingFrom (set : LabelSet) (matchers : List Matcher) : List Matcher :=
  (set.entries.filter fun entry => !matchers.any (·.name = entry.1)).map fun entry =>
    ⟨entry.1, .equal, entry.2⟩

/-- The matchers with those for the missing labels behind them. -/
def extend (set : LabelSet) (matchers : List Matcher) : List Matcher :=
  matchers ++ set.missingFrom matchers

end LabelSet

/-- The query with the labels of a set in each selector. -/
def Query.inject (set : LabelSet) (query : Query) : Query :=
  query.mapMatchers set.extend

/-- How many matchers an injection adds. -/
def Query.countMissing (set : LabelSet) (query : Query) : Nat :=
  (query.matcherLists.flatMap set.missingFrom).length

end QueryScope
