import QueryScope.Duration
import QueryScope.Log.Expr
import QueryScope.Matcher.Reader
import QueryScope.Scan.Numeral

/-!
# Reading label filters

Conditions on labels, joined by commas and the words `and` and `or`. A comma and `and` bind more
strongly than `or`.
-/

namespace QueryScope.Log

open Scan

/-- The relations by their written forms; one that starts another stands behind it. -/
def relations : List (String × Relation) :=
  [("==", .equal), ("!=", .notEqual), (">=", .greaterEqual), ("<=", .lessEqual), (">", .greater),
    ("<", .less), ("=", .equal)]

/-- The text starts with a quote of some kind. -/
def startsQuoted (text : List Char) : Bool :=
  text.head?.any fun c => c == '"' || c == '\'' || c == '\x60'

/-- A comparison with a quoted value behind the name of a label; nothing is read where the value is not
quoted. -/
def quotedComparison? (name : String) : Scanner (Option LabelFilter) := do
  let before ← get
  match ← opt Matcher.scanComparison with
  | none => return none
  | some op =>
    blanks
    let here ← get
    if startsQuoted here then
      let value ← stringLiteral
      if op.isPattern && !Pattern.isValid value then
        set here
        refuse "invalid regular expression in label filter"
      return some (.matcher ⟨name, op, value⟩)
    else if op.isPattern then refuse "regular expression label filter requires a quoted value"
    else
      set before
      return none

/-- A comparison with a number, a duration or, for equality, a quoted value. -/
def valueComparison (name : String) : Scanner LabelFilter := do
  let relation ← expecting "label filter operator" (commit (literalOf relations))
  blanks
  let here ← get
  if relation = .equal ∧ startsQuoted here then
    return .matcher ⟨name, .equal, ← stringLiteral⟩
  let value ← expecting "number, duration or quoted string" (commit number)
  if (← peek).any Char.isAlpha then
    set here
    return .duration name relation (← expecting "duration" (commit Duration.scan))
  return .number name relation value

/-- One condition on one label. -/
def simpleFilter : Scanner LabelFilter := do
  let name ← labelName
  blanks
  match ← quotedComparison? name with
  | some filter => return filter
  | none => valueComparison name

/-- A condition that must stand here. -/
def requiredFilter (filter : Scanner LabelFilter) : Scanner LabelFilter :=
  expecting "label filter" (commit filter)

/-- Conditions joined by commas and `and`, given the reader of single ones. -/
def conjunction (single : Scanner LabelFilter) : Scanner LabelFilter := do
  let first ← single
  joinedLeft (requiredFilter single) (orElse (literal ",") (keyword "and")) .and
    ((← get).length + 1) first

/-- Conjunctions joined by `or`, given the reader of single conditions. -/
def disjunction (single : Scanner LabelFilter) : Scanner LabelFilter := do
  let first ← conjunction single
  joinedLeft (requiredFilter (conjunction single)) (keyword "or") .or ((← get).length + 1) first

/-- A condition on one label, or one in parentheses, nested less than `depth` deep. -/
def singleFilter : (depth : Nat) → Scanner LabelFilter
  | 0 => miss
  | depth + 1 => do
    if ← optLiteral "(" then
      blanks
      let inner ← requiredFilter (disjunction (singleFilter depth))
      blanks
      expecting "')'" (commit (literal ")"))
      return inner
    else simpleFilter

/-- A condition on labels. -/
def labelFilter : Scanner LabelFilter :=
  fun input => disjunction (singleFilter (input.length + 1)) input

end QueryScope.Log
