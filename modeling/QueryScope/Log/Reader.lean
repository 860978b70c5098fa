import QueryScope.Log.Pipeline
import QueryScope.Operator.Reader

/-!
# Reading log queries

The readers of the parts of a metric query take the reader of operands as an argument; `operand` ties
them together for a given depth of nesting.
-/

namespace QueryScope.Log

open Scan

/-- The conversions by their written forms. -/
def conversions : List (String × Conversion) :=
  [("duration", .duration), ("duration_seconds", .durationSeconds), ("bytes", .bytes)]

/-- The name of a label to unwrap. -/
def unwrapLabel : Scanner String :=
  expecting "label to unwrap" (commit labelName)

/-- A label to unwrap, within a conversion if parentheses follow the first name. -/
def unwrapTarget : Scanner (Option Conversion × String) := do
  let first ← unwrapLabel
  match ← optBehindBlanks (literal "(") with
  | none => return (none, first)
  | some () =>
    match conversions.lookup first with
    | none => refuse "unknown unwrap conversion"
    | some conversion =>
      blanks
      let label ← unwrapLabel
      blanks
      expecting "')'" (commit (literal ")"))
      return (some conversion, label)

/-- The filters behind an unwrapped label. The bound is more than their number. -/
def unwrapFilters : (bound : Nat) → Scanner (List LabelFilter)
  | 0 => return []
  | bound + 1 => do
    match ← optBehindBlanks (literal "|") with
    | none => return []
    | some () =>
      blanks
      let first ← expecting "label filter after unwrap" (commit labelFilter)
      return first :: (← unwrapFilters bound)

/-- An unwrapped label with its bar. -/
def unwrap : Scanner Unwrap := do
  literal "|"
  blanks
  keyword "unwrap"
  blanks
  let (conversion, label) ← unwrapTarget
  return ⟨conversion, label, ← unwrapFilters ((← get).length + 1)⟩

/-- A shift of a range in time, if one follows. -/
def rangeOffset : Scanner (Option Duration) := do
  match ← optBehindBlanks (keyword "offset") with
  | none => return none
  | some () =>
    blanks
    return some (← expecting "offset duration" (commit Duration.scan))

/-- An unwrapped label, if none was found before. -/
def laterUnwrap (earlier : Option Unwrap) : Scanner (Option Unwrap) :=
  if earlier.isSome then pure earlier else optBehindBlanks unwrap

/-- A range of log lines. Stages and the unwrapped label may also stand behind the brackets. -/
def logRange : Scanner LogRange := do
  let source ← expecting "log stream selector" (commit stream)
  let inner ← optBehindBlanks unwrap
  blanks
  expecting "range, e.g. [5m]" (commit (literal "["))
  blanks
  let range ← expecting "duration" (commit Duration.scan)
  blanks
  expecting "']'" (commit (literal "]"))
  let more ← pipeline
  let label ← laterUnwrap inner
  let offset ← rangeOffset
  return ⟨{ source with stages := source.stages ++ more }, range, label, offset⟩

/-- An opening parenthesis with blanks around it. -/
def openParen : Scanner Unit := do
  blanks
  expecting "'('" (commit (literal "("))
  blanks

/-- A closing parenthesis behind blanks. -/
def closeParen : Scanner Unit := do
  blanks
  expecting "')'" (commit (literal ")"))

/-- A comma with blanks around it. -/
def comma : Scanner Unit := do
  blanks
  expecting "','" (commit (literal ","))
  blanks

/-- A whole metric query inside another one. -/
def sampleExpr (inner : Scanner Sample) : Scanner Sample :=
  Operator.chain inner Sample.binary 1

/-- A metric query that must stand here. -/
def requiredSample (inner : Scanner Sample) : Scanner Sample :=
  expecting "expression" (commit (sampleExpr inner))

/-- A constant vector behind its name. -/
def vectorLiteral : Scanner Sample := do
  openParen
  let value ← expecting "number" (commit number)
  closeParen
  return .vector value

/-- A quoted string behind a comma. -/
def stringBehindComma : Scanner String := do
  comma
  requiredString "quoted string"

/-- A replacement of labels behind its name. -/
def labelReplace (inner : Scanner Sample) : Scanner Sample := do
  openParen
  let body ← requiredSample inner
  let target ← stringBehindComma
  let replacement ← stringBehindComma
  let source ← stringBehindComma
  let expression ← stringBehindComma
  closeParen
  return .labelReplace body target replacement source expression

/-- The parameter of an operation that has one, with the comma behind it. -/
def rangeParameter (op : RangeOperation) : Scanner (Option Number.Binary64) :=
  if op.takesParameter then do
    let parameter ← expecting "quantile parameter" (commit number)
    comma
    return some parameter
  else return none

/-- An operation over a range behind its name. -/
def rangeAggregation (op : RangeOperation) : Scanner Sample := do
  openParen
  let parameter ← rangeParameter op
  let logs ← logRange
  closeParen
  let grouping ← optBehindBlanks Operator.grouping
  if logs.unwrap.isNone && op.requiresUnwrap then refuse "invalid aggregation without unwrap"
  if logs.unwrap.isSome && op.forbidsUnwrap then refuse "invalid aggregation with unwrap"
  return .range op parameter logs grouping

/-- The largest parameter of an aggregation; larger ones count as this one. -/
def maxParameter : Nat :=
  Nat.pow 2 63 - 1

/-- The number as a parameter of an aggregation: whole and not negative. -/
def wholeParameter? : Number.Binary64 → Option Nat
  | .finite negative rank =>
    let units := Number.unitsOfRank rank
    if units % Number.unitsPerOne ≠ 0 ∨ (negative ∧ units ≠ 0) then none
    else some (min (units / Number.unitsPerOne) maxParameter)
  | _ => none

/-- A whole number with the comma behind it. -/
def wholeParameter : Scanner Nat := do
  let before ← get
  let value ← expecting "integer parameter" (commit number)
  match wholeParameter? value with
  | none =>
    set before
    refuse "aggregation parameter must be a non-negative integer"
  | some parameter =>
    comma
    return parameter

/-- The parameter of an aggregation that has one. -/
def aggregationParameter (op : Aggregation) : Scanner (Option Nat) :=
  if op.takesParameter then some <$> wholeParameter else return none

/-- An aggregation behind its name; the grouping clause stands before or behind the argument. -/
def vectorAggregation (inner : Scanner Sample) (op : Aggregation) : Scanner Sample := do
  let leading ← optBehindBlanks Operator.grouping
  openParen
  let parameter ← aggregationParameter op
  let body ← requiredSample inner
  closeParen
  let trailing ← optBehindBlanks Operator.grouping
  if leading.isSome && trailing.isSome then
    refuse "aggregation may only have one grouping clause"
  let grouping := leading.or trailing
  if grouping.isSome && op.isSort then refuse "grouping not allowed for sort and sort_desc"
  return .aggregate op parameter body grouping

/-- An operand that starts with a name. -/
def namedOperand (inner : Scanner Sample) : Scanner Sample := do
  let before ← get
  let name ← labelName
  if name = "vector" then vectorLiteral
  else if name = "label_replace" then labelReplace inner
  else
    match RangeOperation.ofSymbol? name, Aggregation.ofSymbol? name with
    | some op, _ => rangeAggregation op
    | none, some op => vectorAggregation inner op
    | none, none =>
      set before
      miss

/-- An operand, given the reader of the operands inside it. -/
def scanOperand (inner : Scanner Sample) : Scanner Sample := do
  blanks
  if ← optLiteral "-" then
    blanks
    let value ← expecting "number" (commit number)
    return .literal value.neg
  else if ← optLiteral "(" then
    blanks
    let body ← requiredSample inner
    closeParen
    return body
  else
    match ← opt number with
    | some value => return .literal value
    | none => namedOperand inner

/-- An operand with expressions nested less than `depth` deep. -/
def operand : (depth : Nat) → Scanner Sample
  | 0 => miss
  | depth + 1 => scanOperand (operand depth)

/-- The end of the text behind blanks. -/
def endOfText : Scanner Unit := do
  blanks
  if !(← get).isEmpty then miss

/-- A log query that is the whole text, or else a metric query. -/
def query : Scanner Query := fun input =>
  (do
    let whole ← opt do
      let s ← stream
      endOfText
      return s
    match whole with
    | some s => return .log s
    | none => return .sample (← sampleExpr (operand (input.length + 1))) : Scanner Query) input

/-- A query with blanks around it. -/
def scanQuery : Scanner Query := do
  blanks
  let q ← query
  blanks
  return q

/-- The query that a text writes. -/
def parse (text : String) : Except SyntaxError Query :=
  if Text.isAllBlank text then .error ⟨⟨1, 1⟩, "unexpected end of input, expected query"⟩
  else readAll scanQuery text.toList

end QueryScope.Log
