import QueryScope.Duration
import QueryScope.Matcher.Reader
import QueryScope.Metric.Expr
import QueryScope.Operator.Reader
import QueryScope.Scan.Numeral

/-!
# Reading metric queries

The readers of the parts of a query take the reader of operands as an argument; `operand` ties them
together for a given depth of nesting.
-/

namespace QueryScope.Metric

open Scan

/-- A duration between brackets. -/
def bracketDuration : Scanner Duration :=
  expecting "duration" (commit Duration.scan)

/-- A selector without its time. -/
def scanSelector : Scanner Selector := do
  let name ← opt metricName
  let before ← get
  blanks
  let braced := (← peek) = some '\x7b'
  let matchers ← if braced then Matcher.block else do
    set before
    pure []
  if name.isNone && matchers.isEmpty && before.head? != some '\x7b' then miss
  if name.isSome && matchers.any fun m => m.name = Label.metricLabel then
    refuse "metric name must not be set twice"
  if name.isNone && matchers.all Matcher.matchesEmpty then
    refuse "vector selector must contain at least one non-empty matcher"
  return { name, matchers }

/-- The time of evaluation of an expression that has one. -/
def Expr.frame? : Expr → Option TimeFrame
  | .vector selector => some selector.frame
  | .matrix selector _ => some selector.frame
  | .subquery _ _ _ frame => some frame
  | _ => none

/-- The expression with another time of evaluation. -/
def Expr.withFrame (frame : TimeFrame) : Expr → Expr
  | .vector selector => .vector { selector with frame }
  | .matrix selector range => .matrix { selector with frame } range
  | .subquery body range step _ => .subquery body range step frame
  | e => e

/-- A range or a subquery behind an expression. -/
def rangeSuffix (base : Expr) : Scanner Expr := do
  literal "["
  blanks
  let range ← bracketDuration
  blanks
  if ← optLiteral ":" then
    blanks
    let step ← if (← peek) = some ']' then pure none else some <$> bracketDuration
    blanks
    expecting "']'" (commit (literal "]"))
    return .subquery base range step {}
  expecting "']' or ':'" (commit (literal "]"))
  match base with
  | .vector selector =>
    if selector.frame = {} then return .matrix selector range
    else refuse "ranges only allowed for vector selectors"
  | _ => refuse "ranges only allowed for vector selectors"

/-- A shift in time behind an expression. -/
def offsetSuffix (base : Expr) : Scanner Expr := do
  keyword "offset"
  blanks
  let negative ← optLiteral "-"
  let amount ← expecting "offset duration" (commit Duration.scan)
  match base.frame? with
  | none =>
    refuse "offset modifier must be preceded by an instant vector selector or range vector selector or a subquery"
  | some frame =>
    if frame.offset.isSome then refuse "offset may not be set multiple times"
    else return base.withFrame { frame with offset := some ⟨negative, amount⟩ }

/-- Parentheses with nothing between them. -/
def emptyParens : Scanner Unit := do
  blanks
  expecting "'()'" <| commit do
    literal "("
    blanks
    literal ")"

/-- An instant of evaluation. -/
def scanInstant : Scanner Instant := do
  if ← optKeyword "start" then
    emptyParens
    return .start
  else if ← optKeyword "end" then
    emptyParens
    return .finish
  else
    let negative ← optLiteral "-"
    let seconds ← expecting "timestamp, start() or end()" (commit number)
    return .timestamp (if negative then seconds.neg else seconds)

/-- An instant of evaluation behind an expression. -/
def instantSuffix (base : Expr) : Scanner Expr := do
  literal "@"
  blanks
  let instant ← scanInstant
  match base.frame? with
  | none =>
    refuse "@ modifier must be preceded by an instant vector selector or range vector selector or a subquery"
  | some frame =>
    if frame.instant.isSome then refuse "@ <timestamp> may not be set multiple times"
    else return base.withFrame { frame with instant := some instant }

/-- The ranges, shifts and instants behind an expression. The bound is more than their number. -/
def suffixes : (bound : Nat) → (base : Expr) → Scanner Expr
  | 0, base => return base
  | bound + 1, base => do
    let before ← get
    blanks
    let here ← get
    if here.head? = some '[' then suffixes bound (← rangeSuffix base)
    else if (afterKeyword? "offset" here).isSome then suffixes bound (← offsetSuffix base)
    else if here.head? = some '@' then suffixes bound (← instantSuffix base)
    else
      set before
      return base

/-- An expression of operands and operators at least as strong as `least`. -/
def chain (inner : Scanner Expr) (least : Nat) : Scanner Expr :=
  Operator.chain inner Expr.binary least

/-- A whole expression inside another one. -/
def scanExpr (inner : Scanner Expr) : Scanner Expr :=
  chain inner 1

/-- An expression in parentheses. -/
def scanParen (inner : Scanner Expr) : Scanner Expr := do
  literal "("
  blanks
  let body ← expecting "expression" (commit (scanExpr inner))
  blanks
  expecting "')'" (commit (literal ")"))
  return .paren body

/-- Arguments up to the closing parenthesis, of which there is at least one. The bound is more than
their number. -/
def moreArguments (inner : Scanner Expr) : (bound : Nat) → Scanner (List Expr)
  | 0 => miss
  | bound + 1 => do
    blanks
    let first ← expecting "argument" (commit (scanExpr inner))
    blanks
    if ← optLiteral "," then return first :: (← moreArguments inner bound)
    expecting "',' or ')'" (commit (literal ")"))
    return [first]

/-- Arguments in parentheses. -/
def scanArguments (inner : Scanner Expr) : Scanner (List Expr) := do
  literal "("
  blanks
  if ← optLiteral ")" then return []
  moreArguments inner ((← get).length + 1)

/-- An aggregation with its arguments. -/
def makeAggregate (op : Aggregation) (grouping : Option Grouping) :
    List Expr → Scanner Expr
  | [body] =>
    if op.takesParameter then refuse "wrong number of arguments for aggregate expression"
    else return .aggregate op none body grouping
  | [parameter, body] =>
    if op.takesParameter then return .aggregate op (some parameter) body grouping
    else refuse "wrong number of arguments for aggregate expression"
  | _ => refuse "wrong number of arguments for aggregate expression"

/-- An aggregation behind its name; the grouping clause stands before or behind the arguments. -/
def scanAggregate (inner : Scanner Expr) (op : Aggregation) : Scanner Expr := do
  let leading ← opt Operator.grouping
  blanks
  let arguments ← expecting "aggregation arguments" (commit (scanArguments inner))
  let trailing ← optBehindBlanks Operator.grouping
  if leading.isSome && trailing.isSome then
    refuse "aggregation may only have one grouping clause"
  makeAggregate op (leading.or trailing) arguments

/-- An aggregation or a call if a name and what follows make one; otherwise nothing is read. -/
def scanApplication? (inner : Scanner Expr) : Scanner (Option Expr) := do
  let before ← get
  match ← opt labelName with
  | none => return none
  | some name =>
    blanks
    let here ← get
    let opensCall := here.head? = some '('
    let opensGrouping := (afterKeyword? "by" here).isSome || (afterKeyword? "without" here).isSome
    match Aggregation.ofSymbol? name, opensCall || opensGrouping with
    | some op, true => some <$> scanAggregate inner op
    | _, _ =>
      if opensCall then
        if functionNames.contains name then
          return some (.call name (← scanArguments inner))
        else
          set before
          refuse "unknown function"
      else
        set before
        return none

/-- What starts with a name: a special number, an aggregation, a call or a selector. -/
def scanNamed (inner : Scanner Expr) : Scanner Expr := do
  match ← opt number with
  | some value => return .number value
  | none =>
    match ← scanApplication? inner with
    | some e => return e
    | none => return .vector (← scanSelector)

/-- An operand without sign and suffixes. -/
def scanPrimary (inner : Scanner Expr) : Scanner Expr := do
  match ← peek with
  | none => miss
  | some c =>
    if c = '(' then scanParen inner
    else if c = '\x7b' then return .vector (← scanSelector)
    else if c = '"' ∨ c = '\'' ∨ c = '\x60' then return .text (← stringLiteral)
    else if c.isDigit || c == '.' then return .number (← number)
    else if Label.isMetricNameStart c then scanNamed inner
    else miss

/-- The operand with a sign; the sign of a number is part of the number. -/
def signed (negative : Bool) : Expr → Expr
  | .number value => .number (if negative then value.neg else value)
  | e => .unary negative e

/-- An operand, given the reader of the operands inside it. A sign binds more loosely than a power and
more tightly than a product. -/
def scanOperand (inner : Scanner Expr) : Scanner Expr := do
  blanks
  match ← opt (literalOf [("-", true), ("+", false)]) with
  | some negative =>
    blanks
    let body ← expecting "expression after unary operator"
      (commit (chain inner Operator.pow.precedence))
    return signed negative body
  | none =>
    let base ← scanPrimary inner
    suffixes ((← get).length + 1) base

/-- An operand with expressions nested less than `depth` deep. -/
def operand : (depth : Nat) → Scanner Expr
  | 0 => miss
  | depth + 1 => scanOperand (operand depth)

/-- A query with blanks around it. No text has more nested expressions than characters. -/
def scanQuery : Scanner Expr := fun input =>
  (do
    blanks
    let e ← scanExpr (operand (input.length + 1))
    blanks
    return e : Scanner Expr) input

/-- The query that a text writes. -/
def parse (text : String) : Except SyntaxError Expr :=
  if Text.isAllBlank text then .error ⟨⟨1, 1⟩, "no expression found in input"⟩
  else readAll scanQuery text.toList

end QueryScope.Metric
