import QueryScope.Duration
import QueryScope.Matcher.Basic
import QueryScope.Operator.Basic

/-!
# Metric queries

The expressions of metric queries, the selectors in them, and changes to the matchers of all
selectors.
-/

namespace QueryScope.Metric

/-- The instant at which a selector or a subquery is evaluated. -/
inductive Instant where
  | timestamp (seconds : Number.Binary64)
  | start
  | finish
deriving DecidableEq

/-- A shift in time. -/
structure Offset where
  negative : Bool
  amount : Duration
deriving DecidableEq

/-- When a selector or a subquery is evaluated. -/
structure TimeFrame where
  instant : Option Instant := none
  offset : Option Offset := none
deriving DecidableEq

/-- A selector of series. -/
structure Selector where
  name : Option String
  matchers : List Matcher
  frame : TimeFrame := {}
deriving DecidableEq

/-- The operations that aggregate series. -/
inductive Aggregation where
  | sum
  | avg
  | count
  | min
  | max
  | group
  | stddev
  | stdvar
  | topk
  | bottomk
  | countValues
  | quantile
  | limitk
  | limitRatio
deriving DecidableEq

namespace Aggregation

/-- The written form of an aggregation. -/
def symbol : Aggregation → String
  | sum => "sum"
  | avg => "avg"
  | count => "count"
  | min => "min"
  | max => "max"
  | group => "group"
  | stddev => "stddev"
  | stdvar => "stdvar"
  | topk => "topk"
  | bottomk => "bottomk"
  | countValues => "count_values"
  | quantile => "quantile"
  | limitk => "limitk"
  | limitRatio => "limit_ratio"

/-- The aggregation has a parameter before the expression it aggregates. -/
def takesParameter : Aggregation → Bool
  | topk | bottomk | countValues | quantile | limitk | limitRatio => true
  | _ => false

/-- All aggregations. -/
def all : List Aggregation :=
  [sum, avg, count, min, max, group, stddev, stdvar, topk, bottomk, countValues, quantile, limitk,
    limitRatio]

/-- The aggregation with a written form. -/
def ofSymbol? (symbol : String) : Option Aggregation :=
  all.find? (·.symbol = symbol)

end Aggregation

/-- The names of the functions. -/
def functionNames : List String :=
  ["abs", "absent", "absent_over_time", "acos", "acosh", "asin", "asinh", "atan", "atanh",
    "avg_over_time", "ceil", "changes", "clamp", "clamp_max", "clamp_min", "cos", "cosh",
    "count_over_time", "day_of_month", "day_of_week", "day_of_year", "days_in_month", "deg", "delta",
    "deriv", "double_exponential_smoothing", "exp", "floor", "histogram_avg", "histogram_count",
    "histogram_fraction", "histogram_quantile", "histogram_stddev", "histogram_stdvar",
    "histogram_sum", "holt_winters", "hour", "idelta", "increase", "info", "irate", "label_join",
    "label_replace", "last_over_time", "ln", "log10", "log2", "mad_over_time", "max_over_time",
    "min_over_time", "minute", "month", "pi", "predict_linear", "present_over_time",
    "quantile_over_time", "rad", "rate", "resets", "round", "scalar", "sgn", "sin", "sinh", "sort",
    "sort_by_label", "sort_by_label_desc", "sort_desc", "sqrt", "stddev_over_time",
    "stdvar_over_time", "sum_over_time", "tan", "tanh", "time", "timestamp", "vector", "year"]

/-- A metric query. -/
inductive Expr where
  | number (value : Number.Binary64)
  | text (value : String)
  | vector (selector : Selector)
  | matrix (selector : Selector) (range : Duration)
  | subquery (body : Expr) (range : Duration) (step : Option Duration) (frame : TimeFrame)
  | call (function : String) (arguments : List Expr)
  | aggregate (op : Aggregation) (parameter : Option Expr) (body : Expr) (grouping : Option Grouping)
  | binary (op : Operator) (modifiers : Modifiers) (left right : Expr)
  | unary (negative : Bool) (body : Expr)
  | paren (body : Expr)

namespace Expr

mutual

/-- The matchers of each selector, from left to right. -/
def matcherLists : Expr → List (List Matcher)
  | number _ | text _ => []
  | vector selector => [selector.matchers]
  | matrix selector _ => [selector.matchers]
  | subquery body _ _ _ => body.matcherLists
  | call _ arguments => matcherListsOfAll arguments
  | aggregate _ parameter body _ => matcherListsOfOption parameter ++ body.matcherLists
  | binary _ _ left right => left.matcherLists ++ right.matcherLists
  | unary _ body => body.matcherLists
  | paren body => body.matcherLists

/-- The matchers of each selector of a list of queries. -/
def matcherListsOfAll : List Expr → List (List Matcher)
  | [] => []
  | e :: rest => e.matcherLists ++ matcherListsOfAll rest

/-- The matchers of each selector of a query that may be missing. -/
def matcherListsOfOption : Option Expr → List (List Matcher)
  | none => []
  | some e => e.matcherLists

end

mutual

/-- The query with the matchers of each selector changed. -/
def mapMatchers (f : List Matcher → List Matcher) : Expr → Expr
  | number value => number value
  | text value => text value
  | vector selector => vector { selector with matchers := f selector.matchers }
  | matrix selector range => matrix { selector with matchers := f selector.matchers } range
  | subquery body range step frame => subquery (body.mapMatchers f) range step frame
  | call function arguments => call function (mapMatchersOfAll f arguments)
  | aggregate op parameter body grouping =>
    aggregate op (mapMatchersOfOption f parameter) (body.mapMatchers f) grouping
  | binary op modifiers left right => binary op modifiers (left.mapMatchers f) (right.mapMatchers f)
  | unary negative body => unary negative (body.mapMatchers f)
  | paren body => paren (body.mapMatchers f)

/-- The queries of a list with the matchers of each selector changed. -/
def mapMatchersOfAll (f : List Matcher → List Matcher) : List Expr → List Expr
  | [] => []
  | e :: rest => e.mapMatchers f :: mapMatchersOfAll f rest

/-- A query that may be missing, with the matchers of each selector changed. -/
def mapMatchersOfOption (f : List Matcher → List Matcher) : Option Expr → Option Expr
  | none => none
  | some e => some (e.mapMatchers f)

end

end Expr

end QueryScope.Metric
