import QueryScope.Duration
import QueryScope.Matcher.Basic
import QueryScope.Operator.Basic

/-!
# Log queries

Selectors of log streams with pipelines of stages, and metric queries over ranges of logs.
-/

namespace QueryScope.Log

/-- How a line filter compares. -/
inductive LineComparison where
  | contains
  | notContains
  | matching
  | notMatching
  | pattern
  | notPattern
deriving DecidableEq

/-- The written form of a line comparison. -/
def LineComparison.symbol : LineComparison → String
  | contains => "|="
  | notContains => "!="
  | matching => "|~"
  | notMatching => "!~"
  | pattern => "|>"
  | notPattern => "!>"

/-- The comparison is with a regular expression. -/
def LineComparison.isPattern : LineComparison → Bool
  | matching | notMatching => true
  | _ => false

/-- What a line is compared with. -/
inductive LineValue where
  | text (value : String)
  | address (range : String)
deriving DecidableEq

/-- A condition on a line. -/
structure LineFilter where
  comparison : LineComparison
  value : LineValue
  alternatives : List String
deriving DecidableEq

/-- A label taken from a line, by an expression if there is one. -/
structure Extraction where
  name : String
  expression : Option String
deriving DecidableEq

/-- How a label filter compares numbers and durations. -/
inductive Relation where
  | equal
  | notEqual
  | greater
  | greaterEqual
  | less
  | lessEqual
deriving DecidableEq

/-- The written form of a relation. -/
def Relation.symbol : Relation → String
  | equal => "=="
  | notEqual => "!="
  | greater => ">"
  | greaterEqual => ">="
  | less => "<"
  | lessEqual => "<="

/-- A condition on labels. -/
inductive LabelFilter where
  | matcher (matcher : Matcher)
  | number (name : String) (relation : Relation) (value : Number.Binary64)
  | duration (name : String) (relation : Relation) (value : Duration)
  | and (left right : LabelFilter)
  | or (left right : LabelFilter)
deriving DecidableEq

/-- A new value for a label. -/
inductive LabelFormat where
  | rename (target source : String)
  | template (target template : String)
deriving DecidableEq

/-- A label that is dropped or kept, whatever its value or if it matches. -/
inductive LabelReference where
  | name (name : String)
  | matcher (matcher : Matcher)
deriving DecidableEq

/-- A stage of a pipeline. -/
inductive Stage where
  | lineFilter (filter : LineFilter)
  | json (extractions : List Extraction)
  | logfmt (strict keepEmpty : Bool) (extractions : List Extraction)
  | regexp (expression : String)
  | pattern (expression : String)
  | unpack
  | decolorize
  | labelFilter (filter : LabelFilter)
  | lineFormat (template : String)
  | labelFormat (formats : List LabelFormat)
  | drop (labels : List LabelReference)
  | keep (labels : List LabelReference)
deriving DecidableEq

/-- A selector of streams with its pipeline. -/
structure Stream where
  matchers : List Matcher
  stages : List Stage
deriving DecidableEq

/-- How an unwrapped label is read as a number. -/
inductive Conversion where
  | duration
  | durationSeconds
  | bytes
deriving DecidableEq

/-- The written form of a conversion. -/
def Conversion.symbol : Conversion → String
  | duration => "duration"
  | durationSeconds => "duration_seconds"
  | bytes => "bytes"

/-- The label whose value is taken as a sample, and filters behind it. -/
structure Unwrap where
  conversion : Option Conversion
  label : String
  filters : List LabelFilter
deriving DecidableEq

/-- A range of log lines. -/
structure LogRange where
  stream : Stream
  range : Duration
  unwrap : Option Unwrap
  offset : Option Duration
deriving DecidableEq

/-- The operations over a range of log lines. -/
inductive RangeOperation where
  | countOverTime
  | rate
  | rateCounter
  | bytesOverTime
  | bytesRate
  | avgOverTime
  | sumOverTime
  | minOverTime
  | maxOverTime
  | stdvarOverTime
  | stddevOverTime
  | quantileOverTime
  | firstOverTime
  | lastOverTime
  | absentOverTime
deriving DecidableEq

namespace RangeOperation

/-- The written form of a range operation. -/
def symbol : RangeOperation → String
  | countOverTime => "count_over_time"
  | rate => "rate"
  | rateCounter => "rate_counter"
  | bytesOverTime => "bytes_over_time"
  | bytesRate => "bytes_rate"
  | avgOverTime => "avg_over_time"
  | sumOverTime => "sum_over_time"
  | minOverTime => "min_over_time"
  | maxOverTime => "max_over_time"
  | stdvarOverTime => "stdvar_over_time"
  | stddevOverTime => "stddev_over_time"
  | quantileOverTime => "quantile_over_time"
  | firstOverTime => "first_over_time"
  | lastOverTime => "last_over_time"
  | absentOverTime => "absent_over_time"

/-- All range operations. -/
def all : List RangeOperation :=
  [countOverTime, rate, rateCounter, bytesOverTime, bytesRate, avgOverTime, sumOverTime, minOverTime,
    maxOverTime, stdvarOverTime, stddevOverTime, quantileOverTime, firstOverTime, lastOverTime,
    absentOverTime]

/-- The operation makes sense only over an unwrapped label. -/
def requiresUnwrap : RangeOperation → Bool
  | rateCounter | avgOverTime | sumOverTime | minOverTime | maxOverTime | stdvarOverTime
  | stddevOverTime | quantileOverTime | firstOverTime | lastOverTime => true
  | countOverTime | rate | bytesOverTime | bytesRate | absentOverTime => false

/-- The operation counts lines or bytes and takes no unwrapped label. -/
def forbidsUnwrap : RangeOperation → Bool
  | countOverTime | bytesOverTime | bytesRate | absentOverTime => true
  | _ => false

/-- The operation has a parameter before the range. -/
def takesParameter (op : RangeOperation) : Bool :=
  op = quantileOverTime

/-- The operation with a written form. -/
def ofSymbol? (symbol : String) : Option RangeOperation :=
  all.find? (·.symbol = symbol)

end RangeOperation

/-- The operations that aggregate samples. -/
inductive Aggregation where
  | sum
  | avg
  | count
  | max
  | min
  | stddev
  | stdvar
  | bottomk
  | topk
  | sort
  | sortDesc
  | approxTopk
deriving DecidableEq

namespace Aggregation

/-- The written form of an aggregation. -/
def symbol : Aggregation → String
  | sum => "sum"
  | avg => "avg"
  | count => "count"
  | max => "max"
  | min => "min"
  | stddev => "stddev"
  | stdvar => "stdvar"
  | bottomk => "bottomk"
  | topk => "topk"
  | sort => "sort"
  | sortDesc => "sort_desc"
  | approxTopk => "approx_topk"

/-- All aggregations. -/
def all : List Aggregation :=
  [sum, avg, count, max, min, stddev, stdvar, bottomk, topk, sort, sortDesc, approxTopk]

/-- The aggregation has a parameter before its argument. -/
def takesParameter : Aggregation → Bool
  | bottomk | topk | approxTopk => true
  | _ => false

/-- The aggregation puts samples in order and has no groups. -/
def isSort : Aggregation → Bool
  | sort | sortDesc => true
  | _ => false

/-- The aggregation with a written form. -/
def ofSymbol? (symbol : String) : Option Aggregation :=
  all.find? (·.symbol = symbol)

end Aggregation

/-- A metric query over logs. -/
inductive Sample where
  | range (op : RangeOperation) (parameter : Option Number.Binary64) (range : LogRange)
    (grouping : Option Grouping)
  | aggregate (op : Aggregation) (parameter : Option Nat) (body : Sample) (grouping : Option Grouping)
  | binary (op : Operator) (modifiers : Modifiers) (left right : Sample)
  | literal (value : Number.Binary64)
  | vector (value : Number.Binary64)
  | labelReplace (body : Sample) (target replacement source expression : String)
deriving DecidableEq

/-- A log query or a metric query over logs. -/
inductive Query where
  | log (stream : Stream)
  | sample (sample : Sample)
deriving DecidableEq

/-- The matchers of each selector, from left to right. -/
def Sample.matcherLists : Sample → List (List Matcher)
  | range _ _ logs _ => [logs.stream.matchers]
  | aggregate _ _ body _ => body.matcherLists
  | binary _ _ left right => left.matcherLists ++ right.matcherLists
  | literal _ | vector _ => []
  | labelReplace body _ _ _ _ => body.matcherLists

/-- The matchers of each selector, from left to right. -/
def Query.matcherLists : Query → List (List Matcher)
  | log stream => [stream.matchers]
  | sample s => s.matcherLists

/-- The stream with its matchers changed. -/
def Stream.mapMatchers (f : List Matcher → List Matcher) (stream : Stream) : Stream :=
  { stream with matchers := f stream.matchers }

/-- The query with the matchers of each selector changed. -/
def Sample.mapMatchers (f : List Matcher → List Matcher) : Sample → Sample
  | range op parameter logs grouping =>
    range op parameter { logs with stream := logs.stream.mapMatchers f } grouping
  | aggregate op parameter body grouping => aggregate op parameter (body.mapMatchers f) grouping
  | binary op modifiers left right => binary op modifiers (left.mapMatchers f) (right.mapMatchers f)
  | literal value => literal value
  | vector value => vector value
  | labelReplace body target replacement source expression =>
    labelReplace (body.mapMatchers f) target replacement source expression

/-- The query with the matchers of each selector changed. -/
def Query.mapMatchers (f : List Matcher → List Matcher) : Query → Query
  | log stream => log (stream.mapMatchers f)
  | sample s => sample (s.mapMatchers f)

end QueryScope.Log
