import QueryScope.Text.Letter

/-!
# Names of labels and metrics

A label name starts with a letter or an underscore and goes on with letters, digits and
underscores. A metric name may also hold colons.
-/

namespace QueryScope.Label

/-- A character that a label name may start with. -/
def isNameStart (c : Char) : Bool :=
  c.isAlpha || c == '_'

/-- A character that a metric name may start with. -/
def isMetricNameStart (c : Char) : Bool :=
  isNameStart c || c == ':'

/-- A character that a metric name may go on with. -/
def isMetricNameChar (c : Char) : Bool :=
  Text.isWordChar c || c == ':'

/-- A valid label name. -/
def isLabelName (name : String) : Bool :=
  match name.toList with
  | [] => false
  | c :: rest => isNameStart c && rest.all Text.isWordChar

/-- A valid metric name. -/
def isMetricName (name : String) : Bool :=
  match name.toList with
  | [] => false
  | c :: rest => isMetricNameStart c && rest.all isMetricNameChar

/-- The label that holds the name of a metric. -/
def metricLabel : String :=
  "__name__"

end QueryScope.Label
