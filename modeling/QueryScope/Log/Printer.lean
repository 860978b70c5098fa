import QueryScope.Log.Expr
import QueryScope.Metric.Printer

/-!
# Printing log queries

A query is printed in one form: matchers and stages in their order, every binary operation in
parentheses, no comments.
-/

namespace QueryScope.Log

/-- The characters of a quoted string. -/
def quoted (text : String) : List Char :=
  Text.quoteChars text.toList

/-- A string, or a range of addresses. -/
def LineValue.chars : LineValue → List Char
  | text value => quoted value
  | address range => "ip(".toList ++ quoted range ++ [')']

/-- A condition on a line. -/
def LineFilter.chars (f : LineFilter) : List Char :=
  f.comparison.symbol.toList ++ ' ' :: f.value.chars ++
    f.alternatives.flatMap fun alternative => " or ".toList ++ quoted alternative

/-- A label taken from a line. -/
def Extraction.chars (e : Extraction) : List Char :=
  e.name.toList ++
    match e.expression with
    | some expression => '=' :: quoted expression
    | none => []

/-- The labels taken from a line, if there are any. -/
def extractionChars : List Extraction → List Char
  | [] => []
  | extractions => ' ' :: joinChars "," (extractions.map Extraction.chars)

/-- A condition on labels; conditions of two parts stand in parentheses. -/
def LabelFilter.chars : LabelFilter → List Char
  | matcher m => m.chars
  | number name relation value => name.toList ++ relation.symbol.toList ++ value.queryChars
  | duration name relation value => name.toList ++ relation.symbol.toList ++ value.chars
  | and left right => "( ".toList ++ left.chars ++ " , ".toList ++ right.chars ++ " )".toList
  | or left right => "( ".toList ++ left.chars ++ " or ".toList ++ right.chars ++ " )".toList

/-- A new value for a label. -/
def LabelFormat.chars : LabelFormat → List Char
  | rename target source => target.toList ++ '=' :: source.toList
  | template target source => target.toList ++ '=' :: quoted source

/-- A label that is dropped or kept. -/
def LabelReference.chars : LabelReference → List Char
  | name label => label.toList
  | matcher m => m.chars

/-- A stage of a pipeline. -/
def Stage.chars : Stage → List Char
  | lineFilter filter => filter.chars
  | json extractions => "| json".toList ++ extractionChars extractions
  | logfmt strict keepEmpty extractions =>
    "| logfmt".toList ++ (if strict then " --strict".toList else []) ++
      (if keepEmpty then " --keep-empty".toList else []) ++ extractionChars extractions
  | regexp expression => "| regexp ".toList ++ quoted expression
  | pattern expression => "| pattern ".toList ++ quoted expression
  | unpack => "| unpack".toList
  | decolorize => "| decolorize".toList
  | labelFilter filter => "| ".toList ++ filter.chars
  | lineFormat template => "| line_format ".toList ++ quoted template
  | labelFormat formats => "| label_format ".toList ++ joinChars "," (formats.map LabelFormat.chars)
  | drop labels => "| drop ".toList ++ joinChars "," (labels.map LabelReference.chars)
  | keep labels => "| keep ".toList ++ joinChars "," (labels.map LabelReference.chars)

/-- A selector of streams. -/
def selectorChars (matchers : List Matcher) : List Char :=
  '\x7b' :: joinChars ", " (matchers.map Matcher.chars) ++ ['\x7d']

/-- A selector of streams with its pipeline. -/
def Stream.chars (s : Stream) : List Char :=
  selectorChars s.matchers ++ s.stages.flatMap fun stage => ' ' :: stage.chars

/-- The label whose value is taken as a sample. -/
def Unwrap.chars (u : Unwrap) : List Char :=
  " | unwrap ".toList ++
    (match u.conversion with
      | some conversion => conversion.symbol.toList ++ '(' :: u.label.toList ++ [')']
      | none => u.label.toList) ++
    u.filters.flatMap fun filter => " | ".toList ++ filter.chars

/-- A range of log lines. -/
def LogRange.chars (r : LogRange) : List Char :=
  r.stream.chars ++ (r.unwrap.map Unwrap.chars).getD [] ++ '[' :: r.range.chars ++
    ']' :: (r.offset.map fun offset => " offset ".toList ++ offset.chars).getD []

/-- Label names in parentheses. -/
def labelChars (labels : List String) : List Char :=
  '(' :: joinChars "," (labels.map String.toList) ++ [')']

/-- The labels an aggregation groups by. Grouping by no label is the default and is not written. -/
def groupingChars : Option Grouping → List Char
  | none => []
  | some g =>
    if g.without then " without".toList ++ labelChars g.labels
    else if g.labels.isEmpty then []
    else " by".toList ++ labelChars g.labels

/-- The clauses behind a binary operator. -/
def modifierChars (m : Modifiers) : List Char :=
  (if m.bool then " bool".toList else []) ++
    match m.matching with
    | none => []
    | some matching =>
      (if matching.on then " on ".toList else " ignoring ".toList) ++ labelChars matching.labels ++
        match matching.group with
        | none => []
        | some group =>
          (match group.side with
            | .left => " group_left ".toList
            | .right => " group_right ".toList) ++ labelChars group.labels

/-- A metric query over logs. -/
def Sample.chars : Sample → List Char
  | range op parameter logs grouping =>
    op.symbol.toList ++ '(' :: (parameter.map fun p => p.queryChars ++ [',']).getD [] ++ logs.chars ++
      ')' :: groupingChars grouping
  | aggregate op parameter body grouping =>
    op.symbol.toList ++ groupingChars grouping ++
      '(' :: (parameter.map fun p => Number.decimalDigits p ++ [',']).getD [] ++ body.chars ++ [')']
  | binary op modifiers left right =>
    '(' :: left.chars ++ ' ' :: op.symbol.toList ++ modifierChars modifiers ++ ' ' :: right.chars ++ [')']
  | literal value => value.queryChars
  | vector value => "vector(".toList ++ value.queryChars ++ [')']
  | labelReplace body target replacement source expression =>
    "label_replace(".toList ++
      joinChars "," [body.chars, quoted target, quoted replacement, quoted source, quoted expression] ++ [')']

namespace Sample

theorem chars_range (op : RangeOperation) (parameter : Option Number.Binary64) (logs : LogRange)
    (grouping : Option Grouping) :
    (range op parameter logs grouping).chars =
      op.symbol.toList ++ '(' :: (parameter.map fun p => p.queryChars ++ [',']).getD [] ++ logs.chars ++
        ')' :: groupingChars grouping := rfl

theorem chars_aggregate (op : Aggregation) (parameter : Option Nat) (body : Sample)
    (grouping : Option Grouping) :
    (aggregate op parameter body grouping).chars =
      op.symbol.toList ++ groupingChars grouping ++
        '(' :: (parameter.map fun p => Number.decimalDigits p ++ [',']).getD [] ++ body.chars ++ [')'] := rfl

theorem chars_binary (op : Operator) (modifiers : Modifiers) (left right : Sample) :
    (binary op modifiers left right).chars =
      '(' :: left.chars ++ ' ' :: op.symbol.toList ++ modifierChars modifiers ++ ' ' :: right.chars ++ [')'] :=
  rfl

theorem chars_literal (value : Number.Binary64) : (literal value).chars = value.queryChars := rfl

theorem chars_vector (value : Number.Binary64) :
    (vector value).chars = "vector(".toList ++ value.queryChars ++ [')'] := rfl

theorem chars_labelReplace (body : Sample) (target replacement source expression : String) :
    (labelReplace body target replacement source expression).chars =
      "label_replace(".toList ++
        joinChars "," [body.chars, quoted target, quoted replacement, quoted source, quoted expression] ++
        [')'] := rfl

end Sample

/-- A log query or a metric query over logs. -/
def Query.chars : Query → List Char
  | log stream => stream.chars
  | sample s => s.chars

/-- The written form of a query, as a string. -/
def Query.print (q : Query) : String :=
  String.ofList q.chars

end QueryScope.Log
