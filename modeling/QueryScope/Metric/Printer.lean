import QueryScope.Metric.Expr
import QueryScope.Number.Shortest

/-!
# Printing metric queries

A query is printed in one form: matchers in order of their names, one blank around operators, no
comments.
-/

namespace QueryScope

/-- Pieces of text with a separator between them. -/
def joinChars (separator : String) (pieces : List (List Char)) : List Char :=
  List.intercalate separator.toList pieces

/-- Label names in parentheses. -/
def labelListChars (labels : List String) : List Char :=
  '(' :: joinChars ", " (labels.map String.toList) ++ [')']

/-- The word for the labels an aggregation groups by, or drops. -/
def Grouping.keyword (g : Grouping) : List Char :=
  if g.without then "without".toList else "by".toList

/-- The clause for operations of many series with one. -/
def GroupClause.chars (g : GroupClause) : List Char :=
  (match g.side with
    | .left => " group_left "
    | .right => " group_right ").toList ++ labelListChars g.labels

/-- The clause that says by which labels series are matched. Ignoring no label is the default and is
not written. -/
def Matching.chars (m : Matching) : List Char :=
  if !m.on && m.labels.isEmpty && m.group.isNone then []
  else
    (if m.on then " on " else " ignoring ").toList ++ labelListChars m.labels ++
      (m.group.map GroupClause.chars).getD []

/-- The clauses behind a binary operator. -/
def Modifiers.chars (m : Modifiers) : List Char :=
  (if m.bool then " bool".toList else []) ++ (m.matching.map Matching.chars).getD []

namespace Metric

/-- The instant of evaluation. -/
def Instant.chars : Instant → List Char
  | timestamp seconds => " @ ".toList ++ seconds.milliChars
  | start => " @ start()".toList
  | finish => " @ end()".toList

/-- A shift in time; one of no length is not written. -/
def Offset.chars (o : Offset) : List Char :=
  if o.amount.millis = 0 then []
  else " offset ".toList ++ Number.Binary64.sign o.negative ++ o.amount.chars

/-- The time of evaluation. -/
def TimeFrame.chars (f : TimeFrame) : List Char :=
  (f.instant.map Instant.chars).getD [] ++ (f.offset.map Offset.chars).getD []

/-- The order of matchers in print: by name, then by written form. -/
def printsBefore (a b : Matcher) : Bool :=
  a.name < b.name || (a.name = b.name && a.text ≤ b.text)

/-- The matchers in the order of print. -/
def printOrder (matchers : List Matcher) : List Matcher :=
  matchers.mergeSort printsBefore

/-- The name and the matchers of a selector. -/
def Selector.seriesChars (s : Selector) : List Char :=
  let block := '\x7b' :: joinChars "," ((printOrder s.matchers).map Matcher.chars) ++ ['\x7d']
  match s.name with
  | some name => name.toList ++ (if s.matchers.isEmpty then [] else block)
  | none => block

namespace Expr

mutual

/-- The written form of a query. -/
def chars : Expr → List Char
  | number value => value.queryChars
  | text value => Text.quoteChars value.toList
  | vector selector => selector.seriesChars ++ selector.frame.chars
  | matrix selector range =>
    selector.seriesChars ++ '[' :: range.chars ++ ']' :: selector.frame.chars
  | subquery body range step frame =>
    body.chars ++ '[' :: range.chars ++ ':' :: (step.map Duration.chars).getD [] ++ ']' :: frame.chars
  | call function arguments => function.toList ++ '(' :: joinChars ", " (charsOfAll arguments) ++ [')']
  | aggregate op parameter body grouping =>
    let clause :=
      match grouping with
      | some g => ' ' :: g.keyword ++ ' ' :: labelListChars g.labels ++ [' ']
      | none => []
    op.symbol.toList ++ clause ++ '(' :: parameterChars parameter ++ body.chars ++ [')']
  | binary op modifiers left right =>
    left.chars ++ ' ' :: op.symbol.toList ++ modifiers.chars ++ ' ' :: right.chars
  | unary negative body => (if negative then '-' else '+') :: body.chars
  | paren body => '(' :: body.chars ++ [')']

/-- The written forms of the queries of a list. -/
def charsOfAll : List Expr → List (List Char)
  | [] => []
  | e :: rest => e.chars :: charsOfAll rest

/-- The parameter of an aggregation with the comma behind it. -/
def parameterChars : Option Expr → List Char
  | none => []
  | some e => e.chars ++ [',', ' ']

end

/-- The written form of a query, as a string. -/
def print (e : Expr) : String :=
  String.ofList e.chars

end Expr

end Metric

end QueryScope
