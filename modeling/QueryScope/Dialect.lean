import QueryScope.Log.Printer
import QueryScope.Log.Reader
import QueryScope.Metric.Reader

/-!
# Queries of either dialect
-/

namespace QueryScope

/-- The query languages. -/
inductive Dialect where
  /-- metric queries -/
  | promql
  /-- log queries -/
  | logql
deriving DecidableEq

/-- A query of one of the dialects. -/
inductive Query where
  | metric (expr : Metric.Expr)
  | log (query : Log.Query)

namespace Query

/-- The query that a text writes in a dialect. -/
def parse (dialect : Dialect) (text : String) : Except Scan.SyntaxError Query :=
  match dialect with
  | .promql => (Metric.parse text).map metric
  | .logql => (Log.parse text).map log

theorem exists_metric_of_parse {text : String} {query : Query} (h : parse .promql text = .ok query) :
    ∃ e, Metric.parse text = .ok e ∧ query = metric e := by
  cases he : Metric.parse text with
  | error failure => simp [parse, he, Except.map] at h
  | ok e => exact ⟨e, rfl, by simpa [parse, he, Except.map] using h.symm⟩

theorem exists_log_of_parse {text : String} {query : Query} (h : parse .logql text = .ok query) :
    ∃ q, Log.parse text = .ok q ∧ query = log q := by
  cases hq : Log.parse text with
  | error failure => simp [parse, hq, Except.map] at h
  | ok q => exact ⟨q, rfl, by simpa [parse, hq, Except.map] using h.symm⟩

/-- The written form of a query. -/
def print : Query → String
  | metric e => e.print
  | log q => q.print

/-- The matchers of each selector, from left to right. -/
def matcherLists : Query → List (List Matcher)
  | metric e => e.matcherLists
  | log q => q.matcherLists

/-- The query with the matchers of each selector changed. -/
def mapMatchers (f : List Matcher → List Matcher) : Query → Query
  | metric e => metric (e.mapMatchers f)
  | log q => log (q.mapMatchers f)

end Query

end QueryScope
