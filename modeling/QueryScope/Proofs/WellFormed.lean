import QueryScope.Dialect
import QueryScope.Proofs.LogShape
import QueryScope.Proofs.MetricShape
import Mathlib.Logic.Relation

/-!
# Queries that are read are well formed

What the readers check is true of every node of a query, however deep it stands and whichever
alternative of the grammar it was read by.
-/

namespace QueryScope

/-! ## Checks on parts of nodes -/

/-- Some matcher refuses what does not have the label. -/
def Selective (matchers : List Matcher) : Prop :=
  ∃ m ∈ matchers, m.matchesEmpty = false

lemma selective_of_all {matchers : List Matcher} (h : matchers.all Matcher.matchesEmpty = false) :
    Selective matchers := by
  simpa [Selective] using h

lemma Operator.isComparison_iff {op : Operator} :
    op.isComparison = true ↔ op ∈ [equal, notEqual, greater, less, greaterEqual, lessEqual] := by
  cases op <;> decide

lemma Operator.isSetOperation_iff {op : Operator} : op.isSetOperation = true ↔ op ∈ [and, or, andNot] := by
  cases op <;> decide

/-- Only comparisons have `bool`, and operations on sets do not group. -/
structure Modifiers.Allowed (op : Operator) (m : Modifiers) : Prop where
  bool : m.bool = true → op ∈ [.equal, .notEqual, .greater, .less, .greaterEqual, .lessEqual]
  group : ∀ x ∈ m.matching, x.group.isSome = true → op ∉ [.and, .or, .andNot]

lemma Modifiers.Valid.allowed {op : Operator} {m : Modifiers} (h : m.Valid op) : m.Allowed op where
  bool := fun hbool => Operator.isComparison_iff.1 (h.1 hbool)
  group := by
    intro x hx hsome hset
    obtain ⟨g, hg⟩ := Option.isSome_iff_exists.1 hsome
    have hnot := ((h.2 x hx).2 g hg).1
    rw [Operator.isSetOperation_iff.2 hset] at hnot
    cases hnot

/-! ## Metric queries -/

namespace Metric

/-- The name of a metric is given once, and a selector without one is selective. -/
structure Selector.WellFormed (s : Selector) : Prop where
  named : s.name.isSome = true → ∀ m ∈ s.matchers, m.name ≠ Label.metricLabel
  nameless : s.name = none → Selective s.matchers

lemma Selector.Valid.wellFormed {s : Selector} (h : s.Valid) : s.WellFormed where
  named := by
    intro hsome
    obtain ⟨name, hname⟩ := Option.isSome_iff_exists.1 hsome
    exact (h.named name hname).2.2
  nameless := fun hname => selective_of_all (h.nameless hname)

lemma Aggregation.takesParameter_iff {op : Aggregation} :
    op.takesParameter = true ↔ op ∈ [topk, bottomk, countValues, quantile, limitk, limitRatio] := by
  cases op <;> decide

namespace Expr

/-- The queries right inside a query. -/
def children : Expr → List Expr
  | number _ | text _ | vector _ | matrix _ _ => []
  | subquery body _ _ _ => [body]
  | call _ arguments => arguments
  | aggregate _ parameter body _ => parameter.toList ++ [body]
  | binary _ _ left right => [left, right]
  | unary _ body => [body]
  | paren body => [body]

/-- The query `part` is `e` or stands somewhere inside it. -/
def Contains (e part : Expr) : Prop :=
  Relation.ReflTransGen (fun outer inner => inner ∈ outer.children) e part

/-- What the readers check of a query, apart from the queries inside it. -/
def NodeWellFormed : Expr → Prop
  | vector s | matrix s _ =>
    s.WellFormed ∧ ∀ m ∈ s.matchers, m.comparison.isPattern = true → Pattern.isValid m.value = true
  | call function _ => function ∈ functionNames
  | aggregate op parameter _ _ =>
    parameter.isSome = true ↔ op ∈ [.topk, .bottomk, .countValues, .quantile, .limitk, .limitRatio]
  | binary op modifiers _ _ => modifiers.Allowed op
  | unary _ body => ∀ value, body ≠ number value
  | number _ | text _ | subquery _ _ _ _ | paren _ => True

variable {signed : Number.Binary64 → Bool} {e part : Expr}

lemma Shape.of_mem_children (h : e.Shape signed) (hpart : part ∈ e.children) : part.Shape signed := by
  cases e with
  | number | text | vector | matrix => simp [children] at hpart
  | subquery body range step frame =>
    obtain rfl := List.mem_singleton.1 hpart
    exact h.1
  | call function arguments => exact shapeOfAll_iff.1 h.2 part hpart
  | aggregate op parameter body grouping =>
    obtain ⟨-, hparameter, hbody, -⟩ := h
    rcases List.mem_append.1 hpart with hpart | hpart
    · obtain rfl := Option.mem_toList.1 hpart
      exact hparameter
    · obtain rfl := List.mem_singleton.1 hpart
      exact hbody
  | binary op modifiers left right =>
    rcases List.mem_pair.1 hpart with rfl | rfl
    · exact h.1
    · exact h.2.1
  | unary negative body =>
    obtain rfl := List.mem_singleton.1 hpart
    exact h.1
  | paren body =>
    obtain rfl := List.mem_singleton.1 hpart
    exact h

lemma Shape.of_contains (h : e.Shape signed) (hpart : e.Contains part) : part.Shape signed := by
  induction hpart with
  | refl => exact h
  | tail _ hinner ih => exact ih.of_mem_children hinner

lemma Shape.nodeWellFormed (h : e.Shape signed) : e.NodeWellFormed := by
  have hselector {s : Selector} (hs : s.Valid) : s.WellFormed ∧
      ∀ m ∈ s.matchers, m.comparison.isPattern = true → Pattern.isValid m.value = true :=
    ⟨hs.wellFormed, fun m hm => (hs.matchers m hm).2⟩
  cases e with
  | number | text | subquery | paren => trivial
  | vector s => exact hselector h
  | matrix s range => exact hselector h
  | call function arguments => exact h.1
  | aggregate op parameter body grouping =>
    change parameter.isSome = true ↔ _
    rw [h.1, Aggregation.takesParameter_iff]
  | binary op modifiers left right => exact h.2.2.1.allowed
  | unary negative body => exact h.2.2

end Expr

lemma nodeWellFormed_of_parse {text : String} {e part : Expr} (h : parse text = .ok e)
    (hpart : e.Contains part) : part.NodeWellFormed :=
  ((shape_of_parse h).of_contains hpart).nodeWellFormed

end Metric

/-! ## Log queries -/

namespace Log

lemma Aggregation.takesParameter_iff {op : Aggregation} :
    op.takesParameter = true ↔ op ∈ [topk, bottomk, approxTopk] := by
  cases op <;> decide

lemma Aggregation.isSort_iff {op : Aggregation} : op.isSort = true ↔ op ∈ [sort, sortDesc] := by
  cases op <;> decide

lemma le_maxParameter {value : Number.Binary64} {p : Nat} (h : wholeParameter? value = some p) :
    p ≤ maxParameter := by
  cases value with
  | nan | infinite => simp [wholeParameter?] at h
  | finite negative rank =>
    simp only [wholeParameter?] at h
    split_ifs at h
    obtain rfl := Option.some.inj h
    exact Nat.min_le_right _ _

namespace Sample

/-- The metric queries right inside a metric query. -/
def children : Sample → List Sample
  | range _ _ _ _ | literal _ | vector _ => []
  | aggregate _ _ body _ => [body]
  | binary _ _ left right => [left, right]
  | labelReplace body _ _ _ _ => [body]

/-- The query `part` is `s` or stands somewhere inside it. -/
def Contains (s part : Sample) : Prop :=
  Relation.ReflTransGen (fun outer inner => inner ∈ outer.children) s part

/-- What the readers check of a metric query, apart from the queries inside it. The parameter of an
aggregation is a number of at most 63 bits without sign. -/
def NodeWellFormed : Sample → Prop
  | range op parameter logs _ =>
    Selective logs.stream.matchers ∧ (parameter.isSome = true ↔ op = .quantileOverTime) ∧
      (op.requiresUnwrap = true → logs.unwrap.isSome = true) ∧ (op.forbidsUnwrap = true → logs.unwrap = none)
  | aggregate op parameter _ grouping =>
    (parameter.isSome = true ↔ op ∈ [.topk, .bottomk, .approxTopk]) ∧ (∀ p ∈ parameter, p ≤ maxParameter) ∧
      (op ∈ [.sort, .sortDesc] → grouping = none)
  | binary op modifiers _ _ => modifiers.Allowed op
  | literal _ | vector _ | labelReplace _ _ _ _ _ => True

variable {s part : Sample}

lemma Valid.of_mem_children (h : s.Valid) (hpart : part ∈ s.children) : part.Valid := by
  cases s with
  | range | literal | vector => simp [children] at hpart
  | aggregate op parameter body grouping =>
    obtain rfl := List.mem_singleton.1 hpart
    exact h.1
  | binary op modifiers left right =>
    rcases List.mem_pair.1 hpart with rfl | rfl
    · exact h.2.1
    · exact h.2.2
  | labelReplace body target replacement source expression =>
    obtain rfl := List.mem_singleton.1 hpart
    exact h

lemma Valid.of_contains (h : s.Valid) (hpart : s.Contains part) : part.Valid := by
  induction hpart with
  | refl => exact h
  | tail _ hinner ih => exact ih.of_mem_children hinner

lemma Valid.nodeWellFormed (h : s.Valid) : s.NodeWellFormed := by
  cases s with
  | literal | vector | labelReplace => trivial
  | range op parameter logs grouping =>
    obtain ⟨hlogs, ⟨hparameter, -⟩, hrequires, hforbids, -⟩ := h
    refine ⟨selective_of_all hlogs.stream.selective, ?_, fun hop => ?_, fun hop => ?_⟩
    · rw [hparameter, RangeOperation.takesParameter, decide_eq_true_iff]
    · by_contra hnone
      simp [hrequires (by simpa using hnone)] at hop
    · by_contra hsome
      simp [hforbids (Option.isSome_iff_ne_none.2 hsome)] at hop
  | aggregate op parameter body grouping =>
    obtain ⟨-, ⟨hparameter, hwhole⟩, hsort, -⟩ := h
    refine ⟨?_, fun p hp => ?_, fun hop => ?_⟩
    · rw [hparameter, Aggregation.takesParameter_iff]
    · obtain ⟨value, hvalue⟩ := hwhole p hp
      exact le_maxParameter hvalue
    · by_contra hsome
      have hnot := hsort (Option.isSome_iff_ne_none.2 hsome)
      rw [Aggregation.isSort_iff.2 hop] at hnot
      cases hnot
  | binary op modifiers left right => exact h.1.allowed

end Sample

end Log

/-! ## Queries of either dialect -/

/-- Every node of the query passes the checks of the readers. -/
def Query.WellFormed : Query → Prop
  | metric e => ∀ part, e.Contains part → part.NodeWellFormed
  | log (.log stream) => Selective stream.matchers
  | log (.sample s) => ∀ part, s.Contains part → part.NodeWellFormed

end QueryScope
