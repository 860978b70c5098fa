import QueryScope.Proofs.InjectionNodes
import QueryScope.Proofs.WellFormed

/-!
# Selectors of scoped queries

An injection keeps a selector without a name well formed, since it takes no matcher away. A selector with a
name stays well formed unless the set has the label of metric names: the name of a selector is not one of
its matchers, so an injection adds the label once more.
-/

namespace QueryScope

namespace Metric.Expr

variable {f : List Matcher → List Matcher}

lemma mapMatchersOfAll_eq_map (es : List Expr) : mapMatchersOfAll f es = es.map (mapMatchers f) := by
  induction es with
  | nil => rfl
  | cons e es ih => rw [mapMatchersOfAll, ih, List.map_cons]

lemma children_mapMatchers (e : Expr) : (e.mapMatchers f).children = e.children.map (mapMatchers f) := by
  cases e with
  | number | text | vector | matrix | subquery | binary | unary | paren => rfl
  | call function arguments => exact mapMatchersOfAll_eq_map arguments
  | aggregate op parameter body grouping => cases parameter <;> rfl

/-- The parts of a query with changed matchers are the parts of the query with changed matchers. -/
lemma exists_of_contains_mapMatchers {e part : Expr} (h : (e.mapMatchers f).Contains part) :
    ∃ old, e.Contains old ∧ old.mapMatchers f = part := by
  induction h with
  | refl => exact ⟨e, .refl, rfl⟩
  | tail _ hinner ih =>
    obtain ⟨outer, houter, rfl⟩ := ih
    rw [children_mapMatchers] at hinner
    obtain ⟨old, hold, rfl⟩ := List.mem_map.1 hinner
    exact ⟨old, houter.tail hold, rfl⟩

lemma Contains.mapMatchers {e part : Expr} (h : e.Contains part) :
    (e.mapMatchers f).Contains (part.mapMatchers f) := by
  refine h.lift (Expr.mapMatchers f) fun outer inner hinner => ?_
  change inner.mapMatchers f ∈ (outer.mapMatchers f).children
  rw [children_mapMatchers]
  exact List.mem_map_of_mem hinner

/-- The selector of a node that is one, with a range or without. -/
def selector? : Expr → Option Selector
  | vector selector => some selector
  | matrix selector _ => some selector
  | _ => none

lemma selector?_mapMatchers (e : Expr) :
    (e.mapMatchers f).selector? = e.selector?.map fun s => { s with matchers := f s.matchers } := by
  cases e <;> rfl

end Metric.Expr

/-- A selector of metrics that stands somewhere in a query. -/
def Query.Selects : Query → Metric.Selector → Prop
  | metric e, s => ∃ part, e.Contains part ∧ part.selector? = some s
  | log _, _ => False

lemma Query.Selects.inject {query : Query} {s : Metric.Selector} (h : query.Selects s) (set : LabelSet) :
    (query.inject set).Selects { s with matchers := set.extend s.matchers } := by
  cases query with
  | log q => cases h
  | metric e =>
    obtain ⟨part, hpart, hs⟩ := h
    refine ⟨_, hpart.mapMatchers, ?_⟩
    rw [Metric.Expr.selector?_mapMatchers, hs]
    rfl

lemma Query.exists_of_selects_inject {query : Query} {set : LabelSet} {s : Metric.Selector}
    (h : (query.inject set).Selects s) :
    ∃ old, query.Selects old ∧ { old with matchers := set.extend old.matchers } = s := by
  cases query with
  | log q => cases h
  | metric e =>
    obtain ⟨injected, hinjected, hs⟩ := h
    obtain ⟨part, hpart, rfl⟩ := Metric.Expr.exists_of_contains_mapMatchers hinjected
    rw [Metric.Expr.selector?_mapMatchers] at hs
    obtain ⟨old, hold, rfl⟩ := Option.map_eq_some_iff.1 hs
    exact ⟨old, ⟨part, hpart, hold⟩, rfl⟩

lemma Query.WellFormed.of_selects {query : Query} (h : query.WellFormed) {s : Metric.Selector}
    (hs : query.Selects s) : s.WellFormed := by
  cases query with
  | log q => cases hs
  | metric e =>
    obtain ⟨part, hpart, hs⟩ := hs
    have hnode := h part hpart
    cases part with
    | vector | matrix =>
      obtain rfl := Option.some.inj hs
      exact hnode.1
    | _ => cases hs

/-- A well formed selector stays so, unless it has a name and the set gives it another one. -/
lemma Metric.Selector.WellFormed.extend_iff {s : Metric.Selector} (h : s.WellFormed) (set : LabelSet) :
    Metric.Selector.WellFormed { s with matchers := set.extend s.matchers } ↔
      s.name = none ∨ set.get? Label.metricLabel = none := by
  have hlabel := set.exists_name_extend_iff s.matchers Label.metricLabel
  constructor
  · intro hextended
    by_cases hname : s.name = none
    · exact .inl hname
    · right
      by_contra hset
      obtain ⟨m, hm, hmetric⟩ := hlabel.2 (.inr (Option.isSome_iff_ne_none.2 hset))
      exact hextended.named (Option.isSome_iff_ne_none.2 hname) m hm hmetric
  · intro hfree
    constructor
    · intro hname m hm hmetric
      rcases hlabel.1 ⟨m, hm, hmetric⟩ with ⟨old, hold, hmetric⟩ | hset
      · exact h.named hname old hold hmetric
      · rcases hfree with hnone | hnone
        · simp [hnone] at hname
        · simp [hnone] at hset
    · intro hname
      obtain ⟨m, hm, hempty⟩ := h.nameless hname
      exact ⟨m, List.mem_append_left _ hm, hempty⟩

/-- What is checked of a selector when it is read is true of it in a scoped query, exactly if it has no name
or the set does not have the label of metric names. -/
theorem selector_wellFormed_inject_iff {text : String} {query : Query}
    (h : Query.parse .promql text = .ok query) (set : LabelSet) {s : Metric.Selector}
    (hs : (query.inject set).Selects s) :
    s.WellFormed ↔ s.name = none ∨ set.get? Label.metricLabel = none := by
  obtain ⟨old, hold, rfl⟩ := Query.exists_of_selects_inject hs
  obtain ⟨e, he, rfl⟩ := Query.exists_metric_of_parse h
  have hwell : (Query.metric e).WellFormed := fun part => Metric.nodeWellFormed_of_parse he
  exact (hwell.of_selects hold).extend_iff set

lemma exists_selects_up : ∃ query, Query.parse .promql "rate(up[5m])" = .ok query ∧
    query.Selects ⟨some "up", [], {}⟩ := by
  have hread : (Metric.parse "rate(up[5m])").toOption.any (fun e =>
      decide (e.children.map Metric.Expr.selector? = [some ⟨some "up", [], {}⟩])) = true := by decide +kernel
  obtain ⟨e, he, hcheck⟩ := exists_ok_of_any hread
  have hmem : some ⟨some "up", [], {}⟩ ∈ e.children.map Metric.Expr.selector? := by
    rw [of_decide_eq_true hcheck]
    exact List.mem_cons_self
  obtain ⟨part, hpart, hs⟩ := List.mem_map.1 hmem
  exact ⟨.metric e, by simp [Query.parse, he, Except.map], part, .single hpart, hs⟩

/-- A named selector with a range, and a label whose value is empty. -/
theorem selector_wellFormed_inject_iff_sample :
    ∃ query s, Query.parse .promql "rate(up[5m])" = .ok query ∧
      (query.inject (NameMap.empty.insert "env" "")).Selects s ∧ s.matchers = [⟨"env", .equal, ""⟩] ∧
        s.WellFormed := by
  obtain ⟨query, hquery, hs⟩ := exists_selects_up
  have hinjected := hs.inject (NameMap.empty.insert "env" "")
  exact ⟨query, _, hquery, hinjected, rfl,
    (selector_wellFormed_inject_iff hquery _ hinjected).2 (.inr (by decide))⟩

/-- The label of metric names can be written, but a named selector that gets it is not well formed, and the
scoped query cannot be read. -/
theorem injected_name_is_given_twice :
    ∃ (set : LabelSet) (query : Query) (s : Metric.Selector),
      (∀ entry ∈ set.entries, Label.isLabelName entry.1 = true) ∧
      Query.parse .promql "rate(up[5m])" = .ok query ∧ (query.inject set).Selects s ∧ ¬s.WellFormed ∧
        (Query.parse .promql (query.inject set).print).toOption.isNone = true := by
  obtain ⟨query, hquery, hs⟩ := exists_selects_up
  have hrefused : (Query.parse .promql "rate(up[5m])").toOption.any (fun query =>
      (Query.parse .promql (query.inject (NameMap.empty.insert Label.metricLabel "x")).print).toOption.isNone) =
        true := by decide +kernel
  rw [hquery] at hrefused
  refine ⟨NameMap.empty.insert Label.metricLabel "x", query, _, by decide, hquery, hs.inject _,
    fun hwell => ?_, hrefused⟩
  exact hwell.named rfl ⟨Label.metricLabel, .equal, "x"⟩ (by decide) rfl

end QueryScope
