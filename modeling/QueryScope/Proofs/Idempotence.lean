import QueryScope.Proofs.InjectedText
import QueryScope.Proofs.PlainQueries
import QueryScope.Proofs.Reprinting

/-!
# Scoping twice

A scoped query is not changed when it is scoped again with the same labels: it is read as the query that
was printed, each selector constrains all labels of the set already, and the query is printed as before.
This needs a query whose printed form says what the query says; a power with an infinite base is none.
-/

namespace QueryScope

/-! ## Injecting twice -/

namespace LabelSet

variable {set : LabelSet}

lemma extend_of_covered {matchers : List Matcher}
    (h : ∀ entry ∈ set.entries, ∃ m ∈ matchers, m.name = entry.1) : set.extend matchers = matchers := by
  have hnone : set.missingFrom matchers = [] := by
    rw [missingFrom, List.map_eq_nil_iff, List.filter_eq_nil_iff]
    intro entry hentry
    simpa using h entry hentry
  rw [extend, hnone, List.append_nil]

end LabelSet

namespace Node

lemma matchers?_update (f : List Matcher → List Matcher) (node : Node) :
    (node.update f).matchers? = node.matchers?.map f := by
  cases node with
  | metric n => cases n <;> rfl
  | log n => cases n <;> rfl

lemma withMatchers_self {node : Node} {matchers : List Matcher} (h : node.matchers? = some matchers) :
    node.withMatchers matchers = node := by
  cases node with
  | metric n =>
    cases n with
    | vector | matrix => obtain rfl := Option.some.inj h; rfl
    | _ => cases h
  | log n =>
    cases n with
    | stream | range => obtain rfl := Option.some.inj h; rfl
    | _ => cases h

lemma update_of_fixed {f : List Matcher → List Matcher} {node : Node} (h : ∀ ms ∈ node.matchers?, f ms = ms) :
    node.update f = node := by
  unfold update
  cases hnode : node.matchers? with
  | none => rfl
  | some ms =>
    dsimp only
    rw [h ms hnode, withMatchers_self hnode]

end Node

namespace Query

lemma matcherLists_mapMatchers (f : List Matcher → List Matcher) (q : Query) :
    (q.mapMatchers f).matcherLists = q.matcherLists.map f := by
  rw [matcherLists_eq_nodes, matcherLists_eq_nodes, nodes_mapMatchers, List.filterMap_map, List.map_filterMap]
  exact congrArg (List.filterMap · q.nodes) (funext (Node.matchers?_update f))

lemma mapMatchers_of_fixed {f : List Matcher → List Matcher} {q : Query} (h : ∀ ms ∈ q.matcherLists, f ms = ms) :
    q.mapMatchers f = q := by
  refine nodes_inj ?_
  rw [nodes_mapMatchers]
  refine (List.map_congr_left fun node hnode => ?_).trans (List.map_id _)
  refine Node.update_of_fixed fun ms hms => h ms ?_
  rw [matcherLists_eq_nodes]
  exact List.mem_filterMap.2 ⟨node, hnode, hms⟩

end Query

/-! ## Injected queries can be written -/

namespace Metric

lemma Node.plain_of_update {f : List Matcher → List Matcher} {old new : Node}
    (h : (QueryScope.Node.metric old).update f = .metric new) (hplain : old.Plain) : new.Plain := by
  cases old <;> obtain rfl := QueryScope.Node.metric.inj h <;> exact hplain

namespace Expr

variable {f : List Matcher → List Matcher}

lemma plain_mapMatchers {e : Expr} (h : ∀ node ∈ e.nodes, node.Plain) :
    ∀ node ∈ (e.mapMatchers f).nodes, node.Plain := by
  intro node hnode
  have hmem : QueryScope.Node.metric node ∈ (e.mapMatchers f).nodes.map QueryScope.Node.metric :=
    List.mem_map_of_mem hnode
  rw [nodes_mapMatchers, List.map_map] at hmem
  obtain ⟨old, hold, heq⟩ := List.mem_map.1 hmem
  exact Node.plain_of_update heq (h old hold)

@[simp]
lemma binding_mapMatchers (signed : Number.Binary64 → Bool) (e : Expr) :
    (e.mapMatchers f).binding signed = e.binding signed := by
  cases e <;> rfl

@[simp]
lemma limit_mapMatchers (signed : Number.Binary64 → Bool) (e : Expr) :
    (e.mapMatchers f).limit signed = e.limit signed := by
  cases e <;> rfl

@[simp]
lemma lead_mapMatchers (e : Expr) : (e.mapMatchers f).lead = e.lead := by
  match e with
  | number _ | text _ | vector _ | matrix _ _ | call _ _ | aggregate _ _ _ _ | unary _ _ | paren _ => rfl
  | subquery body _ _ _ => exact lead_mapMatchers body
  | binary _ _ left _ => exact lead_mapMatchers left

section Shape

variable {signed : Number.Binary64 → Bool}

mutual

/-- A change of matchers that leaves selectors valid leaves the shape of a query. -/
lemma shape_mapMatchers (hvalid : ∀ s : Selector, s.Valid → Selector.Valid { s with matchers := f s.matchers })
    (e : Expr) (h : e.Shape signed) : (e.mapMatchers f).Shape signed := by
  match e with
  | number value => trivial
  | text value => trivial
  | vector s => exact hvalid s h
  | matrix s range => exact hvalid s h
  | subquery body range step frame =>
    refine ⟨shape_mapMatchers hvalid body h.1, ?_⟩
    rw [binding_mapMatchers]
    exact h.2
  | call function arguments => exact ⟨h.1, shapeOfAll_mapMatchers hvalid arguments h.2⟩
  | aggregate op parameter body grouping =>
    obtain ⟨hparameter, hfirst, hbody, hlabels⟩ := h
    refine ⟨?_, shapeOfOption_mapMatchers hvalid parameter hfirst, shape_mapMatchers hvalid body hbody, hlabels⟩
    rw [← hparameter]
    cases parameter <;> rfl
  | binary op modifiers left right =>
    obtain ⟨hleft, hright, hmodifiers, hapart, hlimit, hbinds⟩ := h
    refine ⟨shape_mapMatchers hvalid left hleft, shape_mapMatchers hvalid right hright, hmodifiers, ?_, ?_, ?_⟩
    · rwa [lead_mapMatchers]
    · rwa [limit_mapMatchers]
    · rwa [binding_mapMatchers]
  | unary negative body =>
    obtain ⟨hbody, hbinds, hnumber⟩ := h
    refine ⟨shape_mapMatchers hvalid body hbody, ?_, ?_⟩
    · rwa [binding_mapMatchers]
    · intro value heq
      cases body <;> simp [mapMatchers] at heq
      exact hnumber _ rfl
  | paren body => exact shape_mapMatchers hvalid body h

lemma shapeOfAll_mapMatchers (hvalid : ∀ s : Selector, s.Valid → Selector.Valid { s with matchers := f s.matchers })
    (es : List Expr) (h : ShapeOfAll signed es) : ShapeOfAll signed (mapMatchersOfAll f es) := by
  match es with
  | [] => trivial
  | e :: es => exact ⟨shape_mapMatchers hvalid e h.1, shapeOfAll_mapMatchers hvalid es h.2⟩

lemma shapeOfOption_mapMatchers (hvalid : ∀ s : Selector, s.Valid → Selector.Valid { s with matchers := f s.matchers })
    (o : Option Expr) (h : ShapeOfOption signed o) : ShapeOfOption signed (mapMatchersOfOption f o) := by
  match o with
  | none => trivial
  | some e => exact shape_mapMatchers hvalid e h

end

end Shape

lemma matcherLists_reread (e : Expr) : e.reread.matcherLists = e.matcherLists.map printOrder := by
  have hmatchers (node : Node) : (QueryScope.Node.metric node.reread).matchers? =
      (QueryScope.Node.metric node).matchers?.map printOrder := by
    cases node <;> rfl
  rw [matcherLists_eq_nodes, matcherLists_eq_nodes, nodes_reread, List.map_map, List.filterMap_map,
    List.filterMap_map, List.map_filterMap]
  exact congrArg (List.filterMap · e.nodes) (funext hmatchers)

end Expr

end Metric

namespace Log

variable {f : List Matcher → List Matcher}

namespace Sample

lemma matcherLists_normal (s : Sample) : s.normal.matcherLists = s.matcherLists := by
  induction s with
  | range op parameter logs grouping => rfl
  | aggregate op parameter body grouping ih => exact ih
  | binary op modifiers left right ihleft ihright => rw [normal, matcherLists, matcherLists, ihleft, ihright]
  | literal value => rfl
  | vector value => rfl
  | labelReplace body target replacement source expression ih => exact ih

lemma ranges_mapMatchers (s : Sample) :
    (s.mapMatchers f).ranges = s.ranges.map fun r => { r with stream := r.stream.mapMatchers f } := by
  induction s with
  | range op parameter logs grouping => rfl
  | aggregate op parameter body grouping ih => exact ih
  | binary op modifiers left right ihleft ihright => rw [mapMatchers, ranges, ranges, ihleft, ihright, List.map_append]
  | literal value => rfl
  | vector value => rfl
  | labelReplace body target replacement source expression ih => exact ih

lemma bounded_mapMatchers {s : Sample} (h : s.Bounded) : (s.mapMatchers f).Bounded := by
  induction s with
  | range op parameter logs grouping => exact ⟨h.1, h.2.stream, h.2.range, h.2.unwrap, h.2.offset⟩
  | aggregate op parameter body grouping ih => exact ih h
  | binary op modifiers left right ihleft ihright => exact ⟨ihleft h.1, ihright h.2⟩
  | literal value => exact h
  | vector value => exact h
  | labelReplace body target replacement source expression ih => exact ih h

lemma valid_mapMatchers (hvalid : ∀ s : Stream, s.Valid → (s.mapMatchers f).Valid) {s : Sample} (h : s.Valid) :
    (s.mapMatchers f).Valid := by
  induction s with
  | range op parameter logs grouping => exact ⟨⟨hvalid _ h.1.stream, h.1.unwrap⟩, h.2⟩
  | aggregate op parameter body grouping ih => exact ⟨ih h.1, h.2⟩
  | binary op modifiers left right ihleft ihright => exact ⟨h.1, ihleft h.2.1, ihright h.2.2⟩
  | literal value => exact h
  | vector value => exact h
  | labelReplace body target replacement source expression ih => exact ih h

end Sample

namespace Query

variable {q : Query}

lemma streams_mapMatchers : (q.mapMatchers f).streams = q.streams.map (Stream.mapMatchers f) := by
  cases q with
  | log stream => rfl
  | sample s =>
    rw [mapMatchers, streams, streams, Sample.ranges_mapMatchers, List.map_map, List.map_map]
    rfl

lemma clear_mapMatchers (h : ∀ s ∈ q.streams, s.Clear) : ∀ s ∈ (q.mapMatchers f).streams, s.Clear := by
  intro s hs
  rw [streams_mapMatchers] at hs
  obtain ⟨old, hold, rfl⟩ := List.mem_map.1 hs
  exact ⟨(h old hold).distinct, (h old hold).apart⟩

lemma bounded_mapMatchers (h : q.Bounded) : (q.mapMatchers f).Bounded := by
  cases q with
  | log stream => exact h
  | sample s => exact Sample.bounded_mapMatchers h

lemma valid_mapMatchers (hvalid : ∀ s : Stream, s.Valid → (s.mapMatchers f).Valid) (h : q.Valid) :
    (q.mapMatchers f).Valid := by
  cases q with
  | log stream => exact hvalid stream h
  | sample s => exact Sample.valid_mapMatchers hvalid h

end Query

end Log

/-! ## Queries of either dialect -/

section Extend

variable {set : LabelSet} (hnames : ∀ entry ∈ set.entries, Label.isLabelName entry.1 = true)

include hnames

lemma LabelSet.valid_extend {matchers : List Matcher} (h : ∀ m ∈ matchers, m.Valid) :
    ∀ m ∈ set.extend matchers, m.Valid := by
  intro m hm
  rcases List.mem_append.1 hm with hold | hadded
  · exact h m hold
  · obtain ⟨entry, hentry, rfl⟩ := List.mem_map.1 hadded
    exact ⟨hnames entry (List.mem_filter.1 hentry).1, by simp [Matcher.Comparison.isPattern]⟩

lemma Log.Stream.valid_extend {s : Log.Stream} (h : s.Valid) : (s.mapMatchers set.extend).Valid where
  matchers := LabelSet.valid_extend hnames h.matchers
  selective := by
    change (s.matchers ++ set.missingFrom s.matchers).all Matcher.matchesEmpty = false
    rw [List.all_append, h.selective, Bool.false_and]
  stages := h.stages

lemma Metric.Selector.valid_extend (hreserved : ∀ entry ∈ set.entries, entry.1 ≠ Label.metricLabel)
    {s : Metric.Selector} (h : s.Valid) :
    Metric.Selector.Valid { s with matchers := set.extend s.matchers } where
  matchers := LabelSet.valid_extend hnames h.matchers
  named := by
    intro name hname
    obtain ⟨hmetric, hspecial, hother⟩ := h.named name hname
    refine ⟨hmetric, hspecial, fun m hm => ?_⟩
    rcases List.mem_append.1 hm with hold | hadded
    · exact hother m hold
    · obtain ⟨entry, hentry, rfl⟩ := List.mem_map.1 hadded
      exact hreserved entry (List.mem_filter.1 hentry).1
  nameless := by
    intro hname
    change (s.matchers ++ set.missingFrom s.matchers).all Matcher.matchesEmpty = false
    rw [List.all_append, h.nameless hname, Bool.false_and]

end Extend

namespace Query

/-- The printed form of the query says all of it: its numbers are finite, its durations short enough, and no
part of it is left out in print or taken for another one. -/
def Faithful : Query → Prop
  | metric e => ∀ node ∈ e.nodes, node.Plain
  | log q => q.Bounded ∧ ∀ s ∈ q.streams, s.Clear

instance : DecidablePred Faithful
  | metric e => inferInstanceAs (Decidable (∀ node ∈ e.nodes, node.Plain))
  | log q => inferInstanceAs (Decidable (q.Bounded ∧ ∀ s ∈ q.streams, s.Clear))

/-- The query as it is read back. -/
def reread : Query → Query
  | metric e => metric e.reread
  | log q => log q.normal

lemma print_reread {q : Query} (h : q.Faithful) : q.reread.print = q.print := by
  cases q with
  | metric e => exact congrArg String.ofList (e.chars_reread h)
  | log q =>
    cases q with
    | log stream => rfl
    | sample s => exact congrArg String.ofList s.chars_normal

variable {set : LabelSet}

lemma faithful_inject {q : Query} (h : q.Faithful) : (q.inject set).Faithful := by
  cases q with
  | metric e => exact Metric.Expr.plain_mapMatchers h
  | log q => exact ⟨Log.Query.bounded_mapMatchers h.1, Log.Query.clear_mapMatchers h.2⟩

/-- A scoped query is read back from its printed form. -/
lemma parse_print_inject {dialect : Dialect} {text : String} {tree : Query}
    (hparse : parse dialect text = .ok tree) (hfaithful : tree.Faithful)
    (hnames : ∀ entry ∈ set.entries, Label.isLabelName entry.1 = true)
    (hreserved : dialect = .promql → ∀ entry ∈ set.entries, entry.1 ≠ Label.metricLabel) :
    parse dialect (tree.inject set).print = .ok (tree.inject set).reread := by
  have hinjected : (tree.inject set).Faithful := faithful_inject hfaithful
  cases dialect with
  | promql =>
    obtain ⟨e, he, rfl⟩ := exists_metric_of_parse hparse
    have hvalid (s : Metric.Selector) := s.valid_extend hnames (hreserved rfl)
    have hshape := Metric.Expr.shape_mapMatchers hvalid e (Metric.shape_of_parse he)
    have hread := Metric.Expr.parse_print (Metric.Expr.shape_reread _ hshape hinjected)
    exact congrArg (Except.map metric) hread
  | logql =>
    obtain ⟨q, hq, rfl⟩ := exists_log_of_parse hparse
    have hvalid (s : Log.Stream) := s.valid_extend hnames
    have hwritten := Log.Query.valid_mapMatchers hvalid (Log.valid_of_parse hq)
    have hread := Log.Query.parse_print hwritten hinjected.1 hinjected.2
    exact congrArg (Except.map log) hread

lemma mem_matcherLists_reread {q : Query} {matchers : List Matcher} (h : matchers ∈ q.reread.matcherLists) :
    ∃ old ∈ q.matcherLists, matchers.Perm old := by
  cases q with
  | metric e =>
    rw [reread, matcherLists, e.matcherLists_reread] at h
    obtain ⟨old, hold, rfl⟩ := List.mem_map.1 h
    exact ⟨old, hold, Metric.perm_printOrder old⟩
  | log q =>
    refine ⟨matchers, ?_, .refl _⟩
    cases q with
    | log stream => exact h
    | sample s =>
      change matchers ∈ s.normal.matcherLists at h
      rwa [s.matcherLists_normal] at h

/-- Each selector of a query that was scoped and read back constrains all labels of the set. -/
lemma inject_reread_inject (q : Query) : (q.inject set).reread.inject set = (q.inject set).reread := by
  refine mapMatchers_of_fixed fun matchers hmatchers => LabelSet.extend_of_covered fun entry hentry => ?_
  obtain ⟨extended, hextended, hperm⟩ := mem_matcherLists_reread hmatchers
  rw [inject, matcherLists_mapMatchers] at hextended
  obtain ⟨old, -, rfl⟩ := List.mem_map.1 hextended
  have hlabel : (set.get? entry.1).isSome = true := by
    rw [(set.get?_eq_some_iff entry.1 entry.2).2 hentry]
    rfl
  obtain ⟨m, hm, hname⟩ := (set.exists_name_extend_iff old entry.1).2 (.inr hlabel)
  exact ⟨m, hperm.mem_iff.2 hm, hname⟩

end Query

/-- Encoding the decoded text gives the table of the text and what is read as the text is. -/
def Variable.Recodes (dialect : Dialect) (table : Table) (text : String) : Prop :=
  ∃ again, encode (decode table text) = .ok again ∧ again.table = table ∧
    Query.parse dialect again.text = Query.parse dialect text

/-- A text without variables is its own encoding. -/
lemma Variable.recodes_of_no_variable {text : String} (h : classify text = .ok []) (dialect : Dialect) :
    Recodes dialect [] text :=
  ⟨⟨text, []⟩, by rw [decode_nil, encode_of_classify_nil h], rfl, rfl⟩

end QueryScope
