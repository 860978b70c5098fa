import QueryScope.Injection
import QueryScope.Proofs.ByteOrder
import Mathlib.Tactic

/-!
# Injection, node by node

A query is listed in preorder: each node with its own data and the number of its children, then the
nodes of its children. No two queries have the same list, so a statement on lists says all there is
to say about a query. An injection changes the matchers of the selectors in the list and nothing else.
-/

namespace QueryScope

/-- One node of a metric query, without the queries inside it. -/
inductive Metric.Node where
  | number (value : Number.Binary64)
  | text (value : String)
  | vector (selector : Selector)
  | matrix (selector : Selector) (range : Duration)
  | subquery (range : Duration) (step : Option Duration) (frame : TimeFrame)
  | call (function : String) (arity : Nat)
  | aggregate (op : Aggregation) (hasParameter : Bool) (grouping : Option Grouping)
  | binary (op : Operator) (modifiers : Modifiers)
  | unary (negative : Bool)
  | paren

/-- One node of a log query, without the queries inside it. -/
inductive Log.Node where
  | stream (stream : Stream)
  | range (op : RangeOperation) (parameter : Option Number.Binary64) (range : LogRange)
    (grouping : Option Grouping)
  | aggregate (op : Aggregation) (parameter : Option Nat) (grouping : Option Grouping)
  | binary (op : Operator) (modifiers : Modifiers)
  | literal (value : Number.Binary64)
  | vector (value : Number.Binary64)
  | labelReplace (target replacement source expression : String)

namespace Metric.Expr

mutual

/-- The nodes of a query in preorder. -/
def nodes : Expr → List Node
  | number value => [.number value]
  | text value => [.text value]
  | vector selector => [.vector selector]
  | matrix selector range => [.matrix selector range]
  | subquery body range step frame => .subquery range step frame :: body.nodes
  | call function arguments => .call function arguments.length :: nodesOfAll arguments
  | aggregate op parameter body grouping =>
    .aggregate op parameter.isSome grouping :: (nodesOfOption parameter ++ body.nodes)
  | binary op modifiers left right => .binary op modifiers :: (left.nodes ++ right.nodes)
  | unary negative body => .unary negative :: body.nodes
  | paren body => .paren :: body.nodes

/-- The nodes of the queries of a list. -/
def nodesOfAll : List Expr → List Node
  | [] => []
  | e :: rest => e.nodes ++ nodesOfAll rest

/-- The nodes of a query that may be missing. -/
def nodesOfOption : Option Expr → List Node
  | none => []
  | some e => e.nodes

end

mutual

lemma nodes_append_inj (e e' : Expr) (r r' : List Node) (h : e.nodes ++ r = e'.nodes ++ r') :
    e = e' ∧ r = r' := by
  match e, e' with
  | number _, e' | text _, e' | vector _, e' | matrix _ _, e' =>
    cases e' <;> simp_all [nodes]
  | subquery b _ _ _, e' =>
    cases e' <;> simp [nodes] at h
    case subquery b' _ _ _ =>
      obtain ⟨hhead, h⟩ := h
      have ih := nodes_append_inj b b' r r' h
      simp_all
  | call _ args, e' =>
    cases e' <;> simp [nodes] at h
    case call _ args' =>
      obtain ⟨⟨hname, hlength⟩, h⟩ := h
      have ih := nodesOfAll_append_inj args args' r r' hlength h
      simp_all
  | aggregate _ p b _, e' =>
    cases e' <;> simp [nodes] at h
    case aggregate _ p' b' _ =>
      obtain ⟨⟨hop, hparameter, hgrouping⟩, h⟩ := h
      obtain ⟨hp, h⟩ := nodesOfOption_append_inj p p' _ _ hparameter h
      have ih := nodes_append_inj b b' r r' h
      simp_all
  | binary _ _ left right, e' =>
    cases e' <;> simp [nodes] at h
    case binary _ _ left' right' =>
      obtain ⟨hhead, h⟩ := h
      obtain ⟨hleft, h⟩ := nodes_append_inj left left' _ _ h
      have ih := nodes_append_inj right right' r r' h
      simp_all
  | unary _ b, e' =>
    cases e' <;> simp [nodes] at h
    case unary _ b' =>
      obtain ⟨hhead, h⟩ := h
      have ih := nodes_append_inj b b' r r' h
      simp_all
  | paren b, e' =>
    cases e' <;> simp [nodes] at h
    case paren b' =>
      have ih := nodes_append_inj b b' r r' h
      simp_all

lemma nodesOfAll_append_inj (es es' : List Expr) (r r' : List Node) (hlength : es.length = es'.length)
    (h : nodesOfAll es ++ r = nodesOfAll es' ++ r') : es = es' ∧ r = r' := by
  match es, es' with
  | [], [] => simpa [nodesOfAll] using h
  | [], _ :: _ | _ :: _, [] => simp at hlength
  | e :: es, e' :: es' =>
    simp only [nodesOfAll, List.append_assoc] at h
    obtain ⟨he, h⟩ := nodes_append_inj e e' _ _ h
    have ih := nodesOfAll_append_inj es es' r r' (by simpa using hlength) h
    simp_all

lemma nodesOfOption_append_inj (p p' : Option Expr) (r r' : List Node) (hsome : p.isSome = p'.isSome)
    (h : nodesOfOption p ++ r = nodesOfOption p' ++ r') : p = p' ∧ r = r' := by
  match p, p' with
  | none, none => simpa [nodesOfOption] using h
  | none, some _ | some _, none => simp at hsome
  | some e, some e' =>
    have ih := nodes_append_inj e e' r r' h
    simp_all

end

end Metric.Expr

/-- The nodes of a metric query over logs in preorder. -/
def Log.Sample.nodes : Log.Sample → List Log.Node
  | range op parameter logs grouping => [.range op parameter logs grouping]
  | aggregate op parameter body grouping => .aggregate op parameter grouping :: body.nodes
  | binary op modifiers left right => .binary op modifiers :: (left.nodes ++ right.nodes)
  | literal value => [.literal value]
  | vector value => [.vector value]
  | labelReplace body target replacement source expression =>
    .labelReplace target replacement source expression :: body.nodes

/-- The nodes of a log query in preorder. -/
def Log.Query.nodes : Log.Query → List Log.Node
  | log stream => [.stream stream]
  | sample s => s.nodes

lemma Log.Sample.nodes_append_inj (s s' : Log.Sample) (r r' : List Log.Node)
    (h : s.nodes ++ r = s'.nodes ++ r') : s = s' ∧ r = r' := by
  induction s generalizing s' r r' with
  | range | literal | vector => cases s' <;> simp_all [nodes]
  | aggregate _ _ body _ ih =>
    cases s' <;> simp [nodes] at h
    case aggregate =>
      have hbody := ih _ _ _ h.2
      simp_all
  | labelReplace body _ _ _ _ ih =>
    cases s' <;> simp [nodes] at h
    case labelReplace =>
      have hbody := ih _ _ _ h.2
      simp_all
  | binary _ _ left right ihl ihr =>
    cases s' <;> simp [nodes] at h
    case binary =>
      obtain ⟨hhead, h⟩ := h
      obtain ⟨hleft, h⟩ := ihl _ _ _ h
      have hright := ihr _ _ _ h
      simp_all

lemma Log.Query.nodes_inj {q q' : Log.Query} (h : q.nodes = q'.nodes) : q = q' := by
  cases q with
  | log stream =>
    cases q' with
    | log stream' => simpa [nodes] using h
    | sample s' => cases s' <;> simp [nodes, Sample.nodes] at h
  | sample s =>
    cases q' with
    | log stream' => cases s <;> simp [nodes, Sample.nodes] at h
    | sample s' => rw [(Sample.nodes_append_inj s s' [] [] (by simpa [nodes] using h)).1]

/-- One node of a query of either dialect. -/
inductive Node where
  | metric (node : Metric.Node)
  | log (node : Log.Node)

namespace Node

/-- The matchers of a node that is a selector. -/
def matchers? : Node → Option (List Matcher)
  | metric (.vector selector) => some selector.matchers
  | metric (.matrix selector _) => some selector.matchers
  | log (.stream stream) => some stream.matchers
  | log (.range _ _ logs _) => some logs.stream.matchers
  | _ => none

/-- The node with other matchers if it is a selector. -/
def withMatchers (matchers : List Matcher) : Node → Node
  | metric (.vector selector) => metric (.vector { selector with matchers })
  | metric (.matrix selector range) => metric (.matrix { selector with matchers } range)
  | log (.stream stream) => log (.stream { stream with matchers })
  | log (.range op parameter logs grouping) =>
    log (.range op parameter { logs with stream := { logs.stream with matchers } } grouping)
  | node => node

/-- The number of matchers of a node. -/
def matcherCount (node : Node) : Nat :=
  (node.matchers?.map List.length).getD 0

end Node

/-- The nodes of a query in preorder. -/
def Query.nodes : Query → List Node
  | metric e => e.nodes.map .metric
  | log q => q.nodes.map .log

/-- The number of matchers in a query. -/
def Query.matcherCount (query : Query) : Nat :=
  (query.nodes.map Node.matcherCount).sum

/-- `added` holds one equality matcher, in increasing order of the bytes of the names, for each label of
the set whose name none of the `old` matchers carries, and no other matcher. -/
structure LabelSet.Adds (set : LabelSet) (old added : List Matcher) : Prop where
  increasing : added.Pairwise fun a b => Text.bytes a.name < Text.bytes b.name
  exact : ∀ m, m ∈ added ↔
    m.comparison = .equal ∧ set.get? m.name = some m.value ∧ ∀ o ∈ old, o.name ≠ m.name

/-- The node `new` is the node `old` with the labels of the set: a selector keeps its matchers and has
those of the set behind them, and nothing else changes. -/
def Node.Scoped (set : LabelSet) (old new : Node) : Prop :=
  match old.matchers? with
  | none => new = old
  | some matchers => ∃ added, set.Adds matchers added ∧ new = old.withMatchers (matchers ++ added)

/-- The node with its matchers changed if it is a selector. -/
def Node.update (f : List Matcher → List Matcher) (node : Node) : Node :=
  match node.matchers? with
  | none => node
  | some matchers => node.withMatchers (f matchers)

lemma Query.nodes_inj {q q' : Query} (h : q.nodes = q'.nodes) : q = q' := by
  have hmetric (e : Metric.Expr) : ∃ n rest, e.nodes = n :: rest := by
    cases e <;> exact ⟨_, _, rfl⟩
  cases q with
  | metric e =>
    obtain ⟨n, rest, hn⟩ := hmetric e
    cases q' with
    | metric e' =>
      have hnodes : e.nodes = e'.nodes :=
        List.map_injective_iff.2 (fun a b hab => Node.metric.inj hab) h
      rw [(Metric.Expr.nodes_append_inj e e' [] [] (by simpa using hnodes)).1]
    | log q' => cases hq : q'.nodes <;> simp [nodes, hn, hq] at h
  | log q =>
    cases q' with
    | metric e' =>
      obtain ⟨n, rest, hn⟩ := hmetric e'
      cases hq : q.nodes <;> simp [nodes, hn, hq] at h
    | log q' =>
      have hnodes : q.nodes = q'.nodes :=
        List.map_injective_iff.2 (fun a b hab => Node.log.inj hab) h
      rw [Log.Query.nodes_inj hnodes]

namespace Metric.Expr

mutual

lemma nodes_mapMatchers (f : List Matcher → List Matcher) (e : Expr) :
    (e.mapMatchers f).nodes.map Node.metric = (e.nodes.map Node.metric).map (Node.update f) := by
  match e with
  | number _ | text _ | vector _ | matrix _ _ => rfl
  | subquery body _ _ _ | unary _ body | paren body =>
    have ih := nodes_mapMatchers f body
    simp only [mapMatchers, nodes, List.map_cons, ih]
    rfl
  | call _ arguments =>
    obtain ⟨hlength, ih⟩ := nodesOfAll_mapMatchers f arguments
    simp only [mapMatchers, nodes, List.map_cons, ih, hlength]
    rfl
  | aggregate _ parameter body _ =>
    obtain ⟨hsome, ihp⟩ := nodesOfOption_mapMatchers f parameter
    have ihb := nodes_mapMatchers f body
    simp only [mapMatchers, nodes, List.map_cons, List.map_append, ihp, ihb, hsome]
    rfl
  | binary _ _ left right =>
    have ihl := nodes_mapMatchers f left
    have ihr := nodes_mapMatchers f right
    simp only [mapMatchers, nodes, List.map_cons, List.map_append, ihl, ihr]
    rfl

lemma nodesOfAll_mapMatchers (f : List Matcher → List Matcher) (es : List Expr) :
    (mapMatchersOfAll f es).length = es.length ∧
      (nodesOfAll (mapMatchersOfAll f es)).map Node.metric =
        ((nodesOfAll es).map Node.metric).map (Node.update f) := by
  match es with
  | [] => exact ⟨rfl, rfl⟩
  | e :: es =>
    have ih := nodes_mapMatchers f e
    obtain ⟨hlength, ihs⟩ := nodesOfAll_mapMatchers f es
    refine ⟨by simp only [mapMatchersOfAll, List.length_cons, hlength], ?_⟩
    simp only [mapMatchersOfAll, nodesOfAll, List.map_append, ih, ihs]

lemma nodesOfOption_mapMatchers (f : List Matcher → List Matcher) (p : Option Expr) :
    (mapMatchersOfOption f p).isSome = p.isSome ∧
      (nodesOfOption (mapMatchersOfOption f p)).map Node.metric =
        ((nodesOfOption p).map Node.metric).map (Node.update f) := by
  match p with
  | none => exact ⟨rfl, rfl⟩
  | some e => exact ⟨rfl, nodes_mapMatchers f e⟩

end

mutual

lemma matcherLists_eq_nodes (e : Expr) :
    e.matcherLists = (e.nodes.map Node.metric).filterMap Node.matchers? := by
  match e with
  | number _ | text _ | vector _ | matrix _ _ => rfl
  | subquery body _ _ _ | unary _ body | paren body => exact matcherLists_eq_nodes body
  | call _ arguments => exact matcherListsOfAll_eq_nodes arguments
  | aggregate _ parameter body _ =>
    have ihp := matcherListsOfOption_eq_nodes parameter
    have ihb := matcherLists_eq_nodes body
    simp only [matcherLists, nodes, ihp, ihb, List.map_cons, List.map_append, ← List.filterMap_append]
    rfl
  | binary _ _ left right =>
    have ihl := matcherLists_eq_nodes left
    have ihr := matcherLists_eq_nodes right
    simp only [matcherLists, nodes, ihl, ihr, List.map_cons, List.map_append, ← List.filterMap_append]
    rfl

lemma matcherListsOfAll_eq_nodes (es : List Expr) :
    matcherListsOfAll es = ((nodesOfAll es).map Node.metric).filterMap Node.matchers? := by
  match es with
  | [] => rfl
  | e :: es =>
    have ih := matcherLists_eq_nodes e
    have ihs := matcherListsOfAll_eq_nodes es
    simp only [matcherListsOfAll, nodesOfAll, ih, ihs, List.map_append, List.filterMap_append]

lemma matcherListsOfOption_eq_nodes (p : Option Expr) :
    matcherListsOfOption p = ((nodesOfOption p).map Node.metric).filterMap Node.matchers? := by
  match p with
  | none => rfl
  | some e => exact matcherLists_eq_nodes e

end

end Metric.Expr

lemma Log.Query.nodes_mapMatchers (f : List Matcher → List Matcher) (q : Log.Query) :
    (q.mapMatchers f).nodes.map Node.log = (q.nodes.map Node.log).map (Node.update f) := by
  cases q with
  | log stream => rfl
  | sample s =>
    simp only [mapMatchers, nodes]
    induction s with
    | range | literal | vector => rfl
    | aggregate _ _ _ _ ih | labelReplace _ _ _ _ _ ih =>
      simp only [Sample.mapMatchers, Sample.nodes, List.map_cons, ih]
      rfl
    | binary _ _ _ _ ihl ihr =>
      simp only [Sample.mapMatchers, Sample.nodes, List.map_cons, List.map_append, ihl, ihr]
      rfl

lemma Log.Query.matcherLists_eq_nodes (q : Log.Query) :
    q.matcherLists = (q.nodes.map Node.log).filterMap Node.matchers? := by
  cases q with
  | log stream => rfl
  | sample s =>
    simp only [matcherLists, nodes]
    induction s with
    | range | literal | vector => rfl
    | aggregate _ _ _ _ ih | labelReplace _ _ _ _ _ ih => exact ih
    | binary _ _ _ _ ihl ihr =>
      simp only [Sample.matcherLists, Sample.nodes, List.map_cons, List.map_append, ihl, ihr,
        ← List.filterMap_append]
      rfl

lemma Query.nodes_mapMatchers (f : List Matcher → List Matcher) (query : Query) :
    (query.mapMatchers f).nodes = query.nodes.map (Node.update f) := by
  cases query with
  | metric e => exact e.nodes_mapMatchers f
  | log q => exact q.nodes_mapMatchers f

lemma Query.matcherLists_eq_nodes (query : Query) :
    query.matcherLists = query.nodes.filterMap Node.matchers? := by
  cases query with
  | metric e => exact e.matcherLists_eq_nodes
  | log q => exact q.matcherLists_eq_nodes

lemma NameMap.get?_eq_some_iff {α : Type} (map : NameMap α) (name : String) (value : α) :
    map.get? name = some value ↔ (name, value) ∈ map.entries := by
  obtain ⟨entries, hsorted⟩ := map
  simp only [get?]
  induction entries with
  | nil => simp
  | cons head rest ih =>
    obtain ⟨n, v⟩ := head
    obtain ⟨hhead, hrest⟩ := List.pairwise_cons.1 hsorted
    by_cases hn : name = n
    · subst hn
      have hnot : (name, value) ∉ rest := fun hmem => String.lt_irrefl name (hhead (name, value) hmem)
      simp [hnot, eq_comm]
    · have hne : (name == n) = false := by simpa using hn
      simp [List.lookup_cons, hne, hn, ih hrest]

namespace LabelSet

lemma missingFrom_adds (set : LabelSet) (old : List Matcher) : set.Adds old (set.missingFrom old) where
  increasing := by
    unfold missingFrom
    rw [List.pairwise_map]
    refine List.Pairwise.filter _ ?_
    exact set.sorted.imp fun hlt => Text.bytes_lt_of_lt hlt
  exact := by
    intro m
    obtain ⟨name, comparison, value⟩ := m
    have hname : (∀ o ∈ old, o.name ≠ name) ↔ old.any (·.name = name) = false := by simp
    simp only [missingFrom, List.mem_map, List.mem_filter, NameMap.get?_eq_some_iff, hname,
      Bool.not_eq_true', Matcher.mk.injEq]
    constructor
    · rintro ⟨entry, ⟨hmem, hany⟩, rfl, rfl, rfl⟩
      exact ⟨rfl, hmem, hany⟩
    · rintro ⟨rfl, hmem, hany⟩
      exact ⟨(name, value), ⟨hmem, hany⟩, rfl, rfl, rfl⟩

/-- An extended selector constrains the labels it constrained before and those of the set. -/
lemma exists_name_extend_iff (set : LabelSet) (matchers : List Matcher) (name : String) :
    (∃ m ∈ set.extend matchers, m.name = name) ↔
      (∃ m ∈ matchers, m.name = name) ∨ (set.get? name).isSome = true := by
  have hadds := (set.missingFrom_adds matchers).exact
  constructor
  · rintro ⟨m, hm, rfl⟩
    rcases List.mem_append.1 hm with hold | hadded
    · exact .inl ⟨m, hold, rfl⟩
    · right
      rw [((hadds m).1 hadded).2.1]
      rfl
  · intro h
    by_cases hold : ∃ m ∈ matchers, m.name = name
    · obtain ⟨m, hm, hname⟩ := hold
      exact ⟨m, List.mem_append_left _ hm, hname⟩
    · obtain ⟨value, hvalue⟩ := Option.isSome_iff_exists.1 (h.resolve_left hold)
      have hadded : ⟨name, .equal, value⟩ ∈ set.missingFrom matchers :=
        (hadds _).2 ⟨rfl, hvalue, fun o ho hname => hold ⟨o, ho, hname⟩⟩
      exact ⟨_, List.mem_append_right _ hadded, rfl⟩

lemma Adds.nodup {set : LabelSet} {old added : List Matcher} (h : set.Adds old added) : added.Nodup := by
  refine h.increasing.imp ?_
  rintro x y hlt rfl
  exact List.lt_irrefl _ hlt

lemma Adds.unique {set : LabelSet} {old a b : List Matcher} (ha : set.Adds old a)
    (hb : set.Adds old b) : a = b := by
  have hperm : a.Perm b :=
    (List.perm_ext_iff_of_nodup ha.nodup hb.nodup).2 fun m => (ha.exact m).trans (hb.exact m).symm
  refine hperm.eq_of_pairwise (fun x y _ _ hxy hyx => ?_) ha.increasing hb.increasing
  exact absurd (List.lt_trans hxy hyx) (List.lt_irrefl _)

end LabelSet

lemma Node.scoped_iff (set : LabelSet) (old new : Node) :
    old.Scoped set new ↔ new = old.update set.extend := by
  unfold Scoped update
  cases h : old.matchers? with
  | none => rfl
  | some matchers =>
    constructor
    · rintro ⟨added, hadded, rfl⟩
      rw [hadded.unique (set.missingFrom_adds matchers)]
      rfl
    · rintro rfl
      exact ⟨_, set.missingFrom_adds matchers, rfl⟩

lemma Node.forall₂_scoped_iff (set : LabelSet) (olds news : List Node) :
    List.Forall₂ (Node.Scoped set) olds news ↔ news = olds.map (Node.update set.extend) := by
  induction olds generalizing news with
  | nil => simp
  | cons old olds ih =>
    rw [List.forall₂_cons_left_iff, List.map_cons]
    constructor
    · rintro ⟨new, rest, hnew, hrest, rfl⟩
      rw [(Node.scoped_iff set old new).1 hnew, (ih rest).1 hrest]
    · rintro rfl
      exact ⟨_, _, (Node.scoped_iff set old _).2 rfl, (ih _).2 rfl, rfl⟩

lemma Node.matcherCount_update (set : LabelSet) (node : Node) :
    (node.update set.extend).matcherCount =
      node.matcherCount + ((node.matchers?.map fun ms => (set.missingFrom ms).length).getD 0) := by
  match node with
  | metric (.vector _) | metric (.matrix _ _) | log (.stream _) | log (.range _ _ _ _) =>
    exact List.length_append
  | metric (.number _) | metric (.text _) | metric (.subquery _ _ _) | metric (.call _ _)
  | metric (.aggregate _ _ _) | metric (.binary _ _) | metric (.unary _) | metric .paren
  | log (.aggregate _ _ _) | log (.binary _ _) | log (.literal _) | log (.vector _)
  | log (.labelReplace _ _ _ _) => rfl

lemma Query.matcherCount_inject (set : LabelSet) (query : Query) :
    (query.inject set).matcherCount = query.matcherCount + query.countMissing set := by
  unfold matcherCount countMissing inject
  rw [nodes_mapMatchers, matcherLists_eq_nodes]
  induction query.nodes with
  | nil => rfl
  | cons node rest ih =>
    simp only [List.map_cons, List.sum_cons, ih, Node.matcherCount_update]
    cases h : node.matchers? with
    | none => simp [h]; omega
    | some matchers => simp [h]; omega

/-- An injection is complete, additive and changes nothing else: it gives the one query in which each
node is the old one with the labels of the set, and the count is that of all matchers added. -/
theorem inject_scopes_every_selector (set : LabelSet) (query : Query) :
    (∀ result : Query, result = query.inject set ↔
        List.Forall₂ (Node.Scoped set) query.nodes result.nodes) ∧
      (query.inject set).matcherCount = query.matcherCount + query.countMissing set := by
  refine ⟨fun result => ?_, Query.matcherCount_inject set query⟩
  have hnodes : (query.inject set).nodes = query.nodes.map (Node.update set.extend) :=
    Query.nodes_mapMatchers set.extend query
  rw [Node.forall₂_scoped_iff, ← hnodes]
  exact ⟨fun h => h ▸ rfl, Query.nodes_inj⟩

end QueryScope
