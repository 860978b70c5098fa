import QueryScope.Proofs.Idempotence
import QueryScope.Proofs.LabelPrecedence

/-!
# One injection after another

Two injections add their matchers block by block, one injection of both sets adds them in one block. The
matchers of a selector are the same up to their order, and metric queries are printed with their matchers in
order, so the printed query is the same.
-/

namespace QueryScope

namespace LabelSet

/-- The labels of two sets; where both have a label, the first one counts. -/
def union (first second : LabelSet) : LabelSet :=
  NameMap.insertAll second first.entries

lemma get?_union (first second : LabelSet) (name : String) :
    (first.union second).get? name = (first.get? name).or (second.get? name) :=
  NameMap.get?_insertAll_entries second first name

/-- What two sets add one after the other is what both add at once. -/
lemma Adds.append_perm {first second both : LabelSet} {old a b c : List Matcher} (ha : first.Adds old a)
    (hb : second.Adds (old ++ a) b) (hc : both.Adds old c)
    (hboth : ∀ name, both.get? name = (first.get? name).or (second.get? name)) : (a ++ b).Perm c := by
  have hdisjoint : a.Disjoint b := by
    intro m hma hmb
    exact ((hb.exact m).1 hmb).2.2 m (List.mem_append_right _ hma) rfl
  refine (List.perm_ext_iff_of_nodup (ha.nodup.append hb.nodup hdisjoint) hc.nodup).2 fun m => ?_
  rw [List.mem_append, ha.exact, hb.exact, hc.exact, hboth, Option.or_eq_some_iff]
  constructor
  · rintro (⟨hequal, hfirst, hfree⟩ | ⟨hequal, hsecond, hfree⟩)
    · exact ⟨hequal, .inl hfirst, hfree⟩
    · have hold : ∀ o ∈ old, o.name ≠ m.name := fun o ho => hfree o (List.mem_append_left _ ho)
      refine ⟨hequal, .inr ⟨?_, hsecond⟩, hold⟩
      -- A value in the first set would have been added already.
      by_contra hsome
      obtain ⟨value, hvalue⟩ := Option.ne_none_iff_exists'.1 hsome
      have hmem : ⟨m.name, .equal, value⟩ ∈ a := (ha.exact _).2 ⟨rfl, hvalue, hold⟩
      exact hfree _ (List.mem_append_right _ hmem) rfl
  · rintro ⟨hequal, hfirst | ⟨hnone, hsecond⟩, hfree⟩
    · exact .inl ⟨hequal, hfirst, hfree⟩
    · refine .inr ⟨hequal, hsecond, fun o ho hname => ?_⟩
      rcases List.mem_append.1 ho with ho | ho
      · exact hfree o ho hname
      · have hvalue := ((ha.exact o).1 ho).2.1
        rw [hname, hnone] at hvalue
        simp at hvalue

lemma extend_extend_perm {first second both : LabelSet}
    (hboth : ∀ name, both.get? name = (first.get? name).or (second.get? name)) (matchers : List Matcher) :
    (second.extend (first.extend matchers)).Perm (both.extend matchers) := by
  rw [extend, extend, extend, List.append_assoc]
  exact ((first.missingFrom_adds matchers).append_perm (second.missingFrom_adds _)
    (both.missingFrom_adds matchers) hboth).append_left matchers

lemma missingFrom_extend (set : LabelSet) (matchers : List Matcher) :
    set.missingFrom (set.extend matchers) = [] := by
  have hagain : set.extend (set.extend matchers) = set.extend matchers := by
    refine extend_of_covered fun entry hentry => (set.exists_name_extend_iff matchers entry.1).2 (.inr ?_)
    rw [(NameMap.get?_eq_some_iff set entry.1 entry.2).2 hentry]
    rfl
  exact List.append_right_eq_self.1 hagain

end LabelSet

lemma Node.update_update (f g : List Matcher → List Matcher) (node : Node) :
    (node.update f).update g = node.update (g ∘ f) := by
  cases node with
  | metric n => cases n <;> rfl
  | log n => cases n <;> rfl

lemma Query.mapMatchers_mapMatchers (f g : List Matcher → List Matcher) (query : Query) :
    (query.mapMatchers f).mapMatchers g = query.mapMatchers (g ∘ f) := by
  apply nodes_inj
  rw [nodes_mapMatchers, nodes_mapMatchers, nodes_mapMatchers, List.map_map]
  exact List.map_congr_left fun node _ => Node.update_update f g node

lemma Query.inject_inject_self (set : LabelSet) (query : Query) :
    (query.inject set).inject set = query.inject set ∧ (query.inject set).countMissing set = 0 := by
  constructor
  · rw [inject, inject, mapMatchers_mapMatchers]
    congr 1
    funext matchers
    change set.extend matchers ++ set.missingFrom (set.extend matchers) = set.extend matchers
    rw [set.missingFrom_extend, List.append_nil]
  · rw [countMissing, inject, matcherLists_mapMatchers, List.flatMap_map, List.length_eq_zero_iff,
      List.flatMap_eq_nil_iff]
    exact fun matchers _ => set.missingFrom_extend matchers

namespace Metric

/-- The same matchers are printed in the same way, in whatever order they are kept. -/
lemma map_chars_printOrder {a b : List Matcher} (h : a.Perm b) :
    (printOrder a).map Matcher.chars = (printOrder b).map Matcher.chars := by
  -- Matchers are sorted by what identifies their written form, so their keys come in one order only.
  let key (m : Matcher) : String × String := (m.name, m.text)
  let before (x y : String × String) : Prop := x.1 < y.1 ∨ x.1 = y.1 ∧ x.2 ≤ y.2
  have hsorted (matchers : List Matcher) : ((printOrder matchers).map key).Pairwise before :=
    List.pairwise_map.2 (pairwise_printOrder matchers)
  have hperm : ((printOrder a).map key).Perm ((printOrder b).map key) :=
    (((perm_printOrder a).trans h).trans (perm_printOrder b).symm).map key
  have hkeys : (printOrder a).map key = (printOrder b).map key := by
    refine hperm.eq_of_pairwise (fun x y _ _ hxy hyx => ?_) (hsorted a) (hsorted b)
    rcases hxy with hxy | ⟨hxy, hle⟩
    · rcases hyx with hyx | ⟨hyx, -⟩
      · exact absurd (hxy.trans hyx) (lt_irrefl _)
      · exact absurd (hyx ▸ hxy) (lt_irrefl _)
    · rcases hyx with hyx | ⟨-, hge⟩
      · exact absurd (hxy ▸ hyx) (lt_irrefl _)
      · exact Prod.ext hxy (le_antisymm hle hge)
  have hchars (matchers : List Matcher) :
      (printOrder matchers).map Matcher.chars = ((printOrder matchers).map key).map (·.2.toList) := by
    rw [List.map_map]
    exact List.map_congr_left fun m _ => (String.toList_ofList).symm
  rw [hchars, hchars, hkeys]

lemma Selector.seriesChars_of_perm (s : Selector) {a b : List Matcher} (h : a.Perm b) :
    Selector.seriesChars { s with matchers := a } = Selector.seriesChars { s with matchers := b } := by
  unfold seriesChars
  simp only [map_chars_printOrder h, h.isEmpty_eq]

namespace Expr

variable {f g : List Matcher → List Matcher}

mutual

lemma chars_mapMatchers_of_perm (h : ∀ matchers, (f matchers).Perm (g matchers)) (e : Expr) :
    (e.mapMatchers f).chars = (e.mapMatchers g).chars := by
  match e with
  | number _ | text _ => rfl
  | vector s => simp only [mapMatchers, chars, s.seriesChars_of_perm (h s.matchers)]
  | matrix s _ => simp only [mapMatchers, chars, s.seriesChars_of_perm (h s.matchers)]
  | subquery body _ _ _ | unary _ body | paren body =>
    simp only [mapMatchers, chars, chars_mapMatchers_of_perm h body]
  | call _ arguments => simp only [mapMatchers, chars, charsOfAll_mapMatchers_of_perm h arguments]
  | aggregate _ parameter body _ =>
    have hparameter := parameterChars_mapMatchers_of_perm h parameter
    simp only [mapMatchers, chars, hparameter, chars_mapMatchers_of_perm h body]
  | binary _ _ left right =>
    simp only [mapMatchers, chars, chars_mapMatchers_of_perm h left, chars_mapMatchers_of_perm h right]

lemma charsOfAll_mapMatchers_of_perm (h : ∀ matchers, (f matchers).Perm (g matchers)) (es : List Expr) :
    charsOfAll (mapMatchersOfAll f es) = charsOfAll (mapMatchersOfAll g es) := by
  match es with
  | [] => rfl
  | e :: es =>
    simp only [mapMatchersOfAll, charsOfAll, chars_mapMatchers_of_perm h e, charsOfAll_mapMatchers_of_perm h es]

lemma parameterChars_mapMatchers_of_perm (h : ∀ matchers, (f matchers).Perm (g matchers)) (p : Option Expr) :
    parameterChars (mapMatchersOfOption f p) = parameterChars (mapMatchersOfOption g p) := by
  match p with
  | none => rfl
  | some e => simp only [mapMatchersOfOption, parameterChars, chars_mapMatchers_of_perm h e]

end

end Expr

end Metric

/-- Two injections into a metric query are printed as one injection of any set with the labels of both. -/
lemma Query.print_inject_inject {first second both : LabelSet}
    (hboth : ∀ name, both.get? name = (first.get? name).or (second.get? name)) (e : Metric.Expr) :
    (((metric e).inject first).inject second).print = ((metric e).inject both).print := by
  have hperm (matchers : List Matcher) :
      ((second.extend ∘ first.extend) matchers).Perm (both.extend matchers) :=
    LabelSet.extend_extend_perm hboth matchers
  rw [inject, inject, mapMatchers_mapMatchers]
  exact congrArg String.ofList (Metric.Expr.chars_mapMatchers_of_perm hperm e)

/-- Injections into metric queries compose: one after the other is printed as one of the union, in which
the first set counts. Sets that agree may be injected in either order, and the same set again adds
nothing. -/
theorem injections_compose (e : Metric.Expr) (first second : LabelSet) :
    (((Query.metric e).inject first).inject second).print =
        ((Query.metric e).inject (first.union second)).print ∧
      (∀ name, (first.union second).get? name = (first.get? name).or (second.get? name)) ∧
      ((∀ name a b, first.get? name = some a → second.get? name = some b → a = b) →
        (((Query.metric e).inject first).inject second).print =
          (((Query.metric e).inject second).inject first).print) ∧
      ((Query.metric e).inject first).inject first = (Query.metric e).inject first ∧
      ((Query.metric e).inject first).countMissing first = 0 := by
  refine ⟨Query.print_inject_inject (first.get?_union second) e, first.get?_union second, fun hagree => ?_,
    Query.inject_inject_self first (.metric e)⟩
  have hswap (name : String) :
      (first.union second).get? name = (second.get? name).or (first.get? name) := by
    rw [first.get?_union]
    cases hfirst : first.get? name with
    | none => simp
    | some a =>
      cases hsecond : second.get? name with
      | none => rfl
      | some b => rw [hagree name a b hfirst hsecond]
  rw [Query.print_inject_inject (first.get?_union second), Query.print_inject_inject hswap]

end QueryScope
