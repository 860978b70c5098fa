import QueryScope.Proofs.LogRoundTrip
import QueryScope.Proofs.MetricRoundTrip
import QueryScope.Proofs.Thousandths

/-!
# Printing what was printed

A query that is read from its printed form is printed in the same form: matchers in order stay in order,
and what the printer leaves out or rounds is left out or rounded once.
-/

namespace QueryScope

lemma Duration.chars_reread (d : Duration) : d.reread.chars = d.chars := by
  simp [chars, reread]

lemma Modifiers.reread_reread (m : Modifiers) : m.reread.reread = m.reread := by
  simp [reread, Option.filter_filter]

lemma Modifiers.chars_reread (m : Modifiers) : m.reread.chars = m.chars := by
  rw [m.chars_eq_written, m.reread.chars_eq_written, reread_reread]

namespace Metric

lemma printOrder_printOrder (matchers : List Matcher) : printOrder (printOrder matchers) = printOrder matchers := by
  refine List.mergeSort_of_pairwise ((pairwise_printOrder matchers).imp fun h => ?_)
  simpa [printsBefore, InPrintOrder] using h

lemma Selector.seriesChars_reread (s : Selector) : s.reread.seriesChars = s.seriesChars := by
  have hempty : (printOrder s.matchers).isEmpty = s.matchers.isEmpty :=
    (perm_printOrder s.matchers).isEmpty_eq
  unfold seriesChars reread
  simp only [printOrder_printOrder, hempty]

lemma Instant.chars_reread (i : Instant) : i.reread.chars = i.chars := by
  cases i with
  | timestamp seconds => exact congrArg (" @ ".toList ++ ·) (Number.Binary64.milliChars_roundMillis seconds)
  | start => rfl
  | finish => rfl

lemma TimeFrame.chars_reread {f : TimeFrame} (h : f.Plain) : f.reread.chars = f.chars := by
  obtain ⟨instant, offset⟩ := f
  have hinstant : ((instant.map Instant.reread).map Instant.chars).getD [] = (instant.map Instant.chars).getD [] := by
    cases instant <;> simp [Instant.chars_reread]
  have hoffset : ((offset.bind Offset.reread).map Offset.chars).getD [] = (offset.map Offset.chars).getD [] := by
    cases offset with
    | none => rfl
    | some o =>
      have ho : o.amount.reread = o.amount := Duration.mod_limit_of_lt (h o rfl)
      by_cases hzero : o.amount.millis = 0 <;> simp [Offset.reread, Offset.chars, hzero, ho]
  rw [chars, chars, reread]
  exact congrArg₂ (· ++ ·) hinstant hoffset

namespace Expr

mutual

/-- The query that is read back is printed as the query was. -/
lemma chars_reread (e : Expr) (h : ∀ node ∈ e.nodes, node.Plain) : e.reread.chars = e.chars := by
  match e with
  | number value => rfl
  | text value => rfl
  | vector s =>
    have hframe : s.frame.Plain := h (.vector s) (by simp [nodes])
    change s.reread.seriesChars ++ s.frame.reread.chars = _
    rw [s.seriesChars_reread, TimeFrame.chars_reread hframe, chars]
  | matrix s range =>
    have hnode : (Node.matrix s range).Plain := h _ (by simp [nodes])
    change s.reread.seriesChars ++ '[' :: range.reread.chars ++ ']' :: s.frame.reread.chars = _
    rw [s.seriesChars_reread, range.chars_reread, TimeFrame.chars_reread hnode.2, chars]
  | subquery body range step frame =>
    have hnode : (Node.subquery range step frame).Plain := h _ (by simp [nodes])
    have hbody := chars_reread body fun node hnode => h node (by simp [nodes, hnode])
    have hstep : ((step.map Duration.reread).map Duration.chars).getD [] = (step.map Duration.chars).getD [] := by
      cases step <;> simp [Duration.chars_reread]
    rw [reread, chars, chars, hbody, range.chars_reread, hstep, TimeFrame.chars_reread hnode.2.2]
  | call function arguments =>
    rw [reread, chars, chars, charsOfAll_reread arguments fun node hnode => h node (by simp [nodes, hnode])]
  | aggregate op parameter body grouping =>
    have hbody := chars_reread body fun node hnode => h node (by simp [nodes, hnode])
    have hparameter := parameterChars_reread parameter fun node hnode => h node (by simp [nodes, hnode])
    simp only [reread, chars, hbody, hparameter]
  | binary op modifiers left right =>
    have hleft := chars_reread left fun node hnode => h node (by simp [nodes, hnode])
    have hright := chars_reread right fun node hnode => h node (by simp [nodes, hnode])
    rw [reread, chars, chars, hleft, hright, modifiers.chars_reread]
  | unary negative body =>
    rw [reread, chars, chars, chars_reread body fun node hnode => h node (by simp [nodes, hnode])]
  | paren body =>
    rw [reread, chars, chars, chars_reread body fun node hnode => h node (by simp [nodes, hnode])]

lemma charsOfAll_reread (es : List Expr) (h : ∀ node ∈ nodesOfAll es, node.Plain) :
    charsOfAll (rereadAll es) = charsOfAll es := by
  match es with
  | [] => rfl
  | e :: es =>
    rw [rereadAll, charsOfAll, charsOfAll, chars_reread e fun node hnode => h node (by simp [nodesOfAll, hnode]),
      charsOfAll_reread es fun node hnode => h node (by simp [nodesOfAll, hnode])]

lemma parameterChars_reread (o : Option Expr) (h : ∀ node ∈ nodesOfOption o, node.Plain) :
    parameterChars (rereadOption o) = parameterChars o := by
  match o with
  | none => rfl
  | some e => rw [rereadOption, parameterChars, parameterChars, chars_reread e h]

end

end Expr

end Metric

namespace Log

lemma normalGrouping_normalGrouping (grouping : Option Grouping) :
    normalGrouping (normalGrouping grouping) = normalGrouping grouping := by
  simp [normalGrouping, Option.filter_filter]

lemma groupingChars_normalGrouping (grouping : Option Grouping) :
    groupingChars (normalGrouping grouping) = groupingChars grouping := by
  have hagain := normalGrouping_normalGrouping grouping
  cases h : normalGrouping grouping with
  | none => rw [groupingChars_none h, groupingChars_none rfl]
  | some g =>
    rw [h] at hagain
    rw [groupingChars_some h, groupingChars_some hagain]

lemma Sample.chars_normal (s : Sample) : s.normal.chars = s.chars := by
  induction s with
  | range op parameter logs grouping =>
    rw [normal, chars_range, chars_range, groupingChars_normalGrouping]
  | aggregate op parameter body grouping ih =>
    rw [normal, chars_aggregate, chars_aggregate, groupingChars_normalGrouping, ih]
  | binary op modifiers left right ihleft ihright =>
    rw [normal, chars_binary, chars_binary, ihleft, ihright]
  | literal value => rfl
  | vector value => rfl
  | labelReplace body target replacement source expression ih =>
    rw [normal, chars_labelReplace, chars_labelReplace, ih]

end Log

end QueryScope
