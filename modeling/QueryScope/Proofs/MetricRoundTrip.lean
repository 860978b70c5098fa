import QueryScope.Proofs.InjectionNodes
import QueryScope.Proofs.MetricOperands
import Mathlib.Data.String.Basic

/-!
# Written metric queries are read back

The written form of a query is read as the query that differs from it only in what the printer changes:
matchers in the order of print, no shift of no length, instants to the thousandth. This needs the query
read back to have the shape of queries that are read.
-/

namespace QueryScope

open Scan

lemma Matching.chars_of_default {m : Matching} (h : m.isDefault = true) : m.chars = [] :=
  if_pos h

lemma Matching.chars_eq_written {m : Matching} (h : m.isDefault = false) :
    m.chars = ' ' :: m.written labelListChars := by
  obtain ⟨on, labels, group⟩ := m
  have hgroup : (group.map GroupClause.chars).getD [] =
      (group.map fun g => ' ' :: g.written labelListChars).getD [] := by
    cases group with
    | none => rfl
    | some g =>
      obtain ⟨side, more⟩ := g
      cases side <;> simp [GroupClause.chars, GroupClause.written, Side.keyword]
  refine (if_neg (Bool.eq_false_iff.1 h)).trans ?_
  rw [hgroup]
  cases on <;> simp [written]

/-- The printer leaves out the default clause and writes the others as they are read. -/
lemma Modifiers.chars_eq_written (m : Modifiers) : m.chars = m.reread.written labelListChars := by
  obtain ⟨bool, matching⟩ := m
  cases matching with
  | none => rfl
  | some x =>
    cases hdefault : x.isDefault with
    | true => simp [chars, written, reread, x.chars_of_default hdefault, Option.filter_some, hdefault]
    | false => simp [chars, written, reread, x.chars_eq_written hdefault, Option.filter_some, hdefault]

/-- Only an empty `ignoring` clause alone is not written. -/
lemma Modifiers.reread_of_plain {m : Modifiers}
    (h : ∀ x ∈ m.matching, ¬(x.on = false ∧ x.labels = [] ∧ x.group = none)) : m.reread = m := by
  obtain ⟨bool, matching⟩ := m
  cases matching with
  | none => rfl
  | some x =>
    have hdefault : x.isDefault = false := by
      have hx := h x rfl
      rw [Bool.eq_false_iff]
      simpa [Matching.isDefault, and_assoc] using hx
    simp [reread, Option.filter_some, hdefault]

namespace Metric

open Operator

lemma perm_printOrder (matchers : List Matcher) : (printOrder matchers).Perm matchers :=
  List.mergeSort_perm matchers printsBefore

/-- The selector with its matchers in the order of print, without its time of evaluation. -/
def Selector.series (s : Selector) : Selector where
  name := s.name
  matchers := printOrder s.matchers

lemma Selector.seriesChars_eq_written (s : Selector) : s.seriesChars = s.series.written := by
  have hempty : (printOrder s.matchers).isEmpty = s.matchers.isEmpty :=
    (perm_printOrder s.matchers).isEmpty_eq
  unfold Selector.seriesChars Selector.written
  cases hname : s.name <;> simp [Selector.series, hname, hempty, blockChars]

lemma Selector.valid_reread {s : Selector} (h : s.Valid) : s.reread.Valid := by
  have hmem {m : Matcher} : m ∈ s.reread.matchers ↔ m ∈ s.matchers := (perm_printOrder s.matchers).mem_iff
  refine ⟨fun m hm => h.matchers m (hmem.1 hm), fun name hname => ?_, fun hname => ?_⟩
  · obtain ⟨hmetric, hspecial, hnames⟩ := h.named name hname
    exact ⟨hmetric, hspecial, fun m hm => hnames m (hmem.1 hm)⟩
  · have hall := h.nameless hname
    simp only [List.all_eq_false] at hall ⊢
    obtain ⟨m, hm, hempty⟩ := hall
    exact ⟨m, hmem.2 hm, hempty⟩

lemma Selector.valid_series {s : Selector} (h : s.reread.Valid) : s.series.Valid :=
  ⟨h.matchers, h.named, h.nameless⟩

namespace Expr

@[simp]
lemma binding_reread (signed : Number.Binary64 → Bool) (e : Expr) : e.reread.binding signed = e.binding signed := by
  cases e <;> rfl

@[simp]
lemma limit_reread (signed : Number.Binary64 → Bool) (e : Expr) : e.reread.limit signed = e.limit signed := by
  cases e <;> rfl

@[simp]
lemma lead_reread (e : Expr) : e.reread.lead = e.lead := by
  match e with
  | number _ | text _ | vector _ | matrix _ _ | call _ _ | aggregate _ _ _ _ | unary _ _ | paren _ => rfl
  | subquery body _ _ _ => exact lead_reread body
  | binary _ _ left _ => exact lead_reread left

mutual

/-- The written form of a query is read as the query that is read back. -/
lemma reads_chars (e : Expr) (h : e.reread.Shape isSigned) : Reads e.chars e.reread := by
  match e with
  | number value => exact reads_queryChars value
  | text value => exact reads_text value
  | vector s =>
    rw [chars, s.seriesChars_eq_written]
    exact reads_vector (Selector.valid_series h) rfl s.frame
  | matrix s range =>
    have hchars : (matrix s range).chars =
        s.series.written ++ '[' :: (range.chars ++ ']' :: s.frame.chars) := by
      simp [chars, s.seriesChars_eq_written]
    rw [hchars]
    exact reads_matrix (Selector.valid_series h) rfl range s.frame
  | subquery body range step frame =>
    have hchars : (subquery body range step frame).chars = body.chars ++
        '[' :: (range.chars ++ ':' :: ((step.map Duration.chars).getD [] ++ ']' :: frame.chars)) := by
      simp [chars]
    rw [hchars]
    exact reads_subquery (reads_chars body h.1) h.2 range step frame
  | call function arguments =>
    have hchars : (call function arguments).chars =
        function.toList ++ '(' :: (joinChars ", " (charsOfAll arguments) ++ [')']) := by
      simp [chars]
    rw [hchars]
    exact reads_call h.1 (reads_charsOfAll arguments h.2)
  | aggregate op none body grouping =>
    obtain ⟨hparameter, -, hbody, hlabels⟩ := h
    have hchars : (aggregate op none body grouping).chars = op.symbol.toList ++
        (clauseChars grouping ++ '(' :: (joinChars ", " [body.chars] ++ [')'])) := by
      cases grouping <;> simp [chars, clauseChars, parameterChars, joinChars]
    rw [hchars]
    refine reads_aggregate op hlabels (.cons (reads_chars body hbody) .nil) fun rest => ?_
    have hop : op.takesParameter = false := hparameter.symm
    simp [makeAggregate, hop]
    rfl
  | aggregate op (some parameter) body grouping =>
    obtain ⟨hparameter, hfirst, hbody, hlabels⟩ := h
    have hchars : (aggregate op (some parameter) body grouping).chars = op.symbol.toList ++
        (clauseChars grouping ++ '(' :: (joinChars ", " [parameter.chars, body.chars] ++ [')'])) := by
      cases grouping <;> simp [chars, clauseChars, parameterChars, joinChars, List.intercalate_cons_cons]
    rw [hchars]
    refine reads_aggregate op hlabels (.cons (reads_chars parameter hfirst) (.cons (reads_chars body hbody) .nil))
      fun rest => ?_
    have hop : op.takesParameter = true := hparameter.symm
    simp [makeAggregate, hop]
    rfl
  | binary op modifiers left right =>
    obtain ⟨hleft, hright, hvalid, hapart, hlimit, hbinds⟩ := h
    have hchars : (binary op modifiers left right).chars = left.chars ++ ' ' :: (op.symbol.toList ++
        (modifiers.reread.written labelListChars ++ ' ' :: right.chars)) := by
      simp [chars, modifiers.chars_eq_written]
    rw [hchars]
    exact reads_binary readsLabels_labelListChars (reads_chars left hleft) (reads_chars right hright) hvalid
      hapart hlimit hbinds
  | unary negative body => exact reads_unary (reads_chars body h.1) h.2.1 h.2.2 negative
  | paren body => exact reads_paren (reads_chars body h)

lemma reads_charsOfAll (es : List Expr) (h : ShapeOfAll isSigned (rereadAll es)) :
    List.Forall₂ Reads (charsOfAll es) (rereadAll es) := by
  match es with
  | [] => exact .nil
  | e :: es => exact .cons (reads_chars e h.1) (reads_charsOfAll es h.2)

end

/-- A written query is read as the query that is read back, if that has the shape of queries that are
read. -/
lemma parse_print {e : Expr} (h : e.reread.Shape isSigned) : parse e.print = .ok e.reread := by
  have hreads := reads_chars e h
  have htext : e.print.toList = e.chars := by simp [print]
  have hblank : Text.isAllBlank e.print = false := by
    rw [Text.isAllBlank, htext, hreads.begins.not_blank]
  have hread : scanExpr (operand (e.chars.length + 1)) (e.chars ++ []) = .ok (e.reread, []) :=
    hreads.scanExpr (Nat.le_succ _) (by simp [Closes])
  rw [List.append_nil] at hread
  have hquery : scanQuery e.chars = .ok (e.reread, []) := by
    rw [scanQuery, bind_of_ok (blanks_apply _), hreads.begins.solid.eq, bind_of_ok hread,
      bind_of_ok (blanks_apply _)]
    rfl
  rw [parse, hblank, htext]
  simp [readAll, hquery]

end Expr

/-! ## What is not changed -/

/-- No duration of the time of evaluation is too long to be written. -/
def TimeFrame.Plain (f : TimeFrame) : Prop :=
  ∀ o ∈ f.offset, o.amount.millis < Duration.limit

/-- The numbers of the node are finite, its durations short enough to be written, and its clauses no
empty `ignoring` clause alone. -/
def Node.Plain : Node → Prop
  | .number value => value.isFinite = true
  | .vector s => s.frame.Plain
  | .matrix s range => range.millis < Duration.limit ∧ s.frame.Plain
  | .subquery range step frame =>
    range.millis < Duration.limit ∧ (∀ d ∈ step, d.millis < Duration.limit) ∧ frame.Plain
  | .binary _ m => ∀ x ∈ m.matching, ¬(x.on = false ∧ x.labels = [] ∧ x.group = none)
  | _ => True

instance : DecidablePred TimeFrame.Plain := fun f =>
  inferInstanceAs (Decidable (∀ o ∈ f.offset, o.amount.millis < Duration.limit))

instance : DecidablePred Node.Plain
  | .number value => inferInstanceAs (Decidable (value.isFinite = true))
  | .vector s => inferInstanceAs (Decidable s.frame.Plain)
  | .matrix s range => inferInstanceAs (Decidable (range.millis < Duration.limit ∧ s.frame.Plain))
  | .subquery range step frame => inferInstanceAs (Decidable (range.millis < Duration.limit ∧
      (∀ d ∈ step, d.millis < Duration.limit) ∧ frame.Plain))
  | .binary _ m => inferInstanceAs
      (Decidable (∀ x ∈ m.matching, ¬(x.on = false ∧ x.labels = [] ∧ x.group = none)))
  | .text _ | .call _ _ | .aggregate _ _ _ | .unary _ | .paren => inferInstanceAs (Decidable True)

lemma isSigned_of_isFinite {value : Number.Binary64} (h : value.isFinite = true) :
    isSigned value = isNegative value := by
  cases value with
  | finite negative rank => rfl
  | _ => simp [Number.Binary64.isFinite] at h

namespace Expr

/-- Signs are written where numbers are negative. -/
lemma binding_isSigned {e : Expr} (h : ∀ node ∈ e.nodes, node.Plain) :
    e.binding isSigned = e.binding isNegative ∧ e.limit isSigned = e.limit isNegative := by
  cases e with
  | number value =>
    have hfinite : value.isFinite = true := h (.number value) (by simp [nodes])
    simp [binding, limit, isSigned_of_isFinite hfinite]
  | _ => exact ⟨rfl, rfl⟩

mutual

/-- A query that was read and whose written form says all of it has the shape to be read back. -/
lemma shape_reread (e : Expr) (h : e.Shape isNegative) (hplain : ∀ node ∈ e.nodes, node.Plain) :
    e.reread.Shape isSigned := by
  match e with
  | number value => trivial
  | text value => trivial
  | vector s => exact Selector.valid_reread h
  | matrix s range => exact Selector.valid_reread h
  | subquery body range step frame =>
    have hbody : ∀ node ∈ body.nodes, node.Plain := fun node hnode => hplain node (by simp [nodes, hnode])
    refine ⟨shape_reread body h.1 hbody, ?_⟩
    rw [binding_reread, (binding_isSigned hbody).1]
    exact h.2
  | call function arguments =>
    exact ⟨h.1, shapeOfAll_reread arguments h.2 fun node hnode => hplain node (by simp [nodes, hnode])⟩
  | aggregate op parameter body grouping =>
    obtain ⟨hparameter, hfirst, hbody, hlabels⟩ := h
    refine ⟨?_, shapeOfOption_reread parameter hfirst fun node hnode => hplain node (by simp [nodes, hnode]),
      shape_reread body hbody fun node hnode => hplain node (by simp [nodes, hnode]), hlabels⟩
    rw [← hparameter]
    cases parameter <;> rfl
  | binary op modifiers left right =>
    obtain ⟨hleft, hright, hvalid, hapart, hlimit, hbinds⟩ := h
    have hl : ∀ node ∈ left.nodes, node.Plain := fun node hnode => hplain node (by simp [nodes, hnode])
    have hr : ∀ node ∈ right.nodes, node.Plain := fun node hnode => hplain node (by simp [nodes, hnode])
    have hm : modifiers.reread = modifiers :=
      Modifiers.reread_of_plain (hplain (.binary op modifiers) (by simp [nodes]))
    rw [reread, hm]
    refine ⟨shape_reread left hleft hl, shape_reread right hright hr, hvalid, ?_, ?_, ?_⟩
    · rwa [lead_reread]
    · rwa [limit_reread, (binding_isSigned hl).2]
    · rwa [binding_reread, (binding_isSigned hr).1]
  | unary negative body =>
    obtain ⟨hbody, hbinds, hnumber⟩ := h
    have hb : ∀ node ∈ body.nodes, node.Plain := fun node hnode => hplain node (by simp [nodes, hnode])
    refine ⟨shape_reread body hbody hb, ?_, ?_⟩
    · rwa [binding_reread, (binding_isSigned hb).1]
    · intro value heq
      cases body <;> simp [reread] at heq
      exact hnumber _ rfl
  | paren body =>
    exact shape_reread body h fun node hnode => hplain node (by simp [nodes, hnode])

lemma shapeOfAll_reread (es : List Expr) (h : ShapeOfAll isNegative es)
    (hplain : ∀ node ∈ nodesOfAll es, node.Plain) : ShapeOfAll isSigned (rereadAll es) := by
  match es with
  | [] => trivial
  | e :: es =>
    exact ⟨shape_reread e h.1 fun node hnode => hplain node (by simp [nodesOfAll, hnode]),
      shapeOfAll_reread es h.2 fun node hnode => hplain node (by simp [nodesOfAll, hnode])⟩

lemma shapeOfOption_reread (o : Option Expr) (h : ShapeOfOption isNegative o)
    (hplain : ∀ node ∈ nodesOfOption o, node.Plain) : ShapeOfOption isSigned (rereadOption o) := by
  match o with
  | none => trivial
  | some e => exact shape_reread e h hplain

end

end Expr

/-! ## What is changed -/

/-- Matchers are printed by name, then by written form. -/
def InPrintOrder (a b : Matcher) : Prop :=
  a.name < b.name ∨ a.name = b.name ∧ a.text ≤ b.text

/-- The changes to a time of evaluation: a shift of no length is left out, an instant is rounded to
thousandths. -/
structure TimeFrame.Normalises (old new : TimeFrame) : Prop where
  instant : new.instant = old.instant.map Instant.reread
  offset : new.offset = old.offset.filter fun o => o.amount.millis ≠ 0

/-- The changes to a selector: its matchers are put in the order of print. -/
structure Selector.Normalises (old new : Selector) : Prop where
  name : new.name = old.name
  same : new.matchers.Perm old.matchers
  sorted : new.matchers.Pairwise InPrintOrder
  frame : old.frame.Normalises new.frame

/-- The changes to a node: those to its selector and its time of evaluation, and no others. -/
def Node.Normalises : Node → Node → Prop
  | .vector old, .vector new => old.Normalises new
  | .matrix old range, .matrix new range' => old.Normalises new ∧ range' = range
  | .subquery range step old, .subquery range' step' new =>
    range' = range ∧ step' = step ∧ old.Normalises new
  | old, new => new = old

/-- The node as it is read back. -/
def Node.reread : Node → Node
  | .vector s => .vector s.reread
  | .matrix s range => .matrix s.reread range.reread
  | .subquery range step frame => .subquery range.reread (step.map Duration.reread) frame.reread
  | .binary op m => .binary op m.reread
  | node => node

lemma pairwise_printOrder (matchers : List Matcher) : (printOrder matchers).Pairwise InPrintOrder := by
  have hiff (a b : Matcher) : printsBefore a b = true ↔ InPrintOrder a b := by
    simp [printsBefore, InPrintOrder]
  have htrans (a b c : Matcher) (hab : printsBefore a b = true) (hbc : printsBefore b c = true) :
      printsBefore a c = true := by
    rw [hiff] at hab hbc ⊢
    rcases hab with hab | ⟨hab, hle⟩
    · rcases hbc with hbc | ⟨hbc, -⟩
      · exact .inl (hab.trans hbc)
      · exact .inl (hbc ▸ hab)
    · rcases hbc with hbc | ⟨hbc, hle'⟩
      · exact .inl (hab ▸ hbc)
      · exact .inr ⟨hab.trans hbc, hle.trans hle'⟩
  have htotal (a b : Matcher) : (printsBefore a b || printsBefore b a) = true := by
    rw [Bool.or_eq_true, hiff, hiff]
    rcases lt_trichotomy a.name b.name with h | h | h
    · exact .inl (.inl h)
    · rcases le_total a.text b.text with hle | hle
      · exact .inl (.inr ⟨h, hle⟩)
      · exact .inr (.inr ⟨h.symm, hle⟩)
    · exact .inr (.inl h)
  exact (List.pairwise_mergeSort htrans htotal matchers).imp fun h => (hiff _ _).1 h

namespace Expr

lemma isSome_rereadOption (o : Option Expr) : (rereadOption o).isSome = o.isSome := by
  cases o <;> rfl

mutual

lemma nodes_reread (e : Expr) : e.reread.nodes = e.nodes.map Node.reread := by
  match e with
  | number _ | text _ | vector _ | matrix _ _ => rfl
  | subquery body _ _ _ => simp [reread, nodes, Node.reread, nodes_reread body]
  | call _ arguments =>
    have hlength : (rereadAll arguments).length = arguments.length := by simp [rereadAll_eq_map]
    simp [reread, nodes, Node.reread, nodesOfAll_reread arguments, hlength]
  | aggregate _ parameter body _ =>
    simp [reread, nodes, Node.reread, nodes_reread body, nodesOfOption_reread parameter, isSome_rereadOption]
  | binary _ _ left right => simp [reread, nodes, Node.reread, nodes_reread left, nodes_reread right]
  | unary _ body => simp [reread, nodes, Node.reread, nodes_reread body]
  | paren body => simp [reread, nodes, Node.reread, nodes_reread body]

lemma nodesOfAll_reread (es : List Expr) : nodesOfAll (rereadAll es) = (nodesOfAll es).map Node.reread := by
  match es with
  | [] => rfl
  | e :: es => simp [rereadAll, nodesOfAll, nodes_reread e, nodesOfAll_reread es]

lemma nodesOfOption_reread (o : Option Expr) :
    nodesOfOption (rereadOption o) = (nodesOfOption o).map Node.reread := by
  match o with
  | none => rfl
  | some e => exact nodes_reread e

end

end Expr

lemma TimeFrame.normalises_reread {f : TimeFrame} (h : f.Plain) : f.Normalises f.reread := by
  refine ⟨rfl, ?_⟩
  obtain ⟨instant, offset⟩ := f
  cases offset with
  | none => rfl
  | some o =>
    have ho : o.amount.reread = o.amount := Duration.mod_limit_of_lt (h o rfl)
    by_cases hzero : o.amount.millis = 0 <;> simp [TimeFrame.reread, Offset.reread, Option.filter_some, hzero, ho]

lemma Selector.normalises_reread {s : Selector} (h : s.frame.Plain) : s.Normalises s.reread :=
  ⟨rfl, perm_printOrder s.matchers, pairwise_printOrder s.matchers, TimeFrame.normalises_reread h⟩

lemma Node.normalises_reread {node : Node} (h : node.Plain) : node.Normalises node.reread := by
  cases node with
  | vector s => exact Selector.normalises_reread h
  | matrix s range => exact ⟨Selector.normalises_reread h.2, Duration.mod_limit_of_lt h.1⟩
  | subquery range step frame =>
    refine ⟨Duration.mod_limit_of_lt h.1, ?_, TimeFrame.normalises_reread h.2.2⟩
    cases step with
    | none => rfl
    | some d => exact congrArg some (Duration.mod_limit_of_lt (h.2.1 d rfl))
  | binary op m =>
    change Node.binary op m.reread = _
    rw [Modifiers.reread_of_plain h]
  | _ => rfl

/-- A query that was read is read again from its written form, up to the order of matchers, shifts of no
length and the thousandths of instants. -/
theorem parse_print_normalises {text : String} {e : Expr} (h : parse text = .ok e)
    (hplain : ∀ node ∈ e.nodes, node.Plain) :
    ∃ e', parse e.print = .ok e' ∧ List.Forall₂ Node.Normalises e.nodes e'.nodes := by
  refine ⟨e.reread, Expr.parse_print (Expr.shape_reread e (shape_of_parse h) hplain), ?_⟩
  rw [Expr.nodes_reread, List.forall₂_map_right_iff, List.forall₂_same]
  exact fun node hnode => Node.normalises_reread (hplain node hnode)

/-- Matchers out of order, an instant with four decimals, a shift of no length, and selectors named like
clauses. -/
theorem parse_print_normalises_sample :
    ∃ e, parse "-on\x7bb=\"1\",a=~\"x|y\"\x7d[5m:] @ -1.2345 offset 0s ^ 2 + on (c) group_left() bool" = .ok e ∧
      (∀ node ∈ e.nodes, node.Plain) ∧
      ∃ e', parse e.print = .ok e' ∧ List.Forall₂ Node.Normalises e.nodes e'.nodes := by
  have hread : (parse
      "-on\x7bb=\"1\",a=~\"x|y\"\x7d[5m:] @ -1.2345 offset 0s ^ 2 + on (c) group_left() bool").toOption.any
      (fun e => decide (∀ node ∈ e.nodes, node.Plain)) = true := by decide +kernel
  obtain ⟨e, he, hplain⟩ := exists_ok_of_any hread
  have hnodes := of_decide_eq_true hplain
  exact ⟨e, he, hnodes, parse_print_normalises he hnodes⟩

end Metric

end QueryScope
