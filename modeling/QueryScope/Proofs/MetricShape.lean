import QueryScope.Metric.Reader
import QueryScope.Proofs.OperatorChain

/-!
# The shape of metric queries that are read

The printer writes no parentheses of its own, so that a query reads as it was written only if its
operators nest as precedence has it, its signs stand where a sign is read, and its names are not taken
for clauses. Every query that is read has this shape.
-/

namespace QueryScope

open Scan

/-- The first name of an operand is no clause that could follow the clauses before it. -/
def Modifiers.Apart (m : Modifiers) (lead : Option String) : Prop :=
  match m.matching with
  | none => (m.bool = false → lead ≠ some "bool") ∧ lead ≠ some "on" ∧ lead ≠ some "ignoring"
  | some x => x.group = none → lead ≠ some "group_left" ∧ lead ≠ some "group_right"

namespace Metric

/-- The name and the matchers of a selector can be written and read. -/
structure Selector.Valid (s : Selector) : Prop where
  matchers : ∀ m ∈ s.matchers, m.Valid
  named : ∀ name ∈ s.name, Label.isMetricName name = true ∧ specialNumber? name.toList = none ∧
    ∀ m ∈ s.matchers, m.name ≠ Label.metricLabel
  nameless : s.name = none → s.matchers.all Matcher.matchesEmpty = false

namespace Expr

section Binding

-- Which numbers are written with a sign is a matter of the printer; it is left open here.
variable (signed : Number.Binary64 → Bool)

/-- How strongly the parts of an expression are bound together: more than a power if there is nothing
but one operand. -/
def binding : Expr → Nat
  | binary op _ _ _ => op.precedence
  | unary _ _ => 7
  | number value => if signed value then 7 else 8
  | _ => 8

/-- An operator as strong as this would take the end of the expression for its left operand. -/
def limit : Expr → Nat
  | binary op _ _ _ => op.rightPrecedence
  | unary _ _ => 6
  | number value => if signed value then 6 else 7
  | _ => 7

end Binding

/-- The name of the selector that an expression begins with. -/
def lead : Expr → Option String
  | vector selector => selector.name
  | matrix selector _ => selector.name
  | subquery body _ _ _ => body.lead
  | binary _ _ left _ => left.lead
  | _ => none

mutual

/-- The expression is read from its written form, given which numbers are written with a sign. -/
def Shape (signed : Number.Binary64 → Bool) : Expr → Prop
  | number _ | text _ => True
  | vector selector => selector.Valid
  | matrix selector _ => selector.Valid
  | subquery body _ _ _ => body.Shape signed ∧ body.binding signed = 8
  | call function arguments => function ∈ functionNames ∧ ShapeOfAll signed arguments
  | aggregate op parameter body grouping =>
    parameter.isSome = op.takesParameter ∧ ShapeOfOption signed parameter ∧ body.Shape signed ∧
      ∀ g ∈ grouping, ∀ l ∈ g.labels, Label.isLabelName l = true
  | binary op modifiers left right =>
    left.Shape signed ∧ right.Shape signed ∧ modifiers.Valid op ∧ modifiers.Apart right.lead ∧
      op.precedence < left.limit signed ∧ op.rightPrecedence ≤ right.binding signed
  | unary _ body => body.Shape signed ∧ 6 ≤ body.binding signed ∧ ∀ value, body ≠ number value
  | paren body => body.Shape signed

/-- All expressions of a list are read from their written forms. -/
def ShapeOfAll (signed : Number.Binary64 → Bool) : List Expr → Prop
  | [] => True
  | e :: rest => e.Shape signed ∧ ShapeOfAll signed rest

/-- An expression that may be missing is read from its written form. -/
def ShapeOfOption (signed : Number.Binary64 → Bool) : Option Expr → Prop
  | none => True
  | some e => e.Shape signed

end

/-- Behind an operand without sign any operator may follow. -/
lemma limit_of_binding {signed : Number.Binary64 → Bool} {e : Expr} (h : e.binding signed = 8) :
    e.limit signed = 7 := by
  cases e with
  | number value =>
    simp only [binding] at h
    simp only [limit]
    split_ifs at h ⊢ with hsign
    · omega
    · rfl
  | binary op _ _ _ =>
    have hle := op.precedence_le
    simp only [binding] at h
    omega
  | unary _ _ => simp [binding] at h
  | _ => rfl

lemma shapeOfAll_iff {signed : Number.Binary64 → Bool} {es : List Expr} :
    ShapeOfAll signed es ↔ ∀ e ∈ es, e.Shape signed := by
  induction es with
  | nil => simp [ShapeOfAll]
  | cons e es ih => simp [ShapeOfAll, ih]

end Expr

/-! ## Operands and operators -/

open Operator

/-- The numbers that are negative when they are read. -/
abbrev isNegative : Number.Binary64 → Bool :=
  Number.Binary64.isNegative

/-- The name that an expression begins with stands at the start of the text it was read from. -/
def LeadsIn (e : Expr) (input : List Char) : Prop :=
  ∀ name ∈ e.lead, (afterKeyword? name (dropBlanks false input)).isSome = true

/-- What is read is of the right shape, and no operator that would have been taken is left. -/
structure ReadsOperand (e : Expr) (input rest : List Char) : Prop where
  shape : e.Shape isNegative
  binds : 7 ≤ e.binding isNegative
  stops : Stops (e.limit isNegative) rest
  leads : LeadsIn e input
  shorter : rest.length ≤ input.length

/-- A reader of operands. -/
def IsOperand (inner : Scanner Expr) : Prop :=
  ∀ ⦃input : List Char⦄ ⦃e : Expr⦄ ⦃rest : List Char⦄, inner input = .ok (e, rest) →
    ReadsOperand e input rest

lemma apart_of_clear {m : Modifiers} {tail : List Char} (hclear : m.Clear tail) (hsolid : Solid tail)
    {e : Expr} (hleads : LeadsIn e tail) : m.Apart e.lead := by
  have hne {word : String} (hnone : afterKeyword? word tail = none) : e.lead ≠ some word := by
    intro hlead
    have hsome := hleads word hlead
    rw [hsolid.eq, hnone] at hsome
    simp at hsome
  unfold Modifiers.Clear at hclear
  unfold Modifiers.Apart
  cases hm : m.matching with
  | none =>
    simp only [hm] at hclear
    exact ⟨fun hbool => hne (hclear.1 hbool), hne hclear.2.1, hne hclear.2.2⟩
  | some x =>
    simp only [hm] at hclear
    exact fun hgroup => ⟨hne (hclear hgroup).1, hne (hclear hgroup).2⟩

lemma rightPrecedence_le (op : Operator) : op.rightPrecedence ≤ 6 := by
  cases op <;> decide

/-- What follows an operand is taken operator by operator: each finds its left operand closed and its
right operand bound strongly enough. -/
lemma extend_shape {inner : Scanner Expr} (hinner : IsOperand inner) {bound least : Nat} {left e : Expr}
    {input rest : List Char} (hbound : input.length < bound)
    (h : Operator.extend inner Expr.binary bound least left input = .ok (e, rest))
    (hleft : left.Shape isNegative) (hbinds : least ≤ left.binding isNegative)
    (hstops : Stops (left.limit isNegative) input) :
    e.Shape isNegative ∧ least ≤ e.binding isNegative ∧ Stops (e.limit isNegative) rest ∧
      Stops least rest ∧ e.lead = left.lead ∧ rest.length ≤ input.length := by
  induction bound generalizing least left input e rest with
  | zero => omega
  | succ bound ih =>
    rcases next?_cases least input with ⟨op, behind, hscan, hle⟩ | hstop
    · rw [extend_of_scan hscan hle] at h
      obtain ⟨clauses, tail, hclauses, h⟩ := bind_eq_ok_iff.1 h
      obtain ⟨right, after, hright, h⟩ := bind_eq_ok_iff.1 h
      obtain ⟨first, middle, hfirst, hright⟩ := bind_eq_ok_iff.1 (rightOperand_eq_ok_iff.1 hright)
      have hbehind := length_scan_lt hscan
      have hstart := length_dropBlanks_le false input
      have hgap := length_dropBlanks_le false behind
      obtain ⟨hvalid, hclear, hsolid, htail⟩ := modifiers_sound hclauses (solid_dropBlanks false behind)
      have hread := hinner hfirst
      have hmiddle := hread.shorter
      have hop := rightPrecedence_le op
      have hfirstBinds := hread.binds
      obtain ⟨hshape, hrightBinds, -, hrightStops, hlead, hafter⟩ :=
        ih (by omega) hright hread.shape (by omega) hread.stops
      have hapart : clauses.Apart right.lead :=
        hlead ▸ apart_of_clear hclear hsolid hread.leads
      have hbinary : (Expr.binary op clauses left right).Shape isNegative :=
        ⟨hleft, hshape, hvalid, hapart, hstops.precedence_lt hscan, hrightBinds⟩
      obtain ⟨hshape', hbinds', hlimit', hstops', hlead', hrest⟩ := ih (by omega) h hbinary hle hrightStops
      exact ⟨hshape', hbinds', hlimit', hstops', hlead', by omega⟩
    · rw [extend_of_stops hstop] at h
      obtain ⟨rfl, rfl⟩ := Prod.mk.inj (Except.ok.inj h)
      exact ⟨hleft, hbinds, hstops, hstop, rfl, le_rfl⟩

lemma chain_shape {inner : Scanner Expr} (hinner : IsOperand inner) {least : Nat} (hleast : least ≤ 7)
    {e : Expr} {input rest : List Char} (h : chain inner least input = .ok (e, rest)) :
    e.Shape isNegative ∧ least ≤ e.binding isNegative ∧ Stops least rest ∧ LeadsIn e input ∧
      rest.length ≤ input.length := by
  obtain ⟨first, middle, hfirst, h⟩ := bind_eq_ok_iff.1 h
  rw [bind_of_ok (get_apply _)] at h
  have hread := hinner hfirst
  obtain ⟨hshape, hbinds, -, hstops, hlead, hrest⟩ :=
    extend_shape hinner (Nat.lt_succ_self _) h hread.shape (hleast.trans hread.binds) hread.stops
  refine ⟨hshape, hbinds, hstops, ?_, hrest.trans hread.shorter⟩
  intro name hname
  exact hread.leads name (hlead ▸ hname)

/-! ## Selectors and suffixes -/

/-- The matchers of a selector, if there are any. -/
def optionalBlock : Scanner (List Matcher) := fun before =>
  if (dropBlanks false before).head? = some '\x7b' then Matcher.block (dropBlanks false before)
  else .ok ([], before)

/-- The checks on a selector. The first one is part of the last one. -/
lemma checkSelector_eq_ok_iff {name : Option String} {matchers : List Matcher} {before behind rest : List Char}
    {s : Selector} :
    (do
      if name.isNone && matchers.isEmpty && before.head? != some '\x7b' then miss
      if name.isSome && matchers.any fun m => m.name = Label.metricLabel then
        refuse "metric name must not be set twice"
      if name.isNone && matchers.all Matcher.matchesEmpty then
        refuse "vector selector must contain at least one non-empty matcher"
      return { name, matchers } : Scanner Selector) behind = .ok (s, rest) ↔
    s = { name, matchers } ∧ rest = behind ∧
      ¬(name.isSome && matchers.any fun m => m.name = Label.metricLabel) = true ∧
      ¬(name.isNone && matchers.all Matcher.matchesEmpty) = true := by
  by_cases hempty : (name.isNone && matchers.isEmpty && before.head? != some '\x7b') = true
  · have hmiss : (miss : Scanner Unit) behind = .error ⟨false, [], behind⟩ := rfl
    simp only [hempty, if_true, bind_of_error hmiss]
    simp only [Bool.and_eq_true, List.isEmpty_iff] at hempty
    simp [hempty.1.1, hempty.1.2]
  · rw [if_neg hempty]
    constructor
    · intro h
      obtain ⟨htwice, h⟩ := guard_eq_ok_iff.1 h
      obtain ⟨hall, h⟩ := guard_eq_ok_iff.1 h
      simp only [pure_apply, Except.ok.injEq, Prod.mk.injEq] at h
      exact ⟨h.1.symm, h.2.symm, htwice, hall⟩
    · rintro ⟨rfl, rfl, htwice, hall⟩
      exact guard_eq_ok_iff.2 ⟨htwice, guard_eq_ok_iff.2 ⟨hall, rfl⟩⟩

/-- A selector is a name or a block of matchers or both. -/
lemma scanSelector_eq_ok_iff {input rest : List Char} {s : Selector} :
    scanSelector input = .ok (s, rest) ↔ ∃ name before matchers, s = { name, matchers } ∧
      opt metricName input = .ok (name, before) ∧ optionalBlock before = .ok (matchers, rest) ∧
        ¬(name.isSome && matchers.any fun m => m.name = Label.metricLabel) = true ∧
        ¬(name.isNone && matchers.all Matcher.matchesEmpty) = true := by
  rw [scanSelector, bind_eq_ok_iff]
  constructor
  · rintro ⟨name, before, hname, h⟩
    rw [bind_of_ok (get_apply _), bind_of_ok (blanks_apply _), bind_of_ok (peek_apply _)] at h
    by_cases hbrace : (dropBlanks false before).head? = some '\x7b'
    · rw [if_pos hbrace] at h
      obtain ⟨matchers, behind, hmatchers, h⟩ := bind_eq_ok_iff.1 h
      obtain ⟨rfl, rfl, hchecks⟩ := checkSelector_eq_ok_iff.1 h
      exact ⟨name, before, matchers, rfl, hname, by rw [optionalBlock, if_pos hbrace, hmatchers], hchecks⟩
    · rw [if_neg hbrace, bind_of_ok (set_apply _ _), bind_of_ok (pure_apply _ _)] at h
      obtain ⟨rfl, rfl, hchecks⟩ := checkSelector_eq_ok_iff.1 h
      exact ⟨name, rest, [], rfl, hname, by rw [optionalBlock, if_neg hbrace], hchecks⟩
  · rintro ⟨name, before, matchers, rfl, hname, hblock, hchecks⟩
    refine ⟨name, before, hname, ?_⟩
    rw [bind_of_ok (get_apply _), bind_of_ok (blanks_apply _), bind_of_ok (peek_apply _)]
    unfold optionalBlock at hblock
    by_cases hbrace : (dropBlanks false before).head? = some '\x7b'
    · rw [if_pos hbrace] at hblock ⊢
      exact bind_eq_ok_iff.2 ⟨matchers, rest, hblock, checkSelector_eq_ok_iff.2 ⟨rfl, rfl, hchecks⟩⟩
    · rw [if_neg hbrace] at hblock ⊢
      obtain ⟨rfl, rfl⟩ := Prod.mk.inj (Except.ok.inj hblock)
      rw [bind_of_ok (set_apply _ _), bind_of_ok (pure_apply _ _)]
      exact checkSelector_eq_ok_iff.2 ⟨rfl, rfl, hchecks⟩

lemma yields_optionalBlock : Yields (fun matchers => ∀ m ∈ matchers, m.Valid) optionalBlock := by
  intro input matchers rest h
  unfold optionalBlock at h
  split_ifs at h
  · obtain ⟨hvalid, hlength⟩ := Matcher.yields_block h
    exact ⟨hvalid, hlength.trans (length_dropBlanks_le false input)⟩
  · obtain ⟨rfl, rfl⟩ := Prod.mk.inj (Except.ok.inj h)
    simp

/-- A name begins a text and is no number. -/
lemma scanSelector_sound {input rest : List Char} {s : Selector} (h : scanSelector input = .ok (s, rest))
    (hnumber : specialNumber? input = none) :
    s.Valid ∧ s.frame = {} ∧ rest.length ≤ input.length ∧
      ∀ name ∈ s.name, (afterKeyword? name input).isSome = true := by
  obtain ⟨name, before, matchers, rfl, hname, hblock, htwice, hempty⟩ := scanSelector_eq_ok_iff.1 h
  obtain ⟨hmatchers, hrest⟩ := yields_optionalBlock hblock
  have hbefore := (yields_metricName.opt hname).2
  have hread {n : String} (hn : name = some n) :
      input = n.toList ++ before ∧ Label.isMetricName n = true ∧
        before.head?.any Label.isMetricNameChar = false :=
    metricName_eq_ok_iff.1 (opt_eq_some_iff.1 (hn ▸ hname))
  refine ⟨⟨hmatchers, fun n hn => ?_, fun hn => ?_⟩, rfl, hrest.trans hbefore, fun n hn => ?_⟩
  · obtain ⟨rfl, hvalid, hstop⟩ := hread hn
    refine ⟨hvalid, ?_, ?_⟩
    · exact (specialNumber?_append_word hstop).1 hnumber
    · obtain rfl : name = some n := hn
      simpa using htwice
  · obtain rfl : name = none := hn
    simpa using hempty
  · obtain ⟨rfl, -, hstop⟩ := hread hn
    rw [afterKeyword?_eq_some_iff.2 ⟨rfl, hstop⟩]
    rfl

/-- What an operand without sign keeps when suffixes are added to it. -/
structure Grows (base e : Expr) : Prop where
  shape : base.Shape isNegative → base.binding isNegative = 8 → e.Shape isNegative
  binds : base.binding isNegative = 8 → e.binding isNegative = 8
  lead : e.lead = base.lead

lemma Grows.trans {base next e : Expr} (hfirst : Grows base next) (hsecond : Grows next e) : Grows base e :=
  ⟨fun hshape hbinds => hsecond.shape (hfirst.shape hshape hbinds) (hfirst.binds hbinds),
    fun hbinds => hsecond.binds (hfirst.binds hbinds), hsecond.lead.trans hfirst.lead⟩

lemma grows_withFrame (base : Expr) (frame : TimeFrame) : Grows base (base.withFrame frame) := by
  cases base with
  | vector s => exact ⟨fun h _ => ⟨h.matchers, h.named, h.nameless⟩, id, rfl⟩
  | matrix s range => exact ⟨fun h _ => ⟨h.matchers, h.named, h.nameless⟩, id, rfl⟩
  | _ => exact ⟨fun h _ => h, id, rfl⟩

lemma yields_bracketDuration : Yields (fun _ => True) bracketDuration :=
  Duration.yields_scan.commit.expecting "duration"

lemma consumes_rangeSuffix (base : Expr) : Consumes (Grows base) (rangeSuffix base) := by
  refine (consumes_literal (by decide)).bind fun _ _ => yields_blanks.bind fun _ _ => ?_
  refine yields_bracketDuration.bind fun range _ => yields_blanks.bind fun _ _ => ?_
  refine (yields_optLiteral ":").bind fun colon _ => .ite (fun _ => ?_) fun _ => ?_
  · have hend (step : Option Duration) : Yields (Grows base) (do
        blanks
        expecting "']'" (commit (literal "]"))
        return .subquery base range step {}) :=
      yields_blanks.bind fun _ _ => ((yields_literal "]").commit.expecting _).bind fun _ _ =>
        .pure ⟨fun hshape hbinds => ⟨hshape, hbinds⟩, fun _ => rfl, rfl⟩
    refine yields_blanks.bind fun _ _ => yields_peek.bind fun next _ => .ite (fun _ => ?_) fun _ => ?_
    · exact hend none
    · exact (yields_bracketDuration.map (R := fun _ => True) fun _ _ => trivial).bind fun step _ => hend step
  · refine ((yields_literal "]").commit.expecting _).bind fun _ _ => ?_
    cases base with
    | vector s => exact .ite (fun _ => .pure ⟨fun hshape _ => hshape, id, rfl⟩) fun _ => yields_refuse _
    | _ => exact yields_refuse _

/-- A time of evaluation is added to an expression that has one, unless a check refuses it. -/
lemma yields_reframe {base : Expr} {check : TimeFrame → Bool} {refusal missing : String}
    {change : TimeFrame → TimeFrame} :
    Yields (Grows base) (match base.frame? with
      | none => refuse missing
      | some frame => if check frame then refuse refusal else return base.withFrame (change frame)) := by
  cases base.frame? with
  | none => exact yields_refuse _
  | some frame => exact .ite (fun _ => yields_refuse _) fun _ => .pure (grows_withFrame base _)

lemma consumes_offsetSuffix (base : Expr) : Consumes (Grows base) (offsetSuffix base) := by
  refine (consumes_keyword (by decide)).bind fun _ _ => yields_blanks.bind fun _ _ => ?_
  refine (yields_optLiteral "-").bind fun negative _ => ?_
  exact (Duration.yields_scan.commit.expecting _).bind fun amount _ => yields_reframe

lemma yields_scanInstant : Yields (fun _ => True) scanInstant := by
  have hparens : Yields (fun _ => True) emptyParens :=
    yields_blanks.bind fun _ _ => ((yields_literal "(").bind fun _ _ => yields_blanks.bind fun _ _ =>
      yields_literal ")").commit.expecting _
  refine (yields_optKeyword "start").bind fun start _ => .ite (fun _ => ?_) fun _ => ?_
  · exact hparens.bind fun _ _ => .pure trivial
  · refine (yields_optKeyword "end").bind fun finish _ => .ite (fun _ => ?_) fun _ => ?_
    · exact hparens.bind fun _ _ => .pure trivial
    · exact (yields_optLiteral "-").bind fun negative _ =>
        (yields_number.commit.expecting _).bind fun seconds _ => .pure trivial

lemma consumes_instantSuffix (base : Expr) : Consumes (Grows base) (instantSuffix base) := by
  refine (consumes_literal (by decide)).bind fun _ _ => yields_blanks.bind fun _ _ => ?_
  exact yields_scanInstant.bind fun instant _ => yields_reframe

/-- The reader of the suffix that a text begins with. -/
def suffixAt? (base : Expr) (here : List Char) : Option (Scanner Expr) :=
  if here.head? = some '[' then some (rangeSuffix base)
  else if (afterKeyword? "offset" here).isSome then some (offsetSuffix base)
  else if here.head? = some '@' then some (instantSuffix base)
  else none

lemma suffixes_succ (bound : Nat) (base : Expr) (input : List Char) :
    suffixes (bound + 1) base input =
      match suffixAt? base (dropBlanks false input) with
      | none => .ok (base, input)
      | some suffix => (suffix >>= suffixes bound) (dropBlanks false input) := by
  rw [suffixes, bind_of_ok (get_apply _), bind_of_ok (blanks_apply _), bind_of_ok (get_apply _), suffixAt?]
  split_ifs <;> rfl

lemma consumes_of_suffixAt? {base : Expr} {here : List Char} {suffix : Scanner Expr}
    (h : suffixAt? base here = some suffix) : Consumes (Grows base) suffix := by
  unfold suffixAt? at h
  split_ifs at h
  · exact Option.some.inj h ▸ consumes_rangeSuffix base
  · exact Option.some.inj h ▸ consumes_offsetSuffix base
  · exact Option.some.inj h ▸ consumes_instantSuffix base

lemma yields_suffixes (bound : Nat) (base : Expr) : Yields (Grows base) (suffixes bound base) := by
  induction bound generalizing base with
  | zero => exact .pure ⟨fun h _ => h, id, rfl⟩
  | succ bound ih =>
    intro input e rest h
    rw [suffixes_succ] at h
    cases hsuffix : suffixAt? base (dropBlanks false input) with
    | none =>
      simp only [hsuffix, Except.ok.injEq, Prod.mk.injEq] at h
      obtain ⟨rfl, rfl⟩ := h
      exact ⟨⟨fun h _ => h, id, rfl⟩, le_rfl⟩
    | some suffix =>
      simp only [hsuffix] at h
      have hstart := length_dropBlanks_le false input
      obtain ⟨next, middle, hnext, hrest⟩ := bind_eq_ok_iff.1 h
      obtain ⟨hgrows, hmiddle⟩ := consumes_of_suffixAt? hsuffix hnext
      obtain ⟨hgrows', hlength⟩ := ih next hrest
      exact ⟨hgrows.trans hgrows', by omega⟩

/-! ## Operands without sign -/

/-- An expression between brackets of its own, or without parts. -/
structure Closed (e : Expr) : Prop where
  shape : e.Shape isNegative
  binds : e.binding isNegative = 8
  lead : e.lead = none

section Primaries

variable {inner : Scanner Expr} (hinner : IsOperand inner)

include hinner

lemma yields_scanExpr : Yields (Expr.Shape isNegative) (scanExpr inner) := by
  intro input e rest h
  obtain ⟨hshape, -, -, -, hrest⟩ := chain_shape hinner (by decide) h
  exact ⟨hshape, hrest⟩

lemma yields_scanParen : Yields Closed (scanParen inner) := by
  refine (yields_literal "(").bind fun _ _ => yields_blanks.bind fun _ _ => ?_
  refine ((yields_scanExpr hinner).commit.expecting _).bind fun body hbody => ?_
  exact yields_blanks.bind fun _ _ => ((yields_literal ")").commit.expecting _).bind fun _ _ =>
    .pure ⟨hbody, rfl, rfl⟩

lemma yields_moreArguments (bound : Nat) :
    Yields (fun es => ∀ e ∈ es, e.Shape isNegative) (moreArguments inner bound) := by
  induction bound with
  | zero => exact yields_miss
  | succ bound ih =>
    refine yields_blanks.bind fun _ _ => ?_
    refine ((yields_scanExpr hinner).commit.expecting _).bind fun first hfirst => ?_
    refine yields_blanks.bind fun _ _ => (yields_optLiteral ",").bind fun more _ => ?_
    refine .ite (fun _ => ih.bind fun es hes => .pure (by simpa using ⟨hfirst, hes⟩)) fun _ => ?_
    exact ((yields_literal ")").commit.expecting _).bind fun _ _ => .pure (by simpa using hfirst)

lemma yields_scanArguments : Yields (fun es => ∀ e ∈ es, e.Shape isNegative) (scanArguments inner) := by
  refine (yields_literal "(").bind fun _ _ => yields_blanks.bind fun _ _ => ?_
  refine (yields_optLiteral ")").bind fun closed _ => .ite (fun _ => .pure (by simp)) fun _ => ?_
  exact yields_get.bind fun here _ => yields_moreArguments hinner _

omit hinner in
lemma yields_makeAggregate {op : Aggregation} {grouping : Option Grouping} {arguments : List Expr}
    (hgrouping : ∀ g ∈ grouping, ∀ l ∈ g.labels, Label.isLabelName l = true)
    (harguments : ∀ e ∈ arguments, e.Shape isNegative) :
    Yields Closed (makeAggregate op grouping arguments) := by
  unfold makeAggregate
  split
  case h_1 body =>
    refine .ite (fun _ => yields_refuse _) fun hop => .pure ⟨⟨?_, trivial, ?_, hgrouping⟩, rfl, rfl⟩
    · simpa using hop
    · exact harguments body (by simp)
  case h_2 parameter body =>
    refine .ite (fun hop => .pure ⟨⟨?_, ?_, ?_, hgrouping⟩, rfl, rfl⟩) fun _ => yields_refuse _
    · simpa using hop
    · exact harguments parameter (by simp)
    · exact harguments body (by simp)
  case h_3 => exact yields_refuse _

lemma yields_scanAggregate (op : Aggregation) : Yields Closed (scanAggregate inner op) := by
  refine yields_grouping.opt.bind fun leading hleading => yields_blanks.bind fun _ _ => ?_
  refine ((yields_scanArguments hinner).commit.expecting _).bind fun arguments harguments => ?_
  refine (yields_blanks.bind fun _ _ => yields_grouping).opt.bind fun trailing htrailing => ?_
  have hgrouping : ∀ g ∈ leading.or trailing, ∀ l ∈ g.labels, Label.isLabelName l = true := by
    cases leading with
    | none => exact htrailing
    | some g => exact hleading
  intro input e rest h
  exact yields_makeAggregate hgrouping harguments (guard_eq_ok_iff.1 h).2

lemma scanApplication?_sound {input rest : List Char} {o : Option Expr}
    (h : scanApplication? inner input = .ok (o, rest)) :
    (o = none → rest = input) ∧ ∀ e ∈ o, Closed e ∧ rest.length ≤ input.length := by
  rw [scanApplication?, bind_of_ok (get_apply _)] at h
  obtain ⟨name, behind, hname, h⟩ := bind_eq_ok_iff.1 h
  have hbehind := (yields_labelName.opt hname).2
  have hgap := length_dropBlanks_le false behind
  cases name with
  | none =>
    simp only [pure_apply, Except.ok.injEq, Prod.mk.injEq] at h
    obtain ⟨rfl, rfl⟩ := h
    exact ⟨fun _ => (opt_eq_none_iff.1 hname).1, by simp⟩
  | some name =>
    simp only [bind_of_ok (blanks_apply _), bind_of_ok (get_apply _)] at h
    have hplain (hread : (if (dropBlanks false behind).head? = some '(' then
          if functionNames.contains name then do return some (.call name (← scanArguments inner))
          else do
            set input
            refuse "unknown function"
        else do
          set input
          return none : Scanner (Option Expr)) (dropBlanks false behind) = .ok (o, rest)) :
        (o = none → rest = input) ∧ ∀ e ∈ o, Closed e ∧ rest.length ≤ input.length := by
      split_ifs at hread with hcall hfunction
      · obtain ⟨arguments, tail, harguments, hresult⟩ := bind_eq_ok_iff.1 hread
        simp only [pure_apply, Except.ok.injEq, Prod.mk.injEq] at hresult
        obtain ⟨rfl, rfl⟩ := hresult
        obtain ⟨hshapes, hrest⟩ := yields_scanArguments hinner harguments
        have hclosed : Closed (.call name arguments) :=
          ⟨⟨by simpa using hfunction, Expr.shapeOfAll_iff.2 hshapes⟩, rfl, rfl⟩
        have hlength : tail.length ≤ input.length := by omega
        simpa using ⟨hclosed, hlength⟩
      · rw [bind_of_ok (set_apply _ _)] at hread
        simp [refuse] at hread
      · rw [bind_of_ok (set_apply _ _)] at hread
        simp only [pure_apply, Except.ok.injEq, Prod.mk.injEq] at hread
        obtain ⟨rfl, rfl⟩ := hread
        simp
    cases hop : Aggregation.ofSymbol? name with
    | none =>
      rw [hop] at h
      exact hplain h
    | some op =>
      rw [hop] at h
      revert h
      cases (decide ((dropBlanks false behind).head? = some '(') ||
        ((afterKeyword? "by" (dropBlanks false behind)).isSome ||
          (afterKeyword? "without" (dropBlanks false behind)).isSome)) with
      | false => exact hplain
      | true =>
        intro h
        obtain ⟨e, he, rfl⟩ := map_eq_ok_iff.1 h
        obtain ⟨hclosed, hrest⟩ := yields_scanAggregate hinner op he
        have hlength : rest.length ≤ input.length := by omega
        simpa using ⟨hclosed, hlength⟩

/-- What an operand without sign is read from. -/
structure ReadsPrimary (e : Expr) (input rest : List Char) : Prop where
  shape : e.Shape isNegative
  binds : e.binding isNegative = 8
  leads : ∀ name ∈ e.lead, (afterKeyword? name input).isSome = true
  shorter : rest.length ≤ input.length

omit hinner in
lemma Closed.reads {e : Expr} (h : Closed e) {input rest : List Char} (hrest : rest.length ≤ input.length) :
    ReadsPrimary e input rest :=
  ⟨h.shape, h.binds, by simp [h.lead], hrest⟩

omit hinner in
lemma reads_of_scanSelector {input rest : List Char} {s : Selector}
    (h : scanSelector input = .ok (s, rest)) (hnumber : specialNumber? input = none) :
    ReadsPrimary (.vector s) input rest := by
  obtain ⟨hvalid, -, hrest, hlead⟩ := scanSelector_sound h hnumber
  exact ⟨hvalid, rfl, hlead, hrest⟩

omit hinner in
lemma reads_of_number {input rest : List Char} {v : Number.Binary64} (h : number input = .ok (v, rest)) :
    ReadsPrimary (.number v) input rest := by
  obtain ⟨hsign, hrest⟩ := yields_number h
  exact ⟨trivial, by simp [Expr.binding, isNegative, hsign], by simp [Expr.lead], hrest⟩

omit hinner in
lemma specialNumber?_of_number_error {input : List Char} {failure : Failure}
    (h : number input = .error failure) : specialNumber? input = none := by
  cases hspecial : specialNumber? input with
  | none => rfl
  | some result => simp [number, hspecial] at h

lemma scanNamed_sound {input rest : List Char} {e : Expr} (h : scanNamed inner input = .ok (e, rest)) :
    ReadsPrimary e input rest := by
  obtain ⟨value, behind, hvalue, hnamed⟩ := bind_eq_ok_iff.1 h
  cases value with
  | some v =>
    simp only [pure_apply, Except.ok.injEq, Prod.mk.injEq] at hnamed
    obtain ⟨rfl, rfl⟩ := hnamed
    exact reads_of_number (opt_eq_some_iff.1 hvalue)
  | none =>
    obtain ⟨rfl, failure, hmiss, -⟩ := opt_eq_none_iff.1 hvalue
    obtain ⟨application, tail, happlication, hresult⟩ := bind_eq_ok_iff.1 hnamed
    have hsound := scanApplication?_sound hinner happlication
    cases application with
    | some a =>
      simp only [pure_apply, Except.ok.injEq, Prod.mk.injEq] at hresult
      obtain ⟨rfl, rfl⟩ := hresult
      obtain ⟨hclosed, hrest⟩ := hsound.2 a rfl
      exact hclosed.reads hrest
    | none =>
      obtain rfl : tail = behind := hsound.1 rfl
      obtain ⟨s, last, hs, hselector⟩ := bind_eq_ok_iff.1 hresult
      simp only [pure_apply, Except.ok.injEq, Prod.mk.injEq] at hselector
      obtain ⟨rfl, rfl⟩ := hselector
      exact reads_of_scanSelector hs (specialNumber?_of_number_error hmiss)

lemma scanPrimary_sound {input rest : List Char} {e : Expr} (h : scanPrimary inner input = .ok (e, rest)) :
    ReadsPrimary e input rest := by
  rw [scanPrimary, bind_of_ok (peek_apply _)] at h
  cases input with
  | nil => simp [miss] at h
  | cons c input =>
    simp only [List.head?_cons] at h
    split_ifs at h with hparen hbrace hquote hdigit hname
    · obtain ⟨hclosed, hrest⟩ := yields_scanParen hinner h
      exact hclosed.reads hrest
    · obtain ⟨s, tail, hs, h⟩ := bind_eq_ok_iff.1 h
      simp only [pure_apply, Except.ok.injEq, Prod.mk.injEq] at h
      obtain ⟨rfl, rfl⟩ := h
      subst hbrace
      have hspecial : specialNumber? ('\x7b' :: input) = none := by
        have hlower : Char.toLower '\x7b' = '\x7b' := by decide
        simp [specialNumber?, hlower]
      exact reads_of_scanSelector hs hspecial
    · obtain ⟨t, tail, ht, h⟩ := bind_eq_ok_iff.1 h
      simp only [pure_apply, Except.ok.injEq, Prod.mk.injEq] at h
      obtain ⟨rfl, rfl⟩ := h
      exact ⟨trivial, rfl, by simp [Expr.lead], (yields_stringLiteral ht).2⟩
    · obtain ⟨v, tail, hv, h⟩ := bind_eq_ok_iff.1 h
      simp only [pure_apply, Except.ok.injEq, Prod.mk.injEq] at h
      obtain ⟨rfl, rfl⟩ := h
      exact reads_of_number hv
    · exact scanNamed_sound hinner h
    · simp [miss] at h

omit hinner in
/-- A sign becomes part of a number, and stands before anything else that a power may be. -/
lemma signed_reads (negative : Bool) {body : Expr} {rest : List Char} (hshape : body.Shape isNegative)
    (hbinds : 6 ≤ body.binding isNegative) (hstops : Stops 6 rest) :
    (signed negative body).Shape isNegative ∧ 7 ≤ (signed negative body).binding isNegative ∧
      Stops ((signed negative body).limit isNegative) rest ∧ (signed negative body).lead = none := by
  have hnumber (v : Number.Binary64) : 7 ≤ (Expr.number v).binding isNegative ∧
      Stops ((Expr.number v).limit isNegative) rest := by
    constructor
    · simp only [Expr.binding]
      split_ifs <;> decide
    · refine hstops.mono ?_
      simp only [Expr.limit]
      split_ifs <;> decide
  cases body with
  | number v => exact ⟨trivial, (hnumber _).1, (hnumber _).2, rfl⟩
  | _ => exact ⟨⟨hshape, hbinds, by simp⟩, le_rfl, hstops, rfl⟩

lemma isOperand_scanOperand : IsOperand (scanOperand inner) := by
  intro input e rest h
  have hstart := length_dropBlanks_le false input
  rw [scanOperand, bind_of_ok (blanks_apply _)] at h
  obtain ⟨sign, behind, hsign, hread⟩ := bind_eq_ok_iff.1 h
  cases sign with
  | some negative =>
    have hbehind := (yields_literalOf _ (opt_eq_some_iff.1 hsign)).2
    simp only [bind_of_ok (blanks_apply _)] at hread
    obtain ⟨body, tail, hbody, hresult⟩ := bind_eq_ok_iff.1 hread
    simp only [pure_apply, Except.ok.injEq, Prod.mk.injEq] at hresult
    obtain ⟨rfl, rfl⟩ := hresult
    obtain ⟨hshape, hbinds, hstops, -, hlength⟩ :=
      chain_shape hinner (by decide) (commit_eq_ok_iff.1 (expecting_eq_ok_iff.1 hbody))
    have hgap := length_dropBlanks_le false behind
    obtain ⟨hshape', hbinds', hstops', hlead⟩ := signed_reads negative hshape hbinds hstops
    exact ⟨hshape', hbinds', hstops', by simp [LeadsIn, hlead], by omega⟩
  | none =>
    obtain ⟨rfl, -⟩ := opt_eq_none_iff.1 hsign
    obtain ⟨base, middle, hbase, hsuffixes⟩ := bind_eq_ok_iff.1 hread
    simp only [bind_of_ok (get_apply _)] at hsuffixes
    have hprimary := scanPrimary_sound hinner hbase
    obtain ⟨hgrows, hrest⟩ := yields_suffixes _ base hsuffixes
    have hmiddle := hprimary.shorter
    have hbinds := hgrows.binds hprimary.binds
    refine ⟨hgrows.shape hprimary.shape hprimary.binds, by rw [hbinds]; decide, ?_, ?_, by omega⟩
    · exact stops_of_lt (by rw [Expr.limit_of_binding hbinds]; decide) rest
    · intro name hname
      exact hprimary.leads name (hgrows.lead ▸ hname)

end Primaries

/-- Every operand that is read has the shape of one. -/
lemma isOperand_operand (depth : Nat) : IsOperand (operand depth) := by
  induction depth with
  | zero =>
    intro input e rest h
    simp [operand, miss] at h
  | succ depth ih => exact isOperand_scanOperand ih

/-- Every query that is read has the shape that its written form needs. -/
lemma shape_of_parse {text : String} {e : Expr} (h : parse text = .ok e) : e.Shape isNegative := by
  unfold parse at h
  split_ifs at h
  unfold readAll at h
  split at h
  case h_1 value hread =>
    obtain rfl := Except.ok.inj h
    rw [scanQuery, bind_of_ok (blanks_apply _)] at hread
    obtain ⟨body, behind, hbody, hresult⟩ := bind_eq_ok_iff.1 hread
    simp only [bind_of_ok (blanks_apply _), pure_apply, Except.ok.injEq, Prod.mk.injEq] at hresult
    obtain ⟨rfl, -⟩ := hresult
    exact (yields_scanExpr (isOperand_operand _) hbody).1
  case h_2 => simp at h
  case h_3 => simp at h

end Metric

end QueryScope
