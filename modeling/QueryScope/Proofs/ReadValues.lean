import QueryScope.Proofs.ListText
import QueryScope.Proofs.NumberText

/-!
# What scanners yield

Every value that a scanner reads is well formed in the sense of its kind, and no scanner hands on more
text than it was given.
-/

namespace QueryScope

namespace Scan

/-- Every value that the scanner reads satisfies a condition, and the rest of a text is no longer than
the text. -/
def Yields {α : Type} (P : α → Prop) (x : Scanner α) : Prop :=
  ∀ ⦃input : List Char⦄ ⦃a : α⦄ ⦃rest : List Char⦄,
    x input = .ok (a, rest) → P a ∧ rest.length ≤ input.length

section Rules

variable {α β : Type} {P Q : α → Prop} {R : β → Prop} {x : Scanner α} {f : α → Scanner β}

lemma Yields.mono (hx : Yields P x) (h : ∀ a, P a → Q a) : Yields Q x :=
  fun _ _ _ hread => ⟨h _ (hx hread).1, (hx hread).2⟩

lemma Yields.bind (hx : Yields P x) (hf : ∀ a, P a → Yields R (f a)) : Yields R (x >>= f) := by
  intro input b rest h
  obtain ⟨a, middle, ha, hb⟩ := bind_eq_ok_iff.1 h
  obtain ⟨hP, hfirst⟩ := hx ha
  obtain ⟨hR, hsecond⟩ := hf a hP hb
  exact ⟨hR, hsecond.trans hfirst⟩

lemma Yields.pure {a : α} (h : P a) : Yields P (Pure.pure a : Scanner α) := by
  intro input b rest hread
  simp only [pure_apply, Except.ok.injEq, Prod.mk.injEq] at hread
  obtain ⟨rfl, rfl⟩ := hread
  exact ⟨h, le_rfl⟩

lemma Yields.map {g : α → β} (hx : Yields P x) (h : ∀ a, P a → R (g a)) : Yields R (g <$> x) := by
  intro input b rest hread
  obtain ⟨a, ha, rfl⟩ := map_eq_ok_iff.1 hread
  exact ⟨h a (hx ha).1, (hx ha).2⟩

lemma Yields.opt (hx : Yields P x) : Yields (fun o => ∀ a ∈ o, P a) (opt x) := by
  intro input o rest hread
  cases o with
  | none => exact ⟨by simp, (opt_eq_none_iff.1 hread).1 ▸ le_rfl⟩
  | some a =>
    have ha := hx (opt_eq_some_iff.1 hread)
    exact ⟨by simpa using ha.1, ha.2⟩

lemma Yields.commit (hx : Yields P x) : Yields P (commit x) :=
  fun _ _ _ hread => hx (commit_eq_ok_iff.1 hread)

lemma Yields.expecting (hx : Yields P x) (what : String) : Yields P (expecting what x) :=
  fun _ _ _ hread => hx (expecting_eq_ok_iff.1 hread)

lemma Yields.orElse {y : Scanner α} (hx : Yields P x) (hy : Yields P y) : Yields P (orElse x y) := by
  intro input a rest hread
  unfold Scan.orElse at hread
  split at hread
  case h_1 result hfirst => exact hx (hfirst.trans hread)
  case h_2 failure hmiss =>
    split_ifs at hread
    exact hy hread

lemma Yields.ite {c : Prop} [Decidable c] {y : Scanner α} (hx : c → Yields P x) (hy : ¬c → Yields P y) :
    Yields P (if c then x else y) := by
  split_ifs with h
  · exact hx h
  · exact hy h

lemma yields_miss : Yields P (miss : Scanner α) := by
  intro input a rest hread
  simp [miss] at hread

lemma yields_refuse (text : String) : Yields P (refuse text : Scanner α) := by
  intro input a rest hread
  simp [refuse] at hread

lemma Yields.guard {c : Prop} [Decidable c] {text : String} {k : Unit → Scanner β}
    (h : ¬c → Yields R (k ())) : Yields R (if c then refuse text >>= k else k ()) := by
  intro input b rest hread
  obtain ⟨hc, hk⟩ := guard_eq_ok_iff.1 hread
  exact h hc hk

/-- A check that goes back to a text in order to refuse it. -/
lemma Yields.checked {c : Prop} [Decidable c] {before : List Char} {text : String} {k : Unit → Scanner β}
    (h : ¬c → Yields R (k ())) :
    Yields R (if c then (do set before; refuse text >>= k) else k ()) := by
  intro input b rest hread
  split_ifs at hread with hc
  · rw [bind_of_ok (set_apply _ _)] at hread
    obtain ⟨u, tail, hrefuse, -⟩ := bind_eq_ok_iff.1 hread
    simp [refuse] at hrefuse
  · exact h hc hread

/-- As `Yields`, on texts up to a length: a scanner that goes back to a text it has seen stays within
that length. -/
def YieldsWithin {α : Type} (length : Nat) (P : α → Prop) (x : Scanner α) : Prop :=
  ∀ ⦃input : List Char⦄ ⦃a : α⦄ ⦃rest : List Char⦄, input.length ≤ length →
    x input = .ok (a, rest) → P a ∧ rest.length ≤ length

variable {n : Nat}

lemma Yields.within (hx : Yields P x) (n : Nat) : YieldsWithin n P x :=
  fun _ _ _ hinput hread => ⟨(hx hread).1, (hx hread).2.trans hinput⟩

lemma Yields.of_within (hx : ∀ n, YieldsWithin n P x) : Yields P x :=
  fun input _ _ hread => hx input.length le_rfl hread

lemma YieldsWithin.bind (hx : YieldsWithin n P x) (hf : ∀ a, P a → YieldsWithin n R (f a)) :
    YieldsWithin n R (x >>= f) := by
  intro input b rest hinput h
  obtain ⟨a, middle, ha, hb⟩ := bind_eq_ok_iff.1 h
  obtain ⟨hP, hmiddle⟩ := hx hinput ha
  exact hf a hP hmiddle hb

lemma YieldsWithin.ite {c : Prop} [Decidable c] {y : Scanner α} (hx : c → YieldsWithin n P x)
    (hy : ¬c → YieldsWithin n P y) : YieldsWithin n P (if c then x else y) := by
  split_ifs with h
  · exact hx h
  · exact hy h

lemma within_get : YieldsWithin n (fun text => text.length ≤ n) (get : Scanner (List Char)) := by
  intro input text rest hinput hread
  simp only [get_apply, Except.ok.injEq, Prod.mk.injEq] at hread
  obtain ⟨rfl, rfl⟩ := hread
  exact ⟨hinput, hinput⟩

lemma within_set {text : List Char} (h : text.length ≤ n) :
    YieldsWithin n (fun _ => True) (set text : Scanner PUnit) := by
  intro input u rest _ hread
  simp only [set_apply, Except.ok.injEq, Prod.mk.injEq] at hread
  obtain ⟨-, rfl⟩ := hread
  exact ⟨trivial, h⟩

end Rules

section Words

lemma yields_blanks : Yields (fun _ => True) blanks := by
  intro input u rest hread
  simp only [blanks_apply, Except.ok.injEq, Prod.mk.injEq] at hread
  exact ⟨trivial, hread.2 ▸ length_dropBlanks_le false input⟩

lemma yields_peek : Yields (fun _ => True) peek := by
  intro input o rest hread
  simp only [peek_apply, Except.ok.injEq, Prod.mk.injEq] at hread
  exact ⟨trivial, hread.2 ▸ le_rfl⟩

lemma yields_get : Yields (fun _ => True) (get : Scanner (List Char)) := by
  intro input o rest hread
  simp only [get_apply, Except.ok.injEq, Prod.mk.injEq] at hread
  exact ⟨trivial, hread.2 ▸ le_rfl⟩

lemma yields_literal (text : String) : Yields (fun _ => True) (literal text) := by
  intro input u rest hread
  have hsplit := literal_eq_ok_iff.1 hread
  simp [hsplit]

lemma yields_optLiteral (text : String) : Yields (fun _ => True) (optLiteral text) :=
  (yields_literal text).opt.bind fun _ _ => .pure trivial

lemma yields_keyword (name : String) : Yields (fun _ => True) (keyword name) := by
  intro input u rest hread
  have hsplit := (afterKeyword?_eq_some_iff.1 (keyword_eq_ok_iff.1 hread)).1
  simp [hsplit]

lemma yields_optKeyword (name : String) : Yields (fun _ => True) (optKeyword name) :=
  (yields_keyword name).opt.bind fun _ _ => .pure trivial

lemma keywordOf_eq_ok {α : Type} {table : List (String × α)} {input rest : List Char} {a : α}
    (h : keywordOf table input = .ok (a, rest)) :
    ∃ entry ∈ table, entry.2 = a ∧ afterKeyword? entry.1 input = some rest := by
  unfold keywordOf at h
  split at h
  case h_1 result hfound =>
    obtain ⟨entry, hmem, hentry⟩ := List.exists_of_findSome?_eq_some hfound
    obtain ⟨tail, htail, hresult⟩ := Option.map_eq_some_iff.1 hentry
    obtain rfl := Except.ok.inj h
    obtain ⟨rfl, rfl⟩ := Prod.mk.inj hresult
    exact ⟨entry, hmem, rfl, htail⟩
  case h_2 => simp at h

lemma literalOf_eq_ok {α : Type} {table : List (String × α)} {input rest : List Char} {a : α}
    (h : literalOf table input = .ok (a, rest)) :
    ∃ entry ∈ table, entry.2 = a ∧ input = entry.1.toList ++ rest := by
  unfold literalOf at h
  split at h
  case h_1 result hfound =>
    obtain ⟨entry, hmem, hentry⟩ := List.exists_of_findSome?_eq_some hfound
    obtain ⟨tail, htail, hresult⟩ := Option.map_eq_some_iff.1 hentry
    obtain rfl := Except.ok.inj h
    obtain ⟨rfl, rfl⟩ := Prod.mk.inj hresult
    exact ⟨entry, hmem, rfl, Text.eq_append_of_after? htail⟩
  case h_2 => simp at h

lemma yields_keywordOf {α : Type} (table : List (String × α)) :
    Yields (fun _ => True) (keywordOf table) := by
  intro input a rest hread
  obtain ⟨entry, -, -, htail⟩ := keywordOf_eq_ok hread
  simp [(afterKeyword?_eq_some_iff.1 htail).1]

lemma yields_literalOf {α : Type} (table : List (String × α)) :
    Yields (fun _ => True) (literalOf table) := by
  intro input a rest hread
  obtain ⟨entry, -, -, htail⟩ := literalOf_eq_ok hread
  simp [htail]

lemma yields_labelName : Yields (fun name => Label.isLabelName name = true) labelName := by
  intro input name rest hread
  obtain ⟨rfl, hname, -⟩ := labelName_eq_ok_iff.1 hread
  exact ⟨hname, by simp⟩

lemma yields_metricName : Yields (fun name => Label.isMetricName name = true) metricName := by
  intro input name rest hread
  obtain ⟨rfl, hname, -⟩ := metricName_eq_ok_iff.1 hread
  exact ⟨hname, by simp⟩

/-- The scanner yields values of a kind and never reads the empty text. -/
def Consumes {α : Type} (P : α → Prop) (x : Scanner α) : Prop :=
  ∀ ⦃input : List Char⦄ ⦃a : α⦄ ⦃rest : List Char⦄,
    x input = .ok (a, rest) → P a ∧ rest.length < input.length

lemma Consumes.yields {α : Type} {P : α → Prop} {x : Scanner α} (hx : Consumes P x) : Yields P x :=
  fun _ _ _ hread => ⟨(hx hread).1, (hx hread).2.le⟩

lemma Consumes.bind {α β : Type} {P : α → Prop} {R : β → Prop} {x : Scanner α} {f : α → Scanner β}
    (hx : Consumes P x) (hf : ∀ a, P a → Yields R (f a)) : Consumes R (x >>= f) := by
  intro input b rest h
  obtain ⟨a, middle, ha, hb⟩ := bind_eq_ok_iff.1 h
  obtain ⟨hP, hfirst⟩ := hx ha
  obtain ⟨hR, hsecond⟩ := hf a hP hb
  exact ⟨hR, hsecond.trans_lt hfirst⟩

lemma consumes_literal {text : String} (hne : text.toList ≠ []) : Consumes (fun _ => True) (literal text) := by
  intro input u rest hread
  have hpos := List.length_pos_iff.2 hne
  rw [literal_eq_ok_iff.1 hread, List.length_append]
  exact ⟨trivial, by omega⟩

lemma consumes_keyword {name : String} (hne : name.toList ≠ []) : Consumes (fun _ => True) (keyword name) := by
  intro input u rest hread
  have hpos := List.length_pos_iff.2 hne
  rw [(afterKeyword?_eq_some_iff.1 (keyword_eq_ok_iff.1 hread)).1, List.length_append]
  exact ⟨trivial, by omega⟩

end Words

section Lists

lemma yields_itemsUntil {α : Type} {P : α → Prop} {item : Scanner α} (hitem : Yields P item)
    (close closeNote : String) (bound : Nat) :
    Yields (fun items => ∀ a ∈ items, P a) (itemsUntil item close closeNote bound) := by
  induction bound with
  | zero => exact yields_miss
  | succ bound ih =>
    unfold itemsUntil
    refine yields_blanks.bind fun _ _ => (yields_optLiteral close).bind fun closed _ => ?_
    refine .ite (fun _ => .pure (by simp)) fun _ => hitem.bind fun first hfirst => ?_
    refine yields_blanks.bind fun _ _ => (yields_optLiteral ",").bind fun more _ => ?_
    refine .ite (fun _ => ih.bind fun items hitems => .pure ?_) fun _ => ?_
    · simpa using ⟨hfirst, hitems⟩
    · exact ((yields_literal close).commit.expecting closeNote).bind fun _ _ => .pure (by simpa using hfirst)

lemma yields_listUntil {α : Type} {P : α → Prop} {item : Scanner α} (hitem : Yields P item)
    (close closeNote : String) :
    Yields (fun items => ∀ a ∈ items, P a) (listUntil item close closeNote) :=
  fun _ _ _ hread => yields_itemsUntil hitem close closeNote _ hread

lemma yields_joinedLeft {α : Type} {P : α → Prop} {operand : Scanner α} {separator : Scanner Unit}
    {join : α → α → α} (hoperand : Yields P operand) (hseparator : Yields (fun _ => True) separator)
    (hjoin : ∀ a b, P a → P b → P (join a b)) (bound : Nat) {left : α} (hleft : P left) :
    Yields P (joinedLeft operand separator join bound left) := by
  induction bound generalizing left with
  | zero => exact .pure hleft
  | succ bound ih =>
    refine (yields_blanks.bind fun _ _ => hseparator).opt.bind fun separated _ => ?_
    cases separated with
    | none => exact .pure hleft
    | some u =>
      exact yields_blanks.bind fun _ _ => hoperand.bind fun right hright => ih (hjoin left right hleft hright)

lemma yields_itemsBehindCommas {α : Type} {P : α → Prop} {item : Scanner α} (hitem : Yields P item)
    (bound : Nat) : Yields (fun items => ∀ a ∈ items, P a) (itemsBehindCommas item bound) := by
  induction bound with
  | zero => exact .pure (by simp)
  | succ bound ih =>
    refine (yields_blanks.bind fun _ _ => yields_literal ",").opt.bind fun comma _ => ?_
    cases comma with
    | none => exact .pure (by simp)
    | some u =>
      refine yields_blanks.bind fun _ _ => hitem.bind fun first hfirst => ih.bind fun items hitems => ?_
      exact .pure (by simpa using ⟨hfirst, hitems⟩)

lemma yields_commaList {α : Type} {P : α → Prop} {item : Scanner α} (hitem : Yields P item) :
    Yields (fun items => items ≠ [] ∧ ∀ a ∈ items, P a) (commaList item) := by
  refine hitem.bind fun first hfirst => yields_get.bind fun here _ => ?_
  exact (yields_itemsBehindCommas hitem _).bind fun items hitems => .pure (by simpa using ⟨hfirst, hitems⟩)

lemma yields_labelList :
    Yields (fun labels => ∀ l ∈ labels, Label.isLabelName l = true) labelList :=
  (yields_literal "(").bind fun _ _ =>
    yields_listUntil (yields_labelName.commit.expecting "label name") ")" "',' or ')'"

end Lists

section Literals

lemma length_literalBody_le {quote : Char} {text body rest : List Char}
    (h : literalBody quote text = .ok (body, rest)) : rest.length ≤ text.length := by
  fun_induction literalBody quote text generalizing body rest with
  | case1 => simp at h
  | case2 => simp_all
  | case3 => simp at h
  | case4 => simp at h
  | case5 => simp at h
  | case6 e tail decoded width _ _ _ ih =>
    cases hbody : literalBody quote (tail.drop width) with
    | error fault => simp [hbody, bind, Except.bind] at h
    | ok parts =>
      have hle := ih hbody
      simp only [hbody, bind, Except.bind, pure, Except.pure, Except.ok.injEq, Prod.mk.injEq] at h
      simp only [← h.2, List.length_cons, List.length_drop] at hle ⊢
      omega
  | case7 e tail _ _ _ ih =>
    cases hbody : literalBody quote tail with
    | error fault => simp [hbody, bind, Except.bind] at h
    | ok parts =>
      have hle := ih hbody
      simp only [hbody, bind, Except.bind, pure, Except.pure, Except.ok.injEq, Prod.mk.injEq] at h
      simp only [← h.2, List.length_cons]
      omega

lemma yields_stringLiteral : Yields (fun _ => True) stringLiteral := by
  intro input value rest hread
  refine ⟨trivial, ?_⟩
  unfold stringLiteral at hread
  split at hread
  case h_1 text =>
    split at hread
    case h_1 body tail hbody =>
      obtain ⟨-, rfl⟩ := Prod.mk.inj (Except.ok.inj hread)
      unfold rawBody at hbody
      split at hbody
      case h_1 => simp at hbody
      case h_2 c behind hdrop =>
        obtain ⟨-, rfl⟩ := Prod.mk.inj (Except.ok.inj hbody)
        have hle := Text.length_dropWhile_le (· != '\x60') text
        rw [hdrop] at hle
        simp only [List.length_cons] at hle ⊢
        omega
    case h_2 => simp [demand] at hread
  case h_2 c text hne =>
    split_ifs at hread
    · split at hread
      case h_1 body tail hbody =>
        obtain ⟨-, rfl⟩ := Prod.mk.inj (Except.ok.inj hread)
        have hle := length_literalBody_le hbody
        simp only [List.length_cons]
        omega
      case h_2 => simp [demand] at hread
      case h_3 => simp [refuse] at hread
    · simp [miss] at hread
  case h_3 => simp [miss] at hread

end Literals

section Numbers

open Number

lemma length_specialNumber?_le {input rest : List Char} {v : Binary64}
    (h : specialNumber? input = some (v, rest)) : v.isNegative = false ∧ rest.length ≤ input.length := by
  unfold specialNumber? at h
  dsimp only at h
  split_ifs at h <;>
  · obtain ⟨rfl, rfl⟩ := Prod.mk.inj (Option.some.inj h)
    simp [Binary64.isNegative]

lemma length_exponentPart_le (text : List Char) : (exponentPart text).2.length ≤ text.length := by
  unfold exponentPart
  split
  case h_1 e tail =>
    split_ifs with he
    · split
      case _ negative digits hsign =>
        have hdigits : digits.length ≤ tail.length := by
          split at hsign <;>
          · obtain ⟨-, rfl⟩ := Prod.mk.inj hsign
            simp
        have hdrop := Text.length_dropWhile_le Char.isDigit digits
        have hbound : (digits.dropWhile Char.isDigit).length ≤ (e :: tail).length := by
          simp only [List.length_cons]
          omega
        dsimp only
        split_ifs
        · exact le_rfl
        · exact hbound
        · exact hbound
    · exact le_rfl
  case h_2 => exact le_rfl

lemma length_decimal?_le {input rest : List Char} {d : Decimal} (h : decimal? input = some (d, rest)) :
    rest.length ≤ input.length := by
  unfold decimal? at h
  split at h
  case h_1 => simp at h
  case h_2 whole fraction tail hmantissa =>
    obtain ⟨-, rfl⟩ := Prod.mk.inj (Option.some.inj h)
    have hdigits := Text.length_dropWhile_le Char.isDigit input
    have htail : tail.length ≤ input.length := by
      unfold mantissa? at hmantissa
      dsimp only at hmantissa
      split at hmantissa
      case h_1 behind hpoint =>
        split_ifs at hmantissa
        simp only [Option.some.injEq, Prod.mk.injEq] at hmantissa
        have hfraction := Text.length_dropWhile_le Char.isDigit behind
        simp only [hpoint, List.length_cons, hmantissa.2.2] at hdigits hfraction
        omega
      case h_2 =>
        split_ifs at hmantissa
        simp only [Option.some.injEq, Prod.mk.injEq] at hmantissa
        rwa [← hmantissa.2.2]
    exact (length_exponentPart_le tail).trans htail

lemma yields_number : Yields (fun v : Binary64 => v.isNegative = false) number := by
  intro input v rest hread
  unfold number at hread
  split at hread
  case h_1 result hspecial =>
    obtain rfl := Except.ok.inj hread
    exact length_specialNumber?_le hspecial
  case h_2 =>
    split at hread
    case h_1 tail hmark =>
      have htail : tail.length ≤ input.length := by
        unfold afterHexMark? at hmark
        split at hmark
        · obtain rfl := Option.some.inj hmark
          simp
          omega
        · obtain rfl := Option.some.inj hmark
          simp
          omega
        · simp at hmark
      split at hread
      · split_ifs at hread
        · obtain ⟨rfl, rfl⟩ := Prod.mk.inj (Except.ok.inj hread)
          exact ⟨Binary64.isNegative_ofRank _, (Text.length_dropWhile_le _ _).trans htail⟩
        · simp [miss] at hread
      · simp [miss] at hread
    case h_2 =>
      split at hread
      case h_1 value tail hdecimal =>
        obtain ⟨rfl, rfl⟩ := Prod.mk.inj (Except.ok.inj hread)
        exact ⟨Decimal.isNegative_toBinary64 _, length_decimal?_le hdecimal⟩
      case h_2 => simp [miss] at hread

end Numbers

end Scan

open Scan

namespace Duration

lemma length_scanCounts_le {total : Nat} {last : Option Measure} {input rest : List Char} {d : Duration}
    (h : scanCounts total last input = .ok (d, rest)) : rest.length ≤ input.length := by
  fun_induction scanCounts total last input generalizing d rest with
  | case1 => simp_all
  | case2 => simp [miss] at h
  | case3 => simp [halt] at h
  | case4 => simp [refuse] at h
  | case5 => simp [halt] at h
  | case6 total last input =>
    rename_i _ behind _ _ _ _ next hread _ _ ih
    have hbehind : behind.length ≤ input.length := Text.length_dropWhile_le Char.isDigit input
    have hnext := Measure.length_lt_of_read? hread
    have hrest := ih h
    omega
  | case7 => simp [refuse] at h
  | case8 => simp [refuse] at h
  | case9 total last input =>
    obtain ⟨-, rfl⟩ := Prod.mk.inj (Except.ok.inj h)
    exact Text.length_dropWhile_le Char.isDigit input

lemma yields_scan : Yields (fun _ => True) scan := by
  intro input d rest hread
  unfold scan at hread
  split_ifs at hread
  · simp [refuse] at hread
  · exact ⟨trivial, length_scanCounts_le hread⟩

end Duration

namespace Matcher

lemma yields_scan : Yields Valid scan := by
  refine yields_labelName.bind fun name hname => yields_blanks.bind fun _ _ => ?_
  refine ((yields_literalOf comparisons).commit.expecting _).bind fun op _ => ?_
  refine yields_blanks.bind fun _ _ => yields_get.bind fun before _ => ?_
  refine (yields_stringLiteral.commit.expecting _).bind fun value _ => ?_
  by_cases hguard : (op.isPattern && !Pattern.isValid value) = true
  · intro input m rest hread
    rw [if_pos hguard] at hread
    obtain ⟨_, _, -, hrefused⟩ := bind_eq_ok_iff.1 hread
    obtain ⟨_, _, hrefuse, -⟩ := bind_eq_ok_iff.1 hrefused
    simp [refuse] at hrefuse
  · rw [if_neg hguard]
    exact .pure ⟨hname, by simpa using hguard⟩

lemma yields_block : Yields (fun matchers => ∀ m ∈ matchers, m.Valid) block :=
  (yields_literal "\x7b").bind fun _ _ =>
    yields_listUntil (yields_scan.commit.expecting "label matcher") "\x7d" "',' or '\x7d'"

end Matcher

end QueryScope
