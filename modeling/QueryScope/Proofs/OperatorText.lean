import QueryScope.Operator.Reader
import QueryScope.Proofs.ReadValues

/-!
# Written operators and clauses are read back

An operator is written between blanks, its clauses behind it. Both are read back in front of any
operand that is no clause itself. Where the next operator is too weak, or where there is none, nothing
is read.
-/

namespace QueryScope

open Scan

namespace Operator

lemma scan_symbol (op : Operator) (tail : List Char) :
    scan (op.symbol.toList ++ ' ' :: tail) = .ok (op, ' ' :: tail) := by
  have hblank : Label.isMetricNameChar ' ' = false := by decide
  cases op <;>
    simp [scan, orElse, literalOf, keywordOf, signs, words, symbol, Text.after?, afterKeyword?, hblank,
      Option.filter_some]

lemma symbol_solid (op : Operator) (tail : List Char) : Solid (op.symbol.toList ++ tail) := by
  cases op <;> exact solid_cons (by decide) (by decide) _

/-- No operator at least as strong as `least` follows. -/
def Stops (least : Nat) (rest : List Char) : Prop :=
  next? least rest = .ok (none, rest)

/-- A text that begins with no operator, blanks apart. -/
lemma stops_of_miss {rest : List Char} {failure : Failure} (least : Nat)
    (h : scan (dropBlanks false rest) = .error failure) (hc : failure.committed = false) :
    Stops least rest := by
  rw [Stops, next?, bind_of_ok (get_apply _), bind_of_ok (blanks_apply _), bind_of_ok (opt_of_error h hc)]
  rfl

lemma scan_error {input : List Char} {failure : Failure} (h : scan input = .error failure) :
    failure.committed = false := by
  unfold scan orElse at h
  split at h
  case h_1 => simp at h
  case h_2 miss hmiss =>
    unfold literalOf at hmiss
    split at hmiss
    case h_1 => simp at hmiss
    case h_2 =>
      obtain rfl := Except.error.inj hmiss
      simp only [Bool.false_eq_true, if_false] at h
      unfold keywordOf at h
      split at h
      case h_1 => simp at h
      case h_2 =>
        obtain rfl := Except.error.inj h
        rfl

/-- The next operator, if there is one that is strong enough. -/
lemma next?_of_scan {least : Nat} {input rest : List Char} {op : Operator}
    (h : scan (dropBlanks false input) = .ok (op, rest)) :
    next? least input = if least ≤ op.precedence then .ok (some op, rest) else .ok (none, input) := by
  rw [next?, bind_of_ok (get_apply _), bind_of_ok (blanks_apply _), bind_of_ok (opt_of_ok h)]
  split_ifs with hle
  · simp [hle]
  · simp only [if_neg hle]
    rw [bind_of_ok (set_apply _ _)]
    rfl

lemma stops_symbol {op : Operator} {least : Nat} (h : op.precedence < least) (tail : List Char) :
    Stops least (' ' :: (op.symbol.toList ++ ' ' :: tail)) := by
  rw [Stops, next?_of_scan (by rw [dropBlanks_space, symbol_solid, scan_symbol]), if_neg (not_le.2 h)]

/-- What the search for the next operator finds. -/
lemma next?_cases (least : Nat) (input : List Char) :
    (∃ op rest, scan (dropBlanks false input) = .ok (op, rest) ∧ least ≤ op.precedence) ∨
      Stops least input := by
  cases hscan : scan (dropBlanks false input) with
  | error failure => exact Or.inr (stops_of_miss least hscan (scan_error hscan))
  | ok result =>
    obtain ⟨op, rest⟩ := result
    by_cases hle : least ≤ op.precedence
    · exact Or.inl ⟨op, rest, rfl, hle⟩
    · exact Or.inr (by rw [Stops, next?_of_scan hscan, if_neg hle])

lemma Stops.precedence_lt {least : Nat} {input rest : List Char} {op : Operator} (h : Stops least input)
    (hscan : scan (dropBlanks false input) = .ok (op, rest)) : op.precedence < least := by
  by_contra hle
  rw [Stops, next?_of_scan hscan, if_pos (not_lt.1 hle)] at h
  simp at h

lemma Stops.mono {least more : Nat} {rest : List Char} (h : Stops least rest) (hle : least ≤ more) :
    Stops more rest := by
  rcases next?_cases more rest with ⟨op, tail, hscan, hop⟩ | hstop
  · exact absurd (h.precedence_lt hscan) (not_lt.2 (hle.trans hop))
  · exact hstop

lemma precedence_le (op : Operator) : op.precedence ≤ 6 := by
  cases op <;> decide

lemma stops_of_lt {least : Nat} (h : 6 < least) (rest : List Char) : Stops least rest := by
  rcases next?_cases least rest with ⟨op, tail, hscan, hop⟩ | hstop
  · exact absurd op.precedence_le (by omega)
  · exact hstop

lemma length_scan_lt {input rest : List Char} {op : Operator} (h : scan input = .ok (op, rest)) :
    rest.length < input.length := by
  have hlonger {lead : String} (hlead : 0 < lead.toList.length) (hinput : input = lead.toList ++ rest) :
      rest.length < input.length := by
    rw [hinput, List.length_append]
    omega
  unfold scan orElse at h
  split at h
  case h_1 result hsign =>
    obtain rfl := Except.ok.inj h
    obtain ⟨entry, hmem, -, hinput⟩ := literalOf_eq_ok hsign
    have hpos : ∀ entry ∈ signs, 0 < entry.1.toList.length := by decide
    exact hlonger (hpos entry hmem) hinput
  case h_2 failure hmiss =>
    split_ifs at h
    obtain ⟨entry, hmem, -, hword⟩ := keywordOf_eq_ok h
    have hpos : ∀ entry ∈ words, 0 < entry.1.toList.length := by decide
    exact hlonger (hpos entry hmem) (afterKeyword?_eq_some_iff.1 hword).1

end Operator

/-! ## Clauses -/

/-- A clause of labels that can be written. -/
def Matching.Valid (op : Operator) (m : Matching) : Prop :=
  (∀ l ∈ m.labels, Label.isLabelName l = true) ∧
    ∀ g ∈ m.group, op.isSetOperation = false ∧ ∀ l ∈ g.labels, Label.isLabelName l = true

/-- Clauses that can be written behind an operator. -/
def Modifiers.Valid (op : Operator) (m : Modifiers) : Prop :=
  (m.bool = true → op.isComparison = true) ∧ ∀ x ∈ m.matching, x.Valid op

/-- No further clause is read from the text behind the clauses. -/
def Modifiers.Clear (m : Modifiers) (tail : List Char) : Prop :=
  match m.matching with
  | none =>
    (m.bool = false → afterKeyword? "bool" tail = none) ∧ afterKeyword? "on" tail = none ∧
      afterKeyword? "ignoring" tail = none
  | some x =>
    x.group = none → afterKeyword? "group_left" tail = none ∧ afterKeyword? "group_right" tail = none

section Clauses

/-- The word for a side. -/
def Side.keyword : Side → String
  | .left => "group_left"
  | .right => "group_right"

variable (list : List String → List Char)

/-- A clause for operations of many series with one, by the way lists of labels are written. -/
def GroupClause.written (g : GroupClause) : List Char :=
  g.side.keyword.toList ++ ' ' :: list g.labels

/-- A clause of labels, by the way lists of labels are written. -/
def Matching.written (m : Matching) : List Char :=
  (if m.on then "on".toList else "ignoring".toList) ++ ' ' :: list m.labels ++
    (m.group.map fun g => ' ' :: g.written list).getD []

/-- Clauses behind an operator, by the way lists of labels are written. -/
def Modifiers.written (m : Modifiers) : List Char :=
  (if m.bool then " bool".toList else []) ++ (m.matching.map fun x => ' ' :: x.written list).getD []

lemma Modifiers.written_append_cons (m : Modifiers) (tail : List Char) :
    ∃ text, m.written list ++ ' ' :: tail = ' ' :: text := by
  unfold Modifiers.written
  cases m.bool with
  | true => exact ⟨_, rfl⟩
  | false => cases m.matching <;> exact ⟨_, rfl⟩

/-- Lists of labels are written so that they are read back. -/
def ReadsLabels : Prop :=
  ∀ labels, (∀ l ∈ labels, Label.isLabelName l = true) → ∀ rest,
    (∃ inner, list labels = '(' :: inner) ∧ labelList (list labels ++ rest) = .ok (labels, rest)

variable {list} (hlist : ReadsLabels list)

include hlist

lemma ReadsLabels.solid {labels : List String} (hlabels : ∀ l ∈ labels, Label.isLabelName l = true)
    (rest : List Char) : Solid (list labels ++ rest) := by
  obtain ⟨inner, hinner⟩ := (hlist labels hlabels rest).1
  rw [hinner]
  exact solid_cons (by decide) (by decide) _

lemma groupClause_written {g : GroupClause} (hlabels : ∀ l ∈ g.labels, Label.isLabelName l = true)
    (rest : List Char) : Operator.groupClause (g.written list ++ rest) = .ok (g, rest) := by
  obtain ⟨side, labels⟩ := g
  have hside : keywordOf [("group_left", Side.left), ("group_right", Side.right)]
      (side.keyword.toList ++ ' ' :: (list labels ++ rest)) = .ok (side, ' ' :: (list labels ++ rest)) := by
    have hword : IsWord side.keyword := by cases side <;> decide
    rw [keywordOf_word (by decide) hword (by rfl)]
    cases side <;> rfl
  have hread := (hlist labels hlabels rest).2
  have hwritten : (⟨side, labels⟩ : GroupClause).written list ++ rest =
      side.keyword.toList ++ ' ' :: (list labels ++ rest) := by
    simp [GroupClause.written]
  rw [hwritten, Operator.groupClause, bind_of_ok hside, bind_of_ok (blanks_apply _), dropBlanks_space,
    hlist.solid hlabels, bind_of_ok (opt_of_ok hread)]
  rfl

omit hlist in
lemma GroupClause.solid_written (g : GroupClause) (rest : List Char) : Solid (g.written list ++ rest) := by
  have hword : IsWord g.side.keyword ∧ g.side.keyword.toList ≠ [] := by
    cases g.side <;> decide
  rw [GroupClause.written, List.append_assoc]
  exact solid_word hword.1 hword.2 _

lemma matchingClause_written {op : Operator} {m : Matching} (hvalid : m.Valid op) {tail : List Char}
    (hsolid : Solid tail)
    (hclear : m.group = none →
      afterKeyword? "group_left" tail = none ∧ afterKeyword? "group_right" tail = none) :
    Operator.matchingClause op m.on
        (' ' :: (list m.labels ++ ((m.group.map fun g => ' ' :: g.written list).getD [] ++ ' ' :: tail))) =
      .ok (m, tail) := by
  obtain ⟨on, labels, group⟩ := m
  obtain ⟨hlabels, hgroup⟩ := hvalid
  have hread (rest : List Char) :
      expecting "label list" (commit labelList) (list labels ++ rest) = .ok (labels, rest) := by
    rw [expecting_eq_ok_iff, commit_eq_ok_iff, (hlist labels hlabels rest).2]
  rw [Operator.matchingClause, bind_of_ok (blanks_apply _), dropBlanks_space, hlist.solid hlabels,
    bind_of_ok (hread _), bind_of_ok (blanks_apply _)]
  cases group with
  | none =>
    obtain ⟨hleft, hright⟩ := hclear rfl
    have hmiss : Operator.groupClause tail = .error ⟨false, [], tail⟩ := by
      refine bind_of_error ?_
      simp [keywordOf, hleft, hright]
    simp only [Option.map_none, Option.getD_none, List.nil_append, dropBlanks_space]
    rw [hsolid, bind_of_ok (opt_of_error hmiss rfl)]
    simp only [Option.isSome_none, Bool.false_and, Bool.false_eq_true, if_false]
    rw [bind_of_ok (blanks_apply _), hsolid]
    rfl
  | some g =>
    obtain ⟨hop, hnames⟩ := hgroup g rfl
    have hclause := groupClause_written hlist hnames (' ' :: tail)
    simp only [Option.map_some, Option.getD_some, List.cons_append, dropBlanks_space]
    rw [g.solid_written, bind_of_ok (opt_of_ok hclause)]
    simp only [hop, Bool.and_false, Bool.false_eq_true, if_false]
    rw [bind_of_ok (blanks_apply _), dropBlanks_space, hsolid]
    rfl

/-- The word that a clause of labels begins with. -/
def Matching.keyword (m : Matching) : String :=
  if m.on then "on" else "ignoring"

omit hlist in
lemma Matching.isWord_keyword (m : Matching) : IsWord m.keyword ∧ m.keyword.toList ≠ [] := by
  unfold Matching.keyword
  split_ifs <;> decide

omit hlist in
lemma Matching.written_append (m : Matching) (tail : List Char) :
    m.written list ++ ' ' :: tail = m.keyword.toList ++
      ' ' :: (list m.labels ++ ((m.group.map fun g => ' ' :: g.written list).getD [] ++ ' ' :: tail)) := by
  simp only [Matching.written, Matching.keyword]
  split_ifs <;> simp

/-- Clauses behind an operator without the word `bool`, in front of an operand. -/
def matchingText (list : List String → List Char) (matching : Option Matching) (tail : List Char) :
    List Char :=
  match matching with
  | none => tail
  | some m => m.written list ++ ' ' :: tail

omit hlist in
lemma dropBlanks_written {matching : Option Matching} {tail : List Char} (hsolid : Solid tail) :
    dropBlanks false ((matching.map fun m => ' ' :: m.written list).getD [] ++ ' ' :: tail) =
      matchingText list matching tail := by
  cases matching with
  | none => simpa [matchingText] using hsolid.eq
  | some m =>
    have hword : Solid (m.written list ++ ' ' :: tail) := by
      rw [m.written_append]
      exact solid_word m.isWord_keyword.1 m.isWord_keyword.2 _
    simpa [matchingText] using hword.eq

lemma matching_written {op : Operator} {bool : Bool} {matching : Option Matching} {tail : List Char}
    (hvalid : ∀ x ∈ matching, x.Valid op) (hsolid : Solid tail)
    (hclear : Modifiers.Clear ⟨bool, matching⟩ tail) :
    (do match ← opt (keywordOf [("on", true), ("ignoring", false)]) with
        | some on => return ⟨bool, some (← Operator.matchingClause op on)⟩
        | none => return ⟨bool, none⟩ : Scanner Modifiers) (matchingText list matching tail) =
      .ok (⟨bool, matching⟩, tail) := by
  cases matching with
  | none =>
    have hmiss : keywordOf [("on", true), ("ignoring", false)] tail = .error ⟨false, [], tail⟩ := by
      simp [keywordOf, hclear.2.1, hclear.2.2]
    rw [matchingText, bind_of_ok (opt_of_error hmiss rfl)]
    rfl
  | some m =>
    have hclause := matchingClause_written hlist (hvalid m rfl) hsolid hclear
    have hword : keywordOf [("on", true), ("ignoring", false)] (m.written list ++ ' ' :: tail) = .ok (m.on,
        ' ' :: (list m.labels ++
          ((m.group.map fun g => ' ' :: g.written list).getD [] ++ ' ' :: tail))) := by
      rw [m.written_append, keywordOf_word (by decide) m.isWord_keyword.1 (by rfl)]
      unfold Matching.keyword
      cases m.on <;> rfl
    rw [matchingText, bind_of_ok (opt_of_ok hword)]
    simp only
    rw [bind_of_ok hclause]
    rfl

/-- The clauses behind an operator are read back in front of an operand that is no clause. -/
lemma modifiers_written {op : Operator} {m : Modifiers} (hvalid : m.Valid op) {tail : List Char}
    (hsolid : Solid tail) (hclear : m.Clear tail) :
    Operator.modifiers op (dropBlanks false (m.written list ++ ' ' :: tail)) = .ok (m, tail) := by
  obtain ⟨bool, matching⟩ := m
  obtain ⟨hbool, hmatching⟩ := hvalid
  have hread := matching_written hlist hmatching hsolid hclear
  have htext : dropBlanks false ((matching.map fun x => ' ' :: x.written list).getD [] ++ ' ' :: tail) =
      matchingText list matching tail := dropBlanks_written hsolid
  cases bool with
  | false =>
    have hword : optKeyword "bool" (matchingText list matching tail) =
        .ok (false, matchingText list matching tail) := by
      have hnone : afterKeyword? "bool" (matchingText list matching tail) = none := by
        cases matching with
        | none => exact hclear.1 rfl
        | some x =>
          have hne : "bool" ≠ x.keyword := by
            unfold Matching.keyword
            split_ifs <;> decide
          rw [matchingText, x.written_append, afterKeyword?_word (by decide) x.isWord_keyword.1 (by rfl),
            if_neg hne]
      rw [optKeyword_apply, hnone]
    simp only [Modifiers.written, Bool.false_eq_true, if_false, List.nil_append, htext]
    rw [Operator.modifiers, bind_of_ok hword]
    exact hread
  | true =>
    obtain ⟨behind, hbehind⟩ : ∃ behind,
        (matching.map fun x => ' ' :: x.written list).getD [] ++ ' ' :: tail = ' ' :: behind := by
      cases matching with
      | none => exact ⟨tail, rfl⟩
      | some x => exact ⟨_, rfl⟩
    have hword : optKeyword "bool" ("bool".toList ++ ' ' :: behind) = .ok (true, ' ' :: behind) := by
      rw [optKeyword_apply, afterKeyword?_word (by decide) (by decide) (by rfl)]
      rfl
    have hwritten : dropBlanks false (Modifiers.written list ⟨true, matching⟩ ++ ' ' :: tail) =
        "bool".toList ++ ' ' :: behind := by
      have hsolid : Solid ("bool".toList ++ ' ' :: behind) := solid_word (by decide) (by decide) _
      simp only [Modifiers.written, if_true, List.append_assoc, hbehind]
      exact hsolid
    rw [hbehind] at htext
    rw [hwritten, Operator.modifiers, bind_of_ok hword]
    simp only [hbool rfl, Bool.not_true, Bool.false_eq_true, if_false, if_true]
    rw [bind_of_ok (blanks_apply _), htext]
    exact hread

lemma grouping_written {g : Grouping} (hlabels : ∀ l ∈ g.labels, Label.isLabelName l = true)
    {gap : List Char} (hgap : gap = [] ∨ gap = [' ']) (rest : List Char) :
    Operator.grouping (g.keyword ++ (gap ++ (list g.labels ++ rest))) = .ok (g, rest) := by
  obtain ⟨without, labels⟩ := g
  obtain ⟨inner, hinner⟩ := (hlist labels hlabels rest).1
  have hread : expecting "grouping label list" (commit labelList) (list labels ++ rest) =
      .ok (labels, rest) := by
    rw [expecting_eq_ok_iff, commit_eq_ok_iff, (hlist labels hlabels rest).2]
  have hstop : (gap ++ (list labels ++ rest)).head?.any Label.isMetricNameChar = false := by
    rcases hgap with rfl | rfl
    · rw [hinner]
      rfl
    · rfl
  have hblank : dropBlanks false (gap ++ (list labels ++ rest)) = list labels ++ rest := by
    rcases hgap with rfl | rfl
    · exact hlist.solid hlabels rest
    · exact (dropBlanks_space _).trans (hlist.solid hlabels rest)
  have hword : keywordOf [("by", false), ("without", true)]
      ((⟨without, labels⟩ : Grouping).keyword ++ (gap ++ (list labels ++ rest))) =
        .ok (without, gap ++ (list labels ++ rest)) := by
    cases without with
    | false => exact (keywordOf_word (by decide) (by decide : IsWord "by") hstop).trans rfl
    | true => exact (keywordOf_word (by decide) (by decide : IsWord "without") hstop).trans rfl
  rw [Operator.grouping, bind_of_ok hword, bind_of_ok (blanks_apply _), hblank, bind_of_ok hread]
  rfl

end Clauses

/-! ## What is read as clauses -/

namespace Operator

lemma yields_grouping : Yields (fun g => ∀ l ∈ g.labels, Label.isLabelName l = true) grouping :=
  (yields_keywordOf _).bind fun _ _ => yields_blanks.bind fun _ _ =>
    (yields_labelList.commit.expecting _).bind fun _ hlabels => .pure hlabels

lemma yields_groupClause : Yields (fun g => ∀ l ∈ g.labels, Label.isLabelName l = true) groupClause := by
  refine (yields_keywordOf _).bind fun side _ => yields_blanks.bind fun _ _ => ?_
  refine yields_labelList.opt.bind fun labels hlabels => .pure ?_
  cases labels with
  | none => simp
  | some labels => exact hlabels labels rfl

lemma keywordOf_error {α : Type} {table : List (String × α)} {input : List Char} {failure : Failure}
    (h : keywordOf table input = .error failure) :
    ∀ entry ∈ table, afterKeyword? entry.1 input = none := by
  intro entry hmem
  unfold keywordOf at h
  split at h
  case h_1 => simp at h
  case h_2 hnone => simpa using List.findSome?_eq_none_iff.1 hnone entry hmem

/-- A group clause that is not there is not there for want of its keyword. -/
lemma afterKeyword?_of_opt_groupClause {input rest : List Char}
    (h : opt groupClause input = .ok (none, rest)) :
    rest = input ∧ afterKeyword? "group_left" input = none ∧ afterKeyword? "group_right" input = none := by
  obtain ⟨rfl, failure, hfail, hopen⟩ := opt_eq_none_iff.1 h
  refine ⟨rfl, ?_⟩
  cases hword : keywordOf [("group_left", Side.left), ("group_right", Side.right)] rest with
  | error miss =>
    have hnone := keywordOf_error hword
    exact ⟨hnone ("group_left", Side.left) (by simp), hnone ("group_right", Side.right) (by simp)⟩
  | ok found =>
    -- Behind the keyword only a list that has begun can fail, and that failure is final.
    obtain ⟨side, tail⟩ := found
    rw [groupClause, bind_of_ok hword, bind_of_ok (blanks_apply _)] at hfail
    cases hlabels : opt labelList (dropBlanks false tail) with
    | error cause =>
      rw [bind_of_error hlabels] at hfail
      obtain rfl := Except.error.inj hfail
      simp [committed_of_opt hlabels] at hopen
    | ok labels =>
      rw [bind_of_ok (a := labels.1) hlabels] at hfail
      simp at hfail

lemma matchingClause_sound {op : Operator} {on : Bool} {input rest : List Char} {m : Matching}
    (h : matchingClause op on input = .ok (m, rest)) :
    m.Valid op ∧ (m.group = none →
      afterKeyword? "group_left" rest = none ∧ afterKeyword? "group_right" rest = none) ∧
      Solid rest ∧ rest.length ≤ input.length := by
  rw [matchingClause, bind_of_ok (blanks_apply _)] at h
  obtain ⟨labels, behind, hlabels, h⟩ := bind_eq_ok_iff.1 h
  rw [bind_of_ok (blanks_apply _)] at h
  obtain ⟨group, tail, hgroup, h⟩ := bind_eq_ok_iff.1 h
  obtain ⟨hnames, hbehind⟩ := yields_labelList.commit.expecting _ hlabels
  obtain ⟨hclause, htail⟩ := yields_groupClause.opt hgroup
  have hstart := length_dropBlanks_le false input
  have hmiddle := length_dropBlanks_le false behind
  have hend := length_dropBlanks_le false tail
  obtain ⟨hset, h⟩ := guard_eq_ok_iff.1 h
  simp only [bind_of_ok (blanks_apply _), pure_apply, Except.ok.injEq, Prod.mk.injEq] at h
  obtain ⟨rfl, rfl⟩ := h
  refine ⟨⟨hnames, fun g hg => ⟨?_, hclause g hg⟩⟩, fun hnone => ?_, solid_dropBlanks _ _, by omega⟩
  · obtain rfl : group = some g := hg
    simpa using hset
  · obtain rfl : group = none := hnone
    obtain ⟨rfl, hwords⟩ := afterKeyword?_of_opt_groupClause hgroup
    rwa [(solid_dropBlanks false behind).eq]

lemma opt_keywordOf_eq_none {α : Type} {table : List (String × α)} {input rest : List Char}
    (h : opt (keywordOf table) input = .ok (none, rest)) :
    rest = input ∧ ∀ entry ∈ table, afterKeyword? entry.1 input = none := by
  obtain ⟨rfl, failure, hmiss, -⟩ := opt_eq_none_iff.1 h
  exact ⟨rfl, keywordOf_error hmiss⟩

lemma modifiers_sound {op : Operator} {input rest : List Char} {m : Modifiers}
    (h : modifiers op input = .ok (m, rest)) (hsolid : Solid input) :
    m.Valid op ∧ m.Clear rest ∧ Solid rest ∧ rest.length ≤ input.length := by
  have hmatching {bool : Bool} {middle : List Char} (hmiddle : Solid middle)
      (hbool : bool = true → op.isComparison = true)
      (hword : bool = false → afterKeyword? "bool" middle = none)
      (hread : (do match ← opt (keywordOf [("on", true), ("ignoring", false)]) with
          | some on => return ⟨bool, some (← matchingClause op on)⟩
          | none => return ⟨bool, none⟩ : Scanner Modifiers) middle = .ok (m, rest)) :
      m.Valid op ∧ m.Clear rest ∧ Solid rest ∧ rest.length ≤ middle.length := by
    obtain ⟨on, behind, hon, hclause⟩ := bind_eq_ok_iff.1 hread
    cases on with
    | none =>
      obtain ⟨rfl, hnone⟩ := opt_keywordOf_eq_none hon
      simp only [pure_apply, Except.ok.injEq, Prod.mk.injEq] at hclause
      obtain ⟨rfl, rfl⟩ := hclause
      exact ⟨⟨hbool, by simp⟩, ⟨hword, hnone ("on", true) (by simp), hnone ("ignoring", false) (by simp)⟩,
        hmiddle, le_rfl⟩
    | some on =>
      obtain ⟨x, tail, hx, hresult⟩ := bind_eq_ok_iff.1 hclause
      simp only [pure_apply, Except.ok.injEq, Prod.mk.injEq] at hresult
      obtain ⟨rfl, rfl⟩ := hresult
      obtain ⟨hvalid, hclear, hrest, hlength⟩ := matchingClause_sound hx
      have hbehind := (yields_keywordOf _).opt hon
      exact ⟨⟨hbool, by simpa using hvalid⟩, hclear, hrest, hlength.trans hbehind.2⟩
  rw [modifiers] at h
  obtain ⟨bool, behind, hbool, h⟩ := bind_eq_ok_iff.1 h
  have hbehind := (yields_optKeyword "bool" hbool).2
  rw [optKeyword_apply] at hbool
  cases hword : afterKeyword? "bool" input with
  | none =>
    simp only [hword, Except.ok.injEq, Prod.mk.injEq] at hbool
    obtain ⟨rfl, rfl⟩ := hbool
    exact hmatching hsolid (by simp) (fun _ => hword) h
  | some tail =>
    simp only [hword, Except.ok.injEq, Prod.mk.injEq] at hbool
    obtain ⟨rfl, rfl⟩ := hbool
    simp only [if_true] at h
    obtain ⟨hcomparison, h⟩ := guard_eq_ok_iff.1 h
    simp only [bind_of_ok (blanks_apply _)] at h
    obtain ⟨hvalid, hclear, hrest, hlength⟩ :=
      hmatching (solid_dropBlanks false tail) (fun _ => by simpa using hcomparison) (by simp) h
    exact ⟨hvalid, hclear, hrest, (hlength.trans (length_dropBlanks_le false tail)).trans hbehind⟩

end Operator

end QueryScope
