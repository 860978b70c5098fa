import QueryScope.Metric.Printer
import QueryScope.Proofs.MetricShape

/-!
# Texts behind the parts of a metric query

What is read from the written form of a query, what may follow a part of it, and how the suffixes and
operators that follow are taken one by one.
-/

namespace QueryScope

open Scan

/-! ## What is read back -/

/-- A duration is written without the milliseconds beyond the largest count. -/
def Duration.reread (d : Duration) : Duration :=
  ⟨d.millis % Duration.limit⟩

/-- Ignoring no label is the default, which is not written. -/
def Matching.isDefault (m : Matching) : Bool :=
  !m.on && m.labels.isEmpty && m.group.isNone

/-- The clauses as they are read back. -/
def Modifiers.reread (m : Modifiers) : Modifiers :=
  { m with matching := m.matching.filter fun x => !x.isDefault }

namespace Metric

/-- The instant of evaluation as it is read back. -/
def Instant.reread : Instant → Instant
  | timestamp seconds => timestamp seconds.roundMillis
  | start => start
  | finish => finish

/-- The shift in time as it is read back; one of no length is not written. -/
def Offset.reread (o : Offset) : Option Offset :=
  if o.amount.millis = 0 then none else some ⟨o.negative, o.amount.reread⟩

/-- The time of evaluation as it is read back. -/
def TimeFrame.reread (f : TimeFrame) : TimeFrame where
  instant := f.instant.map Instant.reread
  offset := f.offset.bind Offset.reread

/-- The selector as it is read back. -/
def Selector.reread (s : Selector) : Selector where
  name := s.name
  matchers := printOrder s.matchers
  frame := s.frame.reread

namespace Expr

mutual

/-- The query that is read from the written form of a query. -/
def reread : Expr → Expr
  | number value => number value
  | text value => text value
  | vector selector => vector selector.reread
  | matrix selector range => matrix selector.reread range.reread
  | subquery body range step frame =>
    subquery body.reread range.reread (step.map Duration.reread) frame.reread
  | call function arguments => call function (rereadAll arguments)
  | aggregate op parameter body grouping =>
    aggregate op (rereadOption parameter) body.reread grouping
  | binary op modifiers left right => binary op modifiers.reread left.reread right.reread
  | unary negative body => unary negative body.reread
  | paren body => paren body.reread

/-- The queries that are read from the written forms of a list. -/
def rereadAll : List Expr → List Expr
  | [] => []
  | e :: rest => e.reread :: rereadAll rest

/-- The query that is read from the written form of one that may be missing. -/
def rereadOption : Option Expr → Option Expr
  | none => none
  | some e => some e.reread

end

lemma rereadAll_eq_map (es : List Expr) : rereadAll es = es.map reread := by
  induction es with
  | nil => rfl
  | cons e es ih => simp [rereadAll, ih]

end Expr

/-! ## What may follow -/

/-- The text goes on behind an expression that is complete. -/
inductive Follow : List Char → Prop
  | nil : Follow []
  | paren (tail : List Char) : Follow (')' :: tail)
  | comma (tail : List Char) : Follow (',' :: tail)
  | operator (op : Operator) (tail : List Char) : Follow (' ' :: (op.symbol.toList ++ ' ' :: tail))

/-- The text goes on behind an operand, possibly with a suffix. -/
inductive SuffixFollow : List Char → Prop
  | follow {rest : List Char} (h : Follow rest) : SuffixFollow rest
  | range (tail : List Char) : SuffixFollow ('[' :: tail)
  | instant (tail : List Char) : SuffixFollow (' ' :: '@' :: ' ' :: tail)
  | offset (tail : List Char) : SuffixFollow (' ' :: ("offset".toList ++ ' ' :: tail))

/-- The characters that the text behind an operand may begin with, blanks apart. -/
def followChars : List (Option Char) :=
  [none, some ')', some ',', some '[', some '@', some 'o', some 'a', some 'u', some '=', some '!', some '>',
    some '<', some '+', some '-', some '*', some '/', some '%', some '^']

lemma head?_symbol (op : Operator) (tail : List Char) :
    (op.symbol.toList ++ tail).head? = op.symbol.toList.head? ∧ op.symbol.toList.head? ∈ followChars := by
  cases op <;> exact ⟨rfl, by decide⟩

lemma SuffixFollow.head {rest : List Char} (h : SuffixFollow rest) :
    rest.head? ∈ [none, some ' ', some ')', some ',', some '['] := by
  rcases h with ⟨_ | _ | _ | _⟩ | _ | _ | _ <;> simp

lemma SuffixFollow.head_behind {rest : List Char} (h : SuffixFollow rest) :
    (dropBlanks false rest).head? ∈ followChars := by
  rcases h with ⟨_ | _ | _ | ⟨op, tail⟩⟩ | _ | _ | _
  case operator =>
    rw [dropBlanks_space, op.symbol_solid, (head?_symbol op _).1]
    exact (head?_symbol op tail).2
  all_goals simp [dropBlanks, isSpace, followChars]

section Follow

variable {rest : List Char} (h : SuffixFollow rest)

include h

/-- No name goes on behind an operand. -/
lemma SuffixFollow.word : rest.head?.any Label.isMetricNameChar = false := by
  have hall : ∀ o ∈ [none, some ' ', some ')', some ',', some '['],
      o.any Label.isMetricNameChar = false := by decide
  exact hall _ h.head

lemma SuffixFollow.numberEnds : NumberEnds rest := by
  have hall : ∀ o ∈ [none, some ' ', some ')', some ',', some '['],
      o.any (fun c => Text.isWordChar c || c == '.') = false := by decide
  exact hall _ h.head

/-- The text behind an operand is none of these characters, blanks apart. -/
lemma SuffixFollow.head_ne {c : Char} (hc : some c ∉ followChars) :
    (dropBlanks false rest).head? ≠ some c :=
  fun heq => hc (heq ▸ h.head_behind)

lemma SuffixFollow.not_keyword {keyword : String} (hne : keyword.toList ≠ [])
    (hhead : keyword.toList.head? ∉ followChars) : afterKeyword? keyword (dropBlanks false rest) = none := by
  rw [Option.eq_none_iff_forall_ne_some]
  intro tail hfound
  obtain ⟨c, more, hc⟩ := List.exists_cons_of_ne_nil hne
  have hbehind := h.head_behind
  rw [(afterKeyword?_eq_some_iff.1 hfound).1, hc] at hbehind
  rw [hc] at hhead
  exact hhead hbehind

end Follow

/-- The text begins as an operand does. -/
def Begins (text : List Char) : Prop :=
  ∃ c tail, text = c :: tail ∧
    (Label.isMetricNameChar c = true ∨ c ∈ ['\x7b', '"', '(', '-', '+'])

section Begins

variable {text : List Char}

lemma begins_of_digit (h : ∃ c tail, text = c :: tail ∧ c.isDigit = true) : Begins text := by
  obtain ⟨c, tail, htext, hdigit⟩ := h
  refine ⟨c, tail, htext, .inl ?_⟩
  simp [Label.isMetricNameChar_iff, Text.isWordChar_iff, hdigit]

lemma Begins.append (h : Begins text) (rest : List Char) : Begins (text ++ rest) := by
  obtain ⟨c, tail, rfl, hc⟩ := h
  exact ⟨c, tail ++ rest, rfl, hc⟩

lemma begins_sign (negative : Bool) (h : Begins text) :
    Begins (Number.Binary64.sign negative ++ text) := by
  cases negative with
  | false => exact h
  | true => exact ⟨'-', text, rfl, .inr (by decide)⟩

lemma Begins.head_ne (h : Begins text) {d : Char} (hname : Label.isMetricNameChar d = false)
    (hd : d ∉ ['\x7b', '"', '(', '-', '+']) : text.head? ≠ some d := by
  obtain ⟨c, tail, rfl, hc⟩ := h
  rintro ⟨⟩
  rcases hc with hc | hc
  · simp [hname] at hc
  · exact hd hc

lemma Begins.solid (h : Begins text) : Solid text := by
  obtain ⟨c, tail, rfl, hname | hmem⟩ := h
  · exact solid_cons (Label.not_isSpace_of_isMetricNameChar hname)
      (Label.ne_of_isMetricNameChar hname (by decide)) tail
  · have hall : ∀ d ∈ ['\x7b', '"', '(', '-', '+'], isSpace d = false ∧ d ≠ '#' :=
      List.all_iff_forall_prop.1 (by decide)
    exact solid_cons (hall c hmem).1 (hall c hmem).2 tail

lemma Begins.not_blank (h : Begins text) : text.all Text.isBlank = false := by
  obtain ⟨c, tail, rfl, hc⟩ := h
  have hblank : Text.isBlank c = false := by
    rcases hc with hname | hmem
    · rw [Label.isMetricNameChar_iff, Text.isWordChar_iff, Text.isAlpha_iff, Text.isDigit_iff] at hname
      simp only [Text.isBlank, Text.Ranges.holds, Text.blankRanges, List.any_cons, List.any_nil, Bool.or_false,
        Bool.or_eq_false_iff, Bool.and_eq_false_iff, decide_eq_false_iff_not]
      omega
    · have hall : ∀ d ∈ ['\x7b', '"', '(', '-', '+'], Text.isBlank d = false :=
        List.all_iff_forall_prop.1 (by decide)
      exact hall c hmem
  simp [hblank]

end Begins

/-! ## Suffixes one by one -/

/-- All suffixes of an operand. -/
def takeSuffixes (base : Expr) : Scanner Expr := fun input =>
  suffixes (input.length + 1) base input

lemma suffixes_eq_takeSuffixes {bound : Nat} {input : List Char} (h : input.length < bound) (base : Expr) :
    suffixes bound base input = takeSuffixes base input := by
  unfold takeSuffixes
  induction hlength : input.length using Nat.strong_induction_on generalizing bound input base with
  | _ length ih =>
    obtain ⟨bound, rfl⟩ : ∃ k, bound = k + 1 := ⟨bound - 1, by omega⟩
    rw [suffixes_succ, suffixes_succ]
    cases hsuffix : suffixAt? base (dropBlanks false input) with
    | none => rfl
    | some suffix =>
      have hstart := length_dropBlanks_le false input
      cases hread : suffix (dropBlanks false input) with
      | error failure => simp only [bind_of_error hread]
      | ok result =>
        obtain ⟨e, rest⟩ := result
        obtain ⟨-, hrest⟩ := consumes_of_suffixAt? hsuffix hread
        simp only [bind_of_ok hread]
        have hleft : suffixes bound e rest = suffixes (rest.length + 1) e rest :=
          ih rest.length (by omega) (by omega) e rfl
        have hright : suffixes length e rest = suffixes (rest.length + 1) e rest :=
          ih rest.length (by omega) (by omega) e rfl
        exact hleft.trans hright.symm

lemma takeSuffixes_of_none {base : Expr} {input : List Char}
    (h : suffixAt? base (dropBlanks false input) = none) : takeSuffixes base input = .ok (base, input) := by
  rw [takeSuffixes, suffixes_succ, h]

lemma takeSuffixes_of_some {base e : Expr} {input rest : List Char} {suffix : Scanner Expr}
    (h : suffixAt? base (dropBlanks false input) = some suffix)
    (hread : suffix (dropBlanks false input) = .ok (e, rest)) :
    takeSuffixes base input = takeSuffixes e rest := by
  obtain ⟨-, hrest⟩ := consumes_of_suffixAt? h hread
  have hstart := length_dropBlanks_le false input
  rw [takeSuffixes, suffixes_succ, h]
  simp only [bind_of_ok hread]
  exact suffixes_eq_takeSuffixes (by omega) e

/-- Behind a complete expression there is no suffix. -/
lemma takeSuffixes_follow {rest : List Char} (h : Follow rest) (base : Expr) :
    takeSuffixes base rest = .ok (base, rest) := by
  refine takeSuffixes_of_none ?_
  have hbracket : (dropBlanks false rest).head? ≠ some '[' ∧ (dropBlanks false rest).head? ≠ some '@' := by
    rcases h with _ | _ | _ | ⟨op, tail⟩
    case operator =>
      rw [dropBlanks_space, op.symbol_solid, (head?_symbol op _).1]
      cases op <;> decide
    all_goals simp [dropBlanks, isSpace]
  have hoffset : afterKeyword? "offset" (dropBlanks false rest) = none := by
    rcases h with _ | _ | _ | ⟨op, tail⟩
    case operator =>
      rw [dropBlanks_space, op.symbol_solid]
      cases op <;> simp [afterKeyword?, Text.after?, Operator.symbol]
    all_goals simp [dropBlanks, isSpace, afterKeyword?, Text.after?]
  simp [suffixAt?, hbracket, hoffset]

/-! ## Times of evaluation -/

namespace Expr

variable {base : Expr} {f : TimeFrame}

lemma frame?_withFrame (h : base.frame? = some f) (g : TimeFrame) :
    (base.withFrame g).frame? = some g := by
  cases base <;> simp_all [frame?, withFrame]

lemma withFrame_withFrame (base : Expr) (g k : TimeFrame) :
    (base.withFrame g).withFrame k = base.withFrame k := by
  cases base <;> rfl

lemma withFrame_self (h : base.frame? = some f) : base.withFrame f = base := by
  cases base <;> simp_all [frame?, withFrame]
  all_goals subst h; rfl

end Expr

/-- The written form of an instant without the mark before it. -/
def Instant.body : Instant → List Char
  | timestamp seconds => seconds.milliChars
  | start => "start()".toList
  | finish => "end()".toList

lemma Instant.chars_eq (i : Instant) : i.chars = ' ' :: '@' :: ' ' :: i.body := by
  cases i <;> rfl

lemma emptyParens_append (rest : List Char) : emptyParens ('(' :: ')' :: rest) = .ok ((), rest) := by
  have hopen : literal "(" ('(' :: ')' :: rest) = .ok ((), ')' :: rest) := literal_append "(" _
  have hclose : literal ")" (')' :: rest) = .ok ((), rest) := literal_append ")" _
  rw [emptyParens, bind_of_ok (blanks_apply _), solid_cons (by decide) (by decide), expecting_eq_ok_iff,
    commit_eq_ok_iff, bind_of_ok hopen, bind_of_ok (blanks_apply _), solid_cons (by decide) (by decide), hclose]

lemma optKeyword_of_head {keyword : String} {c : Char} (tail : List Char) (hne : keyword.toList ≠ [])
    (h : keyword.toList.head? ≠ some c) : optKeyword keyword (c :: tail) = .ok (false, c :: tail) := by
  have hnone : afterKeyword? keyword (c :: tail) = none := by
    rw [Option.eq_none_iff_forall_ne_some]
    intro rest hfound
    obtain ⟨d, more, hd⟩ := List.exists_cons_of_ne_nil hne
    have hsplit := (afterKeyword?_eq_some_iff.1 hfound).1
    rw [hd] at h hsplit
    exact h (by rw [List.head?_cons, (List.cons.inj hsplit).1])
  rw [optKeyword_apply, hnone]

/-- What begins like none of the words for an instant is a number. -/
lemma scanInstant_of_head {c : Char} (tail : List Char) (hs : c ≠ 's') (he : c ≠ 'e') :
    scanInstant (c :: tail) =
      (do
        let negative ← optLiteral "-"
        let seconds ← expecting "timestamp, start() or end()" (commit number)
        return .timestamp (if negative then seconds.neg else seconds) : Scanner Instant) (c :: tail) := by
  have hstart : optKeyword "start" (c :: tail) = .ok (false, c :: tail) :=
    optKeyword_of_head _ (by decide) (by simpa using hs.symm)
  have hend : optKeyword "end" (c :: tail) = .ok (false, c :: tail) :=
    optKeyword_of_head _ (by decide) (by simpa using he.symm)
  rw [scanInstant, bind_of_ok hstart]
  simp only [Bool.false_eq_true, if_false]
  rw [bind_of_ok hend]
  rfl

/-- A number is read behind its sign. -/
lemma scanInstant_number (negative : Bool) {c : Char} {magnitude rest : List Char} {value : Number.Binary64}
    (hc : c ∉ ['s', 'e', '-']) (hread : number (c :: magnitude) = .ok (value, rest)) :
    scanInstant (Number.Binary64.sign negative ++ c :: magnitude) =
      .ok (.timestamp (if negative then value.neg else value), rest) := by
  have hvalue : expecting "timestamp, start() or end()" (commit number) (c :: magnitude) =
      .ok (value, rest) := by
    rw [expecting_eq_ok_iff, commit_eq_ok_iff, hread]
  cases negative with
  | true =>
    have hsign : optLiteral "-" ('-' :: c :: magnitude) = .ok (true, c :: magnitude) :=
      optLiteral_eq_true_iff.2 rfl
    change scanInstant ('-' :: c :: magnitude) = _
    rw [scanInstant_of_head _ (by decide) (by decide), bind_of_ok hsign, bind_of_ok hvalue]
    rfl
  | false =>
    have hminus : '-' ≠ c := fun h => hc (by simp [← h])
    have hsign : optLiteral "-" (c :: magnitude) = .ok (false, c :: magnitude) :=
      optLiteral_eq_false_iff.2 ⟨rfl, by simp [Text.after?, hminus]⟩
    change scanInstant (c :: magnitude) = _
    rw [scanInstant_of_head _ (fun h => hc (by simp [h])) (fun h => hc (by simp [h])), bind_of_ok hsign,
      bind_of_ok hvalue]
    rfl

lemma not_mem_of_isDigit {c : Char} (h : c.isDigit = true) : c ∉ ['s', 'e', '-'] := by
  rintro hmem
  simp only [List.mem_cons, List.not_mem_nil, or_false] at hmem
  rcases hmem with rfl | rfl | rfl <;> exact absurd h (by decide)

/-- A timestamp is read to the thousandth. -/
lemma scanInstant_timestamp (seconds : Number.Binary64) {rest : List Char} (hrest : NumberEnds rest) :
    scanInstant (seconds.milliChars ++ rest) = .ok (.timestamp seconds.roundMillis, rest) := by
  cases seconds with
  | nan => exact scanInstant_number false (by decide) (number_nan hrest)
  | infinite negative =>
    have hread : number ('i' :: ['n', 'f'] ++ rest) = .ok (.infinite false, rest) :=
      number_infinite hrest (by decide)
    have hinstant := scanInstant_number negative (by decide) hread
    cases negative <;> exact hinstant
  | finite negative rank =>
    have hread := number_thousandths hrest rank
    obtain ⟨c, tail, hc, hdigit⟩ := Number.exists_cons_insertPoint
      (Number.roundDiv (Number.unitsOfRank rank * 1000) Number.unitsPerOne) 3
    rw [hc, List.cons_append] at hread
    have hinstant := scanInstant_number negative (not_mem_of_isDigit hdigit) hread
    rw [Number.Binary64.milliChars, hc, List.append_assoc, List.cons_append, hinstant, Number.Binary64.roundMillis]
    cases negative with
    | false => simp only [Bool.false_eq_true, if_false]
    | true => simp only [if_true, Number.Binary64.neg_ofRatio]

lemma scanInstant_body (i : Instant) {rest : List Char} (hrest : NumberEnds rest) :
    scanInstant (i.body ++ rest) = .ok (i.reread, rest) := by
  have hstop : ('(' :: ')' :: rest).head?.any Label.isMetricNameChar = false := by
    simp only [List.head?_cons, Option.any_some]
    decide
  cases i with
  | timestamp seconds => exact scanInstant_timestamp seconds hrest
  | start =>
    have hword : optKeyword "start" ("start".toList ++ '(' :: ')' :: rest) = .ok (true, '(' :: ')' :: rest) := by
      rw [optKeyword_apply, afterKeyword?_eq_some_iff.2 ⟨rfl, hstop⟩]
    change scanInstant ("start".toList ++ '(' :: ')' :: rest) = _
    rw [scanInstant, bind_of_ok hword]
    simp only [if_true]
    rw [bind_of_ok (emptyParens_append rest)]
    rfl
  | finish =>
    have hstart : optKeyword "start" ("end".toList ++ '(' :: ')' :: rest) =
        .ok (false, "end".toList ++ '(' :: ')' :: rest) := optKeyword_of_head _ (by decide) (by decide)
    have hword : optKeyword "end" ("end".toList ++ '(' :: ')' :: rest) = .ok (true, '(' :: ')' :: rest) := by
      rw [optKeyword_apply, afterKeyword?_eq_some_iff.2 ⟨rfl, hstop⟩]
    change scanInstant ("end".toList ++ '(' :: ')' :: rest) = _
    rw [scanInstant, bind_of_ok hstart]
    simp only [Bool.false_eq_true, if_false]
    rw [bind_of_ok hword]
    simp only [if_true]
    rw [bind_of_ok (emptyParens_append rest)]
    rfl

lemma begins_milliChars (v : Number.Binary64) : Begins v.milliChars := by
  cases v with
  | nan => exact ⟨'N', _, rfl, .inl (by decide)⟩
  | infinite negative => cases negative <;> exact ⟨_, _, rfl, by decide⟩
  | finite negative rank =>
    rw [Number.Binary64.milliChars]
    exact begins_sign negative (begins_of_digit (Number.exists_cons_insertPoint _ 3))

lemma Instant.begins_body (i : Instant) : Begins i.body := by
  cases i with
  | timestamp seconds => exact begins_milliChars seconds
  | start => exact ⟨'s', _, rfl, .inl (by decide)⟩
  | finish => exact ⟨'e', _, rfl, .inl (by decide)⟩

lemma SuffixFollow.ends {rest : List Char} (h : SuffixFollow rest) : Duration.Ends rest := by
  have hall : ∀ o ∈ [none, some ' ', some ')', some ',', some '['], o.any Char.isAlphanum = false := by
    decide
  exact hall _ h.head

/-- The instant is the next suffix of an expression that has none yet. -/
lemma takeSuffixes_instant {base : Expr} {f : TimeFrame} (hframe : base.frame? = some f)
    (hnone : f.instant = none) (i : Instant) {rest : List Char} (hrest : NumberEnds rest) :
    takeSuffixes base (i.chars ++ rest) =
      takeSuffixes (base.withFrame { f with instant := some i.reread }) rest := by
  have hstart : dropBlanks false (i.chars ++ rest) = '@' :: ' ' :: (i.body ++ rest) := by
    rw [i.chars_eq, List.cons_append, dropBlanks_space]
    exact solid_cons (by decide) (by decide) _
  have hmark : suffixAt? base ('@' :: ' ' :: (i.body ++ rest)) = some (instantSuffix base) := by
    simp [suffixAt?, afterKeyword?, Text.after?]
  refine takeSuffixes_of_some (hstart ▸ hmark) ?_
  have hliteral : literal "@" ('@' :: ' ' :: (i.body ++ rest)) = .ok ((), ' ' :: (i.body ++ rest)) :=
    literal_append "@" _
  rw [hstart, instantSuffix, bind_of_ok hliteral, bind_of_ok (blanks_apply _), dropBlanks_space,
    (i.begins_body.append rest).solid.eq, bind_of_ok (scanInstant_body i hrest), hframe]
  simp [hnone]

lemma afterKeyword?_offset (tail : List Char) :
    afterKeyword? "offset" ("offset".toList ++ ' ' :: tail) = some (' ' :: tail) := by
  have hstop : (' ' :: tail).head?.any Label.isMetricNameChar = false := by
    rw [List.head?_cons]
    decide
  exact afterKeyword?_eq_some_iff.2 ⟨rfl, hstop⟩

/-- A sign is read before a digit whether it is there or not. -/
lemma optLiteral_sign (negative : Bool) {text : List Char}
    (h : ∃ c tail, text = c :: tail ∧ c.isDigit = true) (rest : List Char) :
    optLiteral "-" (Number.Binary64.sign negative ++ (text ++ rest)) = .ok (negative, text ++ rest) := by
  obtain ⟨c, tail, rfl, hdigit⟩ := h
  cases negative with
  | true => exact optLiteral_eq_true_iff.2 rfl
  | false =>
    have hminus : '-' ≠ c := by
      rintro rfl
      exact absurd hdigit (by decide)
    exact optLiteral_eq_false_iff.2 ⟨rfl, by simp [Number.Binary64.sign, Text.after?, hminus]⟩

lemma offsetSuffix_written {base : Expr} {f : TimeFrame} (hframe : base.frame? = some f)
    (hnone : f.offset = none) (negative : Bool) (amount : Duration) {rest : List Char}
    (hrest : Duration.Ends rest) :
    offsetSuffix base ("offset".toList ++ ' ' :: (Number.Binary64.sign negative ++ (amount.chars ++ rest))) =
      .ok (base.withFrame { f with offset := some ⟨negative, amount.reread⟩ }, rest) := by
  have hamount : expecting "offset duration" (commit Duration.scan) (amount.chars ++ rest) =
      .ok (amount.reread, rest) := by
    rw [expecting_eq_ok_iff, commit_eq_ok_iff, Duration.scan_chars amount hrest, Duration.reread]
  have hsigned : Begins (Number.Binary64.sign negative ++ (amount.chars ++ rest)) :=
    begins_sign _ ((begins_of_digit amount.exists_cons_chars).append rest)
  rw [offsetSuffix, bind_of_ok (keyword_eq_ok_iff (u := ()) |>.2 (afterKeyword?_offset _)),
    bind_of_ok (blanks_apply _), dropBlanks_space, hsigned.solid.eq,
    bind_of_ok (optLiteral_sign negative amount.exists_cons_chars rest), bind_of_ok hamount, hframe]
  simp [hnone]

/-- The shift in time is the next suffix of an expression that has none yet. -/
lemma takeSuffixes_offset {base : Expr} {f : TimeFrame} (hframe : base.frame? = some f)
    (hnone : f.offset = none) (o : Offset) {rest : List Char} (hrest : Duration.Ends rest) :
    takeSuffixes base (o.chars ++ rest) =
      takeSuffixes (base.withFrame { f with offset := o.reread }) rest := by
  unfold Offset.chars Offset.reread
  split_ifs with hzero
  · have hself : { f with offset := none } = f := by rw [← hnone]
    rw [List.nil_append, hself, Expr.withFrame_self hframe]
  · have hsplit : " offset ".toList ++ Number.Binary64.sign o.negative ++ o.amount.chars ++ rest =
        ' ' :: ("offset".toList ++ ' ' :: (Number.Binary64.sign o.negative ++ (o.amount.chars ++ rest))) := by
      simp
    have hsolid (tail : List Char) : Solid ("offset".toList ++ ' ' :: tail) :=
      solid_word (by decide) (by decide) _
    have hmark (tail : List Char) :
        suffixAt? base ("offset".toList ++ ' ' :: tail) = some (offsetSuffix base) := by
      rw [suffixAt?, afterKeyword?_offset]
      rfl
    have hstart (tail : List Char) :
        dropBlanks false (' ' :: ("offset".toList ++ ' ' :: tail)) = "offset".toList ++ ' ' :: tail :=
      (dropBlanks_space _).trans (hsolid tail)
    rw [hsplit]
    refine takeSuffixes_of_some ((hstart _).symm ▸ hmark _) ?_
    rw [hstart]
    exact offsetSuffix_written hframe hnone o.negative o.amount hrest

/-- The time of evaluation is read behind an expression. -/
lemma takeSuffixes_frame {base : Expr} (hbase : base.frame? = some {}) (f : TimeFrame) {rest : List Char}
    (hrest : SuffixFollow rest) :
    takeSuffixes base (f.chars ++ rest) = takeSuffixes (base.withFrame f.reread) rest := by
  have hoffset (e : Expr) (g : TimeFrame) (hframe : e.frame? = some g) (hnone : g.offset = none) :
      takeSuffixes e ((f.offset.map Offset.chars).getD [] ++ rest) =
        takeSuffixes (e.withFrame { g with offset := f.offset.bind Offset.reread }) rest := by
    cases f.offset with
    | none =>
      have hself : { g with offset := none } = g := by rw [← hnone]
      simp [hself, Expr.withFrame_self hframe]
    | some o => exact takeSuffixes_offset hframe hnone o hrest.ends
  have hends : NumberEnds ((f.offset.map Offset.chars).getD [] ++ rest) := by
    cases f.offset with
    | none => exact hrest.numberEnds
    | some o =>
      simp only [Option.map_some, Option.getD_some, Offset.chars]
      split_ifs with hzero
      · exact hrest.numberEnds
      · simp [NumberEnds]
        decide
  rw [TimeFrame.chars, List.append_assoc, TimeFrame.reread]
  cases f.instant with
  | none => exact hoffset base {} hbase rfl
  | some i =>
    simp only [Option.map_some, Option.getD_some]
    rw [takeSuffixes_instant hbase rfl i hends, hoffset _ _ (Expr.frame?_withFrame hbase _) rfl,
      Expr.withFrame_withFrame]

/-! ## Ranges -/

/-- A duration is read up to a mark behind it. -/
lemma bracketDuration_chars (d : Duration) {mark : Char} (hmark : mark.isAlphanum = false) (rest : List Char) :
    bracketDuration (d.chars ++ mark :: rest) = .ok (d.reread, mark :: rest) := by
  have hends : Duration.Ends (mark :: rest) := by simpa [Duration.Ends] using hmark
  rw [bracketDuration, expecting_eq_ok_iff, commit_eq_ok_iff, d.scan_chars hends, Duration.reread]

/-- What stands behind the range of an expression. -/
def rangeEnd (base : Expr) (range : Duration) : Scanner Expr := do
  if ← optLiteral ":" then
    blanks
    let step ← if (← peek) = some ']' then pure none else some <$> bracketDuration
    blanks
    expecting "']'" (commit (literal "]"))
    return .subquery base range step {}
  expecting "']' or ':'" (commit (literal "]"))
  match base with
  | .vector selector =>
    if selector.frame = {} then return .matrix selector range
    else refuse "ranges only allowed for vector selectors"
  | _ => refuse "ranges only allowed for vector selectors"

lemma rangeSuffix_eq (base : Expr) :
    rangeSuffix base = (do
      literal "["
      blanks
      let range ← bracketDuration
      blanks
      rangeEnd base range) :=
  rfl

/-- The range is read behind its bracket. -/
lemma rangeSuffix_written (base : Expr) (range : Duration) {mark : Char} (hmark : mark ∈ [':', ']'])
    (rest : List Char) :
    rangeSuffix base ('[' :: (range.chars ++ mark :: rest)) = rangeEnd base range.reread (mark :: rest) := by
  have hopen : literal "[" ('[' :: (range.chars ++ mark :: rest)) = .ok ((), range.chars ++ mark :: rest) :=
    literal_append "[" _
  have hmarks : ∀ c ∈ [':', ']'], c.isAlphanum = false ∧ isSpace c = false ∧ c ≠ '#' :=
    List.all_iff_forall_prop.1 (by decide)
  obtain ⟨halnum, hspace, hcomment⟩ := hmarks mark hmark
  have hdigits : Solid (range.chars ++ mark :: rest) :=
    ((begins_of_digit range.exists_cons_chars).append _).solid
  rw [rangeSuffix_eq, bind_of_ok hopen, bind_of_ok (blanks_apply _), hdigits.eq,
    bind_of_ok (bracketDuration_chars range halnum rest), bind_of_ok (blanks_apply _),
    (solid_cons hspace hcomment rest).eq]

lemma takeSuffixes_bracket {base e : Expr} {tail rest : List Char}
    (h : rangeSuffix base ('[' :: tail) = .ok (e, rest)) :
    takeSuffixes base ('[' :: tail) = takeSuffixes e rest := by
  have hstart : Solid ('[' :: tail) := solid_cons (by decide) (by decide) _
  refine takeSuffixes_of_some ?_ (hstart.eq.symm ▸ h)
  simp [hstart.eq, suffixAt?]

lemma takeSuffixes_range {s : Selector} (hframe : s.frame = {}) (range : Duration) (rest : List Char) :
    takeSuffixes (.vector s) ('[' :: (range.chars ++ ']' :: rest)) =
      takeSuffixes (.matrix s range.reread) rest := by
  have hcolon : optLiteral ":" (']' :: rest) = .ok (false, ']' :: rest) :=
    optLiteral_eq_false_iff.2 ⟨rfl, by simp [Text.after?]⟩
  have hclose : expecting "']' or ':'" (commit (literal "]")) (']' :: rest) = .ok ((), rest) := by
    rw [expecting_eq_ok_iff, commit_eq_ok_iff]
    exact literal_append "]" rest
  refine takeSuffixes_bracket ?_
  rw [rangeSuffix_written _ _ (by decide)]
  unfold rangeEnd
  rw [bind_of_ok hcolon]
  simp only [Bool.false_eq_true, if_false]
  rw [bind_of_ok hclose]
  simp [hframe]

lemma takeSuffixes_subquery (base : Expr) (range : Duration) (step : Option Duration) (rest : List Char) :
    takeSuffixes base ('[' :: (range.chars ++ ':' :: ((step.map Duration.chars).getD [] ++ ']' :: rest))) =
      takeSuffixes (.subquery base range.reread (step.map Duration.reread) {}) rest := by
  have hcolon (tail : List Char) : optLiteral ":" (':' :: tail) = .ok (true, tail) :=
    optLiteral_eq_true_iff.2 rfl
  have hclosing : Solid (']' :: rest) := solid_cons (by decide) (by decide) _
  have hclose : expecting "']'" (commit (literal "]")) (']' :: rest) = .ok ((), rest) := by
    rw [expecting_eq_ok_iff, commit_eq_ok_iff]
    exact literal_append "]" rest
  refine takeSuffixes_bracket ?_
  rw [rangeSuffix_written _ _ (by decide)]
  unfold rangeEnd
  rw [bind_of_ok (hcolon _)]
  simp only [if_true]
  rw [bind_of_ok (blanks_apply _)]
  cases step with
  | none =>
    simp only [Option.map_none, Option.getD_none, List.nil_append, hclosing.eq]
    rw [bind_of_ok (peek_apply _)]
    simp only [if_pos (List.head?_cons : (']' :: rest).head? = some ']')]
    rw [bind_of_ok (pure_apply _ _), bind_of_ok (blanks_apply _), hclosing.eq, bind_of_ok hclose]
    rfl
  | some d =>
    have hbegins : Begins (d.chars ++ ']' :: rest) := (begins_of_digit d.exists_cons_chars).append _
    have hbracket : (d.chars ++ ']' :: rest).head? ≠ some ']' := hbegins.head_ne (by decide) (by decide)
    simp only [Option.map_some, Option.getD_some, hbegins.solid.eq]
    rw [bind_of_ok (peek_apply _)]
    simp only [if_neg hbracket]
    rw [bind_of_ok (map_of_ok (bracketDuration_chars d (by decide) rest)), bind_of_ok (blanks_apply _),
      hclosing.eq, bind_of_ok hclose]
    rfl

end Metric

end QueryScope
