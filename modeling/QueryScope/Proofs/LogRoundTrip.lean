import QueryScope.Proofs.RangeText

/-!
# Log queries survive printing

The printed form of a log query is read as the same query, grouping by no label apart, if no stage of it
is taken for part of another one in print.
-/

namespace QueryScope.Log

open Scan Operator
open QueryScope.Metric (Begins Closes Follow clauseWords begins_of_digit begins_sign)

/-! ## Names of operations -/

lemma RangeOperation.isLabelName_symbol (op : RangeOperation) : Label.isLabelName op.symbol = true := by
  cases op <;> rfl

lemma Aggregation.isLabelName_symbol (op : Aggregation) : Label.isLabelName op.symbol = true := by
  cases op <;> rfl

namespace Sample

/-- The ranges of logs in a query, from left to right. -/
def ranges : Sample → List LogRange
  | range _ _ logs _ => [logs]
  | aggregate _ _ body _ => body.ranges
  | binary _ _ left right => left.ranges ++ right.ranges
  | literal _ | vector _ => []
  | labelReplace body _ _ _ _ => body.ranges

/-- The numbers of the query are finite and its durations have less than `2 ^ 64` milliseconds. -/
def Bounded : Sample → Prop
  | range _ parameter logs _ => (∀ p ∈ parameter, p.isFinite = true) ∧ logs.Bounded
  | aggregate _ _ body _ => body.Bounded
  | binary _ _ left right => left.Bounded ∧ right.Bounded
  | literal value | vector value => value.isFinite = true
  | labelReplace body _ _ _ _ => body.Bounded

instance decidableBounded : DecidablePred Bounded
  | range _ parameter logs _ =>
    inferInstanceAs (Decidable ((∀ p ∈ parameter, p.isFinite = true) ∧ logs.Bounded))
  | aggregate _ _ body _ | labelReplace body _ _ _ _ => decidableBounded body
  | binary _ _ left right => @instDecidableAnd _ _ (decidableBounded left) (decidableBounded right)
  | literal value | vector value => inferInstanceAs (Decidable (value.isFinite = true))

/-- The query as it is read back: an aggregation that groups by no label has no grouping. -/
def normal : Sample → Sample
  | range op parameter logs grouping => range op parameter logs (normalGrouping grouping)
  | aggregate op parameter body grouping => aggregate op parameter body.normal (normalGrouping grouping)
  | binary op modifiers left right => binary op modifiers left.normal right.normal
  | literal value => literal value
  | vector value => vector value
  | labelReplace body target replacement source expression =>
    labelReplace body.normal target replacement source expression

lemma ranges_normal (s : Sample) : s.normal.ranges = s.ranges := by
  induction s with
  | range op parameter logs grouping => rfl
  | aggregate op parameter body grouping ih => exact ih
  | binary op modifiers left right ihleft ihright => simp only [normal, ranges, ihleft, ihright]
  | literal value => rfl
  | vector value => rfl
  | labelReplace body target replacement source expression ih => exact ih

/-! ## How a query begins -/

/-- The word that an operation or an aggregation begins with, and the text behind it. -/
lemma begins_chars (s : Sample) : Begins s.chars := by
  have hword {name : String} (hname : Label.isLabelName name = true) (more : List Char) :
      Begins (name.toList ++ more) := by
    obtain ⟨c, tail, hc, hletter⟩ := Label.exists_cons_of_isLabelName hname
    exact ⟨c, tail ++ more, by rw [hc]; rfl, .inl (Label.isMetricNameChar_of_isNameStart hletter)⟩
  cases s with
  | range op parameter logs grouping =>
    rw [chars_range, List.append_assoc, List.append_assoc]
    exact hword op.isLabelName_symbol _
  | aggregate op parameter body grouping =>
    rw [chars_aggregate, List.append_assoc, List.append_assoc, List.append_assoc]
    exact hword op.isLabelName_symbol _
  | binary op modifiers left right => exact ⟨'(', _, rfl, .inr (by decide)⟩
  | literal value =>
    rw [chars_literal]
    cases value with
    | nan => exact ⟨'N', _, rfl, .inl (by decide)⟩
    | infinite negative => cases negative <;> exact ⟨_, _, rfl, .inr (by decide)⟩
    | finite negative rank =>
      exact begins_sign negative (begins_of_digit (Number.exists_cons_positional _))
  | vector value => exact ⟨'v', _, rfl, .inl (by decide)⟩
  | labelReplace body target replacement source expression => exact ⟨'l', _, rfl, .inl (by decide)⟩

lemma solid_chars (s : Sample) (rest : List Char) : Solid (s.chars ++ rest) :=
  (s.begins_chars.append rest).solid

/-- No query begins with a word that a clause of an operator begins with. -/
lemma afterKeyword?_chars {s : Sample} (hbounded : s.Bounded) {word : String} (hword : word ∈ clauseWords)
    (rest : List Char) : afterKeyword? word (s.chars ++ rest) = none := by
  have hwords : ∀ word ∈ clauseWords, IsWord word ∧ word.toList ≠ [] ∧ word.toList.head?.any Char.isAlpha := by
    decide
  obtain ⟨hisWord, hne, halpha⟩ := hwords word hword
  have hnamed {name : String} (hname : IsWord name) (hother : name ∉ clauseWords) {more : List Char}
      (hmore : more.head?.any Label.isMetricNameChar = false) :
      afterKeyword? word (name.toList ++ more) = none := by
    rw [afterKeyword?_word hisWord hname hmore, if_neg]
    rintro rfl
    exact hother hword
  have hparen (tail : List Char) : ('(' :: tail).head?.any Label.isMetricNameChar = false := rfl
  have hhead {c : Char} (hc : c.isAlpha = false) (tail : List Char) : afterKeyword? word (c :: tail) = none := by
    refine afterKeyword?_of_head hne fun heq => ?_
    rw [← heq] at halpha
    simp [hc] at halpha
  cases s with
  | range op parameter logs grouping =>
    rw [chars_range, List.append_assoc, List.append_assoc, List.append_assoc]
    have hother : op.symbol ∉ clauseWords := by cases op <;> decide
    exact hnamed (isWord_of_isLabelName op.isLabelName_symbol) hother (by rfl)
  | aggregate op parameter body grouping =>
    rw [chars_aggregate, List.append_assoc, List.append_assoc, List.append_assoc, List.append_assoc]
    have hother : op.symbol ∉ clauseWords := by cases op <;> decide
    refine hnamed (isWord_of_isLabelName op.isLabelName_symbol) hother ?_
    cases hnormal : normalGrouping grouping with
    | none => rw [groupingChars_none hnormal]; rfl
    | some g => rw [groupingChars_some hnormal]; rfl
  | binary op modifiers left right => exact hhead (by decide) _
  | literal value =>
    rw [chars_literal]
    match value, hbounded with
    | .finite true rank, _ => exact hhead (by decide) _
    | .finite false rank, _ =>
      obtain ⟨c, tail, hc, hdigit⟩ := Number.exists_cons_positional (Number.shortest .up rank)
      change afterKeyword? word ((Number.shortest .up rank).positional ++ rest) = none
      rw [hc]
      exact hhead (by simpa using Text.isAlpha_of_isDigit hdigit) _
  | vector value =>
    rw [chars_vector, List.append_assoc, List.append_assoc]
    have hvector : IsWord "vector" := by decide
    exact hnamed hvector (by decide) (hparen _)
  | labelReplace body target replacement source expression =>
    rw [chars_labelReplace, List.append_assoc, List.append_assoc]
    have hreplace : IsWord "label_replace" := by decide
    exact hnamed hreplace (by decide) (hparen _)

lemma clear_chars {s : Sample} (hbounded : s.Bounded) (m : Modifiers) (rest : List Char) :
    m.Clear (s.chars ++ rest) := by
  have hnone {word : String} (hword : word ∈ clauseWords) : afterKeyword? word (s.chars ++ rest) = none :=
    afterKeyword?_chars hbounded hword rest
  unfold Modifiers.Clear
  cases m.matching with
  | none => exact ⟨fun _ => hnone (by decide), hnone (by decide), hnone (by decide)⟩
  | some x => exact fun _ => ⟨hnone (by decide), hnone (by decide)⟩

end Sample

/-! ## Operands -/

section Operands

variable {depth : Nat} {rest : List Char}

lemma optLiteral_opening {c : Char} (hminus : c ≠ '-') (hparen : c ≠ '(') (tail : List Char) :
    optLiteral "-" (c :: tail) = .ok (false, c :: tail) ∧ optLiteral "(" (c :: tail) = .ok (false, c :: tail) := by
  have hmarks : "-".toList = ['-'] ∧ "(".toList = ['('] := ⟨rfl, rfl⟩
  exact ⟨optLiteral_of_head hmarks.1 (by simpa using hminus), optLiteral_of_head hmarks.2 (by simpa using hparen)⟩

section Plain

variable {c : Char} {tail : List Char} (hminus : c ≠ '-') (hparen : c ≠ '(') (hsolid : Solid (c :: tail))

include hminus hparen hsolid

/-- Without a sign or a parenthesis a number is tried first. -/
lemma operand_of_number {value : Number.Binary64} (h : number (c :: tail) = .ok (value, rest)) :
    operand (depth + 1) (c :: tail) = .ok (.literal value, rest) := by
  obtain ⟨hfirst, hsecond⟩ := optLiteral_opening hminus hparen tail
  rw [operand, scanOperand, bind_of_ok (blanks_apply _), hsolid.eq, bind_of_ok hfirst, if_neg (by decide),
    bind_of_ok hsecond, if_neg (by decide), bind_of_ok (opt_of_ok h)]
  rfl

lemma operand_of_name (h : number (c :: tail) = .error ⟨false, [], c :: tail⟩) :
    operand (depth + 1) (c :: tail) = namedOperand (operand depth) (c :: tail) := by
  obtain ⟨hfirst, hsecond⟩ := optLiteral_opening hminus hparen tail
  rw [operand, scanOperand, bind_of_ok (blanks_apply _), hsolid.eq, bind_of_ok hfirst, if_neg (by decide),
    bind_of_ok hsecond, if_neg (by decide), bind_of_ok (opt_of_error h rfl)]

end Plain

/-- An operand that begins with a name. -/
lemma operand_named {name : String} (hname : Label.isLabelName name = true)
    (hspecial : specialNumber? name.toList = none) {more : List Char}
    (hmore : more.head?.any Label.isMetricNameChar = false) :
    operand (depth + 1) (name.toList ++ more) = namedOperand (operand depth) (name.toList ++ more) := by
  have hsolid := solid_name hname more
  have hnone := (specialNumber?_append_word hmore).2 hspecial
  obtain ⟨c, tail, hc, hletter⟩ := Label.exists_cons_of_isLabelName hname
  have hpart := Label.isMetricNameChar_of_isNameStart hletter
  rw [hc, List.cons_append] at hsolid hnone ⊢
  exact operand_of_name (Label.ne_of_isMetricNameChar hpart (by decide))
    (Label.ne_of_isMetricNameChar hpart (by decide)) hsolid
    (number_of_nameStart (Label.isMetricNameStart_iff.2 (.inl hletter)) hnone)

lemma labelName_word {name : String} (hname : Label.isLabelName name = true) {more : List Char}
    (hmore : more.head?.any Label.isMetricNameChar = false) :
    labelName (name.toList ++ more) = .ok (name, more) :=
  labelName_eq_ok_iff.2 ⟨rfl, hname, Label.any_isWordChar_of_any_isMetricNameChar hmore⟩

lemma operand_range (op : RangeOperation) {more : List Char}
    (hmore : more.head?.any Label.isMetricNameChar = false) :
    operand (depth + 1) (op.symbol.toList ++ more) = rangeAggregation op more := by
  have hspecial : specialNumber? op.symbol.toList = none := by cases op <;> decide
  have hother : op.symbol ≠ "vector" ∧ op.symbol ≠ "label_replace" := by cases op <;> decide
  have hfound : RangeOperation.ofSymbol? op.symbol = some op := by cases op <;> rfl
  rw [operand_named op.isLabelName_symbol hspecial hmore, namedOperand, bind_of_ok (get_apply _),
    bind_of_ok (labelName_word op.isLabelName_symbol hmore), if_neg hother.1, if_neg hother.2, hfound]

lemma operand_aggregate (op : Aggregation) {more : List Char}
    (hmore : more.head?.any Label.isMetricNameChar = false) :
    operand (depth + 1) (op.symbol.toList ++ more) = vectorAggregation (operand depth) op more := by
  have hspecial : specialNumber? op.symbol.toList = none := by cases op <;> decide
  have hother : op.symbol ≠ "vector" ∧ op.symbol ≠ "label_replace" := by cases op <;> decide
  have hrange : RangeOperation.ofSymbol? op.symbol = none := by cases op <;> rfl
  have hfound : Aggregation.ofSymbol? op.symbol = some op := by cases op <;> rfl
  rw [operand_named op.isLabelName_symbol hspecial hmore, namedOperand, bind_of_ok (get_apply _),
    bind_of_ok (labelName_word op.isLabelName_symbol hmore), if_neg hother.1, if_neg hother.2, hrange, hfound]

lemma operand_vector {value : Number.Binary64} (hfinite : value.isFinite = true)
    (hsign : value.isNegative = false) (rest : List Char) :
    operand (depth + 1) ("vector".toList ++ '(' :: (value.queryChars ++ ')' :: rest)) =
      .ok (.vector value, rest) := by
  have hname : Label.isLabelName "vector" = true := rfl
  have hends : NumberEnds (')' :: rest) := by
    simp only [NumberEnds, List.head?_cons, Option.any_some]
    decide
  have hsolid : Solid (value.queryChars ++ ')' :: rest) := by
    obtain ⟨c, tail, hc, hdigit⟩ := Number.Binary64.exists_digit_queryChars hfinite hsign
    rw [hc]
    exact solid_of_digit hdigit _
  have hread : expecting "number" (commit number) (value.queryChars ++ ')' :: rest) = .ok (value, ')' :: rest) := by
    rw [expecting_eq_ok_iff, commit_eq_ok_iff, Number.Binary64.number_queryChars hfinite hsign hends]
  rw [operand_named hname (by decide) (by rfl), namedOperand, bind_of_ok (get_apply _),
    bind_of_ok (labelName_word hname (by rfl)), if_pos rfl, vectorLiteral, bind_of_ok (openParen_written hsolid),
    bind_of_ok hread, bind_of_ok (closeParen_written rest)]
  rfl

lemma operand_literal {value : Number.Binary64} (hfinite : value.isFinite = true) (hrest : NumberEnds rest) :
    operand (depth + 1) (value.queryChars ++ rest) = .ok (.literal value, rest) := by
  match value, hfinite with
  | .finite negative rank, _ =>
    have hread := number_shortest hrest rank
    obtain ⟨c, tail, hc, hdigit⟩ := Number.exists_cons_positional (Number.shortest .up rank)
    have hsolid : Solid ((Number.shortest .up rank).positional ++ rest) := by
      rw [hc]
      exact solid_of_digit hdigit _
    cases negative with
    | true =>
      have hminus : optLiteral "-" ('-' :: ((Number.shortest .up rank).positional ++ rest)) =
          .ok (true, (Number.shortest .up rank).positional ++ rest) := optLiteral_eq_true_iff.2 rfl
      have hvalue : expecting "number" (commit number) ((Number.shortest .up rank).positional ++ rest) =
          .ok (.finite false rank, rest) := by
        rw [expecting_eq_ok_iff, commit_eq_ok_iff, hread]
      change operand (depth + 1) ('-' :: ((Number.shortest .up rank).positional ++ rest)) = _
      rw [operand, scanOperand, bind_of_ok (blanks_apply _), solid_cons (by decide) (by decide), bind_of_ok hminus,
        if_pos rfl, bind_of_ok (blanks_apply _), hsolid.eq, bind_of_ok hvalue]
      rfl
    | false =>
      change operand (depth + 1) ((Number.shortest .up rank).positional ++ rest) = _
      rw [hc, List.cons_append] at hsolid hread ⊢
      refine operand_of_number ?_ ?_ hsolid hread <;> rintro rfl <;> exact absurd hdigit (by decide)

lemma solid_logRange (r : LogRange) (rest : List Char) : Solid (r.chars ++ rest) :=
  solid_cons (by decide) (by decide) _

lemma not_grouping (hrest : Follow rest) :
    afterKeyword? "by" (dropBlanks false rest) = none ∧ afterKeyword? "without" (dropBlanks false rest) = none :=
  have hsuffix := Metric.SuffixFollow.follow hrest
  ⟨hsuffix.not_keyword (by decide) (by decide), hsuffix.not_keyword (by decide) (by decide)⟩

lemma rangeAggregation_written {op : RangeOperation} {parameter : Option Number.Binary64} {logs : LogRange}
    {grouping : Option Grouping} (hvalid : (Sample.range op parameter logs grouping).Valid)
    (hbounded : (Sample.range op parameter logs grouping).Bounded) (hclear : logs.stream.Clear)
    (hrest : Follow rest) :
    rangeAggregation op ('(' :: ((parameter.map fun p => p.queryChars ++ [',']).getD [] ++
      (logs.chars ++ ')' :: (groupingChars grouping ++ rest)))) =
      .ok (.range op parameter logs (normalGrouping grouping), rest) := by
  obtain ⟨hlogs, ⟨hsome, hsign⟩, hneeds, hforbids, hlabels⟩ := hvalid
  obtain ⟨hfinite, hranges⟩ := hbounded
  have hsolid (tail : List Char) :
      Solid ((parameter.map fun p => p.queryChars ++ [',']).getD [] ++ (logs.chars ++ tail)) := by
    cases parameter with
    | none => exact solid_logRange logs tail
    | some p =>
      obtain ⟨c, more, hc, hdigit⟩ := Number.Binary64.exists_digit_queryChars (hfinite p rfl) (hsign p rfl)
      simp only [Option.map_some, Option.getD_some, hc]
      exact solid_of_digit hdigit _
  have hneither : (logs.unwrap.isNone && op.requiresUnwrap) = false ∧
      (logs.unwrap.isSome && op.forbidsUnwrap) = false := by
    cases hunwrap : logs.unwrap with
    | none => simpa [hunwrap] using hneeds
    | some u => simpa [hunwrap] using hforbids
  rw [rangeAggregation, bind_of_ok (openParen_written (hsolid _)),
    bind_of_ok (rangeParameter_written hsome hsign hfinite (solid_logRange logs _)),
    bind_of_ok (logRange_chars hlogs hranges hclear _), bind_of_ok (closeParen_written _),
    bind_of_ok (optGrouping_written hlabels (not_grouping hrest).1 (not_grouping hrest).2),
    if_neg (by simp [hneither.1]), if_neg (by simp [hneither.2])]
  rfl

/-- A whole query up to the parenthesis or the comma behind it. -/
lemma requiredSample_of_operand {inner : Scanner Sample} {s : Sample} {text : List Char}
    (h : inner (text ++ rest) = .ok (s, rest)) (hrest : Closes rest) :
    requiredSample inner (text ++ rest) = .ok (s, rest) := by
  rw [requiredSample, expecting_eq_ok_iff, commit_eq_ok_iff, sampleExpr, chain_eq_takeOperators, bind_of_ok h]
  exact takeOperators_of_stops (hrest.stops 1)

lemma closes_paren (tail : List Char) : Closes (')' :: tail) := by
  simp [Closes]

lemma closes_comma (tail : List Char) : Closes (',' :: tail) := by
  simp [Closes]

lemma vectorAggregation_written {inner : Scanner Sample} {op : Aggregation} {parameter : Option Nat}
    {body reread : Sample} {grouping : Option Grouping}
    (hvalid : (Sample.aggregate op parameter body grouping).Valid) (hrest : Follow rest)
    (hbody : inner (body.chars ++ ')' :: rest) = .ok (reread, ')' :: rest)) :
    vectorAggregation inner op (groupingChars grouping ++
      '(' :: ((parameter.map fun p => Number.decimalDigits p ++ [',']).getD [] ++ (body.chars ++ ')' :: rest))) =
      .ok (.aggregate op parameter reread (normalGrouping grouping), rest) := by
  obtain ⟨-, ⟨hsome, hvalue⟩, hsort, hlabels⟩ := hvalid
  have hword {word : String} (hne : word.toList ≠ []) (hhead : word.toList.head? ≠ some '(') (tail : List Char) :
      afterKeyword? word (dropBlanks false ('(' :: tail)) = none := by
    rw [solid_cons (by decide) (by decide)]
    exact afterKeyword?_of_head hne hhead.symm
  have hsolid (tail : List Char) :
      Solid ((parameter.map fun p => Number.decimalDigits p ++ [',']).getD [] ++ (body.chars ++ tail)) := by
    cases parameter with
    | none => exact body.solid_chars tail
    | some p =>
      obtain ⟨c, more, hc, hdigit⟩ := Number.exists_cons_decimalDigits p
      simp only [Option.map_some, Option.getD_some, hc]
      exact solid_of_digit hdigit _
  have htrailing : optBehindBlanks Operator.grouping rest = .ok (none, rest) := by
    have hnone : optBehindBlanks Operator.grouping (groupingChars none ++ rest) = .ok (normalGrouping none, rest) :=
      optGrouping_written (by simp) (not_grouping hrest).1 (not_grouping hrest).2
    exact hnone
  have hkept : ((normalGrouping grouping).isSome && op.isSort) = false := by
    cases hnormal : normalGrouping grouping with
    | none => rfl
    | some g =>
      have hgrouping : grouping = some g := (Option.filter_eq_some_iff.1 hnormal).1
      simpa using hsort (by rw [hgrouping]; rfl)
  rw [vectorAggregation, bind_of_ok (optGrouping_written hlabels (hword (by decide) (by decide) _)
      (hword (by decide) (by decide) _)), bind_of_ok (openParen_written (hsolid _)),
    bind_of_ok (aggregationParameter_written hsome hvalue (body.solid_chars _)),
    bind_of_ok (requiredSample_of_operand hbody (closes_paren rest)), bind_of_ok (closeParen_written rest),
    bind_of_ok htrailing, if_neg (by simp)]
  dsimp only
  rw [Option.or_none, if_neg (by simp [hkept])]
  rfl

/-- Two operands with an operator between them, in parentheses. -/
lemma operand_binary {op : Operator} {m : Modifiers} {left right reLeft reRight : Sample} (hvalid : m.Valid op)
    (hbounded : right.Bounded)
    (hleft : ∀ tail, Follow tail → operand depth (left.chars ++ tail) = .ok (reLeft, tail))
    (hright : ∀ tail, Follow tail → operand depth (right.chars ++ tail) = .ok (reRight, tail)) :
    operand (depth + 1) ('(' :: (left.chars ++ ' ' :: (op.symbol.toList ++
      (m.written labelChars ++ ' ' :: (right.chars ++ ')' :: rest))))) = .ok (.binary op m reLeft reRight, rest) := by
  obtain ⟨text, htext⟩ := m.written_append_cons labelChars (right.chars ++ ')' :: rest)
  have hstops := (closes_paren rest).stops
  have hinner : (operand depth >>= takeOperators (operand depth) Sample.binary op.rightPrecedence)
      (right.chars ++ ')' :: rest) = .ok (reRight, ')' :: rest) := by
    rw [bind_of_ok (hright _ (closes_paren rest).follow)]
    exact takeOperators_of_stops (hstops _)
  have hoperators : takeOperators (operand depth) Sample.binary 1 reLeft (' ' :: (op.symbol.toList ++
      (m.written labelChars ++ ' ' :: (right.chars ++ ')' :: rest)))) = .ok (.binary op m reLeft reRight, ')' :: rest) := by
    rw [takeOperators_written ((yields_operand depth).mono fun _ _ => trivial) readsLabels_labelChars (by cases op <;> decide) hvalid
      (right.solid_chars _) (right.clear_chars hbounded m _) hinner]
    exact takeOperators_of_stops (hstops 1)
  have hbody : requiredSample (operand depth) (left.chars ++ ' ' :: (op.symbol.toList ++
      (m.written labelChars ++ ' ' :: (right.chars ++ ')' :: rest)))) =
      .ok (.binary op m reLeft reRight, ')' :: rest) := by
    rw [requiredSample, expecting_eq_ok_iff, commit_eq_ok_iff, sampleExpr, chain_eq_takeOperators, bind_of_ok, hoperators]
    rw [htext]
    exact hleft _ (.operator op text)
  have hsign (tail : List Char) : optLiteral "-" ('(' :: tail) = .ok (false, '(' :: tail) := by
    have hmark : "-".toList = ['-'] := rfl
    exact optLiteral_of_head hmark (by simp)
  have hopen (tail : List Char) : optLiteral "(" ('(' :: tail) = .ok (true, tail) := optLiteral_eq_true_iff.2 rfl
  rw [operand, scanOperand, bind_of_ok (blanks_apply _), solid_cons (by decide) (by decide), bind_of_ok (hsign _),
    if_neg (by decide), bind_of_ok (hopen _), if_pos rfl, bind_of_ok (blanks_apply _), (left.solid_chars _).eq,
    bind_of_ok hbody, bind_of_ok (closeParen_written rest)]
  rfl

lemma stringBehindComma_written (value : String) (rest : List Char) :
    stringBehindComma (',' :: (quoted value ++ rest)) = .ok (value, rest) := by
  rw [stringBehindComma, bind_of_ok (comma_written (solid_quoted value rest)), requiredString_quoted]

lemma operand_labelReplace {body reread : Sample} (target replacement source expression : String)
    (hbody : ∀ tail, Follow tail → operand depth (body.chars ++ tail) = .ok (reread, tail)) :
    operand (depth + 1) ((Sample.labelReplace body target replacement source expression).chars ++ rest) =
      .ok (.labelReplace reread target replacement source expression, rest) := by
  have hname : Label.isLabelName "label_replace" = true := rfl
  have hchars : (Sample.labelReplace body target replacement source expression).chars ++ rest =
      "label_replace".toList ++ '(' :: (body.chars ++ ',' :: (quoted target ++ ',' :: (quoted replacement ++
        ',' :: (quoted source ++ ',' :: (quoted expression ++ ')' :: rest))))) := by
    rw [Sample.chars_labelReplace]
    simp [joinChars, List.intercalate_cons_cons]
  rw [hchars, operand_named hname (by decide) (by rfl), namedOperand, bind_of_ok (get_apply _),
    bind_of_ok (labelName_word hname (by rfl)), if_neg (by decide), if_pos rfl, labelReplace,
    bind_of_ok (openParen_written (body.solid_chars _)),
    bind_of_ok (requiredSample_of_operand (hbody _ (closes_comma _).follow) (closes_comma _)),
    bind_of_ok (stringBehindComma_written _ _), bind_of_ok (stringBehindComma_written _ _),
    bind_of_ok (stringBehindComma_written _ _), bind_of_ok (stringBehindComma_written _ _),
    bind_of_ok (closeParen_written rest)]
  rfl

end Operands

lemma modifierChars_eq (m : Modifiers) : modifierChars m = m.written labelChars := by
  unfold modifierChars
  generalize labelChars = list
  obtain ⟨bool, _ | ⟨on, labels, _ | ⟨side, names⟩⟩⟩ := m
  · cases bool <;> rfl
  · cases bool <;> cases on <;> rfl
  · have hleft : " group_left ".toList = ' ' :: ("group_left".toList ++ [' ']) := rfl
    have hright : " group_right ".toList = ' ' :: ("group_right".toList ++ [' ']) := rfl
    have hgroup (text : List Char) : ' ' :: (text ++ [' ']) ++ list names = ' ' :: (text ++ ' ' :: list names) := by
      simp
    cases side with
    | left =>
      dsimp only
      rw [hleft, hgroup]
      cases bool <;> cases on <;> rfl
    | right =>
      dsimp only
      rw [hright, hgroup]
      cases bool <;> cases on <;> rfl

namespace Sample

lemma exists_succ_depth {s : Sample} {depth : Nat} (h : s.chars.length ≤ depth) : ∃ k, depth = k + 1 := by
  obtain ⟨c, tail, hc, -⟩ := s.begins_chars
  rw [hc, List.length_cons] at h
  exact ⟨depth - 1, by omega⟩

/-- By induction on the query: the text of a part is shorter than the whole, so that the depth suffices
for it. -/
lemma operand_chars {s : Sample} (hvalid : s.Valid) (hbounded : s.Bounded)
    (hclear : ∀ r ∈ s.ranges, r.stream.Clear) {depth : Nat} (hdepth : s.chars.length ≤ depth) {rest : List Char}
    (hrest : Follow rest) : operand depth (s.chars ++ rest) = .ok (s.normal, rest) := by
  induction s generalizing depth rest with
  | range op parameter logs grouping =>
    obtain ⟨depth, rfl⟩ := exists_succ_depth hdepth
    have hchars : (range op parameter logs grouping).chars ++ rest = op.symbol.toList ++
        '(' :: ((parameter.map fun p => p.queryChars ++ [',']).getD [] ++
          (logs.chars ++ ')' :: (groupingChars grouping ++ rest))) := by
      rw [chars_range]
      simp
    rw [hchars, operand_range op (by rfl)]
    exact rangeAggregation_written hvalid hbounded (hclear logs (by simp [ranges])) hrest
  | aggregate op parameter body grouping ih =>
    obtain ⟨depth, rfl⟩ := exists_succ_depth hdepth
    have hchars : (aggregate op parameter body grouping).chars ++ rest = op.symbol.toList ++
        (groupingChars grouping ++ '(' :: ((parameter.map fun p => Number.decimalDigits p ++ [',']).getD [] ++
          (body.chars ++ ')' :: rest))) := by
      rw [chars_aggregate]
      simp
    have hlength : body.chars.length ≤ depth := by
      rw [chars_aggregate] at hdepth
      simp only [List.length_append, List.length_cons, List.length_nil] at hdepth
      omega
    have hmore : (groupingChars grouping ++ '(' :: ((parameter.map fun p => Number.decimalDigits p ++ [',']).getD [] ++
        (body.chars ++ ')' :: rest))).head?.any Label.isMetricNameChar = false := by
      cases hnormal : normalGrouping grouping with
      | none => rw [groupingChars_none hnormal]; rfl
      | some g => rw [groupingChars_some hnormal]; rfl
    rw [hchars, operand_aggregate op hmore]
    exact vectorAggregation_written hvalid hrest (ih hvalid.1 hbounded hclear hlength (.paren rest))
  | binary op modifiers left right ihleft ihright =>
    obtain ⟨depth, rfl⟩ := exists_succ_depth hdepth
    obtain ⟨hmodifiers, hleft, hright⟩ := hvalid
    have hchars : (binary op modifiers left right).chars ++ rest = '(' :: (left.chars ++ ' ' :: (op.symbol.toList ++
        (modifiers.written labelChars ++ ' ' :: (right.chars ++ ')' :: rest)))) := by
      rw [chars_binary, modifierChars_eq]
      simp
    have hlength : left.chars.length ≤ depth ∧ right.chars.length ≤ depth := by
      rw [chars_binary] at hdepth
      simp only [List.length_append, List.length_cons, List.length_nil] at hdepth
      omega
    rw [hchars]
    refine operand_binary hmodifiers hbounded.2 (fun tail htail => ?_) fun tail htail => ?_
    · exact ihleft hleft hbounded.1 (fun r hr => hclear r (by simp [ranges, hr])) hlength.1 htail
    · exact ihright hright hbounded.2 (fun r hr => hclear r (by simp [ranges, hr])) hlength.2 htail
  | literal value =>
    obtain ⟨depth, rfl⟩ := exists_succ_depth hdepth
    exact operand_literal hbounded (Metric.SuffixFollow.follow hrest).numberEnds
  | vector value =>
    obtain ⟨depth, rfl⟩ := exists_succ_depth hdepth
    have hchars : (vector value).chars ++ rest = "vector".toList ++ '(' :: (value.queryChars ++ ')' :: rest) := by
      rw [chars_vector]
      simp
    rw [hchars]
    exact operand_vector hbounded hvalid rest
  | labelReplace body target replacement source expression ih =>
    obtain ⟨depth, rfl⟩ := exists_succ_depth hdepth
    have hlength : body.chars.length ≤ depth := by
      rw [chars_labelReplace, joinChars_cons] at hdepth
      simp only [List.length_append, List.length_cons, List.length_nil] at hdepth
      omega
    exact operand_labelReplace target replacement source expression fun tail htail =>
      ih hvalid hbounded hclear hlength htail

end Sample

/-! ## Whole queries -/

/-- No stream begins with anything but a parenthesis or a brace. -/
lemma streamIn_of_head {input : List Char} (hparen : input.head? ≠ some '(') (hbrace : input.head? ≠ some '\x7b')
    (depth : Nat) : ∃ failure, streamIn depth input = .error failure ∧ failure.committed = false := by
  cases depth with
  | zero => exact ⟨_, rfl, rfl⟩
  | succ depth =>
    have hopen : optLiteral "(" input = .ok (false, input) := by
      have hmark : "(".toList = ['('] := rfl
      exact optLiteral_of_head hmark hparen
    have hmiss : selector input = .error ⟨false, [], input⟩ :=
      bind_of_error (bind_of_error (literal_of_head (by decide) hbrace))
    refine ⟨⟨false, [], input⟩, ?_, rfl⟩
    rw [streamIn, bind_of_ok hopen, if_neg (by decide), bind_of_error hmiss]

/-- A metric query is not read as a stream, however many parentheses it begins with. -/
lemma Sample.streamIn_chars (s : Sample) (rest : List Char) (depth : Nat) :
    ∃ failure, streamIn depth (s.chars ++ rest) = .error failure ∧ failure.committed = false := by
  have hnamed {c : Char} (hc : Label.isMetricNameChar c = true) (tail : List Char) (depth : Nat) :
      ∃ failure, streamIn depth (c :: tail) = .error failure ∧ failure.committed = false := by
    refine streamIn_of_head ?_ ?_ depth <;> rw [List.head?_cons, Ne, Option.some.injEq] <;>
      exact Label.ne_of_isMetricNameChar hc (by decide)
  have hword {name : String} (hname : Label.isLabelName name = true) (more : List Char) (depth : Nat) :
      ∃ failure, streamIn depth (name.toList ++ more) = .error failure ∧ failure.committed = false := by
    obtain ⟨c, tail, hc, hletter⟩ := Label.exists_cons_of_isLabelName hname
    rw [hc]
    exact hnamed (Label.isMetricNameChar_of_isNameStart hletter) _ depth
  induction s generalizing rest depth with
  | range op parameter logs grouping =>
    rw [chars_range, List.append_assoc, List.append_assoc, List.append_assoc]
    exact hword op.isLabelName_symbol _ depth
  | aggregate op parameter body grouping ih =>
    rw [chars_aggregate, List.append_assoc, List.append_assoc, List.append_assoc, List.append_assoc]
    exact hword op.isLabelName_symbol _ depth
  | binary op modifiers left right ihleft ihright =>
    cases depth with
    | zero => exact ⟨_, rfl, rfl⟩
    | succ depth =>
      obtain ⟨tail, htail⟩ : ∃ tail, (binary op modifiers left right).chars ++ rest = '(' :: (left.chars ++ tail) := by
        rw [chars_binary]
        simp only [List.cons_append, List.append_assoc]
        exact ⟨_, rfl⟩
      have hopen : optLiteral "(" ('(' :: (left.chars ++ tail)) = .ok (true, left.chars ++ tail) :=
        optLiteral_eq_true_iff.2 rfl
      obtain ⟨failure, hfailure, hcommitted⟩ := ihleft tail depth
      refine ⟨failure, ?_, hcommitted⟩
      rw [htail, streamIn, bind_of_ok hopen, if_pos rfl, bind_of_ok (blanks_apply _), (left.solid_chars tail).eq,
        bind_of_error hfailure]
  | literal value =>
    rw [chars_literal]
    cases value with
    | nan => exact hnamed (by decide) _ depth
    | infinite negative =>
      cases negative <;> exact streamIn_of_head (by rintro ⟨⟩) (by rintro ⟨⟩) depth
    | finite negative rank =>
      cases negative with
      | true => exact streamIn_of_head (by rintro ⟨⟩) (by rintro ⟨⟩) depth
      | false =>
        obtain ⟨c, tail, hc, hdigit⟩ := Number.exists_cons_positional (Number.shortest .up rank)
        change ∃ failure, streamIn depth ((Number.shortest .up rank).positional ++ rest) = .error failure ∧ _
        rw [hc]
        exact hnamed (by simp [Label.isMetricNameChar_iff, Text.isWordChar_iff, hdigit]) _ depth
  | vector value =>
    rw [chars_vector, List.append_assoc, List.append_assoc]
    exact hnamed (c := 'v') (by decide) _ depth
  | labelReplace body target replacement source expression ih =>
    rw [chars_labelReplace, List.append_assoc, List.append_assoc]
    exact hnamed (c := 'l') (by decide) _ depth

namespace Query

/-- The numbers of the query are finite and its durations have less than `2 ^ 64` milliseconds. -/
def Bounded : Query → Prop
  | log stream => stream.Bounded
  | sample s => s.Bounded

instance : DecidablePred Bounded
  | log stream => inferInstanceAs (Decidable stream.Bounded)
  | sample s => inferInstanceAs (Decidable s.Bounded)

/-- The streams of a query, from left to right. -/
def streams : Query → List Stream
  | log stream => [stream]
  | sample s => s.ranges.map LogRange.stream

/-- The query as it is read back. -/
def normal : Query → Query
  | log stream => log stream
  | sample s => sample s.normal

variable {q : Query}

lemma query_chars (hvalid : q.Valid) (hbounded : q.Bounded) (hclear : ∀ s ∈ q.streams, s.Clear) :
    query q.chars = .ok (q.normal, []) := by
  cases q with
  | log s =>
    have hstream : stream (s.chars ++ []) = .ok (s, []) :=
      Stream.streamIn_chars hvalid hbounded (hclear s (by simp [streams])) _ .nil
    rw [List.append_nil] at hstream
    have hend : endOfText [] = .ok ((), []) := rfl
    have hwhole : (do let s ← stream; endOfText; return s : Scanner Stream) s.chars = .ok (s, []) := by
      rw [bind_of_ok hstream, bind_of_ok hend]
      rfl
    rw [query, chars, bind_of_ok (opt_of_ok hwhole)]
    rfl
  | sample s =>
    obtain ⟨failure, hfailure, hcommitted⟩ := s.streamIn_chars [] (s.chars.length + 1)
    have hread : operand (s.chars.length + 1) (s.chars ++ []) = .ok (s.normal, []) :=
      Sample.operand_chars hvalid hbounded (fun r hr => hclear r.stream (List.mem_map_of_mem hr)) (Nat.le_succ _) .nil
    rw [List.append_nil] at hread hfailure
    have hstream : stream s.chars = .error failure := hfailure
    have hstops : Closes [] := by simp [Closes]
    have hsample : sampleExpr (operand (s.chars.length + 1)) s.chars = .ok (s.normal, []) := by
      rw [sampleExpr, chain_eq_takeOperators, bind_of_ok hread]
      exact takeOperators_of_stops (hstops.stops 1)
    rw [query, chars, bind_of_ok (opt_of_error (bind_of_error hstream) hcommitted)]
    exact map_of_ok hsample

/-- The printed form of a query is read as the query, grouping by no label apart. -/
lemma parse_print (hvalid : q.Valid) (hbounded : q.Bounded) (hclear : ∀ s ∈ q.streams, s.Clear) :
    parse q.print = .ok q.normal := by
  have htext : q.print.toList = q.chars := by simp [print]
  have hbegins : Begins q.chars := by
    cases q with
    | log s => exact ⟨'\x7b', _, rfl, .inr (by decide)⟩
    | sample s => exact s.begins_chars
  have hblank : Text.isAllBlank q.print = false := by
    rw [Text.isAllBlank, htext, hbegins.not_blank]
  have hquery : scanQuery q.chars = .ok (q.normal, []) := by
    rw [scanQuery, bind_of_ok (blanks_apply _), hbegins.solid.eq, bind_of_ok (query_chars hvalid hbounded hclear),
      bind_of_ok (blanks_apply _)]
    rfl
  rw [parse, hblank, htext]
  simp [readAll, hquery]

/-- What a query says about logs, from left to right: a stream, or inside an operation a range with its
stream, its unwrapped label and its shift. -/
def logs : Query → List (Stream ⊕ LogRange)
  | log stream => [.inl stream]
  | sample s => s.ranges.map .inr

lemma logs_normal (q : Query) : q.normal.logs = q.logs := by
  cases q with
  | log stream => rfl
  | sample s => rw [normal, logs, logs, Sample.ranges_normal]

end Query

/-- Printing keeps what a query says about logs. Each stream of the query must be clear: no condition on a
label begins with the word of another stage, and no stage that ends in a bare name stands before a negated
line filter. -/
theorem parse_print_keeps_logs {text : String} {q : Query} (h : parse text = .ok q) (hbounded : q.Bounded)
    (hclear : ∀ s ∈ q.streams, s.Clear) : ∃ q', parse q.print = .ok q' ∧ q'.logs = q.logs :=
  ⟨q.normal, Query.parse_print (valid_of_parse h) hbounded hclear, q.logs_normal⟩

/-- A stage and an unwrapped label behind the range, a bare name before a line filter, and a grouping by no
label. -/
theorem parse_print_keeps_logs_sample :
    ∃ q, parse "sum by () (rate(\x7ba=\"b\"\x7d | (x > 1.5 or json=\"c\") | drop y [5m] |= \"d\" | unwrap z offset 1h)) > 2" =
        .ok q ∧
      q.Bounded ∧ (∀ s ∈ q.streams, s.Clear) ∧ ∃ q', parse q.print = .ok q' ∧ q'.logs = q.logs := by
  have hread : (parse
      "sum by () (rate(\x7ba=\"b\"\x7d | (x > 1.5 or json=\"c\") | drop y [5m] |= \"d\" | unwrap z offset 1h)) > 2").toOption.any
      (fun q => decide (q.Bounded ∧ ∀ s ∈ q.streams, s.Clear)) = true := by decide +kernel
  obtain ⟨q, hq, hcheck⟩ := exists_ok_of_any hread
  obtain ⟨hbounded, hclear⟩ := of_decide_eq_true hcheck
  exact ⟨q, hq, hbounded, hclear, parse_print_keeps_logs hq hbounded hclear⟩

/-- Without the parentheses a condition on the label `json` is read as a stage, and the text is refused. Behind
a bare name a negated line filter is read as the value of the label, and it is lost. -/
theorem printed_stage_is_taken_for_another :
    (∃ q, parse "\x7ba=\"b\"\x7d | (json=\"x\")" = .ok q ∧ (parse q.print).toOption = none) ∧
      ∃ q q', parse "count_over_time(\x7ba=\"b\"\x7d | drop x [5m] != \"foo\")" = .ok q ∧
        parse q.print = .ok q' ∧ q'.logs ≠ q.logs := by
  constructor
  · have hread : (parse "\x7ba=\"b\"\x7d | (json=\"x\")").toOption.any
        (fun q => decide ((parse q.print).toOption = none)) = true := by decide +kernel
    obtain ⟨q, hq, hcheck⟩ := exists_ok_of_any hread
    exact ⟨q, hq, of_decide_eq_true hcheck⟩
  · have hread : (parse "count_over_time(\x7ba=\"b\"\x7d | drop x [5m] != \"foo\")").toOption.any
        (fun q => (parse q.print).toOption.any fun q' => decide (q'.logs ≠ q.logs)) = true := by decide +kernel
    obtain ⟨q, hq, hcheck⟩ := exists_ok_of_any hread
    obtain ⟨q', hq', hlogs⟩ := exists_ok_of_any hcheck
    exact ⟨q, q', hq, hq', of_decide_eq_true hlogs⟩

/-! ## Metric queries without pipelines -/

lemma Stream.clear_of_stages_eq_nil {s : Stream} (h : s.stages = []) : s.Clear where
  distinct := by simp [h]
  apart := by
    rw [h]
    exact .nil

/-- A metric query whose streams have no stages is read as it was, grouping by no label apart. -/
theorem parse_print_unstaged {text : String} {s : Sample} (h : parse text = .ok (.sample s)) (hbounded : s.Bounded)
    (hunstaged : ∀ r ∈ s.ranges, r.stream.stages = []) :
    parse (Query.sample s).print = .ok (.sample s.normal) := by
  have hclear : ∀ stream ∈ (Query.sample s).streams, stream.Clear := by
    intro stream hstream
    obtain ⟨r, hr, rfl⟩ := List.mem_map.1 hstream
    exact Stream.clear_of_stages_eq_nil (hunstaged r hr)
  exact Query.parse_print (valid_of_parse h) hbounded hclear

/-- Parentheses before a name, groupings on both sides of an argument, one by no label, a parameter beyond the
largest one, clauses of operators, a shift and replaced labels. -/
theorem parse_print_unstaged_sample :
    ∃ s, parse ("((sum by () (rate(\x7ba=\"b\", c=~\"d.*\"\x7d[5m] offset 1h)))) / on (x) group_left (y) " ++
          "topk(1e30, count_over_time(\x7be!=\"\"\x7d[1h])) by (z) > bool " ++
          "label_replace(vector(2), \"a\", \"$1\", \"b\", \"(.*)\") ^ -1.5") = .ok (.sample s) ∧
      s.Bounded ∧ (∀ r ∈ s.ranges, r.stream.stages = []) ∧ s.normal ≠ s ∧
        parse (Query.sample s).print = .ok (.sample s.normal) := by
  have hread : (parse ("((sum by () (rate(\x7ba=\"b\", c=~\"d.*\"\x7d[5m] offset 1h)))) / on (x) group_left (y) " ++
      "topk(1e30, count_over_time(\x7be!=\"\"\x7d[1h])) by (z) > bool " ++
      "label_replace(vector(2), \"a\", \"$1\", \"b\", \"(.*)\") ^ -1.5")).toOption.any (fun q => match q with
        | .log _ => false
        | .sample s => decide (s.Bounded ∧ (∀ r ∈ s.ranges, r.stream.stages = []) ∧ s.normal ≠ s)) = true := by
    decide +kernel
  obtain ⟨q, hq, hcheck⟩ := exists_ok_of_any hread
  cases q with
  | log stream => simp at hcheck
  | sample s =>
    obtain ⟨hbounded, hunstaged, hchanged⟩ := of_decide_eq_true hcheck
    exact ⟨s, hq, hbounded, hunstaged, hchanged, parse_print_unstaged hq hbounded hunstaged⟩

end QueryScope.Log
