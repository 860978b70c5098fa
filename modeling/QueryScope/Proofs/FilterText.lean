import QueryScope.Log.Printer
import QueryScope.Proofs.LogShape

/-!
# Written label filters are read back

A condition on one label is read to its last character, and one of two parts stands in parentheses.
Both are read back in front of any text that no condition goes on in.
-/

namespace QueryScope

open Scan

namespace Duration

lemma writeUnits_cases (units : List Measure) (left : Nat) :
    writeUnits units left = [] ∨
      ∃ count m tail, writeUnits units left = Number.decimalDigits count ++ (Measure.symbol m ++ tail) := by
  induction units with
  | nil => exact .inl rfl
  | cons m smaller ih =>
    unfold writeUnits
    split_ifs
    · exact ih
    · exact ih
    · exact .inr ⟨_, m, _, List.append_assoc _ _ _⟩

/-- A written duration begins with a count and a unit. -/
lemma exists_count_unit (d : Duration) :
    ∃ count m tail, d.chars = Number.decimalDigits count ++ (Measure.symbol m ++ tail) := by
  obtain ⟨c, more, hc, -⟩ := d.exists_cons_chars
  unfold chars at hc ⊢
  dsimp only at hc ⊢
  split_ifs at hc ⊢
  · exact ⟨0, .second, [], by decide⟩
  · rcases writeUnits_cases Measure.all (d.millis % limit) with hnil | hcount
    · simp [hnil] at hc
    · exact hcount

lemma wholeEnds_symbol (m : Measure) (tail : List Char) : WholeEnds (m.symbol ++ tail) := by
  cases m <;> simp only [Measure.symbol, List.cons_append, WholeEnds, List.head?_cons, Option.any_some] <;> decide

/-- The count of a written duration is read as a number, and its unit is left. -/
lemma number_chars (d : Duration) (rest : List Char) :
    ∃ value tail, number (d.chars ++ rest) = .ok (value, tail) ∧ tail.head?.any Char.isAlpha = true := by
  obtain ⟨count, m, tail, hd⟩ := d.exists_count_unit
  have hread := number_whole (wholeEnds_symbol m (tail ++ rest))
    (fun c => Number.isDigit_of_mem_decimalDigits (n := count)) (Number.decimalDigits_ne_nil count)
  have hunit : (m.symbol ++ (tail ++ rest)).head?.any Char.isAlpha = true := by cases m <;> rfl
  rw [hd, List.append_assoc, List.append_assoc]
  exact ⟨_, _, hread, hunit⟩

end Duration

namespace Number.Binary64

/-- A number that is written without a sign begins with a digit and is read back. -/
lemma exists_digit_queryChars {value : Binary64} (hfinite : value.isFinite = true)
    (hsign : value.isNegative = false) : ∃ c tail, value.queryChars = c :: tail ∧ c.isDigit = true := by
  match value, hfinite, hsign with
  | .finite false rank, _, _ => exact exists_cons_positional _

lemma number_queryChars {value : Binary64} (hfinite : value.isFinite = true)
    (hsign : value.isNegative = false) {rest : List Char} (hrest : NumberEnds rest) :
    number (value.queryChars ++ rest) = .ok (value, rest) := by
  match value, hfinite, hsign with
  | .finite false rank, _, _ => exact number_shortest hrest rank

end Number.Binary64

namespace Scan

section Joined

variable {α : Type} {operand : Scanner α} {separator : Scanner Unit} {join : α → α → α} {left : α}
  {input : List Char}

lemma joinedLeft_stop {failure : Failure} (h : separator (dropBlanks false input) = .error failure)
    (hc : failure.committed = false) (bound : Nat) :
    joinedLeft operand separator join bound left input = .ok (left, input) := by
  cases bound with
  | zero => rfl
  | succ bound =>
    rw [joinedLeft, bind_of_ok (optBehindBlanks_of_error h hc)]
    rfl

lemma joinedLeft_step {right : α} {behind rest : List Char}
    (h : separator (dropBlanks false input) = .ok ((), behind))
    (hright : operand (dropBlanks false behind) = .ok (right, rest)) (bound : Nat) :
    joinedLeft operand separator join (bound + 1) left input =
      joinedLeft operand separator join bound (join left right) rest := by
  rw [joinedLeft, bind_of_ok (optBehindBlanks_of_ok h)]
  dsimp only
  rw [bind_of_ok (blanks_apply _), bind_of_ok hright]

end Joined

end Scan

namespace Log

/-- The numbers of a filter are finite and its durations have less than `2 ^ 64` milliseconds. -/
def LabelFilter.Bounded : LabelFilter → Prop
  | matcher _ => True
  | number _ _ value => value.isFinite = true
  | duration _ _ value => value.millis < Duration.limit
  | and left right | or left right => left.Bounded ∧ right.Bounded

instance LabelFilter.decidableBounded : DecidablePred LabelFilter.Bounded
  | matcher _ => isTrue trivial
  | number _ _ value => inferInstanceAs (Decidable (value.isFinite = true))
  | duration _ _ value => inferInstanceAs (Decidable (value.millis < Duration.limit))
  | and left right | or left right => @instDecidableAnd _ _ (decidableBounded left) (decidableBounded right)

/-- Neither a name nor a number goes on at the start of the text. -/
def Breaks (rest : List Char) : Prop :=
  rest.head? ∈ [none, some ' ', some '[']

section Breaks

variable {rest : List Char} (h : Breaks rest)

include h

lemma Breaks.numberEnds : NumberEnds rest := by
  have hall : ∀ o ∈ [none, some ' ', some '['], o.any (fun c => Text.isWordChar c || c == '.') = false := by
    decide
  exact hall _ h

lemma Breaks.durationEnds : Duration.Ends rest := by
  have hall : ∀ o ∈ [none, some ' ', some '['], o.any Char.isAlphanum = false := by decide
  exact hall _ h

lemma Breaks.word : rest.head?.any Label.isMetricNameChar = false := by
  have hall : ∀ o ∈ [none, some ' ', some '['], o.any Label.isMetricNameChar = false := by decide
  exact hall _ h

end Breaks

lemma breaks_space (tail : List Char) : Breaks (' ' :: tail) := by
  simp [Breaks]

/-! ## Conditions on one label -/

section Simple

variable {name : String} {more rest : List Char} {f : LabelFilter}

lemma startsQuoted_quoteChars (value : List Char) (rest : List Char) :
    startsQuoted (Text.quoteChars value ++ rest) = true := by
  simp [startsQuoted, Text.quoteChars]

lemma startsQuoted_of_digit {c : Char} (hc : c.isDigit = true) (tail : List Char) :
    startsQuoted (c :: tail) = false := by
  simp only [startsQuoted, List.head?_cons, Option.any_some, Bool.or_eq_false_iff, beq_eq_false_iff_ne]
  refine ⟨⟨?_, ?_⟩, ?_⟩ <;> rintro rfl <;> exact absurd hc (by decide)

lemma solid_of_digit {c : Char} (hc : c.isDigit = true) (tail : List Char) : Solid (c :: tail) := by
  have hname : Label.isMetricNameChar c = true := by
    simp [Label.isMetricNameChar_iff, Text.isWordChar_iff, hc]
  exact solid_cons (Label.not_isSpace_of_isMetricNameChar hname)
    (Label.ne_of_isMetricNameChar hname (by decide)) tail

lemma simpleFilter_of_quoted (hname : Label.isLabelName name = true)
    (hmore : more.head?.any Text.isWordChar = false) (hsolid : Solid more)
    (h : quotedComparison? name more = .ok (some f, rest)) :
    simpleFilter (name.toList ++ more) = .ok (f, rest) := by
  have hread : labelName (name.toList ++ more) = .ok (name, more) :=
    labelName_eq_ok_iff.2 ⟨rfl, hname, hmore⟩
  rw [simpleFilter, bind_of_ok hread, bind_of_ok (blanks_apply _), hsolid.eq, bind_of_ok h]
  rfl

lemma simpleFilter_of_value (hname : Label.isLabelName name = true)
    (hmore : more.head?.any Text.isWordChar = false) (hsolid : Solid more)
    (h : quotedComparison? name more = .ok (none, more)) (hvalue : valueComparison name more = .ok (f, rest)) :
    simpleFilter (name.toList ++ more) = .ok (f, rest) := by
  have hread : labelName (name.toList ++ more) = .ok (name, more) :=
    labelName_eq_ok_iff.2 ⟨rfl, hname, hmore⟩
  rw [simpleFilter, bind_of_ok hread, bind_of_ok (blanks_apply _), hsolid.eq, bind_of_ok h]
  exact hvalue

/-- A comparison with a quoted value. -/
lemma simpleFilter_matcher {m : Matcher} (h : m.Valid) (rest : List Char) :
    simpleFilter (m.chars ++ rest) = .ok (.matcher m, rest) := by
  obtain ⟨name, op, value⟩ := m
  obtain ⟨hname, hpattern⟩ := h
  have hop := Matcher.scanComparison_symbol op
  have hquoted : ∃ tail, Text.quoteChars value.toList ++ rest = '"' :: tail := ⟨_, rfl⟩
  obtain ⟨tail, htail⟩ := hquoted
  have hsolid : Solid (Text.quoteChars value.toList ++ rest) := htail ▸ solid_cons (by decide) (by decide) tail
  have hchecked : (op.isPattern && !Pattern.isValid value) = false := by
    cases hp : op.isPattern with
    | false => rfl
    | true => simp [hpattern hp]
  have hchars : (⟨name, op, value⟩ : Matcher).chars ++ rest =
      name.toList ++ (op.symbol.toList ++ (Text.quoteChars value.toList ++ rest)) := by
    simp [Matcher.chars]
  rw [hchars]
  refine simpleFilter_of_quoted hname (by cases op <;> rfl) (by cases op <;> exact solid_cons (by decide) (by decide) _) ?_
  rw [quotedComparison?, bind_of_ok (get_apply _), bind_of_ok (opt_of_ok (by rw [htail]; exact hop tail))]
  dsimp only
  rw [bind_of_ok (blanks_apply _), ← htail, hsolid.eq, bind_of_ok (get_apply _),
    if_pos (startsQuoted_quoteChars _ _), bind_of_ok (stringLiteral_quoteChars value rest), if_neg (by simp [hchecked])]
  rfl

lemma quotedComparison?_of_plain {op : Matcher.Comparison} {behind : List Char}
    (h : Matcher.scanComparison more = .ok (op, behind)) (hpattern : op.isPattern = false)
    (hsolid : Solid behind) (hquote : startsQuoted behind = false) :
    quotedComparison? name more = .ok (none, more) := by
  rw [quotedComparison?, bind_of_ok (get_apply _), bind_of_ok (opt_of_ok h)]
  dsimp only
  rw [bind_of_ok (blanks_apply _), hsolid.eq, bind_of_ok (get_apply _), if_neg (by simp [hquote]),
    if_neg (by simp [hpattern]), bind_of_ok (set_apply _ _)]
  rfl

section Values

variable (relation : Relation) {c : Char} (hc : c.isDigit = true) (tail : List Char)

include hc

/-- In front of a number no quoted value is found. -/
lemma quotedComparison?_relation :
    quotedComparison? name (relation.symbol.toList ++ c :: tail) =
      .ok (none, relation.symbol.toList ++ c :: tail) := by
  have hquote := startsQuoted_of_digit hc tail
  have hsolid := solid_of_digit hc tail
  cases relation with
  | equal =>
    have hread : Matcher.scanComparison ('=' :: '=' :: c :: tail) = .ok (.equal, '=' :: c :: tail) := rfl
    exact quotedComparison?_of_plain hread rfl (solid_cons (by decide) (by decide) _) rfl
  | notEqual =>
    have hread : Matcher.scanComparison ('!' :: '=' :: c :: tail) = .ok (.notEqual, c :: tail) := rfl
    exact quotedComparison?_of_plain hread rfl hsolid hquote
  | greater | greaterEqual | less | lessEqual =>
    -- No comparison with a quoted value begins like this relation.
    rw [quotedComparison?, bind_of_ok (get_apply _)]
    rfl

lemma literalOf_relations :
    literalOf relations (relation.symbol.toList ++ c :: tail) = .ok (relation, c :: tail) := by
  have hne : c ≠ '=' := by
    rintro rfl
    exact absurd hc (by decide)
  cases relation <;> simp [literalOf, relations, Relation.symbol, Text.after?, hne.symm]

lemma simpleFilter_relation (hname : Label.isLabelName name = true)
    (h : valueComparison name (relation.symbol.toList ++ c :: tail) = .ok (f, rest)) :
    simpleFilter (name.toList ++ (relation.symbol.toList ++ c :: tail)) = .ok (f, rest) := by
  refine simpleFilter_of_value hname (by cases relation <;> rfl) ?_ (quotedComparison?_relation relation hc tail) h
  cases relation <;> exact solid_cons (by decide) (by decide) _

/-- What stands behind a relation is read as a number first. -/
lemma valueComparison_of_number {value : Number.Binary64} {behind : List Char}
    (h : number (c :: tail) = .ok (value, behind)) :
    valueComparison name (relation.symbol.toList ++ c :: tail) =
      if behind.head?.any Char.isAlpha then
        (LabelFilter.duration name relation <$> expecting "duration" (commit Duration.scan)) (c :: tail)
      else .ok (.number name relation value, behind) := by
  have hrelation : expecting "label filter operator" (commit (literalOf relations))
      (relation.symbol.toList ++ c :: tail) = .ok (relation, c :: tail) := by
    rw [expecting_eq_ok_iff, commit_eq_ok_iff, literalOf_relations relation hc tail]
  have hvalue : expecting "number, duration or quoted string" (commit number) (c :: tail) =
      .ok (value, behind) := by
    rw [expecting_eq_ok_iff, commit_eq_ok_iff, h]
  rw [valueComparison, bind_of_ok hrelation, bind_of_ok (blanks_apply _), (solid_of_digit hc tail).eq,
    bind_of_ok (get_apply _), if_neg (by simp [startsQuoted_of_digit hc tail]), bind_of_ok hvalue,
    bind_of_ok (peek_apply _)]
  split_ifs with halpha
  · rw [bind_of_ok (set_apply _ _), map_eq_pure_bind]
  · rfl

end Values

/-- A comparison with a number. -/
lemma simpleFilter_number (hname : Label.isLabelName name = true) (relation : Relation)
    {value : Number.Binary64} (hfinite : value.isFinite = true) (hsign : value.isNegative = false)
    (hrest : Breaks rest) :
    simpleFilter (name.toList ++ (relation.symbol.toList ++ (value.queryChars ++ rest))) =
      .ok (.number name relation value, rest) := by
  have hread := Number.Binary64.number_queryChars hfinite hsign hrest.numberEnds
  obtain ⟨c, tail, hc, hdigit⟩ := Number.Binary64.exists_digit_queryChars hfinite hsign
  rw [hc, List.cons_append] at hread ⊢
  refine simpleFilter_relation relation hdigit _ hname ?_
  rw [valueComparison_of_number relation hdigit _ hread, if_neg (by simp [hrest.numberEnds.not_alpha])]

/-- A comparison with a duration. -/
lemma simpleFilter_duration (hname : Label.isLabelName name = true) (relation : Relation) {d : Duration}
    (hlimit : d.millis < Duration.limit) (hrest : Breaks rest) :
    simpleFilter (name.toList ++ (relation.symbol.toList ++ (d.chars ++ rest))) =
      .ok (.duration name relation d, rest) := by
  obtain ⟨value, behind, hnumber, halpha⟩ := d.number_chars rest
  have hread := d.scan_chars hrest.durationEnds
  rw [Duration.mod_limit_of_lt hlimit] at hread
  obtain ⟨c, tail, hc, hdigit⟩ := d.exists_cons_chars
  rw [hc, List.cons_append] at hnumber hread ⊢
  refine simpleFilter_relation relation hdigit _ hname ?_
  rw [valueComparison_of_number relation hdigit _ hnumber, if_pos halpha]
  exact map_of_ok (expecting_eq_ok_iff.2 (commit_eq_ok_iff.2 hread))

end Simple

/-! ## Conditions of several parts -/

section Joined

variable {single : Scanner LabelFilter} {f g : LabelFilter} {input rest behind : List Char}

lemma separator_error (h : input.head? ∉ [some ',', some 'a']) :
    orElse (literal ",") (keyword "and") input = .error ⟨false, [], input⟩ := by
  have hcomma : literal "," input = .error ⟨false, [], input⟩ :=
    literal_of_head (by decide) fun heq => h (by rw [heq]; simp)
  have hword : keyword "and" input = .error ⟨false, [], input⟩ :=
    keyword_of_head (by decide) fun heq => h (by rw [heq]; simp)
  rw [orElse_of_error hcomma rfl, hword]

lemma keyword_or_error (h : input.head? ≠ some 'o') :
    keyword "or" input = .error ⟨false, [], input⟩ :=
  keyword_of_head (by decide) h

lemma conjunction_one (hread : single input = .ok (f, rest))
    (hrest : (dropBlanks false rest).head? ∉ [some ',', some 'a']) :
    conjunction single input = .ok (f, rest) := by
  rw [conjunction, bind_of_ok hread, bind_of_ok (get_apply _)]
  exact joinedLeft_stop (separator_error hrest) rfl _

lemma disjunction_one (hread : single input = .ok (f, rest))
    (hrest : (dropBlanks false rest).head? ∉ [some ',', some 'a', some 'o']) :
    disjunction single input = .ok (f, rest) := by
  have hfirst : (dropBlanks false rest).head? ∉ [some ',', some 'a'] := by simp_all
  have hor : (dropBlanks false rest).head? ≠ some 'o' := by simp_all
  rw [disjunction, bind_of_ok (conjunction_one hread hfirst), bind_of_ok (get_apply _)]
  exact joinedLeft_stop (keyword_or_error hor) rfl _

lemma disjunction_and (hleft : single input = .ok (f, ' ' :: ',' :: behind))
    (hright : single (dropBlanks false behind) = .ok (g, ' ' :: ')' :: rest)) :
    disjunction single input = .ok (f.and g, ' ' :: ')' :: rest) := by
  have hcomma : orElse (literal ",") (keyword "and") (dropBlanks false (' ' :: ',' :: behind)) =
      .ok ((), behind) := by
    rw [dropBlanks_space, solid_cons (by decide) (by decide)]
    exact orElse_of_ok (literal_append "," behind)
  have hend : dropBlanks false (' ' :: ')' :: rest) = ')' :: rest := by
    rw [dropBlanks_space, solid_cons (by decide) (by decide)]
  have hrequired : requiredFilter single (dropBlanks false behind) = .ok (g, ' ' :: ')' :: rest) := by
    rw [requiredFilter, expecting_eq_ok_iff, commit_eq_ok_iff, hright]
  have hconjunction : conjunction single input = .ok (f.and g, ' ' :: ')' :: rest) := by
    rw [conjunction, bind_of_ok hleft, bind_of_ok (get_apply _), joinedLeft_step hcomma hrequired]
    exact joinedLeft_stop (separator_error (by simp [hend])) rfl _
  rw [disjunction, bind_of_ok hconjunction, bind_of_ok (get_apply _)]
  exact joinedLeft_stop (keyword_or_error (by simp [hend])) rfl _

lemma disjunction_or (hleft : single input = .ok (f, ' ' :: 'o' :: 'r' :: ' ' :: behind))
    (hright : single (dropBlanks false behind) = .ok (g, ' ' :: ')' :: rest)) :
    disjunction single input = .ok (f.or g, ' ' :: ')' :: rest) := by
  have hword : dropBlanks false (' ' :: 'o' :: 'r' :: ' ' :: behind) = 'o' :: 'r' :: ' ' :: behind := by
    rw [dropBlanks_space, solid_cons (by decide) (by decide)]
  have hor : keyword "or" (dropBlanks false (' ' :: 'o' :: 'r' :: ' ' :: behind)) = .ok ((), ' ' :: behind) := by
    rw [hword, keyword_eq_ok_iff]
    exact afterKeyword?_eq_some_iff.2 ⟨rfl, rfl⟩
  have hend : dropBlanks false (' ' :: ')' :: rest) = ')' :: rest := by
    rw [dropBlanks_space, solid_cons (by decide) (by decide)]
  have hsecond : requiredFilter (conjunction single) (dropBlanks false (' ' :: behind)) =
      .ok (g, ' ' :: ')' :: rest) := by
    rw [requiredFilter, expecting_eq_ok_iff, commit_eq_ok_iff, dropBlanks_space]
    exact conjunction_one hright (by simp [hend])
  rw [disjunction, bind_of_ok (conjunction_one hleft (by simp [hword])), bind_of_ok (get_apply _),
    joinedLeft_step hor hsecond]
  exact joinedLeft_stop (keyword_or_error (by simp [hend])) rfl _

end Joined

lemma singleFilter_of_name {depth : Nat} {input : List Char} (h : input.head?.any Label.isNameStart = true) :
    singleFilter (depth + 1) input = simpleFilter input := by
  have hparen : input.head? ≠ some '(' := by
    intro heq
    rw [heq] at h
    exact absurd h (by decide)
  rw [singleFilter, bind_of_ok (optLiteral_of_head rfl hparen)]
  rfl

lemma singleFilter_paren {depth : Nat} {text rest : List Char} {f : LabelFilter} (hsolid : Solid text)
    (h : disjunction (singleFilter depth) text = .ok (f, ' ' :: ')' :: rest)) :
    singleFilter (depth + 1) ('(' :: ' ' :: text) = .ok (f, rest) := by
  have hopen : optLiteral "(" ('(' :: ' ' :: text) = .ok (true, ' ' :: text) := optLiteral_eq_true_iff.2 rfl
  have hinner : requiredFilter (disjunction (singleFilter depth)) text = .ok (f, ' ' :: ')' :: rest) := by
    rw [requiredFilter, expecting_eq_ok_iff, commit_eq_ok_iff, h]
  have hclose : expecting "')'" (commit (literal ")")) (')' :: rest) = .ok ((), rest) := by
    rw [expecting_eq_ok_iff, commit_eq_ok_iff]
    exact literal_append ")" rest
  rw [singleFilter, bind_of_ok hopen, if_pos rfl, bind_of_ok (blanks_apply _), dropBlanks_space, hsolid.eq,
    bind_of_ok hinner, bind_of_ok (blanks_apply _), dropBlanks_space, solid_cons (by decide) (by decide),
    bind_of_ok hclose]
  rfl

namespace LabelFilter

variable {f : LabelFilter}

/-- A written filter begins with a name or a parenthesis. -/
lemma exists_cons_chars (h : f.Valid) :
    ∃ c tail, f.chars = c :: tail ∧ (Label.isNameStart c = true ∨ c = '(') := by
  have hstart {name : String} (hname : Label.isLabelName name = true) (more : List Char) :
      ∃ c tail, name.toList ++ more = c :: tail ∧ (Label.isNameStart c = true ∨ c = '(') := by
    obtain ⟨c, tail, hc, hletter⟩ := Label.exists_cons_of_isLabelName hname
    exact ⟨c, tail ++ more, by rw [hc, List.cons_append], .inl hletter⟩
  cases f with
  | matcher m => simpa [chars, Matcher.chars] using hstart h.1 _
  | number name relation value => simpa [chars] using hstart h.1 _
  | duration name relation value => simpa [chars] using hstart h _
  | and left right => exact ⟨'(', _, rfl, .inr rfl⟩
  | or left right => exact ⟨'(', _, rfl, .inr rfl⟩

lemma solid_chars (h : f.Valid) (rest : List Char) : Solid (f.chars ++ rest) := by
  obtain ⟨c, tail, hc, hname | rfl⟩ := exists_cons_chars h
  · have hpart := Label.isMetricNameChar_of_isNameStart hname
    rw [hc]
    exact solid_cons (Label.not_isSpace_of_isMetricNameChar hpart)
      (Label.ne_of_isMetricNameChar hpart (by decide)) _
  · rw [hc]
    exact solid_cons (by decide) (by decide) _

/-- By induction on the filter: the parts of a filter are shorter than the filter, so that the depth
suffices for them. -/
lemma singleFilter_chars (hvalid : f.Valid) (hbounded : f.Bounded) {depth : Nat}
    (hdepth : f.chars.length < depth) {rest : List Char} (hrest : Breaks rest) :
    singleFilter depth (f.chars ++ rest) = .ok (f, rest) := by
  have hnamed {name : String} (hname : Label.isLabelName name = true) (more : List Char) :
      (name.toList ++ more).head?.any Label.isNameStart = true := by
    obtain ⟨c, tail, hc, hletter⟩ := Label.exists_cons_of_isLabelName hname
    simpa [hc] using hletter
  induction f generalizing depth rest with
  | matcher m =>
    obtain ⟨depth, rfl⟩ : ∃ k, depth = k + 1 := ⟨depth - 1, by omega⟩
    have hhead : (m.chars ++ rest).head?.any Label.isNameStart = true := by
      rw [Matcher.chars, List.append_assoc, List.append_assoc]
      exact hnamed hvalid.1 _
    rw [chars, singleFilter_of_name hhead]
    exact simpleFilter_matcher hvalid rest
  | number name relation value =>
    obtain ⟨depth, rfl⟩ : ∃ k, depth = k + 1 := ⟨depth - 1, by omega⟩
    simp only [chars, List.append_assoc]
    rw [singleFilter_of_name (hnamed hvalid.1 _)]
    exact simpleFilter_number hvalid.1 relation hbounded hvalid.2 hrest
  | duration name relation value =>
    obtain ⟨depth, rfl⟩ : ∃ k, depth = k + 1 := ⟨depth - 1, by omega⟩
    simp only [chars, List.append_assoc]
    rw [singleFilter_of_name (hnamed hvalid _)]
    exact simpleFilter_duration hvalid relation hbounded hrest
  | and left right ihleft ihright =>
    obtain ⟨depth, rfl⟩ : ∃ k, depth = k + 1 := ⟨depth - 1, by omega⟩
    have hchars : (LabelFilter.and left right).chars ++ rest =
        '(' :: ' ' :: (left.chars ++ ' ' :: ',' :: ' ' :: (right.chars ++ ' ' :: ')' :: rest)) := by
      simp [chars]
    have hlength : left.chars.length < depth ∧ right.chars.length < depth := by
      simp only [chars, List.length_append] at hdepth
      simp at hdepth
      omega
    rw [hchars]
    refine singleFilter_paren (solid_chars hvalid.1 _) (disjunction_and
      (ihleft hvalid.1 hbounded.1 hlength.1 (breaks_space _)) ?_)
    rw [dropBlanks_space, (solid_chars hvalid.2 _).eq]
    exact ihright hvalid.2 hbounded.2 hlength.2 (breaks_space _)
  | or left right ihleft ihright =>
    obtain ⟨depth, rfl⟩ : ∃ k, depth = k + 1 := ⟨depth - 1, by omega⟩
    have hchars : (LabelFilter.or left right).chars ++ rest =
        '(' :: ' ' :: (left.chars ++ ' ' :: 'o' :: 'r' :: ' ' :: (right.chars ++ ' ' :: ')' :: rest)) := by
      simp [chars]
    have hlength : left.chars.length < depth ∧ right.chars.length < depth := by
      simp only [chars, List.length_append] at hdepth
      simp at hdepth
      omega
    rw [hchars]
    refine singleFilter_paren (solid_chars hvalid.1 _) (disjunction_or
      (ihleft hvalid.1 hbounded.1 hlength.1 (breaks_space _)) ?_)
    rw [(solid_chars hvalid.2 _).eq]
    exact ihright hvalid.2 hbounded.2 hlength.2 (breaks_space _)

/-- A written filter is read back in front of a text that no other part of a filter stands in. -/
lemma labelFilter_chars (hvalid : f.Valid) (hbounded : f.Bounded) {rest : List Char} (hrest : Breaks rest)
    (hbehind : (dropBlanks false rest).head? ∉ [some ',', some 'a', some 'o']) :
    labelFilter (f.chars ++ rest) = .ok (f, rest) := by
  have hdepth : f.chars.length < (f.chars ++ rest).length + 1 := by
    rw [List.length_append]
    omega
  exact disjunction_one (singleFilter_chars hvalid hbounded hdepth hrest) hbehind

end LabelFilter

/-- A filter is read back from its text, to the last character, exactly if its names are names of labels, its regular
expressions are valid and its numbers have no sign. Zero with a sign is written with it, and not read back. -/
theorem labelFilter_chars_eq_iff {f : LabelFilter} (hbounded : f.Bounded) :
    labelFilter f.chars = .ok (f, []) ↔ f.Valid := by
  constructor
  · intro hread
    exact (yields_labelFilter hread).1
  · intro hvalid
    have hread : labelFilter (f.chars ++ []) = .ok (f, []) :=
      LabelFilter.labelFilter_chars hvalid hbounded List.mem_cons_self (by decide)
    rwa [List.append_nil] at hread

/-- The labels have the names of the words that join filters, or begin with one. -/
def filterSample : LabelFilter :=
  .or
    (.and (.matcher ⟨"or", .matching, "a|\"b"⟩)
      (.number "and" .greaterEqual (Number.Decimal.toBinary64 false ⟨15, -1⟩)))
    (.or (.duration "order" .notEqual ⟨5400000⟩) (.matcher ⟨"and", .notEqual, ""⟩))

theorem labelFilter_chars_eq_iff_sample :
    filterSample.chars = "( ( or=~\"a|\\\"b\" , and>=1.5 ) or ( order!=1h30m or and!=\"\" ) )".toList ∧
      filterSample.Bounded ∧ filterSample.Valid ∧ labelFilter filterSample.chars = .ok (filterSample, []) := by
  have hbounded : filterSample.Bounded := by decide +kernel
  have hvalid : filterSample.Valid :=
    ⟨⟨⟨by decide, by decide +kernel⟩, by decide, by decide +kernel⟩, rfl, by decide, by decide⟩
  exact ⟨by decide +kernel, hbounded, hvalid, (labelFilter_chars_eq_iff hbounded).2 hvalid⟩

end Log

end QueryScope
