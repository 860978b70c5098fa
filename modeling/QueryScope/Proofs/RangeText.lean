import QueryScope.Proofs.MetricReads
import QueryScope.Proofs.PipelineText

/-!
# Written ranges of logs are read back

A range is written with its whole pipeline and the unwrapped label before the brackets, and with the
shift behind them, in front of the parenthesis that closes the operation over it.
-/

namespace QueryScope

open Scan

/-! ## Parameters and groupings -/

namespace Log

section Parameters

open Number

/-- A parameter was read from a number, and is read from it again, or else it is the largest one. -/
lemma wholeParameter?_reread {v : Binary64} {p : Nat} (h : wholeParameter? v = some p) :
    wholeParameter? ((⟨p, 0⟩ : Decimal).toBinary64 false) = some p := by
  match v with
  | .finite negative rank =>
    simp only [wholeParameter?] at h
    split_ifs at h with hpart
    obtain ⟨hwhole, -⟩ := not_or.1 hpart
    rw [not_not] at hwhole
    have hpos := unitsPerOne_pos
    have hunits : unitsOfRank rank = unitsOfRank rank / unitsPerOne * unitsPerOne :=
      (Nat.div_mul_cancel (Nat.dvd_of_mod_eq_zero hwhole)).symm
    obtain rfl := Option.some.inj h
    rcases Nat.le_total (unitsOfRank rank / unitsPerOne) maxParameter with hle | hge
    · have hhigh : unitsOfRank rank / unitsPerOne < 10 ^ (310 + 0) :=
        hle.trans_lt (by decide +kernel)
      have hread : (⟨unitsOfRank rank / unitsPerOne, 0⟩ : Decimal).toBinary64 false = .finite false rank := by
        have hplaces := Decimal.toBinary64_of_places false hhigh (Nat.eq_zero_or_pos _)
        have hzero : (-((0 : Nat) : Int)) = 0 := rfl
        rw [hzero] at hplaces
        rw [hplaces, Binary64.ofRatio, ← hunits, pow_zero, nearestRank_unitsOfRank, Binary64.ofRank_val]
      rw [min_eq_left hle, hread]
      simp [wholeParameter?, hwhole, hle]
    · rw [min_eq_right hge]
      decide +kernel

lemma comma_written {rest : List Char} (h : Solid rest) : comma (',' :: rest) = .ok ((), rest) := by
  have hread : expecting "','" (commit (literal ",")) (',' :: rest) = .ok ((), rest) := by
    rw [expecting_eq_ok_iff, commit_eq_ok_iff]
    exact literal_append "," rest
  rw [comma, bind_of_ok (blanks_apply _), solid_cons (by decide) (by decide), bind_of_ok hread, blanks_apply, h.eq]

lemma openParen_written {rest : List Char} (h : Solid rest) : openParen ('(' :: rest) = .ok ((), rest) := by
  have hread : expecting "'('" (commit (literal "(")) ('(' :: rest) = .ok ((), rest) := by
    rw [expecting_eq_ok_iff, commit_eq_ok_iff]
    exact literal_append "(" rest
  rw [openParen, bind_of_ok (blanks_apply _), solid_cons (by decide) (by decide), bind_of_ok hread, blanks_apply, h.eq]

lemma closeParen_written (rest : List Char) : closeParen (')' :: rest) = .ok ((), rest) := by
  rw [closeParen, bind_of_ok (blanks_apply _), solid_cons (by decide) (by decide), expecting_eq_ok_iff,
    commit_eq_ok_iff]
  exact literal_append ")" rest

lemma aggregationParameter_written {op : Aggregation} {parameter : Option Nat} {rest : List Char}
    (hsome : parameter.isSome = op.takesParameter) (hvalue : ∀ p ∈ parameter, ∃ v, wholeParameter? v = some p)
    (hrest : Solid rest) :
    aggregationParameter op ((parameter.map fun p => decimalDigits p ++ [',']).getD [] ++ rest) =
      .ok (parameter, rest) := by
  cases parameter with
  | none =>
    have htakes : op.takesParameter = false := by simpa using hsome.symm
    simp [aggregationParameter, htakes]
  | some p =>
    obtain ⟨v, hv⟩ := hvalue p rfl
    have htakes : op.takesParameter = true := by simpa using hsome.symm
    have hends : WholeEnds (',' :: rest) := by
      simp only [WholeEnds, List.head?_cons, Option.any_some]
      decide
    have hnumber := number_whole hends (fun c => isDigit_of_mem_decimalDigits (n := p)) (decimalDigits_ne_nil p)
    rw [natOfDigits_decimalDigits] at hnumber
    have hread : expecting "integer parameter" (commit number) (decimalDigits p ++ ',' :: rest) =
        .ok ((⟨p, 0⟩ : Decimal).toBinary64 false, ',' :: rest) := by
      rw [expecting_eq_ok_iff, commit_eq_ok_iff, hnumber]
    have hwhole : wholeParameter (decimalDigits p ++ ',' :: rest) = .ok (p, rest) := by
      rw [wholeParameter, bind_of_ok (get_apply _), bind_of_ok hread, wholeParameter?_reread hv]
      dsimp only
      rw [bind_of_ok (comma_written hrest)]
      rfl
    have htext : ((some p).map fun p => decimalDigits p ++ [',']).getD [] ++ rest =
        decimalDigits p ++ ',' :: rest := by simp
    rw [htext, aggregationParameter, if_pos htakes]
    exact map_of_ok hwhole

lemma rangeParameter_written {op : RangeOperation} {parameter : Option Binary64} {rest : List Char}
    (hsome : parameter.isSome = op.takesParameter) (hsign : ∀ p ∈ parameter, p.isNegative = false)
    (hfinite : ∀ p ∈ parameter, p.isFinite = true) (hrest : Solid rest) :
    rangeParameter op ((parameter.map fun p => p.queryChars ++ [',']).getD [] ++ rest) =
      .ok (parameter, rest) := by
  cases parameter with
  | none =>
    have htakes : op.takesParameter = false := by simpa using hsome.symm
    simp [rangeParameter, htakes]
  | some p =>
    have htakes : op.takesParameter = true := by simpa using hsome.symm
    have hends : NumberEnds (',' :: rest) := by
      simp only [NumberEnds, List.head?_cons, Option.any_some]
      decide
    have hread : expecting "quantile parameter" (commit number) (p.queryChars ++ ',' :: rest) =
        .ok (p, ',' :: rest) := by
      rw [expecting_eq_ok_iff, commit_eq_ok_iff, Binary64.number_queryChars (hfinite p rfl) (hsign p rfl) hends]
    have htext : ((some p).map fun p => p.queryChars ++ [',']).getD [] ++ rest = p.queryChars ++ ',' :: rest := by
      simp
    rw [htext, rangeParameter, if_pos htakes, bind_of_ok hread, bind_of_ok (comma_written hrest)]
    rfl

end Parameters

/-- The grouping as it is read back: grouping by no label is not written. -/
def normalGrouping (grouping : Option Grouping) : Option Grouping :=
  grouping.filter fun g => g.without || !g.labels.isEmpty

section Groupings

lemma readsLabels_labelChars : ReadsLabels labelChars := by
  intro labels hlabels rest
  have hgap : ∀ text, dropBlanks false ([] ++ text) = dropBlanks false text := fun _ => rfl
  have hread := labelList_join hlabels hgap rest
  exact ⟨⟨_, rfl⟩, by simpa [labelChars, joinChars] using hread⟩

lemma groupingChars_some {grouping : Option Grouping} {g : Grouping} (h : normalGrouping grouping = some g) :
    groupingChars grouping = ' ' :: (g.keyword ++ labelChars g.labels) := by
  obtain ⟨hgrouping, hwritten⟩ := Option.filter_eq_some_iff.1 h
  rw [hgrouping]
  obtain ⟨without, labels⟩ := g
  cases without with
  | true => rfl
  | false =>
    have hlabels : labels.isEmpty = false := by simpa using hwritten
    simp only [groupingChars, Bool.false_eq_true, if_false, hlabels]
    rfl

lemma groupingChars_none {grouping : Option Grouping} (h : normalGrouping grouping = none) :
    groupingChars grouping = [] := by
  cases grouping with
  | none => rfl
  | some g =>
    obtain ⟨without, labels⟩ := g
    simp only [normalGrouping, Option.filter_eq_none_iff] at h
    have hempty := h _ rfl
    simp only [Bool.or_eq_true, not_or, Bool.not_eq_true, Bool.not_eq_false', List.isEmpty_iff] at hempty
    simp [groupingChars, hempty]

/-- A written grouping is read back, and where none is written none is read. -/
lemma optGrouping_written {grouping : Option Grouping} {rest : List Char}
    (hlabels : ∀ g ∈ grouping, ∀ l ∈ g.labels, Label.isLabelName l = true)
    (hby : afterKeyword? "by" (dropBlanks false rest) = none)
    (hwithout : afterKeyword? "without" (dropBlanks false rest) = none) :
    optBehindBlanks Operator.grouping (groupingChars grouping ++ rest) = .ok (normalGrouping grouping, rest) := by
  cases hnormal : normalGrouping grouping with
  | none =>
    have hmiss : keywordOf [("by", false), ("without", true)] (dropBlanks false rest) =
        .error ⟨false, [], dropBlanks false rest⟩ := by
      refine keywordOf_of_none fun entry hentry => ?_
      simp only [List.mem_cons, List.not_mem_nil, or_false] at hentry
      rcases hentry with rfl | rfl
      · exact hby
      · exact hwithout
    rw [groupingChars_none hnormal, List.nil_append]
    exact optBehindBlanks_of_error (bind_of_error hmiss) rfl
  | some g =>
    have hmem : grouping = some g := (Option.filter_eq_some_iff.1 hnormal).1
    have hread := grouping_written readsLabels_labelChars (hlabels g hmem) (.inl rfl) rest
    have hsolid (tail : List Char) : Solid (g.keyword ++ tail) := by
      unfold Grouping.keyword
      split_ifs <;> exact solid_cons (by decide) (by decide) _
    rw [groupingChars_some hnormal]
    refine optBehindBlanks_of_ok ?_
    rw [List.cons_append, List.append_assoc, dropBlanks_space, (hsolid _).eq]
    exact hread

end Groupings

/-! ## Unwrapped labels -/

section Unwraps

/-- The written form of the filters behind an unwrapped label. -/
def furtherFilterChars (filters : List LabelFilter) : List Char :=
  filters.flatMap fun f => " | ".toList ++ f.chars

lemma stageFollow_furtherFilters (filters : List LabelFilter) (tail : List Char) :
    StageFollow (furtherFilterChars filters ++ '[' :: tail) := by
  cases filters with
  | nil => exact .bracket tail
  | cons f filters => exact .bar _

lemma unwrapFilters_written {filters : List LabelFilter} (hvalid : ∀ f ∈ filters, f.Valid)
    (hbounded : ∀ f ∈ filters, f.Bounded) (tail : List Char) {bound : Nat} (hbound : filters.length < bound) :
    unwrapFilters bound (furtherFilterChars filters ++ '[' :: tail) = .ok (filters, '[' :: tail) := by
  induction filters generalizing bound with
  | nil =>
    obtain ⟨bound, rfl⟩ : ∃ k, bound = k + 1 := ⟨bound - 1, by simp at hbound; omega⟩
    have hstop : literal "|" (dropBlanks false ('[' :: tail)) = .error ⟨false, [], '[' :: tail⟩ := by
      rw [solid_cons (by decide) (by decide)]
      exact literal_of_head (by decide) (by simp)
    rw [furtherFilterChars, List.flatMap_nil, List.nil_append, unwrapFilters,
      bind_of_ok (optBehindBlanks_of_error hstop rfl)]
    rfl
  | cons f filters ih =>
    obtain ⟨bound, rfl⟩ : ∃ k, bound = k + 1 := ⟨bound - 1, by simp at hbound; omega⟩
    have hmore : unwrapFilters bound (furtherFilterChars filters ++ '[' :: tail) = .ok (filters, '[' :: tail) :=
      ih (fun g hg => hvalid g (List.mem_cons_of_mem f hg)) (fun g hg => hbounded g (List.mem_cons_of_mem f hg))
        (by simpa using hbound)
    have hfollow := stageFollow_furtherFilters filters tail
    have htext : furtherFilterChars (f :: filters) ++ '[' :: tail =
        ' ' :: '|' :: ' ' :: (f.chars ++ (furtherFilterChars filters ++ '[' :: tail)) := by
      simp [furtherFilterChars]
    generalize furtherFilterChars filters ++ '[' :: tail = behind at hmore hfollow htext
    have hbar : literal "|" (dropBlanks false (' ' :: '|' :: ' ' :: (f.chars ++ behind))) =
        .ok ((), ' ' :: (f.chars ++ behind)) := by
      rw [dropBlanks_space, solid_cons (by decide) (by decide)]
      exact literal_append "|" _
    have hfirst : expecting "label filter after unwrap" (commit labelFilter) (f.chars ++ behind) =
        .ok (f, behind) := by
      rw [expecting_eq_ok_iff, commit_eq_ok_iff]
      exact LabelFilter.labelFilter_chars (hvalid f List.mem_cons_self) (hbounded f List.mem_cons_self)
        hfollow.breaks hfollow.not_joined
    rw [htext, unwrapFilters, bind_of_ok (optBehindBlanks_of_ok hbar)]
    dsimp only
    rw [bind_of_ok (blanks_apply _), dropBlanks_space, (LabelFilter.solid_chars (hvalid f List.mem_cons_self) _).eq,
      bind_of_ok hfirst, bind_of_ok hmore]
    rfl

/-- The written form of a label to unwrap. -/
def targetChars (conversion : Option Conversion) (label : String) : List Char :=
  match conversion with
  | some conversion => conversion.symbol.toList ++ '(' :: label.toList ++ [')']
  | none => label.toList

lemma unwrapLabel_written {label : String} (h : Label.isLabelName label = true) {rest : List Char}
    (hrest : rest.head?.any Label.isMetricNameChar = false) :
    unwrapLabel (label.toList ++ rest) = .ok (label, rest) := by
  rw [unwrapLabel, expecting_eq_ok_iff, commit_eq_ok_iff]
  exact labelName_eq_ok_iff.2 ⟨rfl, h, Label.any_isWordChar_of_any_isMetricNameChar hrest⟩

lemma unwrapTarget_written (conversion : Option Conversion) {label : String}
    (h : Label.isLabelName label = true) {rest : List Char} (hrest : StageFollow rest) :
    unwrapTarget (targetChars conversion label ++ rest) = .ok ((conversion, label), rest) := by
  cases conversion with
  | none =>
    have hstop : literal "(" (dropBlanks false rest) = .error ⟨false, [], dropBlanks false rest⟩ :=
      literal_of_head (by decide) (hrest.head_ne (by decide))
    rw [targetChars, unwrapTarget, bind_of_ok (unwrapLabel_written h hrest.breaks.word),
      bind_of_ok (optBehindBlanks_of_error hstop rfl)]
    rfl
  | some conversion =>
    have hname : Label.isLabelName conversion.symbol = true := by cases conversion <;> rfl
    have hlookup : conversions.lookup conversion.symbol = some conversion := by cases conversion <;> rfl
    have htext : targetChars (some conversion) label ++ rest =
        conversion.symbol.toList ++ '(' :: (label.toList ++ ')' :: rest) := by simp [targetChars]
    have hopen : literal "(" (dropBlanks false ('(' :: (label.toList ++ ')' :: rest))) =
        .ok ((), label.toList ++ ')' :: rest) := by
      rw [solid_cons (by decide) (by decide)]
      exact literal_append "(" _
    have hclose : expecting "')'" (commit (literal ")")) (')' :: rest) = .ok ((), rest) := by
      rw [expecting_eq_ok_iff, commit_eq_ok_iff]
      exact literal_append ")" rest
    rw [htext, unwrapTarget, bind_of_ok (unwrapLabel_written hname (by rfl)), bind_of_ok (optBehindBlanks_of_ok hopen)]
    simp only [hlookup]
    rw [bind_of_ok (blanks_apply _), (solid_name h _).eq, bind_of_ok (unwrapLabel_written h (by rfl)),
      bind_of_ok (blanks_apply _), solid_cons (by decide) (by decide), bind_of_ok hclose]
    rfl

def Unwrap.Bounded (u : Unwrap) : Prop :=
  ∀ f ∈ u.filters, f.Bounded

lemma solid_target (conversion : Option Conversion) {label : String} (h : Label.isLabelName label = true)
    (rest : List Char) : Solid (targetChars conversion label ++ rest) := by
  cases conversion with
  | none => exact solid_name h rest
  | some conversion => cases conversion <;> exact solid_cons (by decide) (by decide) _

lemma optUnwrap_written {u : Unwrap} (hvalid : u.Valid) (hbounded : u.Bounded) (tail : List Char) :
    optBehindBlanks unwrap (u.chars ++ '[' :: tail) = .ok (some u, '[' :: tail) := by
  obtain ⟨conversion, label, filters⟩ := u
  have hchars : (⟨conversion, label, filters⟩ : Unwrap).chars ++ '[' :: tail =
      ' ' :: '|' :: ' ' :: ("unwrap".toList ++ ' ' :: (targetChars conversion label ++
        (furtherFilterChars filters ++ '[' :: tail))) := by
    change (" | unwrap ".toList ++ targetChars conversion label ++ furtherFilterChars filters) ++ '[' :: tail = _
    rw [List.append_assoc, List.append_assoc]
    rfl
  have hbound : filters.length < (furtherFilterChars filters ++ '[' :: tail).length + 1 := by
    have hlength : filters.length ≤ (furtherFilterChars filters).length := length_le_length_flatMap (by simp)
    rw [List.length_append]
    omega
  have hfilters := unwrapFilters_written hvalid.filters hbounded tail hbound
  have htarget := unwrapTarget_written conversion hvalid.label (stageFollow_furtherFilters filters tail)
  have hsolid := solid_target conversion hvalid.label (furtherFilterChars filters ++ '[' :: tail)
  have hbar (more : List Char) : literal "|" ('|' :: more) = .ok ((), more) := literal_append "|" more
  have hword (more : List Char) : keyword "unwrap" ("unwrap".toList ++ ' ' :: more) = .ok ((), ' ' :: more) := by
    rw [keyword_eq_ok_iff]
    exact afterKeyword?_eq_some_iff.2 ⟨rfl, rfl⟩
  refine optBehindBlanks_of_ok ?_
  rw [hchars, dropBlanks_space, solid_cons (by decide) (by decide), unwrap, bind_of_ok (hbar _),
    bind_of_ok (blanks_apply _), dropBlanks_space, solid_word (by decide) (by decide), bind_of_ok (hword _),
    bind_of_ok (blanks_apply _), dropBlanks_space, hsolid.eq, bind_of_ok htarget]
  dsimp only
  rw [bind_of_ok (get_apply _), bind_of_ok hfilters]
  rfl

end Unwraps

/-! ## Ranges -/

structure LogRange.Bounded (r : LogRange) : Prop where
  stream : r.stream.Bounded
  range : r.range.millis < Duration.limit
  unwrap : ∀ u ∈ r.unwrap, u.Bounded
  offset : ∀ d ∈ r.offset, d.millis < Duration.limit

instance : DecidablePred Unwrap.Bounded := fun u =>
  inferInstanceAs (Decidable (∀ f ∈ u.filters, f.Bounded))

instance : DecidablePred LogRange.Bounded := fun r =>
  decidable_of_iff (r.stream.Bounded ∧ r.range.millis < Duration.limit ∧ (∀ u ∈ r.unwrap, u.Bounded) ∧
      ∀ d ∈ r.offset, d.millis < Duration.limit)
    ⟨fun h => ⟨h.1, h.2.1, h.2.2.1, h.2.2.2⟩, fun h => ⟨h.stream, h.range, h.unwrap, h.offset⟩⟩

section Ranges

lemma requiredDuration_written {d : Duration} (h : d.millis < Duration.limit) (what : String) {rest : List Char}
    (hrest : Duration.Ends rest) :
    expecting what (commit Duration.scan) (d.chars ++ rest) = .ok (d, rest) := by
  rw [expecting_eq_ok_iff, commit_eq_ok_iff, d.scan_chars hrest, Duration.mod_limit_of_lt h]

lemma solid_duration (d : Duration) (rest : List Char) : Solid (d.chars ++ rest) := by
  obtain ⟨c, tail, hc, hdigit⟩ := d.exists_cons_chars
  rw [hc]
  exact solid_of_digit hdigit _

/-- The written form of the shift of a range. -/
def shiftChars (offset : Option Duration) : List Char :=
  (offset.map fun d => " offset ".toList ++ d.chars).getD []

lemma rangeOffset_written {offset : Option Duration} (h : ∀ d ∈ offset, d.millis < Duration.limit)
    (tail : List Char) : rangeOffset (shiftChars offset ++ ')' :: tail) = .ok (offset, ')' :: tail) := by
  cases offset with
  | none =>
    have hstop : keyword "offset" (dropBlanks false (')' :: tail)) = .error ⟨false, [], ')' :: tail⟩ := by
      rw [solid_cons (by decide) (by decide)]
      exact keyword_of_head (by decide) (by simp)
    rw [rangeOffset, shiftChars, Option.map_none, Option.getD_none, List.nil_append,
      bind_of_ok (optBehindBlanks_of_error hstop rfl)]
    rfl
  | some d =>
    have htext : shiftChars (some d) ++ ')' :: tail = ' ' :: ("offset".toList ++ ' ' :: (d.chars ++ ')' :: tail)) := by
      simp [shiftChars]
    have hword : keyword "offset" (dropBlanks false (' ' :: ("offset".toList ++ ' ' :: (d.chars ++ ')' :: tail)))) =
        .ok ((), ' ' :: (d.chars ++ ')' :: tail)) := by
      rw [dropBlanks_space, solid_word (by decide) (by decide), keyword_eq_ok_iff]
      exact afterKeyword?_eq_some_iff.2 ⟨rfl, rfl⟩
    rw [htext, rangeOffset, bind_of_ok (optBehindBlanks_of_ok hword)]
    dsimp only
    rw [bind_of_ok (blanks_apply _), dropBlanks_space, (solid_duration d _).eq,
      bind_of_ok (requiredDuration_written (h d rfl) _ (by rfl))]
    rfl

/-- Behind the brackets neither stages nor an unwrapped label follow. -/
lemma shift_head (offset : Option Duration) (tail : List Char) :
    (dropBlanks false (shiftChars offset ++ ')' :: tail)).head? ∈ [some 'o', some ')'] := by
  cases offset with
  | none => simp [shiftChars, dropBlanks, isSpace]
  | some d => simp [shiftChars, dropBlanks, isSpace]

lemma optUnwrap_stop {input : List Char} (h : (dropBlanks false input).head? ≠ some '|') :
    optBehindBlanks unwrap input = .ok (none, input) := by
  have hbar : literal "|" (dropBlanks false input) = .error ⟨false, [], dropBlanks false input⟩ :=
    literal_of_head (by decide) h
  exact optBehindBlanks_of_error (bind_of_error hbar) rfl

/-- The label is read where it is written, and not again behind the brackets. -/
lemma laterUnwrap_written (earlier : Option Unwrap) {input : List Char}
    (h : (dropBlanks false input).head? ≠ some '|') : laterUnwrap earlier input = .ok (earlier, input) := by
  cases earlier with
  | some u => rfl
  | none => exact optUnwrap_stop h

lemma logRange_chars {r : LogRange} (hvalid : r.Valid) (hbounded : r.Bounded) (hclear : r.stream.Clear)
    (tail : List Char) : logRange (r.chars ++ ')' :: tail) = .ok (r, ')' :: tail) := by
  obtain ⟨source, range, label, offset⟩ := r
  -- The text behind the stream, behind the unwrapped label and behind the brackets.
  obtain ⟨last, hlast⟩ : ∃ last, last = shiftChars offset ++ ')' :: tail := ⟨_, rfl⟩
  obtain ⟨inside, hinside⟩ : ∃ inside, inside = range.chars ++ ']' :: last := ⟨_, rfl⟩
  obtain ⟨behind, hbehind⟩ : ∃ behind, behind = (label.map Unwrap.chars).getD [] ++ '[' :: inside := ⟨_, rfl⟩
  have hchars : (⟨source, range, label, offset⟩ : LogRange).chars ++ ')' :: tail = source.chars ++ behind := by
    simp [LogRange.chars, hbehind, hinside, hlast, shiftChars]
  have hfollow : PipelineFollow behind := by
    rw [hbehind]
    cases label with
    | none => exact .bracket inside
    | some u =>
      change PipelineFollow ((" | unwrap ".toList ++ _ ++ _) ++ _)
      rw [List.append_assoc, List.append_assoc]
      exact .unwrap _
  have hstream : expecting "log stream selector" (commit stream) (source.chars ++ behind) = .ok (source, behind) := by
    rw [expecting_eq_ok_iff, commit_eq_ok_iff]
    exact Stream.streamIn_chars hvalid.stream hbounded.stream hclear _ hfollow
  have hlabel : optBehindBlanks unwrap behind = .ok (label, '[' :: inside) := by
    rw [hbehind]
    cases label with
    | none => exact optUnwrap_stop (by rw [Option.map_none, Option.getD_none, List.nil_append, solid_cons (by decide) (by decide)]; simp)
    | some u => exact optUnwrap_written (hvalid.unwrap u rfl) (hbounded.unwrap u rfl) inside
  have hopen : expecting "range, e.g. [5m]" (commit (literal "[")) ('[' :: inside) = .ok ((), inside) := by
    rw [expecting_eq_ok_iff, commit_eq_ok_iff]
    exact literal_append "[" inside
  have hrange : expecting "duration" (commit Duration.scan) inside = .ok (range, ']' :: last) := by
    rw [hinside]
    exact requiredDuration_written hbounded.range _ (by rfl)
  have hsolid : Solid inside := hinside ▸ solid_duration range _
  have hclose : expecting "']'" (commit (literal "]")) (']' :: last) = .ok ((), last) := by
    rw [expecting_eq_ok_iff, commit_eq_ok_iff]
    exact literal_append "]" last
  have hhead := shift_head offset tail
  rw [← hlast] at hhead
  have hne {c : Char} (hc : some c ∉ [some 'o', some ')']) : (dropBlanks false last).head? ≠ some c :=
    fun heq => hc (heq ▸ hhead)
  have hstages : pipeline last = .ok ([], last) := stages_of_head (hne (by decide)) (hne (by decide)) _
  have hlater := laterUnwrap_written label (hne (c := '|') (by decide))
  have hoffset : rangeOffset last = .ok (offset, ')' :: tail) := hlast ▸ rangeOffset_written hbounded.offset tail
  rw [hchars, logRange, bind_of_ok hstream, bind_of_ok hlabel, bind_of_ok (blanks_apply _),
    solid_cons (by decide) (by decide), bind_of_ok hopen, bind_of_ok (blanks_apply _), hsolid.eq, bind_of_ok hrange,
    bind_of_ok (blanks_apply _), solid_cons (by decide) (by decide), bind_of_ok hclose, bind_of_ok hstages,
    bind_of_ok hlater, bind_of_ok hoffset]
  simp

end Ranges

end Log

end QueryScope
