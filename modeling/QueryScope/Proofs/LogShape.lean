import QueryScope.Log.Reader
import QueryScope.Proofs.OperatorChain

/-!
# The shape of log queries that are read

Every part of a log query that is read can be written: its names are names, what is compared as a
regular expression is one, and its clauses stand where they are allowed.
-/

namespace QueryScope.Log

open Scan Operator

/-! ## Pipelines -/

def LineFilter.Valid (f : LineFilter) : Prop :=
  isBadPattern f.comparison f.value = false

def LabelFilter.Valid : LabelFilter → Prop
  | matcher m => m.Valid
  | number name _ value => Label.isLabelName name = true ∧ value.isNegative = false
  | duration name _ _ => Label.isLabelName name = true
  | and left right | or left right => left.Valid ∧ right.Valid

/-- The first of the labels that are taken from a line is not read as the end of the stage. -/
def ExtractionsValid (extractions : List Extraction) : Prop :=
  (∀ e ∈ extractions, Label.isLabelName e.name = true) ∧
    ∀ e ∈ extractions.head?, e.name ≠ "or" ∧ e.name ≠ "offset"

def LabelFormat.Valid : LabelFormat → Prop
  | rename target source => Label.isLabelName target = true ∧ Label.isLabelName source = true
  | template target _ => Label.isLabelName target = true

def LabelReference.Valid : LabelReference → Prop
  | name label => Label.isLabelName label = true
  | matcher m => m.Valid

/-- A stage that can be written. -/
def Stage.Valid : Stage → Prop
  | lineFilter filter => filter.Valid
  | json extractions | logfmt _ _ extractions => ExtractionsValid extractions
  | regexp expression => Pattern.isValid expression = true
  | labelFilter filter => filter.Valid
  | labelFormat formats => formats ≠ [] ∧ ∀ f ∈ formats, f.Valid
  | drop labels | keep labels => labels ≠ [] ∧ ∀ l ∈ labels, l.Valid
  | pattern _ | unpack | decolorize | lineFormat _ => True

/-- A stream that can be written. -/
structure Stream.Valid (s : Stream) : Prop where
  matchers : ∀ m ∈ s.matchers, m.Valid
  selective : s.matchers.all Matcher.matchesEmpty = false
  stages : ∀ stage ∈ s.stages, stage.Valid

section Filters

lemma yields_quotedComparison? {name : String} (hname : Label.isLabelName name = true) :
    Yields (fun o => ∀ f ∈ o, f.Valid) (quotedComparison? name) := by
  refine .of_within fun n => within_get.bind fun before hbefore => ?_
  refine ((yields_literalOf Matcher.comparisons).opt.within n).bind fun op _ => ?_
  cases op with
  | none => exact (Yields.pure (by simp)).within n
  | some op =>
    refine (yields_blanks.within n).bind fun _ _ => within_get.bind fun here _ => ?_
    refine .ite (fun _ => ?_) fun _ => .ite (fun _ => (yields_refuse _).within n) fun _ => ?_
    · refine (yields_stringLiteral.bind fun value _ => Yields.checked fun hpattern => ?_).within n
      have hvalid : (LabelFilter.matcher ⟨name, op, value⟩).Valid := ⟨hname, by simpa using hpattern⟩
      exact .pure (by simpa using hvalid)
    · exact (within_set hbefore).bind fun _ _ => (Yields.pure (by simp)).within n

lemma yields_valueComparison {name : String} (hname : Label.isLabelName name = true) :
    Yields LabelFilter.Valid (valueComparison name) := by
  refine .of_within fun n => ?_
  refine (((yields_literalOf relations).commit.expecting _).within n).bind fun relation _ => ?_
  refine (yields_blanks.within n).bind fun _ _ => within_get.bind fun here hhere => ?_
  refine .ite (fun _ => ?_) fun _ => ?_
  · exact (yields_stringLiteral.bind fun value _ => .pure ⟨hname, by simp [Matcher.Comparison.isPattern]⟩).within n
  · refine ((yields_number.commit.expecting _).within n).bind fun value hvalue => ?_
    refine (yields_peek.within n).bind fun next _ => .ite (fun _ => ?_) fun _ => ?_
    · have hvalid (d : Duration) : (LabelFilter.duration name relation d).Valid := hname
      refine (within_set hhere).bind fun _ _ => ?_
      exact ((Duration.yields_scan.commit.expecting _).bind fun d _ => .pure (hvalid d)).within n
    · exact (Yields.pure ⟨hname, hvalue⟩).within n

lemma yields_simpleFilter : Yields LabelFilter.Valid simpleFilter := by
  refine yields_labelName.bind fun name hname => yields_blanks.bind fun _ _ => ?_
  refine (yields_quotedComparison? hname).bind fun filter hfilter => ?_
  cases filter with
  | some filter => exact .pure (hfilter filter rfl)
  | none => exact yields_valueComparison hname

lemma yields_conjunction {single : Scanner LabelFilter} (h : Yields LabelFilter.Valid single) :
    Yields LabelFilter.Valid (conjunction single) := by
  have hseparator : Yields (fun _ => True) (orElse (literal ",") (keyword "and")) :=
    (yields_literal ",").orElse (yields_keyword "and")
  have hjoin (left right : LabelFilter) (hleft : left.Valid) (hright : right.Valid) :
      (left.and right).Valid := ⟨hleft, hright⟩
  refine h.bind fun first hfirst => yields_get.bind fun here _ => ?_
  exact yields_joinedLeft (h.commit.expecting _) hseparator hjoin _ hfirst

lemma yields_disjunction {single : Scanner LabelFilter} (h : Yields LabelFilter.Valid single) :
    Yields LabelFilter.Valid (disjunction single) := by
  have hjoin (left right : LabelFilter) (hleft : left.Valid) (hright : right.Valid) :
      (left.or right).Valid := ⟨hleft, hright⟩
  refine (yields_conjunction h).bind fun first hfirst => yields_get.bind fun here _ => ?_
  exact yields_joinedLeft ((yields_conjunction h).commit.expecting _) (yields_keyword "or") hjoin _ hfirst

lemma yields_singleFilter (depth : Nat) : Yields LabelFilter.Valid (singleFilter depth) := by
  induction depth with
  | zero => exact yields_miss
  | succ depth ih =>
    refine (yields_optLiteral "(").bind fun opened _ => .ite (fun _ => ?_) fun _ => yields_simpleFilter
    refine yields_blanks.bind fun _ _ => ((yields_disjunction ih).commit.expecting _).bind fun inner hinner => ?_
    exact yields_blanks.bind fun _ _ => ((yields_literal ")").commit.expecting _).bind fun _ _ => .pure hinner

lemma yields_labelFilter : Yields LabelFilter.Valid labelFilter :=
  fun _ _ _ hread => yields_disjunction (yields_singleFilter _) hread

end Filters

section Stages

lemma yields_requiredString (what : String) : Yields (fun _ => True) (requiredString what) :=
  yields_stringLiteral.commit.expecting what

lemma yields_stringArgument : Yields (fun _ => True) stringArgument :=
  yields_blanks.bind fun _ _ => yields_requiredString _

lemma yields_lineValue : Yields (fun _ => True) lineValue := by
  refine (yields_optKeyword "ip").bind fun address _ => .ite (fun _ => ?_) fun _ => ?_
  · refine yields_blanks.bind fun _ _ => Yields.expecting (Yields.commit ?_) _
    refine (yields_literal "(").bind fun _ _ => yields_blanks.bind fun _ _ => ?_
    refine yields_stringLiteral.bind fun _ _ => yields_blanks.bind fun _ _ => ?_
    exact (yields_literal ")").bind fun _ _ => .pure trivial
  · exact (yields_requiredString _).bind fun _ _ => .pure trivial

lemma yields_alternatives (bound : Nat) : Yields (fun _ => True) (alternatives bound) := by
  induction bound with
  | zero => exact .pure trivial
  | succ bound ih =>
    refine (yields_blanks.bind fun _ _ => yields_keyword "or").opt.bind fun more _ => ?_
    cases more with
    | none => exact .pure trivial
    | some u =>
      refine yields_blanks.bind fun _ _ => (yields_requiredString _).bind fun first _ => ?_
      exact ih.bind fun _ _ => .pure trivial

lemma yields_lineFilter (comparison : LineComparison) : Yields LineFilter.Valid (lineFilter comparison) := by
  refine yields_blanks.bind fun _ _ => yields_get.bind fun before _ => ?_
  refine yields_lineValue.bind fun value _ => Yields.checked fun hvalue => ?_
  refine yields_get.bind fun here _ => (yields_alternatives _).bind fun more _ => .pure ?_
  simpa [LineFilter.Valid] using hvalue

lemma yields_extraction : Yields (fun e => Label.isLabelName e.name = true) extraction := by
  refine yields_labelName.bind fun name hname => ?_
  refine (yields_blanks.bind fun _ _ => yields_literal "=").opt.bind fun expression _ => ?_
  cases expression with
  | none => exact .pure hname
  | some u => exact yields_blanks.bind fun _ _ => (yields_requiredString _).bind fun _ _ => .pure hname

lemma yields_extractions :
    Yields (fun es => ∀ e ∈ es, Label.isLabelName e.name = true) extractions := by
  refine .of_within fun n => within_get.bind fun before hbefore => (yields_blanks.within n).bind fun _ _ => ?_
  refine within_get.bind fun here _ => .ite (fun _ => ?_) fun _ => ?_
  · exact (within_set hbefore).bind fun _ _ => (Yields.pure (by simp)).within n
  · exact ((yields_commaList (yields_extraction.commit.expecting _)).mono fun es hes => hes.2).within n

lemma yields_switches (bound : Nat) (strict keepEmpty : Bool) :
    Yields (fun _ => True) (switches bound strict keepEmpty) := by
  induction bound generalizing strict keepEmpty with
  | zero => exact .pure trivial
  | succ bound ih =>
    refine (yields_blanks.bind fun _ _ => yields_literalOf _).opt.bind fun switch _ => ?_
    cases switch with
    | none => exact .pure trivial
    | some isStrict =>
      cases isStrict with
      | true => exact ih true keepEmpty
      | false => exact ih strict true

lemma yields_labelFormat : Yields LabelFormat.Valid labelFormat := by
  refine yields_labelName.bind fun target htarget => yields_blanks.bind fun _ _ => ?_
  refine ((yields_literal "=").commit.expecting _).bind fun _ _ => yields_blanks.bind fun _ _ => ?_
  refine yields_stringLiteral.opt.bind fun template _ => ?_
  cases template with
  | some template =>
    have hvalid : (LabelFormat.template target template).Valid := htarget
    exact .pure hvalid
  | none => exact (yields_labelName.commit.expecting _).bind fun source hsource => .pure ⟨htarget, hsource⟩

lemma yields_labelReference : Yields LabelReference.Valid labelReference := by
  refine .of_within fun n => within_get.bind fun before hbefore => ?_
  refine (yields_labelName.within n).bind fun name hname => within_get.bind fun behind hbehind => ?_
  refine (yields_blanks.within n).bind fun _ _ => (yields_peek.within n).bind fun next _ => ?_
  have hmatcher (m : Matcher) (hm : m.Valid) : (LabelReference.matcher m).Valid := hm
  have hlabel : (LabelReference.name name).Valid := hname
  refine .ite (fun _ => (within_set hbefore).bind fun _ _ => ?_) fun _ => ?_
  · exact (Matcher.yields_scan.bind fun m hm => .pure (hmatcher m hm)).within n
  · exact (within_set hbehind).bind fun _ _ => (Yields.pure hlabel).within n

lemma yields_stageList {α : Type} {P : α → Prop} {item : Scanner α} (h : Yields P item) :
    Yields (fun items => items ≠ [] ∧ ∀ a ∈ items, P a) (stageList item) :=
  yields_blanks.bind fun _ _ => yields_commaList (h.commit.expecting _)

/-- A name that is a keyword but is not read as one stands before a colon. -/
lemma colon_of_afterKeyword? {word : String} {rest : List Char}
    (h : afterKeyword? word (word.toList ++ rest) = none) (hrest : rest.head?.any Text.isWordChar = false) :
    rest.head? = some ':' := by
  have hname : rest.head?.any Label.isMetricNameChar = true := by
    by_contra hstop
    have hfound : afterKeyword? word (word.toList ++ rest) = some rest :=
      afterKeyword?_eq_some_iff.2 ⟨rfl, by simpa using hstop⟩
    simp [h] at hfound
  cases rest with
  | nil => simp at hname
  | cons c rest =>
    simp only [List.head?_cons, Option.any_some] at hname hrest
    rcases Label.isMetricNameChar_iff.1 hname with hword | hcolon
    · simp [hrest] at hword
    · simpa [Text.toNat_eq_iff] using hcolon

lemma solid_of_colon {rest : List Char} (h : rest.head? = some ':') : Solid rest := by
  cases rest with
  | nil => exact solid_nil
  | cons c rest =>
    obtain rfl : c = ':' := by simpa using h
    exact solid_cons (by decide) (by decide) rest

/-- Nothing of a pipeline goes on at a colon. -/
lemma literal_colon {text : String} {rest behind : List Char} {u : Unit} (h : rest.head? = some ':')
    (hne : text.toList ≠ []) (htext : text.toList.head? ≠ some ':') :
    literal text (dropBlanks false rest) ≠ .ok (u, behind) := by
  intro hread
  rw [(solid_of_colon h).eq, literal_of_head hne (h ▸ htext.symm)] at hread
  simp at hread

lemma itemsBehindCommas_colon {α : Type} (item : Scanner α) (bound : Nat) {input : List Char}
    (h : input.head? = some ':') : itemsBehindCommas item (bound + 1) input = .ok ([], input) := by
  have hcomma : optBehindBlanks (literal ",") input = .ok (none, input) := by
    refine optBehindBlanks_of_error (literal_of_head (by decide) ?_) rfl
    rw [(solid_of_colon h).eq, h]
    decide
  rw [itemsBehindCommas, bind_of_ok hcomma]
  rfl

lemma extraction_eq_ok {input rest : List Char} {e : Extraction} (h : extraction input = .ok (e, rest)) :
    ∃ behind, labelName input = .ok (e.name, behind) ∧ (behind.head? = some ':' → rest = behind) := by
  obtain ⟨name, behind, hname, hmore⟩ := bind_eq_ok_iff.1 h
  obtain ⟨expression, middle, hmark, hresult⟩ := bind_eq_ok_iff.1 hmore
  cases expression with
  | none =>
    obtain ⟨rfl, -⟩ := optBehindBlanks_eq_none_iff.1 hmark
    obtain ⟨rfl, rfl⟩ := pure_eq_ok_iff.1 hresult
    exact ⟨middle, hname, fun _ => rfl⟩
  | some mark =>
    obtain ⟨-, gap, -, hvalue⟩ := bind_eq_ok_iff.1 hresult
    obtain ⟨value, last, -, hlast⟩ := bind_eq_ok_iff.1 hvalue
    obtain ⟨rfl, rfl⟩ := pure_eq_ok_iff.1 hlast
    exact ⟨behind, hname, fun hcolon =>
      absurd (optBehindBlanks_eq_some_iff.1 hmark) (literal_colon hcolon (by decide) (by decide))⟩

lemma extractions_sound {input rest : List Char} {es : List Extraction}
    (h : extractions input = .ok (es, rest)) (hrest : rest.head? ≠ some ':') : ExtractionsValid es := by
  refine ⟨(yields_extractions h).1, ?_⟩
  rw [extractions, bind_of_ok (get_apply _), bind_of_ok (blanks_apply _), bind_of_ok (get_apply _)] at h
  split_ifs at h with hend
  · rw [bind_of_ok (set_apply _ _)] at h
    obtain ⟨rfl, -⟩ := pure_eq_ok_iff.1 h
    simp
  · obtain ⟨first, behind, hfirst, h⟩ := bind_eq_ok_iff.1 h
    rw [bind_of_ok (get_apply _)] at h
    obtain ⟨more, last, hmore, h⟩ := bind_eq_ok_iff.1 h
    obtain ⟨rfl, rfl⟩ := pure_eq_ok_iff.1 h
    obtain ⟨middle, hname, hcolon⟩ := extraction_eq_ok (commit_eq_ok_iff.1 (expecting_eq_ok_iff.1 hfirst))
    obtain ⟨hsplit, -, hstop⟩ := labelName_eq_ok_iff.1 hname
    -- A keyword would end the list, unless a colon follows it, and then the colon is what is left.
    have hne {word : String} (hword : afterKeyword? word (dropBlanks false input) = none) : first.name ≠ word := by
      rintro rfl
      rw [hsplit] at hword
      have hmiddle := colon_of_afterKeyword? hword hstop
      obtain rfl := hcolon hmiddle
      rw [itemsBehindCommas_colon _ _ hmiddle] at hmore
      obtain ⟨-, rfl⟩ := Prod.mk.inj (Except.ok.inj hmore)
      exact hrest hmiddle
    simp only [Bool.or_eq_true, not_or, Option.isSome_iff_ne_none, not_not] at hend
    simpa using ⟨hne hend.1.2, hne hend.2⟩

lemma stageBehind_sound {kind : StageKeyword} {input rest : List Char} {s : Stage}
    (h : stageBehind kind input = .ok (s, rest)) :
    (rest.head? ≠ some ':' → s.Valid) ∧ rest.length ≤ input.length := by
  have hplain (hx : Yields Stage.Valid (stageBehind kind)) :
      (rest.head? ≠ some ':' → s.Valid) ∧ rest.length ≤ input.length :=
    ⟨fun _ => (hx h).1, (hx h).2⟩
  cases kind with
  | json =>
    obtain ⟨es, behind, hes, hresult⟩ := bind_eq_ok_iff.1 h
    obtain ⟨rfl, rfl⟩ := pure_eq_ok_iff.1 hresult
    exact ⟨extractions_sound hes, (yields_extractions hes).2⟩
  | logfmt =>
    obtain ⟨here, start, hhere, hread⟩ := bind_eq_ok_iff.1 h
    obtain ⟨flags, middle, hflags, hmore⟩ := bind_eq_ok_iff.1 hread
    obtain ⟨es, behind, hes, hresult⟩ := bind_eq_ok_iff.1 hmore
    obtain ⟨rfl, rfl⟩ := pure_eq_ok_iff.1 hresult
    have hstart := (yields_get hhere).2
    have hmiddle := (yields_switches _ _ _ hflags).2
    have hbehind := (yields_extractions hes).2
    exact ⟨extractions_sound hes, by omega⟩
  | regexp =>
    refine hplain (yields_stringArgument.bind fun expression _ => .guard fun hvalid => .pure ?_)
    simpa [Stage.Valid] using hvalid
  | pattern => exact hplain (yields_stringArgument.bind fun _ _ => .pure trivial)
  | unpack => exact hplain (.pure trivial)
  | decolorize => exact hplain (.pure trivial)
  | lineFormat => exact hplain (yields_stringArgument.bind fun _ _ => .pure trivial)
  | labelFormat => exact hplain ((yields_stageList yields_labelFormat).bind fun _ hformats => .pure hformats)
  | drop => exact hplain ((yields_stageList yields_labelReference).bind fun _ hlabels => .pure hlabels)
  | keep => exact hplain ((yields_stageList yields_labelReference).bind fun _ hlabels => .pure hlabels)

lemma stage_sound {input rest : List Char} {s : Stage} (h : stage input = .ok (s, rest)) :
    (rest.head? ≠ some ':' → s.Valid) ∧ rest.length ≤ input.length := by
  obtain ⟨kind, behind, hkind, hstage⟩ := bind_eq_ok_iff.1 h
  have hbehind := ((yields_keywordOf stageKeywords).opt hkind).2
  cases kind with
  | some kind =>
    obtain ⟨hvalid, hrest⟩ := stageBehind_sound hstage
    exact ⟨hvalid, hrest.trans hbehind⟩
  | none =>
    obtain ⟨filter, last, hfilter, hresult⟩ := bind_eq_ok_iff.1 hstage
    obtain ⟨rfl, rfl⟩ := pure_eq_ok_iff.1 hresult
    obtain ⟨hvalid, hrest⟩ := yields_labelFilter hfilter
    exact ⟨fun _ => hvalid, hrest.trans hbehind⟩

lemma stages_of_head {input : List Char} (hbar : (dropBlanks false input).head? ≠ some '|')
    (hmark : (dropBlanks false input).head? ≠ some '!') (bound : Nat) :
    stages bound input = .ok ([], input) := by
  cases bound with
  | zero => rfl
  | succ bound =>
    have hcomparison : literalOf lineComparisons (dropBlanks false input) =
        .error ⟨false, [], dropBlanks false input⟩ := by
      refine literalOf_of_head fun entry hentry => ?_
      have hheads : ∀ entry ∈ lineComparisons, entry.1.toList.head? = some '|' ∨ entry.1.toList.head? = some '!' := by
        decide
      have hhead := hheads entry hentry
      constructor
      · rintro hnil
        simp [hnil] at hhead
      · rcases hhead with hhead | hhead <;> rwa [hhead]
    rw [stages, bind_of_ok (get_apply _), bind_of_ok (blanks_apply _), bind_of_ok (opt_of_error hcomparison rfl)]
    simp only
    rw [bind_of_ok (optLiteral_of_head rfl hbar)]
    rfl

lemma stages_sound (bound : Nat) {input rest : List Char} {ss : List Stage}
    (h : stages bound input = .ok (ss, rest)) :
    (rest.head? ≠ some ':' → ∀ s ∈ ss, s.Valid) ∧ rest.length ≤ input.length := by
  induction bound generalizing input ss with
  | zero =>
    obtain ⟨rfl, rfl⟩ := pure_eq_ok_iff.1 h
    simp
  | succ bound ih =>
    have hstart := length_dropBlanks_le false input
    rw [stages, bind_of_ok (get_apply _), bind_of_ok (blanks_apply _)] at h
    obtain ⟨comparison, behind, hcomparison, hread⟩ := bind_eq_ok_iff.1 h
    have hbehind := ((yields_literalOf lineComparisons).opt hcomparison).2
    cases comparison with
    | some comparison =>
      obtain ⟨filter, middle, hfilter, hmore⟩ := bind_eq_ok_iff.1 hread
      obtain ⟨more, last, hstages, hresult⟩ := bind_eq_ok_iff.1 hmore
      obtain ⟨rfl, rfl⟩ := pure_eq_ok_iff.1 hresult
      obtain ⟨hvalid, hmiddle⟩ := yields_lineFilter comparison hfilter
      obtain ⟨hvalids, hlast⟩ := ih hstages
      refine ⟨fun hcolon => ?_, by omega⟩
      simpa using ⟨hvalid, hvalids hcolon⟩
    | none =>
      obtain ⟨bar, middle, hbar, hread⟩ := bind_eq_ok_iff.1 hread
      have hmiddle := (yields_optLiteral "|" hbar).2
      split_ifs at hread with hopened
      · have hgap := length_dropBlanks_le false middle
        rw [bind_of_ok (blanks_apply _), bind_of_ok (get_apply _)] at hread
        split_ifs at hread with hunwrap
        · rw [bind_of_ok (set_apply _ _)] at hread
          obtain ⟨rfl, rfl⟩ := pure_eq_ok_iff.1 hread
          simp
        · obtain ⟨first, tail, hfirst, hmore⟩ := bind_eq_ok_iff.1 hread
          obtain ⟨more, last, hstages, hresult⟩ := bind_eq_ok_iff.1 hmore
          obtain ⟨rfl, rfl⟩ := pure_eq_ok_iff.1 hresult
          obtain ⟨hvalid, htail⟩ := stage_sound (commit_eq_ok_iff.1 (expecting_eq_ok_iff.1 hfirst))
          obtain ⟨hvalids, hlast⟩ := ih hstages
          refine ⟨fun hcolon => ?_, by omega⟩
          -- A colon behind the stage would still stand there at the end.
          have htailColon : tail.head? ≠ some ':' := by
            intro hhead
            have hsolid := (solid_of_colon hhead).eq
            rw [stages_of_head (by simp [hsolid, hhead]) (by simp [hsolid, hhead])] at hstages
            obtain ⟨-, rfl⟩ := Prod.mk.inj (Except.ok.inj hstages)
            exact hcolon hhead
          simpa using ⟨hvalid htailColon, hvalids hcolon⟩
      · rw [bind_of_ok (set_apply _ _)] at hread
        obtain ⟨rfl, rfl⟩ := pure_eq_ok_iff.1 hread
        simp

lemma yields_selector :
    Yields (fun ms => (∀ m ∈ ms, m.Valid) ∧ ms.all Matcher.matchesEmpty = false) selector := by
  refine Matcher.yields_block.bind fun matchers hmatchers => .guard fun hselective => ?_
  exact .pure ⟨hmatchers, by simpa using hselective⟩

lemma streamIn_sound (depth : Nat) {input rest : List Char} {s : Stream}
    (h : streamIn depth input = .ok (s, rest)) :
    (rest.head? ≠ some ':' → s.Valid) ∧ rest.length ≤ input.length := by
  induction depth generalizing input rest with
  | zero => simp [streamIn, miss] at h
  | succ depth ih =>
    obtain ⟨opened, behind, hopened, hread⟩ := bind_eq_ok_iff.1 h
    have hbehind := (yields_optLiteral "(" hopened).2
    split_ifs at hread with hparen
    · rw [bind_of_ok (blanks_apply _)] at hread
      obtain ⟨inner, middle, hinner, hclose⟩ := bind_eq_ok_iff.1 hread
      rw [bind_of_ok (blanks_apply _)] at hclose
      obtain ⟨u, last, hlast, hresult⟩ := bind_eq_ok_iff.1 hclose
      obtain ⟨rfl, rfl⟩ := pure_eq_ok_iff.1 hresult
      have hmark := commit_eq_ok_iff.1 (expecting_eq_ok_iff.1 hlast)
      obtain ⟨hvalid, hmiddle⟩ := ih hinner
      have hgap := length_dropBlanks_le false behind
      have hgap' := length_dropBlanks_le false middle
      have hlength := (yields_literal ")" hmark).2
      exact ⟨fun _ => hvalid fun hcolon => literal_colon hcolon (by decide) (by decide) hmark, by omega⟩
    · obtain ⟨matchers, middle, hmatchers, hmore⟩ := bind_eq_ok_iff.1 hread
      obtain ⟨ss, last, hss, hresult⟩ := bind_eq_ok_iff.1 hmore
      obtain ⟨rfl, rfl⟩ := pure_eq_ok_iff.1 hresult
      obtain ⟨⟨hvalid, hselective⟩, hmiddle⟩ := yields_selector hmatchers
      obtain ⟨hstages, hlast⟩ := stages_sound _ hss
      exact ⟨fun hcolon => ⟨hvalid, hselective, hstages hcolon⟩, by omega⟩

end Stages

/-! ## Metric queries over logs -/

structure Unwrap.Valid (u : Unwrap) : Prop where
  label : Label.isLabelName u.label = true
  filters : ∀ f ∈ u.filters, f.Valid

structure LogRange.Valid (r : LogRange) : Prop where
  stream : r.stream.Valid
  unwrap : ∀ u ∈ r.unwrap, u.Valid

/-- A metric query that can be written. -/
def Sample.Valid : Sample → Prop
  | range op parameter logs grouping =>
    logs.Valid ∧ (parameter.isSome = op.takesParameter ∧ ∀ p ∈ parameter, p.isNegative = false) ∧
      (logs.unwrap.isSome = false → op.requiresUnwrap = false) ∧
      (logs.unwrap.isSome = true → op.forbidsUnwrap = false) ∧
      ∀ g ∈ grouping, ∀ l ∈ g.labels, Label.isLabelName l = true
  | aggregate op parameter body grouping =>
    body.Valid ∧ (parameter.isSome = op.takesParameter ∧ ∀ p ∈ parameter, ∃ v, wholeParameter? v = some p) ∧
      (grouping.isSome = true → op.isSort = false) ∧
      ∀ g ∈ grouping, ∀ l ∈ g.labels, Label.isLabelName l = true
  | binary op modifiers left right => modifiers.Valid op ∧ left.Valid ∧ right.Valid
  | literal _ => True
  | vector value => value.isNegative = false
  | labelReplace body _ _ _ _ => body.Valid

/-- A log query that can be written. -/
def Query.Valid : Query → Prop
  | log stream => stream.Valid
  | sample s => s.Valid

section Ranges

lemma yields_unwrapLabel : Yields (fun name => Label.isLabelName name = true) unwrapLabel :=
  yields_labelName.commit.expecting _

lemma yields_unwrapTarget :
    Yields (fun target => Label.isLabelName target.2 = true) unwrapTarget := by
  refine yields_unwrapLabel.bind fun first hfirst => ?_
  refine (yields_blanks.bind fun _ _ => yields_literal "(").opt.bind fun opened _ => ?_
  cases opened with
  | none => exact .pure hfirst
  | some u =>
    dsimp only
    split
    · exact yields_refuse _
    · refine yields_blanks.bind fun _ _ => yields_unwrapLabel.bind fun label hlabel => ?_
      exact yields_blanks.bind fun _ _ => ((yields_literal ")").commit.expecting _).bind fun _ _ => .pure hlabel

lemma yields_unwrapFilters (bound : Nat) : Yields (fun fs => ∀ f ∈ fs, f.Valid) (unwrapFilters bound) := by
  induction bound with
  | zero => exact .pure (by simp)
  | succ bound ih =>
    refine (yields_blanks.bind fun _ _ => yields_literal "|").opt.bind fun bar _ => ?_
    cases bar with
    | none => exact .pure (by simp)
    | some u =>
      refine yields_blanks.bind fun _ _ => (yields_labelFilter.commit.expecting _).bind fun first hfirst => ?_
      exact ih.bind fun more hmore => .pure (by simpa using ⟨hfirst, hmore⟩)

lemma yields_unwrap : Yields Unwrap.Valid unwrap := by
  refine (yields_literal "|").bind fun _ _ => yields_blanks.bind fun _ _ => ?_
  refine (yields_keyword "unwrap").bind fun _ _ => yields_blanks.bind fun _ _ => ?_
  refine yields_unwrapTarget.bind fun target htarget => yields_get.bind fun here _ => ?_
  exact (yields_unwrapFilters _).bind fun filters hfilters => .pure ⟨htarget, hfilters⟩

lemma yields_optUnwrap : Yields (fun o => ∀ u ∈ o, u.Valid) (optBehindBlanks unwrap) :=
  (yields_blanks.bind fun _ _ => yields_unwrap).opt

lemma yields_laterUnwrap {earlier : Option Unwrap} (h : ∀ u ∈ earlier, u.Valid) :
    Yields (fun o => ∀ u ∈ o, u.Valid) (laterUnwrap earlier) :=
  .ite (fun _ => .pure h) fun _ => yields_optUnwrap

lemma yields_rangeOffset : Yields (fun _ => True) rangeOffset := by
  refine (yields_blanks.bind fun _ _ => yields_keyword "offset").opt.bind fun offset _ => ?_
  cases offset with
  | none => exact .pure trivial
  | some u =>
    exact yields_blanks.bind fun _ _ => (Duration.yields_scan.commit.expecting _).bind fun _ _ => .pure trivial

lemma optUnwrap_colon {input : List Char} (h : input.head? = some ':') :
    optBehindBlanks unwrap input = .ok (none, input) := by
  have hbar : literal "|" (dropBlanks false input) = .error ⟨false, [], input⟩ := by
    rw [(solid_of_colon h).eq, literal_of_head (by decide) (by rw [h]; decide)]
  exact optBehindBlanks_of_error (bind_of_error hbar) rfl

lemma rangeOffset_colon {input : List Char} (h : input.head? = some ':') :
    rangeOffset input = .ok (none, input) := by
  have hword : keyword "offset" (dropBlanks false input) = .error ⟨false, [], input⟩ := by
    rw [(solid_of_colon h).eq, keyword_of_head (by decide) (by rw [h]; decide)]
  rw [rangeOffset, bind_of_ok (optBehindBlanks_of_error hword rfl)]
  rfl

lemma logRange_sound {input rest : List Char} {r : LogRange} (h : logRange input = .ok (r, rest)) :
    (rest.head? ≠ some ':' → r.Valid) ∧ rest.length ≤ input.length := by
  obtain ⟨source, t1, hsource, h1⟩ := bind_eq_ok_iff.1 h
  obtain ⟨inner, t2, hinner, h2⟩ := bind_eq_ok_iff.1 h1
  rw [bind_of_ok (blanks_apply _)] at h2
  obtain ⟨opened, t3, hopen, h3⟩ := bind_eq_ok_iff.1 h2
  rw [bind_of_ok (blanks_apply _)] at h3
  obtain ⟨range, t4, hrange, h4⟩ := bind_eq_ok_iff.1 h3
  rw [bind_of_ok (blanks_apply _)] at h4
  obtain ⟨closed, t5, hclose, h5⟩ := bind_eq_ok_iff.1 h4
  obtain ⟨more, t6, hmore, h6⟩ := bind_eq_ok_iff.1 h5
  obtain ⟨label, t7, hlabel, h7⟩ := bind_eq_ok_iff.1 h6
  obtain ⟨offset, t8, hoffset, h8⟩ := bind_eq_ok_iff.1 h7
  obtain ⟨rfl, rfl⟩ := pure_eq_ok_iff.1 h8
  obtain ⟨hstream, hl1⟩ := streamIn_sound _ (commit_eq_ok_iff.1 (expecting_eq_ok_iff.1 hsource))
  obtain ⟨hinnerValid, hl2⟩ := yields_optUnwrap hinner
  have hmark := commit_eq_ok_iff.1 (expecting_eq_ok_iff.1 hopen)
  have hl3 := (yields_literal "[" hmark).2
  have hl4 := (Duration.yields_scan.commit.expecting _ hrange).2
  have hl5 := ((yields_literal "]").commit.expecting _ hclose).2
  obtain ⟨hstages, hl6⟩ := stages_sound _ hmore
  obtain ⟨hlabelValid, hl7⟩ := yields_laterUnwrap hinnerValid hlabel
  have hl8 := (yields_rangeOffset hoffset).2
  have g2 := length_dropBlanks_le false t2
  have g3 := length_dropBlanks_le false t3
  have g4 := length_dropBlanks_le false t4
  -- The stream ends at the bracket, and a colon behind the last stage is left over at the end.
  have ht1 : t1.head? ≠ some ':' := by
    intro hcolon
    rw [optUnwrap_colon hcolon] at hinner
    obtain ⟨-, rfl⟩ := Prod.mk.inj (Except.ok.inj hinner)
    exact literal_colon hcolon (by decide) (by decide) hmark
  refine ⟨fun hrest => ⟨?_, hlabelValid⟩, by omega⟩
  have ht6 : t6.head? ≠ some ':' := by
    intro hcolon
    have hsame : t7 = t6 := by
      unfold laterUnwrap at hlabel
      split_ifs at hlabel
      · exact (pure_eq_ok_iff.1 hlabel).2.symm
      · rw [optUnwrap_colon hcolon] at hlabel
        exact (Prod.mk.inj (Except.ok.inj hlabel)).2.symm
    subst hsame
    rw [rangeOffset_colon hcolon] at hoffset
    obtain ⟨-, rfl⟩ := Prod.mk.inj (Except.ok.inj hoffset)
    exact hrest hcolon
  have hsourceValid := hstream ht1
  refine ⟨hsourceValid.matchers, hsourceValid.selective, fun stage hstage => ?_⟩
  rcases List.mem_append.1 hstage with hold | hnew
  · exact hsourceValid.stages stage hold
  · exact hstages ht6 stage hnew

end Ranges

section Samples

lemma yields_openParen : Yields (fun _ => True) openParen :=
  yields_blanks.bind fun _ _ => ((yields_literal "(").commit.expecting _).bind fun _ _ => yields_blanks

lemma yields_closeParen : Yields (fun _ => True) closeParen :=
  yields_blanks.bind fun _ _ => (yields_literal ")").commit.expecting _

lemma yields_comma : Yields (fun _ => True) comma :=
  yields_blanks.bind fun _ _ => ((yields_literal ",").commit.expecting _).bind fun _ _ => yields_blanks

lemma yields_stringBehindComma : Yields (fun _ => True) stringBehindComma :=
  yields_comma.bind fun _ _ => yields_requiredString _

lemma yields_optGrouping : Yields (fun o => ∀ g ∈ o, ∀ l ∈ g.labels, Label.isLabelName l = true)
    (optBehindBlanks Operator.grouping) :=
  (yields_blanks.bind fun _ _ => yields_grouping).opt

lemma yields_vectorLiteral : Yields Sample.Valid vectorLiteral := by
  refine yields_openParen.bind fun _ _ => (yields_number.commit.expecting _).bind fun value hvalue => ?_
  have hvalid : (Sample.vector value).Valid := hvalue
  exact yields_closeParen.bind fun _ _ => .pure hvalid

lemma yields_rangeParameter (op : RangeOperation) :
    Yields (fun o => o.isSome = op.takesParameter ∧ ∀ p ∈ o, p.isNegative = false) (rangeParameter op) := by
  refine .ite (fun hop => ?_) fun hop => .pure (by simpa using hop)
  refine (yields_number.commit.expecting _).bind fun p hp => yields_comma.bind fun _ _ => .pure ?_
  simp [hop, hp]

lemma yields_rangeAggregation (op : RangeOperation) : Yields Sample.Valid (rangeAggregation op) := by
  refine yields_openParen.bind fun _ _ => (yields_rangeParameter op).bind fun parameter hparameter => ?_
  intro input s rest h
  obtain ⟨logs, behind, hlogs, hread⟩ := bind_eq_ok_iff.1 h
  obtain ⟨hvalid, hbehind⟩ := logRange_sound hlogs
  have hcolon : behind.head? ≠ some ':' := by
    intro hcolon
    obtain ⟨u, tail, hclose, -⟩ := bind_eq_ok_iff.1 hread
    rw [closeParen, bind_of_ok (blanks_apply _), expecting_eq_ok_iff, commit_eq_ok_iff] at hclose
    exact literal_colon hcolon (by decide) (by decide) hclose
  have hmore : Yields Sample.Valid (do
      closeParen
      let grouping ← optBehindBlanks Operator.grouping
      if logs.unwrap.isNone && op.requiresUnwrap then refuse "invalid aggregation without unwrap"
      if logs.unwrap.isSome && op.forbidsUnwrap then refuse "invalid aggregation with unwrap"
      return .range op parameter logs grouping) := by
    refine yields_closeParen.bind fun _ _ => yields_optGrouping.bind fun grouping hgrouping => ?_
    refine .guard fun hrequires => .guard fun hforbids => .pure ⟨hvalid hcolon, hparameter, ?_, ?_, hgrouping⟩
    · intro hnone
      have hisNone : logs.unwrap.isNone = true := by simpa using hnone
      simpa [hisNone] using hrequires
    · intro hsome
      simpa [hsome] using hforbids
  obtain ⟨hsample, hrest⟩ := hmore hread
  exact ⟨hsample, hrest.trans hbehind⟩

lemma yields_wholeParameter : Yields (fun p => ∃ v, wholeParameter? v = some p) wholeParameter := by
  refine yields_get.bind fun before _ => (yields_number.commit.expecting _).bind fun value _ => ?_
  cases hwhole : wholeParameter? value with
  | none =>
    intro input p rest h
    obtain ⟨u, tail, -, hrefuse⟩ := bind_eq_ok_iff.1 h
    simp [refuse] at hrefuse
  | some parameter => exact yields_comma.bind fun _ _ => .pure ⟨value, hwhole⟩

lemma yields_aggregationParameter (op : Aggregation) :
    Yields (fun o => o.isSome = op.takesParameter ∧ ∀ p ∈ o, ∃ v, wholeParameter? v = some p)
      (aggregationParameter op) := by
  refine .ite (fun hop => ?_) fun hop => .pure (by simpa using hop)
  exact yields_wholeParameter.map fun p hp => by simp [hop, hp]

variable {inner : Scanner Sample} (hinner : Yields Sample.Valid inner)

include hinner

lemma yields_sampleExpr : Yields Sample.Valid (sampleExpr inner) := by
  have hbinary (op : Operator) (m : Modifiers) (left right : Sample) (hm : m.Valid op) (hleft : left.Valid)
      (hright : right.Valid) : (Sample.binary op m left right).Valid := ⟨hm, hleft, hright⟩
  exact yields_chain hinner hbinary 1

lemma yields_requiredSample : Yields Sample.Valid (requiredSample inner) :=
  (yields_sampleExpr hinner).commit.expecting _

lemma yields_labelReplace : Yields Sample.Valid (labelReplace inner) := by
  refine yields_openParen.bind fun _ _ => (yields_requiredSample hinner).bind fun body hbody => ?_
  refine yields_stringBehindComma.bind fun target _ => yields_stringBehindComma.bind fun replacement _ => ?_
  refine yields_stringBehindComma.bind fun source _ => yields_stringBehindComma.bind fun expression _ => ?_
  have hvalid : (Sample.labelReplace body target replacement source expression).Valid := hbody
  exact yields_closeParen.bind fun _ _ => .pure hvalid

lemma yields_vectorAggregation (op : Aggregation) : Yields Sample.Valid (vectorAggregation inner op) := by
  refine yields_optGrouping.bind fun leading hleading => yields_openParen.bind fun _ _ => ?_
  refine (yields_aggregationParameter op).bind fun parameter hp => ?_
  refine (yields_requiredSample hinner).bind fun body hbody => ?_
  refine yields_closeParen.bind fun _ _ => yields_optGrouping.bind fun trailing htrailing => ?_
  have hgrouping : ∀ g ∈ leading.or trailing, ∀ l ∈ g.labels, Label.isLabelName l = true := by
    cases leading with
    | none => exact htrailing
    | some g => exact hleading
  refine .guard fun _ => .guard fun hsort => .pure ⟨hbody, hp, fun hsome => ?_, hgrouping⟩
  simpa [hsome] using hsort

lemma yields_namedOperand : Yields Sample.Valid (namedOperand inner) := by
  refine yields_get.bind fun before _ => yields_labelName.bind fun name _ => ?_
  refine .ite (fun _ => yields_vectorLiteral) fun _ => .ite (fun _ => yields_labelReplace hinner) fun _ => ?_
  cases RangeOperation.ofSymbol? name with
  | some op => exact yields_rangeAggregation op
  | none =>
    cases Aggregation.ofSymbol? name with
    | some op => exact yields_vectorAggregation hinner op
    | none =>
      intro input s rest h
      obtain ⟨u, tail, -, hmiss⟩ := bind_eq_ok_iff.1 h
      simp [miss] at hmiss

lemma yields_scanOperand : Yields Sample.Valid (scanOperand inner) := by
  have hliteral (value : Number.Binary64) : (Sample.literal value).Valid := trivial
  refine yields_blanks.bind fun _ _ => (yields_optLiteral "-").bind fun minus _ => .ite (fun _ => ?_) fun _ => ?_
  · refine yields_blanks.bind fun _ _ => (yields_number.commit.expecting _).bind fun value _ => ?_
    exact .pure (hliteral value.neg)
  · refine (yields_optLiteral "(").bind fun opened _ => .ite (fun _ => ?_) fun _ => ?_
    · refine yields_blanks.bind fun _ _ => (yields_requiredSample hinner).bind fun body hbody => ?_
      exact yields_closeParen.bind fun _ _ => .pure hbody
    · refine yields_number.opt.bind fun value _ => ?_
      cases value with
      | some value => exact .pure (hliteral value)
      | none => exact yields_namedOperand hinner

end Samples

lemma yields_operand (depth : Nat) : Yields Sample.Valid (operand depth) := by
  induction depth with
  | zero => exact yields_miss
  | succ depth ih => exact yields_scanOperand ih

lemma query_sound {input rest : List Char} {q : Query} (h : query input = .ok (q, rest)) : q.Valid := by
  obtain ⟨whole, behind, hwhole, hread⟩ := bind_eq_ok_iff.1 h
  cases whole with
  | some s =>
    obtain ⟨rfl, rfl⟩ := pure_eq_ok_iff.1 hread
    obtain ⟨source, middle, hsource, hend⟩ := bind_eq_ok_iff.1 (opt_eq_some_iff.1 hwhole)
    obtain ⟨u, last, hlast, hresult⟩ := bind_eq_ok_iff.1 hend
    obtain ⟨rfl, rfl⟩ := pure_eq_ok_iff.1 hresult
    refine (streamIn_sound _ hsource).1 fun hcolon => ?_
    rw [endOfText, bind_of_ok (blanks_apply _), bind_of_ok (get_apply _), (solid_of_colon hcolon).eq] at hlast
    cases middle with
    | nil => simp at hcolon
    | cons c middle => simp [miss] at hlast
  | none =>
    obtain ⟨s, last, hs, hresult⟩ := bind_eq_ok_iff.1 hread
    obtain ⟨rfl, rfl⟩ := pure_eq_ok_iff.1 hresult
    exact (yields_sampleExpr (yields_operand _) hs).1

/-- Every query that is read can be written. -/
lemma valid_of_parse {text : String} {q : Query} (h : parse text = .ok q) : q.Valid := by
  unfold parse at h
  split_ifs at h
  unfold readAll at h
  split at h
  case h_1 value hread =>
    obtain rfl := Except.ok.inj h
    rw [scanQuery, bind_of_ok (blanks_apply _)] at hread
    obtain ⟨body, behind, hbody, hresult⟩ := bind_eq_ok_iff.1 hread
    rw [bind_of_ok (blanks_apply _)] at hresult
    obtain ⟨rfl, -⟩ := pure_eq_ok_iff.1 hresult
    exact query_sound hbody
  case h_2 => simp at h
  case h_3 => simp at h

end QueryScope.Log
