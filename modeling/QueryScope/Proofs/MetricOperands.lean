import QueryScope.Proofs.MetricReads

/-!
# Selectors, calls and aggregations

A selector is read with its range and its time of evaluation. A call or an aggregation is read from its
name and the texts of its arguments.
-/

namespace QueryScope.Metric

open Scan Operator

/-! ## Selectors -/

/-- Neither a call nor a grouping clause follows a name. -/
def NoCall (more : List Char) : Prop :=
  (dropBlanks false more).head? ≠ some '(' ∧ afterKeyword? "by" (dropBlanks false more) = none ∧
    afterKeyword? "without" (dropBlanks false more) = none

lemma noCall_of_head {c : Char} (hc : c ∈ [':', '\x7b']) (tail : List Char) : NoCall (c :: tail) := by
  have hmarks : ∀ d ∈ [':', '\x7b'], isSpace d = false ∧ d ≠ '#' ∧ d ≠ '(' ∧ d ≠ 'b' ∧ d ≠ 'w' :=
    List.all_iff_forall_prop.1 (by decide)
  obtain ⟨hspace, hcomment, hparen, hb, hw⟩ := hmarks c hc
  simp [NoCall, (solid_cons hspace hcomment tail).eq, hparen, afterKeyword?, Text.after?, hb.symm, hw.symm]

lemma SuffixFollow.noCall {rest : List Char} (h : SuffixFollow rest) : NoCall rest :=
  ⟨h.head_ne (by decide), h.not_keyword (by decide) (by decide), h.not_keyword (by decide) (by decide)⟩

/-- What is left of a name and the text behind it when a label name has been read. -/
lemma labelName_metricName {name label : String} {more behind : List Char}
    (hname : Label.isMetricName name = true) (hmore : more.head?.any Label.isMetricNameChar = false)
    (h : labelName (name.toList ++ more) = .ok (label, behind)) :
    behind = more ∨ ∃ tail, behind = ':' :: tail := by
  have hword : more.head?.any Text.isWordChar = false := Label.any_isWordChar_of_any_isMetricNameChar hmore
  obtain ⟨-, -, rfl⟩ := word_eq_ok_iff.1 h
  rw [List.dropWhile_append]
  cases hleft : name.toList.dropWhile Text.isWordChar with
  | nil => exact .inl (Text.dropWhile_append_stop (List.forall_mem_nil _) hword)
  | cons c tail =>
    -- A character of a metric name that ends a label name is a colon.
    have hmem : c ∈ name.toList := (List.dropWhile_suffix _).subset (hleft ▸ List.mem_cons_self)
    have hpart := (Label.isMetricName_iff.1 hname).2 c hmem
    have hstop : Text.isWordChar c = false := by
      simpa [hleft] using Text.head?_dropWhile Text.isWordChar name.toList
    have hcolon : c = ':' := by
      rw [Label.isMetricNameChar_iff] at hpart
      simp only [hstop, Bool.false_eq_true, false_or] at hpart
      exact Text.toNat_eq_iff.2 hpart
    exact .inr ⟨tail ++ more, by simp [hcolon]⟩

lemma scanApplication?_none (inner : Scanner Expr) {name : String} {more : List Char}
    (hname : Label.isMetricName name = true) (hmore : more.head?.any Label.isMetricNameChar = false)
    (hcall : NoCall more) :
    scanApplication? inner (name.toList ++ more) = .ok (none, name.toList ++ more) := by
  rw [scanApplication?, bind_of_ok (get_apply _)]
  cases hlabel : opt labelName (name.toList ++ more) with
  | error failure =>
    have hcommitted := committed_of_opt hlabel
    unfold opt labelName word at hlabel
    split_ifs at hlabel
    simp_all
  | ok result =>
    obtain ⟨label, behind⟩ := result
    rw [bind_of_ok hlabel]
    cases label with
    | none =>
      obtain ⟨rfl, -⟩ := opt_eq_none_iff.1 hlabel
      rfl
    | some label =>
      obtain ⟨hparen, hby, hwithout⟩ : NoCall behind := by
        rcases labelName_metricName hname hmore (opt_eq_some_iff.1 hlabel) with rfl | ⟨tail, rfl⟩
        · exact hcall
        · exact noCall_of_head (by decide) tail
      simp only [bind_of_ok (blanks_apply _), bind_of_ok (get_apply _)]
      have hnone : (decide ((dropBlanks false behind).head? = some '(') ||
          ((afterKeyword? "by" (dropBlanks false behind)).isSome ||
            (afterKeyword? "without" (dropBlanks false behind)).isSome)) = false := by
        simp [hparen, hby, hwithout]
      rw [hnone]
      cases Aggregation.ofSymbol? label with
      | none => simp only [if_neg hparen, bind_of_ok (set_apply _ _)]; rfl
      | some op => simp only [if_neg hparen, bind_of_ok (set_apply _ _)]; rfl

/-- Matchers between braces. -/
def blockChars (matchers : List Matcher) : List Char :=
  '\x7b' :: joinChars "," (matchers.map Matcher.chars) ++ ['\x7d']

/-- The name and the matchers of a selector in the order they have. -/
def Selector.written (s : Selector) : List Char :=
  match s.name with
  | some name => name.toList ++ (if s.matchers.isEmpty then [] else blockChars s.matchers)
  | none => blockChars s.matchers

lemma optionalBlock_chars {matchers : List Matcher} (h : ∀ m ∈ matchers, m.Valid) (rest : List Char) :
    optionalBlock (blockChars matchers ++ rest) = .ok (matchers, rest) := by
  have hsplit : blockChars matchers ++ rest =
      '\x7b' :: joinChars "," (matchers.map Matcher.chars) ++ '\x7d' :: rest := by
    simp [blockChars]
  have hsolid : Solid (blockChars matchers ++ rest) := solid_cons (by decide) (by decide) _
  have hbrace : (blockChars matchers ++ rest).head? = some '\x7b' := rfl
  rw [optionalBlock, hsolid.eq, if_pos hbrace, hsplit, Matcher.block_chars h]

lemma optionalBlock_none {rest : List Char} (h : SuffixFollow rest) : optionalBlock rest = .ok ([], rest) := by
  rw [optionalBlock, if_neg (h.head_ne (by decide))]

/-- The text behind the name of a selector. -/
lemma optionalBlock_written {s : Selector} (hvalid : s.Valid) {rest : List Char} (hrest : SuffixFollow rest) :
    optionalBlock ((if s.matchers.isEmpty then [] else blockChars s.matchers) ++ rest) =
      .ok (s.matchers, rest) := by
  split_ifs with hempty
  · rw [List.isEmpty_iff.1 hempty]
    exact optionalBlock_none hrest
  · exact optionalBlock_chars hvalid.matchers rest

lemma behindName_stop {s : Selector} {rest : List Char} (hrest : SuffixFollow rest) :
    ((if s.matchers.isEmpty then [] else blockChars s.matchers) ++ rest).head?.any Label.isMetricNameChar = false ∧
      NoCall ((if s.matchers.isEmpty then [] else blockChars s.matchers) ++ rest) := by
  split_ifs with hempty
  · exact ⟨hrest.word, hrest.noCall⟩
  · have hbrace : Label.isMetricNameChar '\x7b' = false := by decide
    exact ⟨by simp [blockChars, hbrace], noCall_of_head (by decide) _⟩

lemma scanSelector_written {s : Selector} (hvalid : s.Valid) (hframe : s.frame = {}) {rest : List Char}
    (hrest : SuffixFollow rest) : scanSelector (s.written ++ rest) = .ok (s, rest) := by
  rw [scanSelector_eq_ok_iff]
  obtain ⟨name, matchers, frame⟩ := s
  obtain rfl : frame = {} := hframe
  cases name with
  | some name =>
    obtain ⟨hname, -, hnames⟩ := hvalid.named name rfl
    refine ⟨some name, _, matchers, rfl, opt_of_ok (metricName_eq_ok_iff.2 ⟨?_, hname, (behindName_stop hrest).1⟩),
      optionalBlock_written hvalid hrest, ?_, by simp⟩
    · simp [Selector.written]
    · simpa using hnames
  | none =>
    have hnone : opt metricName (blockChars matchers ++ rest) = .ok (none, blockChars matchers ++ rest) :=
      opt_of_error rfl rfl
    refine ⟨none, _, matchers, rfl, hnone, optionalBlock_chars hvalid.matchers rest, by simp, ?_⟩
    simpa using hvalid.nameless rfl

/-- A selector is read up to its suffixes. -/
lemma scanPrimary_selector {inner : Scanner Expr} {s : Selector} (hvalid : s.Valid) (hframe : s.frame = {})
    {rest : List Char} (hrest : SuffixFollow rest) :
    scanPrimary inner (s.written ++ rest) = .ok (.vector s, rest) := by
  have hread := scanSelector_written hvalid hframe hrest
  cases hname : s.name with
  | some name =>
    obtain ⟨hmetric, hspecial, -⟩ := hvalid.named name hname
    obtain ⟨hstop, hcall⟩ := behindName_stop (s := s) hrest
    have hsplit : s.written ++ rest =
        name.toList ++ ((if s.matchers.isEmpty then [] else blockChars s.matchers) ++ rest) := by
      simp [Selector.written, hname]
    rw [hsplit] at hread ⊢
    have hnumber := (specialNumber?_append_word hstop).2 hspecial
    have hnone := scanApplication?_none inner hmetric hstop hcall
    obtain ⟨c, tail, hc, hstart⟩ := Label.exists_cons_of_isMetricName hmetric
    rw [hc, List.cons_append] at hread hnumber hnone ⊢
    rw [scanPrimary_name hstart, scanNamed_selector hstart hnumber hnone hread]
  | none =>
    obtain ⟨tail, htail⟩ : ∃ tail, s.written ++ rest = '\x7b' :: tail := by
      simp [Selector.written, hname, blockChars]
    rw [htail] at hread ⊢
    rw [scanPrimary, bind_of_ok (peek_apply _)]
    simp only [List.head?_cons]
    rw [if_neg (by decide), if_pos trivial, bind_of_ok hread]
    rfl

/-- The word that a text begins with is the only clause that it could be taken for. -/
lemma eq_of_afterKeyword? {word name : String} {tail : List Char} (hword : word ∈ clauseWords)
    (hname : IsWord name) (htail : tail.head?.any Label.isMetricNameChar = false)
    (h : (afterKeyword? word (name.toList ++ tail)).isSome = true) : word = name := by
  have hwords : ∀ w ∈ clauseWords, IsWord w := by decide
  rw [afterKeyword?_word (hwords word hword) hname htail] at h
  by_contra hne
  simp [hne] at h

/-- A selector leads the expression that is made of it. -/
lemma lead_written {s : Selector} (hvalid : s.Valid) {word : String} {rest : List Char}
    (hword : word ∈ clauseWords) (hrest : SuffixFollow rest)
    (h : (afterKeyword? word (s.written ++ rest)).isSome = true) : s.name = some word := by
  cases hname : s.name with
  | some name =>
    obtain ⟨hmetric, -, -⟩ := hvalid.named name hname
    have hsplit : s.written ++ rest =
        name.toList ++ ((if s.matchers.isEmpty then [] else blockChars s.matchers) ++ rest) := by
      simp [Selector.written, hname]
    rw [hsplit] at h
    rw [eq_of_afterKeyword? hword (Label.isMetricName_iff.1 hmetric).2 (behindName_stop hrest).1 h]
  | none =>
    have hsplit : s.written ++ rest = '\x7b' :: (s.written.tail ++ rest) := by
      simp [Selector.written, hname, blockChars]
    rw [hsplit, not_clauseWord (by decide) hword] at h
    simp at h

lemma begins_written {s : Selector} (hvalid : s.Valid) :
    Begins s.written ∧ s.written.head? ∉ [some '-', some '+'] := by
  cases hname : s.name with
  | some name =>
    obtain ⟨c, tail, hc, hstart⟩ := Label.exists_cons_of_isMetricName (hvalid.named name hname).1
    have hchar := Label.isMetricNameChar_of_isMetricNameStart hstart
    have hne : c ≠ '-' ∧ c ≠ '+' :=
      ⟨Label.ne_of_isMetricNameChar hchar (by decide), Label.ne_of_isMetricNameChar hchar (by decide)⟩
    simp only [Selector.written, hname, hc]
    exact ⟨⟨c, _, rfl, .inl hchar⟩, by simp [hne]⟩
  | none =>
    simp only [Selector.written, hname, blockChars]
    exact ⟨⟨_, _, rfl, .inr (by decide)⟩, by simp⟩

lemma SuffixFollow.frame (f : TimeFrame) {rest : List Char} (h : SuffixFollow rest) :
    SuffixFollow (f.chars ++ rest) := by
  obtain ⟨instant, offset⟩ := f
  cases instant with
  | some i =>
    simp only [TimeFrame.chars, Option.map_some, Option.getD_some, i.chars_eq]
    exact .instant _
  | none =>
    cases offset with
    | none => exact h
    | some o =>
      simp only [TimeFrame.chars, Option.map_none, Option.getD_none, Option.map_some, Option.getD_some,
        List.nil_append, Offset.chars]
      split_ifs
      · exact h
      · exact .offset _

/-- A selector with its range and its time of evaluation. -/
lemma reads_selector {s : Selector} (hvalid : s.Valid) (hframe : s.frame = {}) {suffix : List Char} {e : Expr}
    (hlead : e.lead = s.name)
    (hfollow : ∀ {rest : List Char}, SuffixFollow rest → SuffixFollow (suffix ++ rest))
    (hsuffix : ∀ {rest : List Char}, SuffixFollow rest →
      takeSuffixes (.vector s) (suffix ++ rest) = takeSuffixes e rest) : Reads (s.written ++ suffix) e := by
  obtain ⟨hbegins, hsign⟩ := begins_written hvalid
  have hne : s.written ≠ [] := by
    obtain ⟨c, tail, htail, -⟩ := hbegins
    simp [htail]
  refine reads_of_primary (hbegins.append _) ?_ (fun hword hrest hsome => ?_) fun {depth rest} _ hrest => ?_
  · rwa [List.head?_append_of_ne_nil _ hne]
  · rw [List.append_assoc] at hsome
    exact hlead.trans (lead_written hvalid hword (hfollow hrest) hsome)
  · rw [List.append_assoc]
    exact ⟨_, _, scanPrimary_selector hvalid hframe (hfollow hrest), hsuffix hrest⟩

lemma reads_vector {s : Selector} (hvalid : s.Valid) (hframe : s.frame = {}) (f : TimeFrame) :
    Reads (s.written ++ f.chars) (.vector { s with frame := f.reread }) :=
  reads_selector hvalid hframe rfl (fun hrest => hrest.frame f) fun hrest =>
    takeSuffixes_frame (by rw [Expr.frame?, hframe]) f hrest

lemma reads_matrix {s : Selector} (hvalid : s.Valid) (hframe : s.frame = {}) (range : Duration) (f : TimeFrame) :
    Reads (s.written ++ '[' :: (range.chars ++ ']' :: f.chars))
      (.matrix { s with frame := f.reread } range.reread) := by
  refine reads_selector hvalid hframe rfl (fun _ => .range _) fun {rest} hrest => ?_
  have hsplit : '[' :: (range.chars ++ ']' :: f.chars) ++ rest =
      '[' :: (range.chars ++ ']' :: (f.chars ++ rest)) := by simp
  rw [hsplit, takeSuffixes_range hframe]
  exact takeSuffixes_frame (by rw [Expr.frame?, hframe]) f hrest

lemma reads_subquery {text : List Char} {body : Expr} (h : Reads text body) (hbinds : body.binding isSigned = 8)
    (range : Duration) (step : Option Duration) (f : TimeFrame) :
    Reads (text ++ '[' :: (range.chars ++ ':' :: ((step.map Duration.chars).getD [] ++ ']' :: f.chars)))
      (.subquery body range.reread (step.map Duration.reread) f.reread) := by
  have hsplit (rest : List Char) :
      text ++ '[' :: (range.chars ++ ':' :: ((step.map Duration.chars).getD [] ++ ']' :: f.chars)) ++ rest =
        text ++ '[' :: (range.chars ++ ':' :: ((step.map Duration.chars).getD [] ++ ']' :: (f.chars ++ rest))) := by
    simp
  have hoperand {depth : Nat} {rest : List Char} (hdepth : text.length ≤ depth) (hrest : SuffixFollow rest) :
      operand depth (text ++ '[' :: (range.chars ++ ':' :: ((step.map Duration.chars).getD [] ++ ']' :: f.chars))
          ++ rest) =
        takeSuffixes (.subquery body range.reread (step.map Duration.reread) f.reread) rest := by
    rw [hsplit, h.operand hdepth hbinds (.range _), takeSuffixes_subquery]
    exact takeSuffixes_frame rfl f hrest
  refine ⟨h.begins.append _, fun hword _ hsome => ?_, fun hdepth _ hrest _ => ?_, fun hdepth _ hrest => ?_⟩
  · rw [hsplit] at hsome
    exact h.lead hword (.range _) hsome
  · simp only [List.length_append] at hdepth
    exact chain_of_operand hrest (hoperand (by omega) (.follow hrest))
  · simp only [List.length_append] at hdepth
    exact hoperand (by omega) hrest

/-! ## Calls and aggregations -/

lemma begins_of_forall₂ {texts : List (List Char)} {es : List Expr} (h : List.Forall₂ Reads texts es) :
    ∀ text ∈ texts, Begins text := by
  induction h with
  | nil => simp
  | cons hfirst _ ih => simpa using ⟨hfirst.begins, ih⟩

lemma begins_join {text : List Char} (h : Begins text) (texts : List (List Char)) :
    Begins (joinChars ", " (text :: texts)) := by
  cases texts with
  | nil => simpa [joinChars] using h
  | cons next texts =>
    rw [joinChars, List.intercalate_cons_cons]
    exact (h.append _).append _

/-- Expressions between commas are read up to the closing parenthesis. -/
lemma moreArguments_join {depth bound : Nat} {texts : List (List Char)} {es : List Expr}
    (h : List.Forall₂ Reads texts es) (hdepth : ∀ text ∈ texts, text.length ≤ depth) (hne : texts ≠ [])
    (hbound : texts.length ≤ bound) {input rest : List Char}
    (hstart : dropBlanks false input = joinChars ", " texts ++ ')' :: rest) :
    moreArguments (operand depth) bound input = .ok (es, rest) := by
  induction h generalizing bound input with
  | nil => exact absurd rfl hne
  | @cons text e texts es hfirst hmore ih =>
    obtain ⟨bound, rfl⟩ : ∃ k, bound = k + 1 := ⟨bound - 1, by simp at hbound; omega⟩
    have hread {tail : List Char} (hclose : Closes tail) :
        expecting "argument" (commit (scanExpr (operand depth))) (text ++ tail) = .ok (e, tail) := by
      rw [expecting_eq_ok_iff, commit_eq_ok_iff]
      exact hfirst.scanExpr (hdepth text List.mem_cons_self) hclose
    rw [moreArguments, bind_of_ok (blanks_apply _), hstart]
    cases texts with
    | nil =>
      obtain rfl := List.forall₂_nil_left_iff.1 hmore
      have hcomma : optLiteral "," (')' :: rest) = .ok (false, ')' :: rest) :=
        optLiteral_eq_false_iff.2 ⟨rfl, by simp [Text.after?]⟩
      have hsolid : Solid (')' :: rest) := solid_cons (by decide) (by decide) _
      have hclose : expecting "',' or ')'" (commit (literal ")")) (')' :: rest) = .ok ((), rest) := by
        rw [expecting_eq_ok_iff, commit_eq_ok_iff]
        exact literal_append ")" rest
      have hjoin : joinChars ", " [text] ++ ')' :: rest = text ++ ')' :: rest := by
        simp [joinChars]
      rw [hjoin, bind_of_ok (hread (by simp [Closes])), bind_of_ok (blanks_apply _), hsolid.eq,
        bind_of_ok hcomma]
      simp only [Bool.false_eq_true, if_false]
      rw [bind_of_ok hclose]
      rfl
    | cons next texts =>
      have hjoin : joinChars ", " (text :: next :: texts) ++ ')' :: rest =
          text ++ ',' :: ' ' :: (joinChars ", " (next :: texts) ++ ')' :: rest) := by
        simp [joinChars, List.intercalate_cons_cons]
      have hcomma (tail : List Char) : optLiteral "," (',' :: tail) = .ok (true, tail) :=
        optLiteral_eq_true_iff.2 rfl
      have hsolid (tail : List Char) : Solid (',' :: tail) := solid_cons (by decide) (by decide) _
      have hblank : dropBlanks false (' ' :: (joinChars ", " (next :: texts) ++ ')' :: rest)) =
          joinChars ", " (next :: texts) ++ ')' :: rest := by
        cases hmore with
        | cons hnext _ => exact (dropBlanks_space _).trans ((begins_join hnext.begins texts).append _).solid
      have htail := ih (fun t ht => hdepth t (List.mem_cons_of_mem _ ht)) (by simp)
        (by simpa using hbound) hblank
      rw [hjoin, bind_of_ok (hread (by simp [Closes])), bind_of_ok (blanks_apply _), (hsolid _).eq,
        bind_of_ok (hcomma _)]
      simp only [if_true]
      rw [bind_of_ok htail]
      rfl

lemma scanArguments_join {depth : Nat} {texts : List (List Char)} {es : List Expr}
    (h : List.Forall₂ Reads texts es) (hdepth : (joinChars ", " texts).length ≤ depth) (rest : List Char) :
    scanArguments (operand depth) ('(' :: (joinChars ", " texts ++ ')' :: rest)) = .ok (es, rest) := by
  have hopen : literal "(" ('(' :: (joinChars ", " texts ++ ')' :: rest)) =
      .ok ((), joinChars ", " texts ++ ')' :: rest) := literal_append "(" _
  rw [scanArguments, bind_of_ok hopen, bind_of_ok (blanks_apply _)]
  cases texts with
  | nil =>
    obtain rfl := List.forall₂_nil_left_iff.1 h
    have hclose : optLiteral ")" (')' :: rest) = .ok (true, rest) := optLiteral_eq_true_iff.2 rfl
    have hsolid : Solid (joinChars ", " [] ++ ')' :: rest) := solid_cons (by decide) (by decide) _
    rw [hsolid.eq]
    exact bind_of_ok hclose
  | cons text texts =>
    have hbegins : Begins (joinChars ", " (text :: texts) ++ ')' :: rest) := by
      cases h with
      | cons hfirst _ => exact (begins_join hfirst.begins texts).append _
    have hclose : optLiteral ")" (joinChars ", " (text :: texts) ++ ')' :: rest) =
        .ok (false, joinChars ", " (text :: texts) ++ ')' :: rest) :=
      optLiteral_of_head rfl (hbegins.head_ne (by decide) (by decide))
    have hne : ∀ t ∈ text :: texts, t ≠ [] := by
      intro t ht
      obtain ⟨c, tail, rfl, -⟩ := begins_of_forall₂ h t ht
      simp
    have hlength := length_le_length_intercalate ", ".toList hne
    have hdepths : ∀ t ∈ text :: texts, t.length ≤ depth := fun t ht =>
      (length_le_of_mem_intercalate ", ".toList ht).trans hdepth
    rw [hbegins.solid.eq, bind_of_ok hclose]
    simp only [Bool.false_eq_true, if_false]
    rw [bind_of_ok (get_apply _)]
    refine moreArguments_join h hdepths (by simp) ?_ hbegins.solid
    rw [List.length_append, joinChars]
    omega

/-- A name that can stand before arguments: neither a number nor a clause. -/
structure IsCallable (name : String) : Prop where
  label : Label.isLabelName name = true
  special : specialNumber? name.toList = none
  clause : name ∉ clauseWords

lemma isCallable_of_mem {function : String} (h : function ∈ functionNames) :
    IsCallable function ∧ Aggregation.ofSymbol? function = none := by
  have hall : ∀ f ∈ functionNames, (Label.isLabelName f = true ∧ specialNumber? f.toList = none ∧
      f ∉ clauseWords) ∧ Aggregation.ofSymbol? f = none := by decide +kernel
  obtain ⟨⟨hlabel, hspecial, hclause⟩, hnone⟩ := hall function h
  exact ⟨⟨hlabel, hspecial, hclause⟩, hnone⟩

lemma isCallable_symbol (op : Aggregation) :
    IsCallable op.symbol ∧ Aggregation.ofSymbol? op.symbol = some op := by
  cases op <;> exact ⟨⟨by decide, by decide, by decide⟩, by decide⟩

/-- What begins with a callable name is what the reader of applications finds. -/
lemma reads_of_application {name : String} {tail : List Char} {e : Expr} (hname : IsCallable name)
    (htail : ∃ c more, tail = c :: more ∧ Label.isMetricNameChar c = false)
    (hread : ∀ {depth : Nat} {rest : List Char}, tail.length ≤ depth → SuffixFollow rest →
      scanApplication? (operand depth) (name.toList ++ (tail ++ rest)) = .ok (some e, rest)) :
    Reads (name.toList ++ tail) e := by
  obtain ⟨c, more, hc, hstart⟩ := Label.exists_cons_of_isLabelName hname.label
  have hmetric : Label.isMetricNameStart c = true := Label.isMetricNameStart_iff.2 (.inl hstart)
  have hchar := Label.isMetricNameChar_of_isMetricNameStart hmetric
  have hstop (rest : List Char) : (tail ++ rest).head?.any Label.isMetricNameChar = false := by
    obtain ⟨d, behind, rfl, hd⟩ := htail
    simpa using hd
  have hword : IsWord name := isWord_of_isLabelName hname.label
  have hsplit (rest : List Char) : c :: (more ++ tail ++ rest) = name.toList ++ (tail ++ rest) := by
    simp [hc]
  rw [hc, List.cons_append]
  refine reads_of_whole (.inl hchar) (fun {word rest} hclause _ hsome => ?_) fun {depth rest} hdepth hrest => ?_
  · rw [hsplit] at hsome
    exact absurd (eq_of_afterKeyword? hclause hword (hstop rest) hsome ▸ hclause) hname.clause
  · have hspecial : specialNumber? (c :: (more ++ tail ++ rest)) = none := by
      rw [hsplit]
      exact (specialNumber?_append_word (hstop rest)).2 hname.special
    have happlication : scanApplication? (operand depth) (name.toList ++ (tail ++ rest)) = .ok (some e, rest) :=
      hread (by simp at hdepth; omega) hrest
    rw [← hsplit] at happlication
    rw [scanPrimary_name hmetric, scanNamed_application hmetric hspecial happlication]

section Application

variable {inner : Scanner Expr} {name : String} {input behind : List Char}
  (hlabel : labelName input = .ok (name, behind))

include hlabel

lemma scanApplication?_call (hnone : Aggregation.ofSymbol? name = none)
    (hopen : (dropBlanks false behind).head? = some '(') (hname : name ∈ functionNames) :
    scanApplication? inner input =
      (do return some (.call name (← scanArguments inner)) : Scanner (Option Expr)) (dropBlanks false behind) := by
  have hcontains : functionNames.contains name = true := by simpa using hname
  rw [scanApplication?, bind_of_ok (get_apply _), bind_of_ok (opt_of_ok hlabel)]
  simp only [bind_of_ok (blanks_apply _), bind_of_ok (get_apply _), hnone, if_pos hopen, if_pos hcontains]

lemma scanApplication?_aggregate {op : Aggregation} (hop : Aggregation.ofSymbol? name = some op)
    (hopen : (dropBlanks false behind).head? = some '(' ∨
      (afterKeyword? "by" (dropBlanks false behind)).isSome = true ∨
        (afterKeyword? "without" (dropBlanks false behind)).isSome = true) :
    scanApplication? inner input = (some <$> scanAggregate inner op) (dropBlanks false behind) := by
  have hopens : (decide ((dropBlanks false behind).head? = some '(') ||
      ((afterKeyword? "by" (dropBlanks false behind)).isSome ||
        (afterKeyword? "without" (dropBlanks false behind)).isSome)) = true := by
    simpa using hopen
  rw [scanApplication?, bind_of_ok (get_apply _), bind_of_ok (opt_of_ok hlabel)]
  simp only [bind_of_ok (blanks_apply _), bind_of_ok (get_apply _), hop, hopens]

end Application

/-- A function is applied to what its arguments are read as. -/
lemma reads_call {function : String} (hfunction : function ∈ functionNames) {texts : List (List Char)}
    {es : List Expr} (h : List.Forall₂ Reads texts es) :
    Reads (function.toList ++ '(' :: (joinChars ", " texts ++ [')'])) (.call function es) := by
  obtain ⟨hname, hnone⟩ := isCallable_of_mem hfunction
  refine reads_of_application hname ⟨'(', _, rfl, by decide⟩ fun {depth rest} hdepth hrest => ?_
  have hlabel (tail : List Char) : labelName (function.toList ++ '(' :: tail) = .ok (function, '(' :: tail) :=
    labelName_eq_ok_iff.2 ⟨rfl, hname.label, by rw [List.head?_cons]; decide⟩
  have hsolid (tail : List Char) : Solid ('(' :: tail) := solid_cons (by decide) (by decide) _
  have harguments : scanArguments (operand depth) ('(' :: (joinChars ", " texts ++ ')' :: rest)) =
      .ok (es, rest) := scanArguments_join h (by simp at hdepth; omega) rest
  have hsplit : '(' :: (joinChars ", " texts ++ [')']) ++ rest =
      '(' :: (joinChars ", " texts ++ ')' :: rest) := by simp
  rw [hsplit, scanApplication?_call (hlabel _) hnone (by rw [(hsolid _).eq]; rfl) hfunction, (hsolid _).eq,
    bind_of_ok harguments]
  rfl

/-- The grouping clause of an aggregation with the blanks around it. -/
def clauseChars : Option Grouping → List Char
  | some g => ' ' :: g.keyword ++ ' ' :: labelListChars g.labels ++ [' ']
  | none => []

lemma readsLabels_labelListChars : ReadsLabels labelListChars := fun _ hlabels rest =>
  ⟨⟨_, rfl⟩, labelList_chars hlabels rest⟩

lemma grouping_error {input : List Char} (hby : afterKeyword? "by" input = none)
    (hwithout : afterKeyword? "without" input = none) :
    Operator.grouping input = .error ⟨false, [], input⟩ := by
  have hword : keywordOf [("by", false), ("without", true)] input = .error ⟨false, [], input⟩ := by
    simp [keywordOf, hby, hwithout]
  rw [Operator.grouping, bind_of_error hword]

/-- The clause before the arguments of an aggregation is found, and the arguments behind it. -/
lemma clause_written {grouping : Option Grouping}
    (hlabels : ∀ g ∈ grouping, ∀ l ∈ g.labels, Label.isLabelName l = true) (tail : List Char) :
    ∃ behind, opt Operator.grouping (dropBlanks false (clauseChars grouping ++ '(' :: tail)) =
        .ok (grouping, behind) ∧ dropBlanks false behind = '(' :: tail := by
  have hsolid : Solid ('(' :: tail) := solid_cons (by decide) (by decide) _
  cases grouping with
  | none =>
    have hnone : Operator.grouping ('(' :: tail) = .error ⟨false, [], '(' :: tail⟩ :=
      grouping_error (by simp [afterKeyword?, Text.after?]) (by simp [afterKeyword?, Text.after?])
    refine ⟨'(' :: tail, ?_, hsolid⟩
    rw [clauseChars, List.nil_append, hsolid.eq, opt_of_error hnone rfl]
  | some g =>
    have hstart : dropBlanks false (clauseChars (some g) ++ '(' :: tail) =
        g.keyword ++ ([' '] ++ (labelListChars g.labels ++ ' ' :: '(' :: tail)) := by
      have hsplit : clauseChars (some g) ++ '(' :: tail =
          ' ' :: (g.keyword ++ ([' '] ++ (labelListChars g.labels ++ ' ' :: '(' :: tail))) := by
        simp [clauseChars]
      rw [hsplit, dropBlanks_space]
      obtain ⟨without, labels⟩ := g
      cases without <;> exact solid_cons (by decide) (by decide) _
    have hread := grouping_written readsLabels_labelListChars (hlabels g rfl) (.inr rfl) (' ' :: '(' :: tail)
    exact ⟨' ' :: '(' :: tail, by rw [hstart, opt_of_ok hread], (dropBlanks_space _).trans hsolid⟩

lemma clause_opens (grouping : Option Grouping) (tail : List Char) :
    (dropBlanks false (clauseChars grouping ++ '(' :: tail)).head? = some '(' ∨
      (afterKeyword? "by" (dropBlanks false (clauseChars grouping ++ '(' :: tail))).isSome = true ∨
        (afterKeyword? "without" (dropBlanks false (clauseChars grouping ++ '(' :: tail))).isSome = true := by
  cases grouping with
  | none => simp [clauseChars, dropBlanks, isSpace]
  | some g =>
    obtain ⟨without, labels⟩ := g
    have hstop : Label.isMetricNameChar ' ' = false := by decide
    cases without <;>
      simp [clauseChars, dropBlanks, isSpace, Grouping.keyword, afterKeyword?, Text.after?, hstop]

/-- An aggregation of what its arguments are read as. -/
lemma reads_aggregate (op : Aggregation) {grouping : Option Grouping}
    (hlabels : ∀ g ∈ grouping, ∀ l ∈ g.labels, Label.isLabelName l = true) {texts : List (List Char)}
    {es : List Expr} (h : List.Forall₂ Reads texts es) {e : Expr}
    (hmake : ∀ rest, makeAggregate op grouping es rest = .ok (e, rest)) :
    Reads (op.symbol.toList ++ (clauseChars grouping ++ '(' :: (joinChars ", " texts ++ [')']))) e := by
  obtain ⟨hname, hop⟩ := isCallable_symbol op
  have hstop : ∃ c more, clauseChars grouping ++ '(' :: (joinChars ", " texts ++ [')']) = c :: more ∧
      Label.isMetricNameChar c = false := by
    cases grouping with
    | none => exact ⟨'(', _, rfl, by decide⟩
    | some g => exact ⟨' ', _, rfl, by decide⟩
  refine reads_of_application hname hstop fun {depth rest} hdepth hrest => ?_
  have hsplit : clauseChars grouping ++ '(' :: (joinChars ", " texts ++ [')']) ++ rest =
      clauseChars grouping ++ '(' :: (joinChars ", " texts ++ ')' :: rest) := by simp
  have hlabel : labelName (op.symbol.toList ++ (clauseChars grouping ++ '(' :: (joinChars ", " texts ++ ')' :: rest))) =
      .ok (op.symbol, clauseChars grouping ++ '(' :: (joinChars ", " texts ++ ')' :: rest)) := by
    refine labelName_eq_ok_iff.2 ⟨rfl, hname.label, ?_⟩
    cases grouping <;> simp [clauseChars] <;> decide
  obtain ⟨behind, hclause, hbehind⟩ := clause_written hlabels (joinChars ", " texts ++ ')' :: rest)
  have harguments : expecting "aggregation arguments" (commit (scanArguments (operand depth)))
      ('(' :: (joinChars ", " texts ++ ')' :: rest)) = .ok (es, rest) := by
    rw [expecting_eq_ok_iff, commit_eq_ok_iff]
    exact scanArguments_join h (by simp at hdepth; omega) rest
  have htrailing : optBehindBlanks Operator.grouping rest = .ok (none, rest) :=
    opt_of_error ((bind_of_ok (blanks_apply _)).trans (grouping_error hrest.noCall.2.1 hrest.noCall.2.2)) rfl
  have hread : scanAggregate (operand depth) op
      (dropBlanks false (clauseChars grouping ++ '(' :: (joinChars ", " texts ++ ')' :: rest))) = .ok (e, rest) := by
    rw [scanAggregate, bind_of_ok hclause, bind_of_ok (blanks_apply _), hbehind, bind_of_ok harguments,
      bind_of_ok htrailing]
    simpa using hmake rest
  rw [hsplit, scanApplication?_aggregate hlabel hop (clause_opens grouping _)]
  exact map_of_ok hread

end QueryScope.Metric
