import QueryScope.Proofs.MetricText

/-!
# Texts that are read as one expression

A text is read as an expression if it gives that expression wherever an expression may stand: as a
whole between brackets, as an operand in front of suffixes, and as an operand in front of operators
that leave it together. Each kind of expression is read from a text that is put together from the texts
of its parts.
-/

namespace QueryScope.Metric

open Scan Operator

section Binding

variable (signed : Number.Binary64 → Bool) (e : Expr)

lemma Expr.one_le_binding : 1 ≤ e.binding signed := by
  cases e with
  | binary op _ _ _ => cases op <;> simp [binding, precedence]
  | number value =>
    simp only [binding]
    split_ifs <;> decide
  | _ => simp [binding]

/-- An expression takes no operator from the right that is stronger than its own, powers apart. -/
lemma Expr.limit_le : e.limit signed ≤ e.binding signed + 1 := by
  cases e with
  | binary op _ _ _ => cases op <;> simp [binding, limit, precedence, rightPrecedence]
  | number value =>
    simp only [binding, limit]
    split_ifs <;> decide
  | _ => simp [binding, limit]

lemma Expr.le_limit {least : Nat} (hleast : least ≤ 6) (h : least ≤ e.binding signed) :
    least ≤ e.limit signed := by
  cases e with
  | binary op _ _ _ =>
    refine h.trans ?_
    cases op <;> simp [binding, limit, precedence, rightPrecedence]
  | number value =>
    simp only [limit]
    split_ifs <;> omega
  | _ => simp only [limit]; omega

end Binding

/-- The numbers that are written with a sign. -/
def isSigned : Number.Binary64 → Bool
  | .nan => false
  | .infinite _ => true
  | .finite negative _ => negative

/-- The clauses behind an operator begin with these words. -/
def clauseWords : List String :=
  ["bool", "on", "ignoring", "group_left", "group_right"]

/-- The text is read as the expression, at any depth that its brackets fit in. -/
structure Reads (text : List Char) (e : Expr) : Prop where
  begins : Begins text
  lead : ∀ {word : String} {rest : List Char}, word ∈ clauseWords → SuffixFollow rest →
    (afterKeyword? word (text ++ rest)).isSome = true → e.lead = some word
  chain : ∀ {depth least : Nat} {rest : List Char}, text.length ≤ depth → least ≤ e.binding isSigned →
    Follow rest → Stops (e.limit isSigned) rest →
    (operand depth >>= takeOperators (operand depth) Expr.binary least) (text ++ rest) =
      takeOperators (operand depth) Expr.binary least e rest
  operand : ∀ {depth : Nat} {rest : List Char}, text.length ≤ depth → e.binding isSigned = 8 →
    SuffixFollow rest → operand depth (text ++ rest) = takeSuffixes e rest

lemma yields_operand (depth : Nat) : Yields (fun _ => True) (operand depth) :=
  fun _ _ _ h => ⟨trivial, (isOperand_operand depth h).shorter⟩

/-- The text behind a whole expression: its end, or the end of a bracket or of an argument. -/
def Closes (rest : List Char) : Prop :=
  rest.head? ∈ [none, some ')', some ',']

lemma Closes.follow {rest : List Char} (h : Closes rest) : Follow rest := by
  cases rest with
  | nil => exact .nil
  | cons c rest =>
    simp only [Closes, List.head?_cons, List.mem_cons, reduceCtorEq, Option.some.injEq, List.not_mem_nil,
      or_false, false_or] at h
    rcases h with rfl | rfl
    · exact .paren rest
    · exact .comma rest

lemma Closes.stops {rest : List Char} (h : Closes rest) (least : Nat) : Stops least rest := by
  have hsolid : Solid rest ∧ ∃ failure, scan rest = .error failure ∧ failure.committed = false := by
    rcases h.follow with _ | tail | tail | ⟨op, tail⟩
    · exact ⟨solid_nil, _, rfl, rfl⟩
    · refine ⟨solid_cons (by decide) (by decide) _, ⟨false, [], ')' :: tail⟩, ?_, rfl⟩
      simp [scan, orElse, literalOf, keywordOf, signs, words, Text.after?, afterKeyword?]
    · refine ⟨solid_cons (by decide) (by decide) _, ⟨false, [], ',' :: tail⟩, ?_, rfl⟩
      simp [scan, orElse, literalOf, keywordOf, signs, words, Text.after?, afterKeyword?]
    · simp [Closes] at h
  obtain ⟨hblank, failure, hmiss, hcommitted⟩ := hsolid
  exact stops_of_miss least (hblank.eq.symm ▸ hmiss) hcommitted

namespace Reads

variable {text : List Char} {e : Expr}

/-- A whole expression is read up to a closing bracket, a comma or the end. -/
lemma scanExpr (h : Reads text e) {depth : Nat} (hdepth : text.length ≤ depth)
    {rest : List Char} (hrest : Closes rest) :
    Metric.scanExpr (Metric.operand depth) (text ++ rest) = .ok (e, rest) :=
  (h.chain hdepth (e.one_le_binding isSigned) hrest.follow (hrest.stops _)).trans (takeOperators_of_stops (hrest.stops 1))

end Reads

/-- Operators behind an operand without a sign leave it together. -/
lemma chain_of_operand {text : List Char} {e : Expr} {depth least : Nat} {rest : List Char}
    (hrest : Follow rest) (h : operand depth (text ++ rest) = takeSuffixes e rest) :
    (operand depth >>= takeOperators (operand depth) Expr.binary least) (text ++ rest) =
      takeOperators (operand depth) Expr.binary least e rest :=
  bind_of_ok (h.trans (takeSuffixes_follow hrest e))

/-- An operand without a sign is read up to its suffixes. -/
lemma operand_of_primary {depth : Nat} {input rest : List Char} {e : Expr} (hsolid : Solid input)
    (hminus : input.head? ≠ some '-') (hplus : input.head? ≠ some '+')
    (h : scanPrimary (operand depth) input = .ok (e, rest)) :
    operand (depth + 1) input = takeSuffixes e rest := by
  have hsign : opt (literalOf [("-", true), ("+", false)]) input = .ok (none, input) := by
    cases input with
    | nil => rfl
    | cons c input =>
      simp only [List.head?_cons, ne_eq, Option.some.injEq] at hminus hplus
      have hc : '-' ≠ c ∧ '+' ≠ c := ⟨Ne.symm hminus, Ne.symm hplus⟩
      simp [opt, literalOf, Text.after?, hc]
  rw [operand, scanOperand, bind_of_ok (blanks_apply _), hsolid.eq, bind_of_ok hsign]
  simp only [bind_of_ok h, bind_of_ok (get_apply _)]
  rfl

/-! ## Operators and signs -/

lemma clear_of_apart {text rest : List Char} {e : Expr} (h : Reads text e) {m : Modifiers}
    (hapart : m.Apart e.lead) (hrest : SuffixFollow rest) : m.Clear (text ++ rest) := by
  have hnone {word : String} (hword : word ∈ clauseWords) (hne : e.lead ≠ some word) :
      afterKeyword? word (text ++ rest) = none := by
    rw [← Option.not_isSome_iff_eq_none]
    exact fun hsome => hne (h.lead hword hrest hsome)
  unfold Modifiers.Apart at hapart
  unfold Modifiers.Clear
  cases hm : m.matching with
  | none =>
    simp only [hm] at hapart
    exact ⟨fun hbool => hnone (by decide) (hapart.1 hbool), hnone (by decide) hapart.2.1,
      hnone (by decide) hapart.2.2⟩
  | some x =>
    simp only [hm] at hapart
    exact fun hgroup => ⟨hnone (by decide) (hapart hgroup).1, hnone (by decide) (hapart hgroup).2⟩

/-- Two operands are read as a binary operation where precedence has it so. -/
lemma reads_binary {list : List String → List Char} (hlist : ReadsLabels list) {first second : List Char}
    {left right : Expr} (hfirst : Reads first left) (hsecond : Reads second right) {op : Operator}
    {m : Modifiers} (hvalid : m.Valid op) (hapart : m.Apart right.lead)
    (hleft : op.precedence < left.limit isSigned) (hright : op.rightPrecedence ≤ right.binding isSigned) :
    Reads (first ++ ' ' :: (op.symbol.toList ++ (m.written list ++ ' ' :: second)))
      (.binary op m left right) := by
  -- What stands behind the left operand begins with the operator.
  have hfollow (rest : List Char) :
      Follow (' ' :: (op.symbol.toList ++ (m.written list ++ ' ' :: (second ++ rest)))) ∧
        Stops (left.limit isSigned) (' ' :: (op.symbol.toList ++ (m.written list ++ ' ' :: (second ++ rest)))) := by
    obtain ⟨tail, htail⟩ := m.written_append_cons list (second ++ rest)
    rw [htail]
    exact ⟨.operator op tail, stops_symbol hleft tail⟩
  have hsplit (rest : List Char) :
      first ++ ' ' :: (op.symbol.toList ++ (m.written list ++ ' ' :: second)) ++ rest =
        first ++ ' ' :: (op.symbol.toList ++ (m.written list ++ ' ' :: (second ++ rest))) := by
    simp
  refine ⟨hfirst.begins.append _, fun hword hrest hsome => ?_, fun {depth least rest} hdepth hleast hrest hstops => ?_,
    fun _ hbinds _ => ?_⟩
  · rw [hsplit] at hsome
    exact hfirst.lead hword (.follow (hfollow _).1) hsome
  · simp only [List.length_append, List.length_cons] at hdepth
    have hbinds : op.precedence ≤ left.binding isSigned := by
      have hlimit := left.limit_le isSigned
      omega
    have hlimit : op.rightPrecedence ≤ right.limit isSigned :=
      right.le_limit isSigned (rightPrecedence_le op) hright
    have hoperand : (operand depth >>= takeOperators (operand depth) Expr.binary op.rightPrecedence)
        (second ++ rest) = .ok (right, rest) :=
      (hsecond.chain (by omega) hright hrest (hstops.mono hlimit)).trans (takeOperators_of_stops hstops)
    rw [hsplit, hfirst.chain (by omega) (le_trans hleast hbinds) (hfollow rest).1 (hfollow rest).2]
    exact takeOperators_written (yields_operand depth) hlist hleast hvalid
      (hsecond.begins.append rest).solid (clear_of_apart hsecond hapart (.follow hrest)) hoperand
  · have hle := op.precedence_le
    simp only [Expr.binding] at hbinds
    omega

/-- A sign and what it stands before. -/
lemma operand_signed {text : List Char} {body : Expr} (h : Reads text body)
    (hbinds : 6 ≤ body.binding isSigned) (negative : Bool) {depth : Nat} (hdepth : text.length ≤ depth)
    {rest : List Char} (hrest : Follow rest) (hstops : Stops 6 rest) :
    operand (depth + 1) ((if negative then '-' else '+') :: (text ++ rest)) =
      .ok (signed negative body, rest) := by
  have hlimit : Stops (body.limit isSigned) rest := hstops.mono (body.le_limit isSigned le_rfl hbinds)
  have hbody : expecting "expression after unary operator"
      (commit (Metric.chain (operand depth) Operator.pow.precedence)) (text ++ rest) = .ok (body, rest) := by
    rw [expecting_eq_ok_iff, commit_eq_ok_iff]
    exact (h.chain hdepth hbinds hrest hlimit).trans (takeOperators_of_stops hstops)
  have hsign : opt (literalOf [("-", true), ("+", false)]) ((if negative then '-' else '+') :: (text ++ rest)) =
      .ok (some negative, text ++ rest) := by
    cases negative <;> simp [opt, literalOf, Text.after?]
  have hsolid : Solid ((if negative then '-' else '+') :: (text ++ rest)) := by
    cases negative <;> exact solid_cons (by decide) (by decide) _
  rw [operand, scanOperand, bind_of_ok (blanks_apply _), hsolid.eq, bind_of_ok hsign]
  simp only [bind_of_ok (blanks_apply _), (h.begins.append rest).solid.eq, bind_of_ok hbody]
  rfl

/-- No clause begins with another character. -/
lemma not_clauseWord {c : Char} (hc : c ∉ ['b', 'o', 'i', 'g']) {word : String} (hword : word ∈ clauseWords)
    (tail : List Char) : afterKeyword? word (c :: tail) = none := by
  rw [Option.eq_none_iff_forall_ne_some]
  intro rest hfound
  have hheads : ∀ w ∈ clauseWords, w.toList.head? ∈ ['b', 'o', 'i', 'g'].map some := by decide
  obtain ⟨d, hd, hhead⟩ := List.mem_map.1 (hheads word hword)
  obtain ⟨more, hmore⟩ := List.head?_eq_some_iff.1 hhead.symm
  have hsplit := (afterKeyword?_eq_some_iff.1 hfound).1
  rw [hmore] at hsplit
  exact hc ((List.cons.inj hsplit).1 ▸ hd)

/-- A sign is read with the operand behind it, and no stronger operator takes that operand away. -/
lemma reads_signed {text : List Char} {body e : Expr} (h : Reads text body)
    (hbinds : 6 ≤ body.binding isSigned) (negative : Bool) (he : signed negative body = e)
    (hbinding : e.binding isSigned = 7) (hlimit : e.limit isSigned = 6) :
    Reads ((if negative then '-' else '+') :: text) e := by
  have hhead : (if negative then '-' else '+') ∉ ['b', 'o', 'i', 'g'] ∧
      (if negative then '-' else '+') ∈ ['\x7b', '"', '(', '-', '+'] := by
    cases negative <;> decide
  refine ⟨⟨_, _, rfl, .inr hhead.2⟩, fun hword _ hsome => ?_,
    fun {depth least rest} hdepth _ hrest hstops => ?_, fun _ hoperand _ => ?_⟩
  · rw [List.cons_append, not_clauseWord hhead.1 hword] at hsome
    simp at hsome
  · obtain ⟨depth, rfl⟩ : ∃ k, depth = k + 1 := ⟨depth - 1, by simp at hdepth; omega⟩
    rw [hlimit] at hstops
    have hread := operand_signed h hbinds negative (by simpa using hdepth) hrest hstops
    rw [List.cons_append, bind_of_ok hread, he]
  · omega

lemma reads_unary {text : List Char} {body : Expr} (h : Reads text body) (hbinds : 6 ≤ body.binding isSigned)
    (hnumber : ∀ value, body ≠ .number value) (negative : Bool) :
    Reads ((if negative then '-' else '+') :: text) (.unary negative body) := by
  have hsigned : signed negative body = .unary negative body := by
    cases body with
    | number value => exact absurd rfl (hnumber value)
    | _ => rfl
  exact reads_signed h hbinds negative hsigned rfl rfl

/-! ## Operands without sign -/

/-- An operand without sign is read part by part: what the reader of operands finds, then suffixes. -/
lemma reads_of_primary {text : List Char} {e : Expr} (hbegins : Begins text)
    (hsign : text.head? ∉ [some '-', some '+'])
    (hlead : ∀ {word : String} {rest : List Char}, word ∈ clauseWords → SuffixFollow rest →
      (afterKeyword? word (text ++ rest)).isSome = true → e.lead = some word)
    (hread : ∀ {depth : Nat} {rest : List Char}, text.length ≤ depth + 1 → SuffixFollow rest →
      ∃ base middle, scanPrimary (operand depth) (text ++ rest) = .ok (base, middle) ∧
        takeSuffixes base middle = takeSuffixes e rest) : Reads text e := by
  have hoperand {depth : Nat} {rest : List Char} (hdepth : text.length ≤ depth) (hrest : SuffixFollow rest) :
      operand depth (text ++ rest) = takeSuffixes e rest := by
    obtain ⟨c, tail, rfl, -⟩ := id hbegins
    obtain ⟨depth, rfl⟩ : ∃ k, depth = k + 1 := ⟨depth - 1, by simp at hdepth; omega⟩
    obtain ⟨base, middle, hprimary, hsuffixes⟩ := hread hdepth hrest
    have hminus : (c :: tail ++ rest).head? ≠ some '-' := fun h => hsign (by simp_all)
    have hplus : (c :: tail ++ rest).head? ≠ some '+' := fun h => hsign (by simp_all)
    rw [operand_of_primary (hbegins.append rest).solid hminus hplus hprimary, hsuffixes]
  exact ⟨hbegins, hlead, fun hdepth _ hrest _ => chain_of_operand hrest (hoperand hdepth (.follow hrest)),
    fun hdepth _ hrest => hoperand hdepth hrest⟩

/-- The case where the reader of operands finds the whole of it. -/
lemma reads_of_whole {c : Char} {tail : List Char} {e : Expr}
    (hc : Label.isMetricNameChar c = true ∨ c ∈ ['\x7b', '"', '('])
    (hlead : ∀ {word : String} {rest : List Char}, word ∈ clauseWords → SuffixFollow rest →
      (afterKeyword? word (c :: (tail ++ rest))).isSome = true → e.lead = some word)
    (hread : ∀ {depth : Nat} {rest : List Char}, tail.length ≤ depth → SuffixFollow rest →
      scanPrimary (operand depth) (c :: (tail ++ rest)) = .ok (e, rest)) : Reads (c :: tail) e := by
  have hbegins : Begins (c :: tail) := by
    refine ⟨c, tail, rfl, hc.imp_right fun hmem => ?_⟩
    simp only [List.mem_cons, List.not_mem_nil, or_false] at hmem ⊢
    tauto
  have hsign : (c :: tail).head? ∉ [some '-', some '+'] := by
    have hmarks : ∀ d ∈ ['\x7b', '"', '('], d ≠ '-' ∧ d ≠ '+' := List.all_iff_forall_prop.1 (by decide)
    have hne : c ≠ '-' ∧ c ≠ '+' := by
      rcases hc with hname | hmem
      · exact ⟨Label.ne_of_isMetricNameChar hname (by decide), Label.ne_of_isMetricNameChar hname (by decide)⟩
      · exact hmarks c hmem
    simp [hne]
  exact reads_of_primary hbegins hsign hlead
    fun hdepth hrest => ⟨e, _, hread (by simpa using hdepth) hrest, rfl⟩

lemma reads_paren {text : List Char} {body : Expr} (h : Reads text body) :
    Reads ('(' :: (text ++ [')'])) (.paren body) := by
  refine reads_of_whole (.inr (by decide)) (fun hword _ hsome => ?_) fun {depth rest} hdepth _ => ?_
  · rw [not_clauseWord (by decide) hword] at hsome
    simp at hsome
  · have hopen : literal "(" ('(' :: (text ++ [')'] ++ rest)) = .ok ((), text ++ [')'] ++ rest) :=
      literal_append "(" _
    have hsplit : text ++ [')'] ++ rest = text ++ ')' :: rest := by simp
    have hbody : expecting "expression" (commit (scanExpr (operand depth))) (text ++ ')' :: rest) =
        .ok (body, ')' :: rest) := by
      rw [expecting_eq_ok_iff, commit_eq_ok_iff]
      exact h.scanExpr (by simp at hdepth; omega) (by simp [Closes])
    have hclosing : Solid (')' :: rest) := solid_cons (by decide) (by decide) _
    have hclose : expecting "')'" (commit (literal ")")) (')' :: rest) = .ok ((), rest) := by
      rw [expecting_eq_ok_iff, commit_eq_ok_iff]
      exact literal_append ")" rest
    rw [scanPrimary, bind_of_ok (peek_apply _)]
    simp only [List.head?_cons, if_true]
    rw [scanParen, bind_of_ok hopen, bind_of_ok (blanks_apply _), hsplit, (h.begins.append _).solid.eq,
      bind_of_ok hbody, bind_of_ok (blanks_apply _), hclosing.eq, bind_of_ok hclose]
    rfl

lemma reads_text (value : String) : Reads (Text.quoteChars value.toList) (.text value) := by
  have hread := stringLiteral_quoteChars value
  obtain ⟨tail, htail⟩ : ∃ tail, Text.quoteChars value.toList = '"' :: tail := ⟨_, rfl⟩
  rw [htail] at hread ⊢
  refine reads_of_whole (.inr (by decide)) (fun hword _ hsome => ?_) fun {depth rest} _ _ => ?_
  · rw [not_clauseWord (by decide) hword] at hsome
    simp at hsome
  · rw [scanPrimary, bind_of_ok (peek_apply _)]
    simp only [List.head?_cons]
    rw [if_neg (by decide), if_neg (by decide), if_pos (by decide), ← List.cons_append,
      bind_of_ok (hread rest)]
    rfl

section Names

variable {inner : Scanner Expr} {c : Char} {tail : List Char}

lemma not_mark_of_isMetricNameChar (h : Label.isMetricNameChar c = true) :
    c ≠ '(' ∧ c ≠ '\x7b' ∧ ¬(c = '"' ∨ c = '\'' ∨ c = '\x60') := by
  have hne {d : Char} (hd : Label.isMetricNameChar d = false) : c ≠ d := Label.ne_of_isMetricNameChar h hd
  have hquotes : c ≠ '"' ∧ c ≠ '\'' ∧ c ≠ '\x60' := ⟨hne (by decide), hne (by decide), hne (by decide)⟩
  exact ⟨hne (by decide), hne (by decide), by tauto⟩

lemma scanPrimary_digit (hc : c.isDigit = true) {rest : List Char} {value : Number.Binary64}
    (h : number (c :: tail) = .ok (value, rest)) :
    scanPrimary inner (c :: tail) = .ok (.number value, rest) := by
  have hname : Label.isMetricNameChar c = true := by
    simp [Label.isMetricNameChar_iff, Text.isWordChar_iff, hc]
  obtain ⟨hparen, hbrace, hquote⟩ := not_mark_of_isMetricNameChar hname
  rw [scanPrimary, bind_of_ok (peek_apply _)]
  simp only [List.head?_cons]
  rw [if_neg hparen, if_neg hbrace, if_neg hquote, if_pos (by simp [hc]), bind_of_ok h]
  rfl

lemma scanPrimary_name (hc : Label.isMetricNameStart c = true) :
    scanPrimary inner (c :: tail) = scanNamed inner (c :: tail) := by
  obtain ⟨hparen, hbrace, hquote⟩ :=
    not_mark_of_isMetricNameChar (Label.isMetricNameChar_of_isMetricNameStart hc)
  have hdigit : ¬(c.isDigit || c == '.') = true := by
    have hcode := hc
    rw [Label.isMetricNameStart_iff, Label.isNameStart_iff, Text.isAlpha_iff] at hcode
    have hpoint : '.'.toNat = 46 := rfl
    simp only [Bool.or_eq_true, beq_iff_eq, Text.isDigit_iff, Text.toNat_eq_iff]
    omega
  rw [scanPrimary, bind_of_ok (peek_apply _)]
  simp only [List.head?_cons]
  rw [if_neg hparen, if_neg hbrace, if_neg hquote, if_neg hdigit, if_pos hc]

section NoNumber

variable (hc : Label.isMetricNameStart c = true) (hspecial : specialNumber? (c :: tail) = none)
  {rest : List Char}

include hc hspecial

lemma scanNamed_application {e : Expr} (h : scanApplication? inner (c :: tail) = .ok (some e, rest)) :
    scanNamed inner (c :: tail) = .ok (e, rest) := by
  rw [scanNamed, bind_of_ok (opt_of_error (number_of_nameStart hc hspecial) rfl)]
  exact bind_of_ok h

lemma scanNamed_selector (h : scanApplication? inner (c :: tail) = .ok (none, c :: tail)) {s : Selector}
    (hs : scanSelector (c :: tail) = .ok (s, rest)) : scanNamed inner (c :: tail) = .ok (.vector s, rest) := by
  rw [scanNamed, bind_of_ok (opt_of_error (number_of_nameStart hc hspecial) rfl)]
  exact (bind_of_ok h).trans (bind_of_ok hs)

end NoNumber

end Names

/-- A number without a sign is an operand. -/
lemma reads_number {text : List Char} {value : Number.Binary64}
    (hbegins : ∃ c tail, text = c :: tail ∧ (c.isDigit = true ∨ c ∈ ['N', 'I']))
    (hread : ∀ {rest : List Char}, NumberEnds rest → number (text ++ rest) = .ok (value, rest)) :
    Reads text (.number value) := by
  obtain ⟨c, tail, rfl, hc⟩ := hbegins
  have hstarts : ∀ d ∈ ['N', 'I'], Label.isMetricNameStart d = true ∧ d ∉ ['b', 'o', 'i', 'g'] :=
    List.all_iff_forall_prop.1 (by decide)
  have hname : Label.isMetricNameChar c = true := by
    rcases hc with hdigit | hmem
    · simp [Label.isMetricNameChar_iff, Text.isWordChar_iff, hdigit]
    · exact Label.isMetricNameChar_of_isMetricNameStart (hstarts c hmem).1
  refine reads_of_whole (.inl hname) (fun hword _ hsome => ?_) fun {depth rest} _ hrest => ?_
  · have hclause : c ∉ ['b', 'o', 'i', 'g'] := by
      rcases hc with hdigit | hmem
      · have hletters : ∀ d ∈ ['b', 'o', 'i', 'g'], d.isDigit = false := List.all_iff_forall_prop.1 (by decide)
        intro hmem
        simp [hletters c hmem] at hdigit
      · exact (hstarts c hmem).2
    rw [not_clauseWord hclause hword] at hsome
    simp at hsome
  · have hnumber : number (c :: (tail ++ rest)) = .ok (value, rest) := hread hrest.numberEnds
    rcases hc with hdigit | hmem
    · exact scanPrimary_digit hdigit hnumber
    · rw [scanPrimary_name (hstarts c hmem).1, scanNamed, bind_of_ok (opt_of_ok hnumber)]
      rfl

/-- Every number is read back, its sign included. -/
lemma reads_queryChars (value : Number.Binary64) : Reads value.queryChars (.number value) := by
  have hinfinite : Reads ['I', 'n', 'f'] (.number (.infinite false)) :=
    reads_number ⟨'I', _, rfl, .inr (by decide)⟩ fun hrest => number_infinite hrest (by decide)
  have hfinite (rank : Fin Number.rankCount) :
      Reads (Number.shortest .up rank).positional (.number (.finite false rank)) := by
    obtain ⟨c, tail, hc, hdigit⟩ := Number.exists_cons_positional (Number.shortest .up rank)
    exact reads_number ⟨c, tail, hc, .inl hdigit⟩ fun hrest => number_shortest hrest rank
  cases value with
  | nan => exact reads_number ⟨'N', _, rfl, .inr (by decide)⟩ fun hrest => number_nan hrest
  | infinite negative =>
    cases negative with
    | false => exact reads_signed hinfinite (by decide) false rfl rfl rfl
    | true => exact reads_signed hinfinite (by decide) true rfl rfl rfl
  | finite negative rank =>
    rw [Number.Binary64.queryChars]
    cases negative with
    | false => exact hfinite rank
    | true => exact reads_signed (hfinite rank) (by simp [Expr.binding, isSigned]) true rfl rfl rfl

end QueryScope.Metric
