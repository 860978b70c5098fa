import QueryScope.Proofs.FilterText

/-!
# Written streams and pipelines are read back

Each stage of a pipeline is read back in front of whatever may stand behind a stage in print: another
stage, the bracket of a range, or nothing. Two kinds of stages need a condition. A condition on a label
must not begin with a word that names another stage, and a stage that ends in the bare name of a label
must not be followed by a negated line filter, whose mark would be read as part of it.
-/

namespace QueryScope

open Scan

namespace Log

/-- What can stand behind a stage in print. -/
inductive StageFollow : List Char → Prop
  | nil : StageFollow []
  | bracket (tail : List Char) : StageFollow ('[' :: tail)
  | bar (tail : List Char) : StageFollow (' ' :: '|' :: tail)
  | mark (tail : List Char) : StageFollow (' ' :: '!' :: tail)

section Follow

variable {rest : List Char} (h : StageFollow rest)

include h

lemma StageFollow.breaks : Breaks rest := by
  cases h <;> simp [Breaks]

lemma StageFollow.head_behind :
    (dropBlanks false rest).head? ∈ [none, some '[', some '|', some '!'] := by
  cases h with
  | nil => simp [dropBlanks]
  | bracket tail => rw [solid_cons (by decide) (by decide)]; simp
  | bar tail => rw [dropBlanks_space, solid_cons (by decide) (by decide)]; simp
  | mark tail => rw [dropBlanks_space, solid_cons (by decide) (by decide)]; simp

lemma StageFollow.head_ne {c : Char} (hc : some c ∉ [none, some '[', some '|', some '!']) :
    (dropBlanks false rest).head? ≠ some c :=
  fun heq => hc (heq ▸ h.head_behind)

/-- No part of a label filter follows. -/
lemma StageFollow.not_joined : (dropBlanks false rest).head? ∉ [some ',', some 'a', some 'o'] := by
  have hall : ∀ o ∈ [none, some '[', some '|', some '!'], o ∉ [some ',', some 'a', some 'o'] := by decide
  exact hall _ h.head_behind

end Follow

/-! ## Line filters -/

section LineFilters

variable {rest : List Char}

lemma stringLiteral_quoted (value : String) (rest : List Char) :
    stringLiteral (quoted value ++ rest) = .ok (value, rest) :=
  stringLiteral_quoteChars value rest

lemma requiredString_quoted (what value : String) (rest : List Char) :
    requiredString what (quoted value ++ rest) = .ok (value, rest) := by
  rw [requiredString, expecting_eq_ok_iff, commit_eq_ok_iff, stringLiteral_quoted]

lemma solid_quoted (value : String) (rest : List Char) : Solid (quoted value ++ rest) :=
  solid_cons (by decide) (by decide) _

lemma stringArgument_quoted (value : String) (rest : List Char) :
    stringArgument (' ' :: (quoted value ++ rest)) = .ok (value, rest) := by
  rw [stringArgument, bind_of_ok (blanks_apply _), dropBlanks_space, (solid_quoted value rest).eq,
    requiredString_quoted]

lemma lineValue_chars (value : LineValue) (rest : List Char) :
    lineValue (value.chars ++ rest) = .ok (value, rest) := by
  cases value with
  | text value =>
    have hword : optKeyword "ip" (quoted value ++ rest) = .ok (false, quoted value ++ rest) := by
      rw [optKeyword_apply, afterKeyword?_of_head (by decide) (by rintro ⟨⟩)]
    rw [LineValue.chars, lineValue, bind_of_ok hword, if_neg (by decide),
      bind_of_ok (requiredString_quoted _ value rest)]
    rfl
  | address range =>
    have hchars : (LineValue.address range).chars ++ rest = "ip".toList ++ '(' :: (quoted range ++ ')' :: rest) := by
      simp [LineValue.chars]
    have hword : optKeyword "ip" ("ip".toList ++ '(' :: (quoted range ++ ')' :: rest)) =
        .ok (true, '(' :: (quoted range ++ ')' :: rest)) := by
      rw [optKeyword_apply, afterKeyword?_eq_some_iff.2 ⟨rfl, by simp only [List.head?_cons, Option.any_some]; decide⟩]
    have hopen : literal "(" ('(' :: (quoted range ++ ')' :: rest)) = .ok ((), quoted range ++ ')' :: rest) :=
      literal_append "(" _
    have hclose : literal ")" (')' :: rest) = .ok ((), rest) := literal_append ")" rest
    rw [hchars, lineValue, bind_of_ok hword, if_pos rfl, bind_of_ok (blanks_apply _),
      solid_cons (by decide) (by decide), expecting_eq_ok_iff, commit_eq_ok_iff, bind_of_ok hopen,
      bind_of_ok (blanks_apply _), (solid_quoted range _).eq,
      bind_of_ok (stringLiteral_quoted range _), bind_of_ok (blanks_apply _),
      solid_cons (by decide) (by decide), bind_of_ok hclose]
    rfl

lemma alternatives_written (hrest : StageFollow rest) (values : List String) {bound : Nat}
    (hbound : values.length < bound) :
    alternatives bound (values.flatMap (fun value => " or ".toList ++ quoted value) ++ rest) =
      .ok (values, rest) := by
  induction values generalizing bound with
  | nil =>
    obtain ⟨bound, rfl⟩ : ∃ k, bound = k + 1 := ⟨bound - 1, by simp at hbound; omega⟩
    have hstop := keyword_or_error (hrest.head_ne (c := 'o') (by decide))
    rw [List.flatMap_nil, List.nil_append, alternatives, bind_of_ok (optBehindBlanks_of_error hstop rfl)]
    rfl
  | cons value values ih =>
    obtain ⟨bound, rfl⟩ : ∃ k, bound = k + 1 := ⟨bound - 1, by simp at hbound; omega⟩
    have htext : (value :: values).flatMap (fun value => " or ".toList ++ quoted value) ++ rest =
        ' ' :: 'o' :: 'r' :: ' ' :: (quoted value ++
          (values.flatMap (fun value => " or ".toList ++ quoted value) ++ rest)) := by
      simp
    have hmore : alternatives bound (values.flatMap (fun value => " or ".toList ++ quoted value) ++ rest) =
        .ok (values, rest) := ih (by simpa using hbound)
    generalize values.flatMap (fun value => " or ".toList ++ quoted value) ++ rest = behind at htext hmore
    have hor : keyword "or" (dropBlanks false (' ' :: 'o' :: 'r' :: ' ' :: (quoted value ++ behind))) =
        .ok ((), ' ' :: (quoted value ++ behind)) := by
      rw [dropBlanks_space, solid_cons (by decide) (by decide), keyword_eq_ok_iff]
      exact afterKeyword?_eq_some_iff.2 ⟨rfl, rfl⟩
    rw [htext, alternatives, bind_of_ok (optBehindBlanks_of_ok hor)]
    dsimp only
    rw [bind_of_ok (blanks_apply _), dropBlanks_space, (solid_quoted value _).eq,
      bind_of_ok (requiredString_quoted _ value _), bind_of_ok hmore]
    rfl

lemma solid_lineValue (value : LineValue) (rest : List Char) : Solid (value.chars ++ rest) := by
  cases value <;> exact solid_cons (by decide) (by decide) _

lemma lineFilter_written {f : LineFilter} (h : f.Valid) (hrest : StageFollow rest) :
    lineFilter f.comparison (' ' :: (f.value.chars ++
        (f.alternatives.flatMap (fun value => " or ".toList ++ quoted value) ++ rest))) = .ok (f, rest) := by
  obtain ⟨comparison, value, values⟩ := f
  have hlength : values.length ≤ (values.flatMap fun value => " or ".toList ++ quoted value).length :=
    length_le_length_flatMap (by simp)
  have hbound : values.length <
      (values.flatMap (fun value => " or ".toList ++ quoted value) ++ rest).length + 1 := by
    rw [List.length_append]
    omega
  have hgood : isBadPattern comparison value = false := h
  rw [lineFilter, bind_of_ok (blanks_apply _), dropBlanks_space, (solid_lineValue value _).eq,
    bind_of_ok (get_apply _), bind_of_ok (lineValue_chars value _), if_neg (by simp [hgood])]
  dsimp only
  rw [bind_of_ok (get_apply _), bind_of_ok (alternatives_written hrest values hbound)]
  rfl

end LineFilters

/-! ## The items of stages -/

lemma solid_name {name : String} (h : Label.isLabelName name = true) (tail : List Char) :
    Solid (name.toList ++ tail) := by
  refine solid_word (isWord_of_isLabelName h) ?_ tail
  obtain ⟨c, more, hc, -⟩ := Label.exists_cons_of_isLabelName h
  simp [hc]

/-- No item of a list goes on at the start of the text. -/
structure ItemEnds (rest : List Char) : Prop where
  word : rest.head?.any Label.isMetricNameChar = false
  mark : (dropBlanks false rest).head? ≠ some '='

lemma itemEnds_comma (tail : List Char) : ItemEnds (',' :: tail) := by
  refine ⟨?_, by rw [solid_cons (by decide) (by decide)]; simp⟩
  simp only [List.head?_cons, Option.any_some]
  decide

lemma StageFollow.itemEnds {rest : List Char} (h : StageFollow rest) : ItemEnds rest :=
  ⟨h.breaks.word, h.head_ne (by decide)⟩

section Items

variable {rest : List Char}

lemma labelName_ends {name : String} (hname : Label.isLabelName name = true) (hrest : ItemEnds rest) :
    labelName (name.toList ++ rest) = .ok (name, rest) :=
  labelName_eq_ok_iff.2 ⟨rfl, hname, Label.any_isWordChar_of_any_isMetricNameChar hrest.word⟩

lemma labelName_mark {name : String} (hname : Label.isLabelName name = true) (tail : List Char) :
    labelName (name.toList ++ '=' :: tail) = .ok (name, '=' :: tail) :=
  labelName_eq_ok_iff.2 ⟨rfl, hname, by simp only [List.head?_cons, Option.any_some]; decide⟩

lemma extraction_chars {e : Extraction} (h : Label.isLabelName e.name = true) (hrest : ItemEnds rest) :
    extraction (e.chars ++ rest) = .ok (e, rest) := by
  obtain ⟨name, expression⟩ := e
  cases expression with
  | none =>
    have hstop : literal "=" (dropBlanks false rest) = .error ⟨false, [], dropBlanks false rest⟩ :=
      literal_of_head (by decide) hrest.mark
    have hchars : (⟨name, none⟩ : Extraction).chars ++ rest = name.toList ++ rest := by simp [Extraction.chars]
    rw [hchars, extraction, bind_of_ok (labelName_ends h hrest), bind_of_ok (optBehindBlanks_of_error hstop rfl)]
    rfl
  | some expression =>
    have hchars : (⟨name, some expression⟩ : Extraction).chars ++ rest =
        name.toList ++ '=' :: (quoted expression ++ rest) := by simp [Extraction.chars]
    have hmark : literal "=" (dropBlanks false ('=' :: (quoted expression ++ rest))) =
        .ok ((), quoted expression ++ rest) := by
      rw [solid_cons (by decide) (by decide)]
      exact literal_append "=" _
    rw [hchars, extraction, bind_of_ok (labelName_mark h _), bind_of_ok (optBehindBlanks_of_ok hmark)]
    dsimp only
    rw [bind_of_ok (blanks_apply _), (solid_quoted expression rest).eq,
      bind_of_ok (requiredString_quoted _ expression rest)]
    rfl

lemma labelFormat_chars {f : LabelFormat} (h : f.Valid) (hrest : ItemEnds rest) :
    labelFormat (f.chars ++ rest) = .ok (f, rest) := by
  have hmark (tail : List Char) : expecting "'='" (commit (literal "=")) ('=' :: tail) = .ok ((), tail) := by
    rw [expecting_eq_ok_iff, commit_eq_ok_iff]
    exact literal_append "=" tail
  cases f with
  | rename target source =>
    obtain ⟨htarget, hsource⟩ := h
    have hchars : (LabelFormat.rename target source).chars ++ rest = target.toList ++ '=' :: (source.toList ++ rest) := by
      simp [LabelFormat.chars]
    have hplain : stringLiteral (source.toList ++ rest) = .error ⟨false, [], source.toList ++ rest⟩ := by
      obtain ⟨c, tail, hc, hletter⟩ := Label.exists_cons_of_isLabelName hsource
      have hpart := Label.isMetricNameChar_of_isNameStart hletter
      have hne : c ≠ '"' ∧ c ≠ '\'' ∧ c ≠ '\x60' :=
        ⟨Label.ne_of_isMetricNameChar hpart (by decide), Label.ne_of_isMetricNameChar hpart (by decide),
          Label.ne_of_isMetricNameChar hpart (by decide)⟩
      rw [hc, List.cons_append]
      simp [stringLiteral, hne, miss]
    have hread : expecting "label name or template" (commit labelName) (source.toList ++ rest) =
        .ok (source, rest) := by
      rw [expecting_eq_ok_iff, commit_eq_ok_iff, labelName_ends hsource hrest]
    rw [hchars, labelFormat, bind_of_ok (labelName_mark htarget _), bind_of_ok (blanks_apply _),
      solid_cons (by decide) (by decide), bind_of_ok (hmark _), bind_of_ok (blanks_apply _),
      (solid_name hsource rest).eq, bind_of_ok (opt_of_error hplain rfl)]
    dsimp only
    rw [bind_of_ok hread]
    rfl
  | template target template =>
    have hchars : (LabelFormat.template target template).chars ++ rest =
        target.toList ++ '=' :: (quoted template ++ rest) := by simp [LabelFormat.chars]
    rw [hchars, labelFormat, bind_of_ok (labelName_mark h _), bind_of_ok (blanks_apply _),
      solid_cons (by decide) (by decide), bind_of_ok (hmark _), bind_of_ok (blanks_apply _),
      (solid_quoted template rest).eq, bind_of_ok (opt_of_ok (stringLiteral_quoted template rest))]
    rfl

lemma labelReference_name {label : String} (h : Label.isLabelName label = true) (hrest : ItemEnds rest)
    (hmark : (dropBlanks false rest).head? ≠ some '!') :
    labelReference (label.toList ++ rest) = .ok (.name label, rest) := by
  have hnext : (dropBlanks false rest).head?.any (fun c => c == '=' || c == '!') = false := by
    have hequal := hrest.mark
    cases hhead : (dropBlanks false rest).head? with
    | none => rfl
    | some c => simp_all
  rw [labelReference, bind_of_ok (get_apply _), bind_of_ok (labelName_ends h hrest), bind_of_ok (get_apply _),
    bind_of_ok (blanks_apply _), bind_of_ok (peek_apply _), if_neg (by simp [hnext]), bind_of_ok (set_apply _ _)]
  rfl

lemma labelReference_matcher {m : Matcher} (h : m.Valid) (rest : List Char) :
    labelReference (m.chars ++ rest) = .ok (.matcher m, rest) := by
  have hscan := Matcher.scan_chars h rest
  obtain ⟨name, op, value⟩ := m
  have hchars : (⟨name, op, value⟩ : Matcher).chars ++ rest =
      name.toList ++ (op.symbol.toList ++ (quoted value ++ rest)) := by simp [Matcher.chars, quoted]
  have hread : labelName (name.toList ++ (op.symbol.toList ++ (quoted value ++ rest))) =
      .ok (name, op.symbol.toList ++ (quoted value ++ rest)) :=
    labelName_eq_ok_iff.2 ⟨rfl, h.1, by cases op <;> rfl⟩
  have hsolid : Solid (op.symbol.toList ++ (quoted value ++ rest)) := by
    cases op <;> exact solid_cons (by decide) (by decide) _
  have hnext : (op.symbol.toList ++ (quoted value ++ rest)).head?.any (fun c => c == '=' || c == '!') = true := by
    cases op <;> rfl
  rw [hchars] at hscan ⊢
  rw [labelReference, bind_of_ok (get_apply _), bind_of_ok hread, bind_of_ok (get_apply _),
    bind_of_ok (blanks_apply _), hsolid.eq, bind_of_ok (peek_apply _), if_pos hnext, bind_of_ok (set_apply _ _),
    bind_of_ok hscan]
  rfl

end Items

lemma Extraction.solid_chars {e : Extraction} (h : Label.isLabelName e.name = true) (tail : List Char) :
    Solid (e.chars ++ tail) := by
  rw [Extraction.chars, List.append_assoc]
  exact solid_name h _

lemma LabelFormat.solid_chars {f : LabelFormat} (h : f.Valid) (tail : List Char) : Solid (f.chars ++ tail) := by
  cases f with
  | rename target source =>
    rw [LabelFormat.chars, List.append_assoc]
    exact solid_name h.1 _
  | template target template =>
    rw [LabelFormat.chars, List.append_assoc]
    exact solid_name h _

/-- The reference is the bare name of a label. -/
def LabelReference.isName : LabelReference → Bool
  | name _ => true
  | matcher _ => false

lemma LabelReference.solid_chars {l : LabelReference} (h : l.Valid) (tail : List Char) :
    Solid (l.chars ++ tail) := by
  cases l with
  | name label => exact solid_name h tail
  | matcher m =>
    rw [LabelReference.chars, Matcher.chars, List.append_assoc, List.append_assoc]
    exact solid_name h.1 _

lemma labelReference_chars {l : LabelReference} (h : l.Valid) {rest : List Char} (hrest : ItemEnds rest)
    (hmark : l.isName = true → (dropBlanks false rest).head? ≠ some '!') :
    labelReference (l.chars ++ rest) = .ok (l, rest) := by
  cases l with
  | name label => exact labelReference_name h hrest (hmark rfl)
  | matcher m => exact labelReference_matcher h rest

section Lists

variable {rest : List Char}

lemma required_reads {α : Type} {item : Scanner α} {written : α → List Char} {items : List α}
    (h : ReadsItems item written rest items) :
    ReadsItems (expecting "label" (commit item)) written rest items := by
  refine ⟨h.solid, fun a ha tail => ?_, fun a ha => ?_⟩
  · rw [expecting_eq_ok_iff, commit_eq_ok_iff, h.comma a ha tail]
  · rw [expecting_eq_ok_iff, commit_eq_ok_iff, h.last a ha]

lemma stageList_written {α : Type} {item : Scanner α} {written : α → List Char} {items : List α}
    (hne : items ≠ []) (h : ReadsItems item written rest items) (hrest : StageFollow rest) :
    stageList item (' ' :: (joinChars "," (items.map written) ++ rest)) = .ok (items, rest) := by
  have hsolid : Solid (joinChars "," (items.map written) ++ rest) := by
    obtain ⟨a, more, rfl⟩ := List.exists_cons_of_ne_nil hne
    rw [List.map_cons, joinChars_cons, List.append_assoc]
    exact h.solid a List.mem_cons_self _
  rw [stageList, bind_of_ok (blanks_apply _), dropBlanks_space, hsolid.eq]
  exact commaList_join hne (required_reads h) (hrest.head_ne (by decide))

lemma readsItems_formats {formats : List LabelFormat} (h : ∀ f ∈ formats, f.Valid) (hrest : StageFollow rest) :
    ReadsItems labelFormat LabelFormat.chars rest formats :=
  ⟨fun f hf => LabelFormat.solid_chars (h f hf), fun f hf tail => labelFormat_chars (h f hf) (itemEnds_comma tail),
    fun f hf => labelFormat_chars (h f (List.mem_of_mem_getLast? hf)) hrest.itemEnds⟩

lemma readsItems_references {labels : List LabelReference} (h : ∀ l ∈ labels, l.Valid)
    (hrest : StageFollow rest)
    (hmark : labels.getLast?.any LabelReference.isName = true → (dropBlanks false rest).head? ≠ some '!') :
    ReadsItems labelReference LabelReference.chars rest labels := by
  refine ⟨fun l hl => LabelReference.solid_chars (h l hl), fun l hl tail => ?_, fun l hl => ?_⟩
  · refine labelReference_chars (h l hl) (itemEnds_comma tail) fun _ => ?_
    rw [solid_cons (by decide) (by decide)]
    simp
  · refine labelReference_chars (h l (List.mem_of_mem_getLast? hl)) hrest.itemEnds fun hname => hmark ?_
    rw [Option.mem_def.1 hl]
    exact hname

/-- Behind the first name of a list of extractions stands its expression, a comma or the end of the list. -/
lemma exists_name_extractions (e : Extraction) (es : List Extraction)
    (hrest : rest.head?.any Label.isMetricNameChar = false) :
    ∃ more, joinChars "," ((e :: es).map Extraction.chars) ++ rest = e.name.toList ++ more ∧
      more.head?.any Label.isMetricNameChar = false := by
  obtain ⟨name, expression⟩ := e
  rw [List.map_cons, joinChars_cons]
  cases expression with
  | some expression =>
    refine ⟨'=' :: (quoted expression ++ ((es.map Extraction.chars).flatMap (",".toList ++ ·) ++ rest)),
      by simp [Extraction.chars], ?_⟩
    simp only [List.head?_cons, Option.any_some]
    decide
  | none =>
    refine ⟨(es.map Extraction.chars).flatMap (",".toList ++ ·) ++ rest, by simp [Extraction.chars], ?_⟩
    cases es with
    | nil => exact hrest
    | cons b es => exact (itemEnds_comma _).word

/-- The labels taken from a line. -/
lemma extractions_written {es : List Extraction} (h : ExtractionsValid es) (hrest : StageFollow rest) :
    extractions (extractionChars es ++ rest) = .ok (es, rest) := by
  obtain ⟨hnames, hfirst⟩ := h
  cases es with
  | nil =>
    have hstop : (dropBlanks false rest).head?.any Label.isNameStart = false := by
      have hall : ∀ o ∈ [none, some '[', some '|', some '!'], o.any Label.isNameStart = false := by decide
      exact hall _ hrest.head_behind
    rw [extractionChars, List.nil_append, extractions, bind_of_ok (get_apply _), bind_of_ok (blanks_apply _),
      bind_of_ok (get_apply _), if_pos (by simp [hstop]), bind_of_ok (set_apply _ _)]
    rfl
  | cons e es =>
    have hname := hnames e List.mem_cons_self
    obtain ⟨hor, hoffset⟩ := hfirst e rfl
    have hreads : ReadsItems extraction Extraction.chars rest (e :: es) :=
      ⟨fun a ha => Extraction.solid_chars (hnames a ha), fun a ha tail => extraction_chars (hnames a ha) (itemEnds_comma tail),
        fun a ha => extraction_chars (hnames a (List.mem_of_mem_getLast? ha)) hrest.itemEnds⟩
    obtain ⟨more, hmore, hword⟩ := exists_name_extractions e es hrest.breaks.word
    have hhead : (e.name.toList ++ more).head?.any Label.isNameStart = true := by
      obtain ⟨c, tail, hc, hletter⟩ := Label.exists_cons_of_isLabelName hname
      simpa [hc] using hletter
    have hnot {word : String} (hw : IsWord word) (hne : e.name ≠ word) :
        afterKeyword? word (e.name.toList ++ more) = none := by
      rw [afterKeyword?_word hw (isWord_of_isLabelName hname) hword, if_neg hne.symm]
    have hread := commaList_join (List.cons_ne_nil e es) (required_reads hreads) (hrest.head_ne (by decide))
    rw [hmore] at hread
    have htext : extractionChars (e :: es) ++ rest = ' ' :: (e.name.toList ++ more) := by
      rw [← hmore]
      rfl
    rw [htext, extractions, bind_of_ok (get_apply _), bind_of_ok (blanks_apply _), dropBlanks_space,
      (solid_name hname more).eq, bind_of_ok (get_apply _), if_neg ?_, hread]
    rw [hhead, hnot (by decide) hor, hnot (by decide) hoffset]
    decide

end Lists

section Switches

variable {strict keepEmpty : Bool} {input : List Char}

lemma switches_stop (h : (dropBlanks false input).head? ≠ some '-') (bound : Nat) :
    switches bound strict keepEmpty input = .ok ((strict, keepEmpty), input) := by
  cases bound with
  | zero => rfl
  | succ bound =>
    have hmiss : literalOf [("--strict", true), ("--keep-empty", false)] (dropBlanks false input) =
        .error ⟨false, [], dropBlanks false input⟩ := by
      refine literalOf_of_head fun entry hentry => ?_
      have hheads : ∀ entry ∈ [("--strict", true), ("--keep-empty", false)],
          entry.1.toList ≠ [] ∧ entry.1.toList.head? = some '-' := by decide
      exact ⟨(hheads entry hentry).1, (hheads entry hentry).2 ▸ h⟩
    rw [switches, bind_of_ok (optBehindBlanks_of_error hmiss rfl)]
    rfl

lemma switches_strict (bound : Nat) (keepEmpty : Bool) (input : List Char) :
    switches (bound + 1) strict keepEmpty (" --strict".toList ++ input) =
      switches bound true keepEmpty input := by
  have hread : literalOf [("--strict", true), ("--keep-empty", false)]
      (dropBlanks false (" --strict".toList ++ input)) = .ok (true, input) := by
    simp [literalOf, Text.after?, dropBlanks, isSpace]
  rw [switches, bind_of_ok (optBehindBlanks_of_ok hread)]

lemma switches_keepEmpty (bound : Nat) (strict : Bool) (input : List Char) :
    switches (bound + 1) strict keepEmpty (" --keep-empty".toList ++ input) =
      switches bound strict true input := by
  have hread : literalOf [("--strict", true), ("--keep-empty", false)]
      (dropBlanks false (" --keep-empty".toList ++ input)) = .ok (false, input) := by
    simp [literalOf, Text.after?, dropBlanks, isSpace]
  rw [switches, bind_of_ok (optBehindBlanks_of_ok hread)]

lemma switches_written (h : (dropBlanks false input).head? ≠ some '-') {bound : Nat}
    (hbound : strict.toNat + keepEmpty.toNat ≤ bound) :
    switches bound false false ((if strict then " --strict".toList else []) ++
      ((if keepEmpty then " --keep-empty".toList else []) ++ input)) = .ok ((strict, keepEmpty), input) := by
  cases strict <;> cases keepEmpty
  · exact switches_stop h _
  · obtain ⟨bound, rfl⟩ : ∃ k, bound = k + 1 := ⟨bound - 1, by simp at hbound; omega⟩
    exact (switches_keepEmpty bound false input).trans (switches_stop h _)
  · obtain ⟨bound, rfl⟩ : ∃ k, bound = k + 1 := ⟨bound - 1, by simp at hbound; omega⟩
    exact (switches_strict bound false input).trans (switches_stop h _)
  · obtain ⟨bound, rfl⟩ : ∃ k, bound = k + 2 := ⟨bound - 2, by simp at hbound; omega⟩
    exact (switches_strict (bound + 1) false _).trans
      ((switches_keepEmpty bound true input).trans (switches_stop h _))

end Switches

/-! ## Stages -/

/-- The comparison holds of the lines that do not match; it is written with an exclamation mark. -/
def LineComparison.isNegated : LineComparison → Bool
  | notContains | notMatching | notPattern => true
  | contains | matching | pattern => false

/-- The words that a stage may begin with. -/
def stageWords : List String :=
  "unwrap" :: stageKeywords.map (·.1)

/-- The name that the written filter begins with; filters of two parts begin with a parenthesis. -/
def LabelFilter.leadingName? : LabelFilter → Option String
  | matcher m => some m.name
  | number name _ _ | duration name _ _ => some name
  | and _ _ | or _ _ => none

namespace Stage

/-- The numbers of the stage are finite and its durations have less than `2 ^ 64` milliseconds. -/
def Bounded : Stage → Prop
  | labelFilter filter => filter.Bounded
  | _ => True

/-- A condition on labels does not begin with the word of another stage. -/
def Distinct : Stage → Prop
  | labelFilter filter => ∀ name ∈ filter.leadingName?, name ∉ stageWords
  | _ => True

instance : DecidablePred Bounded
  | labelFilter filter => inferInstanceAs (Decidable filter.Bounded)
  | lineFilter _ | json _ | logfmt _ _ _ | regexp _ | pattern _ | unpack | decolorize | lineFormat _
  | labelFormat _ | drop _ | keep _ => isTrue trivial

instance : DecidablePred Distinct
  | labelFilter filter => inferInstanceAs (Decidable (∀ name ∈ filter.leadingName?, name ∉ stageWords))
  | lineFilter _ | json _ | logfmt _ _ _ | regexp _ | pattern _ | unpack | decolorize | lineFormat _
  | labelFormat _ | drop _ | keep _ => isTrue trivial

/-- The last thing in the stage is the bare name of a label that is dropped or kept. -/
def endsInName : Stage → Bool
  | drop labels | keep labels => labels.getLast?.any LabelReference.isName
  | _ => false

/-- The stage is a line filter that keeps the lines without a match. -/
def isNegated : Stage → Bool
  | lineFilter filter => filter.comparison.isNegated
  | _ => false

end Stage

/-- A stage is read behind a bar. -/
structure ReadsStage (s : Stage) (body rest : List Char) : Prop where
  solid : Solid body
  unwrap : afterKeyword? "unwrap" body = none
  reads : stage body = .ok (s, rest)

section Stages

variable {s : Stage} {rest : List Char}

/-- A stage that begins with a keyword. -/
lemma readsStage_word {kind : StageKeyword} {more : List Char} (word : String)
    (hkind : stageKeywords.lookup word = some kind) (hword : IsWord word) (hne : word.toList ≠ [])
    (hunwrap : "unwrap" ≠ word) (hmore : more.head?.any Label.isMetricNameChar = false)
    (h : stageBehind kind more = .ok (s, rest)) : ReadsStage s (word.toList ++ more) rest := by
  have htable : ∀ entry ∈ stageKeywords, IsWord entry.1 := by decide
  refine ⟨solid_word hword hne more, ?_, ?_⟩
  · rw [afterKeyword?_word (by decide) hword hmore, if_neg hunwrap]
  · have hread : keywordOf stageKeywords (word.toList ++ more) = .ok (kind, more) := by
      rw [keywordOf_word htable hword hmore, hkind]
    rw [stage, bind_of_ok (opt_of_ok hread)]
    exact h

/-- A word is found in front of a filter only if it is the name that the filter begins with. -/
lemma LabelFilter.afterKeyword?_chars {f : LabelFilter} (h : f.Valid) {word : String} (hword : IsWord word)
    (hne : word.toList ≠ []) (hname : ∀ name ∈ f.leadingName?, name ≠ word) (rest : List Char) :
    afterKeyword? word (f.chars ++ rest) = none := by
  have hnamed {name : String} (hlabel : Label.isLabelName name = true) (hother : name ≠ word) {more : List Char}
      (hmore : more.head?.any Label.isMetricNameChar = false) :
      afterKeyword? word (name.toList ++ more) = none := by
    rw [afterKeyword?_word hword (isWord_of_isLabelName hlabel) hmore, if_neg hother.symm]
  have hparen (tail : List Char) : afterKeyword? word ('(' :: tail) = none := by
    refine afterKeyword?_of_head hne fun hhead => ?_
    have hmem : '(' ∈ word.toList := List.mem_of_mem_head? hhead.symm
    exact absurd (hword _ hmem) (by decide)
  cases f with
  | matcher m =>
    rw [chars, Matcher.chars, List.append_assoc, List.append_assoc]
    exact hnamed h.1 (hname _ rfl) (by cases m.comparison <;> rfl)
  | number name relation value =>
    rw [chars, List.append_assoc, List.append_assoc]
    exact hnamed h.1 (hname _ rfl) (by cases relation <;> rfl)
  | duration name relation value =>
    rw [chars, List.append_assoc, List.append_assoc]
    exact hnamed h (hname _ rfl) (by cases relation <;> rfl)
  | and left right => exact hparen _
  | or left right => exact hparen _

/-- A condition on labels. -/
lemma readsStage_labelFilter {f : LabelFilter} (hvalid : f.Valid) (hbounded : f.Bounded)
    (hdistinct : ∀ name ∈ f.leadingName?, name ∉ stageWords) (hrest : StageFollow rest) :
    ReadsStage (.labelFilter f) (f.chars ++ rest) rest := by
  have hread := LabelFilter.labelFilter_chars hvalid hbounded hrest.breaks hrest.not_joined
  have hwords : ∀ word ∈ stageWords, afterKeyword? word (f.chars ++ rest) = none := by
    intro word hmem
    have hall : ∀ word ∈ stageWords, IsWord word ∧ word.toList ≠ [] := by decide
    refine LabelFilter.afterKeyword?_chars hvalid (hall word hmem).1 (hall word hmem).2 ?_ rest
    rintro name hname rfl
    exact hdistinct name hname hmem
  have hmiss : keywordOf stageKeywords (f.chars ++ rest) = .error ⟨false, [], f.chars ++ rest⟩ :=
    keywordOf_of_none fun entry hentry =>
      hwords entry.1 (List.mem_cons_of_mem _ (List.mem_map_of_mem hentry))
  refine ⟨LabelFilter.solid_chars hvalid rest, hwords "unwrap" (by decide), ?_⟩
  rw [stage, bind_of_ok (opt_of_error hmiss rfl)]
  exact map_of_ok hread

/-- The arguments of a stage do not go on with its keyword. -/
lemma extractionChars_ends (es : List Extraction) (hrest : StageFollow rest) :
    (extractionChars es ++ rest).head?.any Label.isMetricNameChar = false := by
  cases es with
  | nil => exact hrest.breaks.word
  | cons e es => rfl

lemma stageBehind_logfmt (strict keepEmpty : Bool) {es : List Extraction} (h : ExtractionsValid es)
    (hrest : StageFollow rest) :
    stageBehind .logfmt ((if strict then " --strict".toList else []) ++
      ((if keepEmpty then " --keep-empty".toList else []) ++ (extractionChars es ++ rest))) =
      .ok (.logfmt strict keepEmpty es, rest) := by
  have hstop : (dropBlanks false (extractionChars es ++ rest)).head? ≠ some '-' := by
    cases es with
    | nil => exact hrest.head_ne (by decide)
    | cons e es =>
      have hname := h.1 e List.mem_cons_self
      obtain ⟨more, hmore, -⟩ := exists_name_extractions e es hrest.breaks.word
      obtain ⟨c, tail, hc, hletter⟩ := Label.exists_cons_of_isLabelName hname
      have htext : extractionChars (e :: es) ++ rest = ' ' :: (e.name.toList ++ more) := by
        rw [← hmore]
        rfl
      have hne : c ≠ '-' :=
        Label.ne_of_isMetricNameChar (Label.isMetricNameChar_of_isNameStart hletter) (by decide)
      rw [htext, dropBlanks_space, (solid_name hname more).eq, hc]
      simpa using hne
  have hbound : strict.toNat + keepEmpty.toNat ≤ ((if strict then " --strict".toList else []) ++
      ((if keepEmpty then " --keep-empty".toList else []) ++ (extractionChars es ++ rest))).length + 1 := by
    cases strict <;> cases keepEmpty <;> simp
  rw [stageBehind, bind_of_ok (get_apply _), bind_of_ok (switches_written hstop hbound)]
  dsimp only
  rw [bind_of_ok (extractions_written h hrest)]
  rfl

/-- Every stage other than a line filter is written behind a bar. -/
lemma exists_readsStage (hvalid : s.Valid) (hbounded : s.Bounded) (hdistinct : s.Distinct)
    (hline : ∀ f, s ≠ .lineFilter f) (hrest : StageFollow rest)
    (hname : s.endsInName = true → (dropBlanks false rest).head? ≠ some '!') :
    ∃ body, s.chars ++ rest = '|' :: ' ' :: body ∧ ReadsStage s body rest := by
  have hspace (tail : List Char) : (' ' :: tail).head?.any Label.isMetricNameChar = false := rfl
  have hargument (value : String) := stringArgument_quoted value rest
  cases s with
  | lineFilter f => exact absurd rfl (hline f)
  | json es =>
    refine ⟨"json".toList ++ (extractionChars es ++ rest), List.append_assoc "| json".toList _ rest, ?_⟩
    refine readsStage_word "json" rfl (by decide) (by decide) (by decide) (extractionChars_ends es hrest) ?_
    exact map_of_ok (extractions_written hvalid hrest)
  | logfmt strict keepEmpty es =>
    refine ⟨"logfmt".toList ++ ((if strict then " --strict".toList else []) ++
      ((if keepEmpty then " --keep-empty".toList else []) ++ (extractionChars es ++ rest))), ?_, ?_⟩
    · change ("| logfmt".toList ++ _ ++ _ ++ _) ++ rest = _
      simp only [List.append_assoc]
      rfl
    · refine readsStage_word "logfmt" rfl (by decide) (by decide) (by decide) ?_ ?_
      · cases strict <;> cases keepEmpty <;> first | exact extractionChars_ends es hrest | rfl
      · exact stageBehind_logfmt strict keepEmpty hvalid hrest
  | regexp expression =>
    refine ⟨"regexp".toList ++ ' ' :: (quoted expression ++ rest), List.append_assoc "| regexp ".toList _ rest, ?_⟩
    refine readsStage_word "regexp" rfl (by decide) (by decide) (by decide) (hspace _) ?_
    have hchecked : Pattern.isValid expression = true := hvalid
    rw [stageBehind, bind_of_ok (hargument expression), if_neg (by simp [hchecked])]
    rfl
  | pattern expression =>
    refine ⟨"pattern".toList ++ ' ' :: (quoted expression ++ rest), List.append_assoc "| pattern ".toList _ rest, ?_⟩
    refine readsStage_word "pattern" rfl (by decide) (by decide) (by decide) (hspace _) ?_
    exact map_of_ok (hargument expression)
  | unpack =>
    refine ⟨"unpack".toList ++ rest, rfl, ?_⟩
    exact readsStage_word "unpack" rfl (by decide) (by decide) (by decide) hrest.breaks.word rfl
  | decolorize =>
    refine ⟨"decolorize".toList ++ rest, rfl, ?_⟩
    exact readsStage_word "decolorize" rfl (by decide) (by decide) (by decide) hrest.breaks.word rfl
  | labelFilter filter =>
    exact ⟨filter.chars ++ rest, rfl, readsStage_labelFilter hvalid hbounded hdistinct hrest⟩
  | lineFormat template =>
    refine ⟨"line_format".toList ++ ' ' :: (quoted template ++ rest), List.append_assoc "| line_format ".toList _ rest, ?_⟩
    refine readsStage_word "line_format" rfl (by decide) (by decide) (by decide) (hspace _) ?_
    exact map_of_ok (hargument template)
  | labelFormat formats =>
    refine ⟨"label_format".toList ++ ' ' :: (joinChars "," (formats.map LabelFormat.chars) ++ rest),
      List.append_assoc "| label_format ".toList _ rest, ?_⟩
    refine readsStage_word "label_format" rfl (by decide) (by decide) (by decide) (hspace _) ?_
    exact map_of_ok (stageList_written hvalid.1 (readsItems_formats hvalid.2 hrest) hrest)
  | drop labels =>
    refine ⟨"drop".toList ++ ' ' :: (joinChars "," (labels.map LabelReference.chars) ++ rest),
      List.append_assoc "| drop ".toList _ rest, ?_⟩
    refine readsStage_word "drop" rfl (by decide) (by decide) (by decide) (hspace _) ?_
    exact map_of_ok (stageList_written hvalid.1 (readsItems_references hvalid.2 hrest hname) hrest)
  | keep labels =>
    refine ⟨"keep".toList ++ ' ' :: (joinChars "," (labels.map LabelReference.chars) ++ rest),
      List.append_assoc "| keep ".toList _ rest, ?_⟩
    refine readsStage_word "keep" rfl (by decide) (by decide) (by decide) (hspace _) ?_
    exact map_of_ok (stageList_written hvalid.1 (readsItems_references hvalid.2 hrest hname) hrest)

variable {ss : List Stage} {last : List Char} {bound : Nat}

lemma stages_bar {body : List Char} (h : ReadsStage s body rest) (hmore : stages bound rest = .ok (ss, last)) :
    stages (bound + 1) (' ' :: '|' :: ' ' :: body) = .ok (s :: ss, last) := by
  have hcomparison : literalOf lineComparisons ('|' :: ' ' :: body) = .error ⟨false, [], '|' :: ' ' :: body⟩ := rfl
  have hbar : optLiteral "|" ('|' :: ' ' :: body) = .ok (true, ' ' :: body) := optLiteral_eq_true_iff.2 rfl
  have hread : expecting "pipeline stage" (commit stage) body = .ok (s, rest) := by
    rw [expecting_eq_ok_iff, commit_eq_ok_iff, h.reads]
  rw [stages, bind_of_ok (get_apply _), bind_of_ok (blanks_apply _), dropBlanks_space,
    solid_cons (by decide) (by decide), bind_of_ok (opt_of_error hcomparison rfl)]
  dsimp only
  rw [bind_of_ok hbar, if_pos rfl, bind_of_ok (blanks_apply _), dropBlanks_space, h.solid.eq,
    bind_of_ok (get_apply _), if_neg (by simp [h.unwrap]), bind_of_ok hread, bind_of_ok hmore]
  rfl

lemma stages_lineFilter {f : LineFilter} (h : f.Valid) (hrest : StageFollow rest)
    (hmore : stages bound rest = .ok (ss, last)) :
    stages (bound + 1) (' ' :: (f.chars ++ rest)) = .ok (.lineFilter f :: ss, last) := by
  have hchars : f.chars ++ rest = f.comparison.symbol.toList ++ ' ' :: (f.value.chars ++
      (f.alternatives.flatMap (fun value => " or ".toList ++ quoted value) ++ rest)) := by
    simp [LineFilter.chars]
  have hsolid (tail : List Char) : Solid (f.comparison.symbol.toList ++ tail) := by
    cases f.comparison <;> exact solid_cons (by decide) (by decide) _
  have hcomparison (tail : List Char) :
      literalOf lineComparisons (f.comparison.symbol.toList ++ tail) = .ok (f.comparison, tail) := by
    cases f.comparison <;> rfl
  rw [hchars, stages, bind_of_ok (get_apply _), bind_of_ok (blanks_apply _), dropBlanks_space, (hsolid _).eq,
    bind_of_ok (opt_of_ok (hcomparison _))]
  dsimp only
  rw [bind_of_ok (lineFilter_written h hrest), bind_of_ok hmore]
  rfl

lemma stages_cons (hvalid : s.Valid) (hbounded : s.Bounded) (hdistinct : s.Distinct) (hrest : StageFollow rest)
    (hname : s.endsInName = true → (dropBlanks false rest).head? ≠ some '!')
    (hmore : stages bound rest = .ok (ss, last)) :
    stages (bound + 1) (' ' :: (s.chars ++ rest)) = .ok (s :: ss, last) := by
  by_cases hline : ∃ f, s = .lineFilter f
  · obtain ⟨f, rfl⟩ := hline
    exact stages_lineFilter hvalid hrest hmore
  · obtain ⟨body, hbody, hread⟩ :=
      exists_readsStage hvalid hbounded hdistinct (fun f hf => hline ⟨f, hf⟩) hrest hname
    rw [hbody]
    exact stages_bar hread hmore

lemma Stage.exists_cons_chars (s : Stage) :
    ∃ tail, s.chars = (if s.isNegated then '!' else '|') :: tail := by
  cases s with
  | lineFilter f =>
    obtain ⟨tail, htail⟩ : ∃ tail, f.comparison.symbol.toList =
        (if f.comparison.isNegated then '!' else '|') :: tail := by
      cases f.comparison <;> exact ⟨_, rfl⟩
    refine ⟨tail ++ ' ' :: f.value.chars ++
      f.alternatives.flatMap fun value => " or ".toList ++ quoted value, ?_⟩
    change f.chars = _
    rw [LineFilter.chars, htail]
    rfl
  | _ => exact ⟨_, rfl⟩

end Stages

/-! ## Pipelines and streams -/

/-- What can stand behind a pipeline in print. -/
inductive PipelineFollow : List Char → Prop
  | nil : PipelineFollow []
  | bracket (tail : List Char) : PipelineFollow ('[' :: tail)
  | unwrap (tail : List Char) : PipelineFollow (" | unwrap ".toList ++ tail)

/-- No stage that ends in a bare name stands before a negated line filter. -/
def Apart (ss : List Stage) : Prop :=
  ss.IsChain fun s t => s.endsInName = true → t.isNegated = false

/-- The written form of a pipeline. -/
def pipelineChars (ss : List Stage) : List Char :=
  ss.flatMap fun s => ' ' :: s.chars

section Pipelines

variable {rest : List Char}

lemma PipelineFollow.stageFollow (h : PipelineFollow rest) : StageFollow rest := by
  cases h with
  | nil => exact .nil
  | bracket tail => exact .bracket tail
  | unwrap tail => exact .bar _

lemma PipelineFollow.not_mark (h : PipelineFollow rest) : (dropBlanks false rest).head? ≠ some '!' := by
  cases h with
  | nil => simp [dropBlanks]
  | bracket tail => rw [solid_cons (by decide) (by decide)]; simp
  | unwrap tail => simp [dropBlanks, isSpace]

lemma stages_stop (h : PipelineFollow rest) (bound : Nat) : stages bound rest = .ok ([], rest) := by
  cases h with
  | nil => exact stages_of_head (by simp [dropBlanks]) (by simp [dropBlanks]) bound
  | bracket tail =>
    refine stages_of_head ?_ ?_ bound <;> rw [solid_cons (by decide) (by decide)] <;> simp
  | unwrap tail =>
    cases bound with
    | zero => rfl
    | succ bound =>
      -- The bar is read and given back.
      have hunwrap : (afterKeyword? "unwrap" ("unwrap".toList ++ ' ' :: tail)).isSome = true := by
        rw [afterKeyword?_eq_some_iff.2 ⟨rfl, rfl⟩]
        rfl
      have hbar : optLiteral "|" ("| unwrap ".toList ++ tail) = .ok (true, " unwrap ".toList ++ tail) :=
        optLiteral_eq_true_iff.2 rfl
      have hcomparison : literalOf lineComparisons ("| unwrap ".toList ++ tail) =
          .error ⟨false, [], "| unwrap ".toList ++ tail⟩ := rfl
      have hsolid : dropBlanks false (" | unwrap ".toList ++ tail) = "| unwrap ".toList ++ tail := rfl
      have hword : dropBlanks false (" unwrap ".toList ++ tail) = "unwrap".toList ++ ' ' :: tail := rfl
      rw [stages, bind_of_ok (get_apply _), bind_of_ok (blanks_apply _), hsolid,
        bind_of_ok (opt_of_error hcomparison rfl)]
      dsimp only
      rw [bind_of_ok hbar, if_pos rfl, bind_of_ok (blanks_apply _), hword, bind_of_ok (get_apply _),
        if_pos hunwrap, bind_of_ok (set_apply _ _)]
      rfl

lemma stageFollow_pipeline (ss : List Stage) (h : PipelineFollow rest) :
    StageFollow (pipelineChars ss ++ rest) := by
  cases ss with
  | nil => exact h.stageFollow
  | cons s ss =>
    obtain ⟨tail, htail⟩ := s.exists_cons_chars
    have htext : pipelineChars (s :: ss) ++ rest =
        ' ' :: (if s.isNegated then '!' else '|') :: (tail ++ (pipelineChars ss ++ rest)) := by
      simp [pipelineChars, htail]
    rw [htext]
    cases s.isNegated
    · exact .bar _
    · exact .mark _

/-- By induction on the stages: each one is read in front of the text of the others. -/
lemma stages_written {ss : List Stage} (hvalid : ∀ s ∈ ss, s.Valid) (hbounded : ∀ s ∈ ss, s.Bounded)
    (hdistinct : ∀ s ∈ ss, s.Distinct) (hapart : Apart ss) (hrest : PipelineFollow rest) {bound : Nat}
    (hbound : ss.length ≤ bound) : stages bound (pipelineChars ss ++ rest) = .ok (ss, rest) := by
  induction ss generalizing bound with
  | nil => exact stages_stop hrest bound
  | cons s ss ih =>
    obtain ⟨bound, rfl⟩ : ∃ k, bound = k + 1 := ⟨bound - 1, by simp at hbound; omega⟩
    have hmore : stages bound (pipelineChars ss ++ rest) = .ok (ss, rest) :=
      ih (fun t ht => hvalid t (List.mem_cons_of_mem s ht)) (fun t ht => hbounded t (List.mem_cons_of_mem s ht))
        (fun t ht => hdistinct t (List.mem_cons_of_mem s ht)) hapart.tail (by simpa using hbound)
    have hname : s.endsInName = true → (dropBlanks false (pipelineChars ss ++ rest)).head? ≠ some '!' := by
      intro hends
      cases ss with
      | nil => exact hrest.not_mark
      | cons t ss =>
        obtain ⟨tail, htail⟩ := t.exists_cons_chars
        have hplain : t.isNegated = false := (List.isChain_cons_cons.1 hapart).1 hends
        rw [hplain] at htail
        have htext : pipelineChars (t :: ss) ++ rest = ' ' :: '|' :: (tail ++ (pipelineChars ss ++ rest)) := by
          simp [pipelineChars, htail]
        rw [htext, dropBlanks_space, solid_cons (by decide) (by decide)]
        simp
    have htext : pipelineChars (s :: ss) ++ rest = ' ' :: (s.chars ++ (pipelineChars ss ++ rest)) := by
      simp [pipelineChars]
    rw [htext]
    exact stages_cons (hvalid s List.mem_cons_self) (hbounded s List.mem_cons_self)
      (hdistinct s List.mem_cons_self) (stageFollow_pipeline ss hrest) hname hmore

end Pipelines

/-- The numbers of the stream are finite and its durations have less than `2 ^ 64` milliseconds. -/
def Stream.Bounded (s : Stream) : Prop :=
  ∀ stage ∈ s.stages, stage.Bounded

/-- No stage of the stream is taken for part of another one in print. -/
structure Stream.Clear (s : Stream) : Prop where
  distinct : ∀ stage ∈ s.stages, stage.Distinct
  apart : Apart s.stages

instance : DecidablePred Stream.Bounded := fun s =>
  inferInstanceAs (Decidable (∀ stage ∈ s.stages, stage.Bounded))

instance : DecidablePred Apart := fun ss =>
  inferInstanceAs (Decidable (ss.IsChain fun s t => s.endsInName = true → t.isNegated = false))

instance : DecidablePred Stream.Clear := fun s =>
  decidable_of_iff ((∀ stage ∈ s.stages, stage.Distinct) ∧ Apart s.stages)
    ⟨fun h => ⟨h.1, h.2⟩, fun h => ⟨h.distinct, h.apart⟩⟩

lemma Stream.streamIn_chars {s : Stream} (hvalid : s.Valid) (hbounded : s.Bounded) (hclear : s.Clear)
    (depth : Nat) {rest : List Char} (hrest : PipelineFollow rest) :
    streamIn (depth + 1) (s.chars ++ rest) = .ok (s, rest) := by
  obtain ⟨matchers, ss⟩ := s
  have hchars : (⟨matchers, ss⟩ : Stream).chars ++ rest =
      '\x7b' :: (List.intercalate (',' :: [' ']) (matchers.map Matcher.chars) ++
        '\x7d' :: (pipelineChars ss ++ rest)) := by
    simp [Stream.chars, selectorChars, joinChars, pipelineChars]
  have hgap : ∀ text, dropBlanks false ([' '] ++ text) = dropBlanks false text := dropBlanks_space
  have hblock := Matcher.block_join hvalid.matchers hgap (pipelineChars ss ++ rest)
  have hselective : matchers.all Matcher.matchesEmpty = false := hvalid.selective
  have hbound : ss.length ≤ (pipelineChars ss ++ rest).length + 1 := by
    have hlength : ss.length ≤ (pipelineChars ss).length := length_le_length_flatMap (by simp)
    rw [List.length_append]
    omega
  have hstages : pipeline (pipelineChars ss ++ rest) = .ok (ss, rest) :=
    stages_written hvalid.stages hbounded hclear.distinct hclear.apart hrest hbound
  have hselector : selector ('\x7b' :: (List.intercalate (',' :: [' ']) (matchers.map Matcher.chars) ++
      '\x7d' :: (pipelineChars ss ++ rest))) = .ok (matchers, pipelineChars ss ++ rest) := by
    rw [selector, bind_of_ok hblock, if_neg (by simp [hselective])]
    rfl
  have hparen (tail : List Char) : optLiteral "(" ('\x7b' :: tail) = .ok (false, '\x7b' :: tail) := by
    have hmark : "(".toList = ['('] := rfl
    exact optLiteral_of_head hmark (by simp)
  rw [hchars, streamIn, bind_of_ok (hparen _), if_neg (by decide), bind_of_ok hselector, bind_of_ok hstages]
  rfl

end Log

end QueryScope
