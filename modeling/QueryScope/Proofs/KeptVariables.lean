import QueryScope.Proofs.StandInTable
import QueryScope.Proofs.VariableCuts
import QueryScope.Proofs.VariableRenaming

/-!
# The variables that a transformation keeps

Signs, blanks and brackets are in no stand-in and end every variable, so the variables of a scoped query are those of
the fragments between them, put back one by one. The injected labels add none, and what stands around them stays: a
variable is lost or doubled only where formatting alone prints its stand-in in another form.
-/

namespace QueryScope

namespace Variable

/-! ## Fragments -/

/-- A character that is in no stand-in and starts no variable. -/
def isCut (c : Char) : Bool :=
  !isStandInChar c && c != '$'

/-- The parts of a text between signs, blanks and brackets. -/
def fragments (text : List Char) : List (List Char) :=
  text.splitOnP isCut

/-- The variables of a text after all variables of a table are put back. -/
def shown (table : Table) (text : List Char) : List Variable :=
  variablesOf (decode table (String.ofList text))

section Shown

variable {table : Table} {text left right cuts : List Char} {c : Char}

lemma ne_of_isCut (hc : isCut c = true) : c ≠ '$' := by
  rintro rfl
  cases hc

lemma isWordChar_of_isCut (hc : isCut c = true) : Text.isWordChar c = false := by
  simp only [isCut, isStandInChar, Bool.and_eq_true, Bool.not_eq_true', Bool.or_eq_false_iff] at hc
  simp [Text.isWordChar, hc.1]

variable (hnamed : ∀ e ∈ table, e.var.Named)

include hnamed

lemma enclosed_decodeChars (h : Unbraced text) : Enclosed (decodeChars table text) :=
  decodeChars_induction (fun e he _ _ hneedle hchars h => h.replaceAll hneedle hchars (hnamed e he))
    (enclosed_of_unbraced h)

lemma shown_eq_variablesIn (h : Unbraced text) : shown table text = variablesIn (decodeChars table text) := by
  rw [shown, decode, String.toList_ofList, variablesOf_eq_variablesIn (enclosed_decodeChars hnamed h)]

lemma getLast?_of_decodeChars (h : (decodeChars table text).getLast? = some '$') : text.getLast? = some '$' := by
  refine decodeChars_induction (motive := fun out => out.getLast? = some '$' → text.getLast? = some '$') ?_ id h
  exact fun e he _ _ hneedle _ ih hlast => ih (getLast?_of_replaceAll hneedle (hnamed e he) hlast)

/-- The variables on both sides of a sign are put back one by one. -/
lemma shown_append (hc : isCut c = true) (h : Unbraced (left ++ c :: right)) :
    shown table (left ++ c :: right) = shown table left ++ shown table right := by
  obtain ⟨hleft, hright, hbrace⟩ := (unbraced_append_iff (ne_of_isCut hc)).1 h
  have hsplits := splitsAt_decodeChars (by simpa using (Bool.and_eq_true_iff.1 hc).1) table
  rw [shown_eq_variablesIn hnamed h, shown_eq_variablesIn hnamed hleft, shown_eq_variablesIn hnamed hright, hsplits.2]
  exact variablesIn_append (enclosed_decodeChars hnamed hleft) (isWordChar_of_isCut hc) (ne_of_isCut hc) fun hc hlast =>
    hbrace hc (getLast?_of_decodeChars hnamed hlast)

lemma shown_eq_nil (h : ∀ c ∈ text, c ≠ '$' ∧ c.isDigit = false) : shown table text = [] := by
  have hdollar : '$' ∉ text := fun hmem => (h _ hmem).1 rfl
  have hspares : Spares table text := by
    -- A stand-in has a digit in each of its forms.
    constructor
    · intro e _ hwithin
      obtain ⟨c, digits, hdigits⟩ := List.exists_cons_of_ne_nil (Number.decimalDigits_ne_nil e.number)
      have hc : c ∈ Number.decimalDigits e.number := hdigits ▸ List.mem_cons_self
      have htoken : c ∈ e.token := by
        rw [Entry.token]
        split <;> simp [hc]
      have hdigit := Number.isDigit_of_mem_decimalDigits hc
      rw [(h c (hwithin.subset htoken)).2] at hdigit
      cases hdigit
    · intro e _ hwithin
      obtain ⟨c, tail, hchars, hdigit⟩ := Duration.exists_cons_chars ⟨e.number * 1000⟩
      have hc : c ∈ e.durationChars := by
        rw [Entry.durationChars, hchars]
        exact List.mem_cons_self
      rw [(h c (hwithin.subset hc)).2] at hdigit
      cases hdigit
  rw [shown_eq_variablesIn hnamed (unbraced_of_notMem hdollar), hspares.decodeChars, variablesIn_of_notMem hdollar]

lemma shown_eq_fragments (h : Unbraced text) : shown table text = (fragments text).flatMap (shown table) := by
  induction hlength : text.length using Nat.strong_induction_on generalizing text with
  | _ length ih =>
    by_cases hcut : ∃ c ∈ text, isCut c = true
    · obtain ⟨c, hmem, hc⟩ := hcut
      obtain ⟨left, right, rfl⟩ := List.append_of_mem hmem
      obtain ⟨hleft, hright, -⟩ := (unbraced_append_iff (ne_of_isCut hc)).1 h
      simp only [List.length_append, List.length_cons] at hlength
      rw [shown_append hnamed hc h, fragments, List.splitOnP_append_cons _ _ hc, List.flatMap_append,
        ih left.length (by omega) hleft rfl, ih right.length (by omega) hright rfl]
      rfl
    · rw [fragments, List.splitOnP_eq_singleton fun c hc => by simpa using fun hc' => hcut ⟨c, hc, hc'⟩]
      simp

end Shown

end Variable

open Variable

/-! ## Blocks of matchers -/

/-- The text ends or goes on with a sign other than an opening brace. -/
def Halts (text : List Char) : Prop :=
  ∀ c ∈ text.head?, isCut c = true ∧ c ≠ '\x7b'

/-- Texts in braces. -/
def inBraces (separator : String) (texts : List (List Char)) : List Char :=
  '\x7b' :: joinChars separator texts ++ ['\x7d']

lemma Chunk.chars_named {named : Bool} {ms : List Matcher} (h : (named && ms.isEmpty) = true) :
    (Chunk.series named ms).chars = [] :=
  if_pos h

lemma Chunk.chars_series {named : Bool} {ms : List Matcher} (h : ¬(named && ms.isEmpty) = true) :
    (Chunk.series named ms).chars = inBraces "," ((Metric.printOrder ms).map Matcher.chars) :=
  if_neg h

section Blocks

variable {left right rest : List Char} {texts : List (List Char)} {separator : String} {c : Char}

lemma halts_nil : Halts [] := by
  simp [Halts]

lemma halts_cons (hc : isCut c = true) (hbrace : c ≠ '\x7b') (rest : List Char) : Halts (c :: rest) := by
  simpa [Halts] using ⟨hc, hbrace⟩

lemma Halts.append (h : Halts left) (h' : Halts right) : Halts (left ++ right) := by
  cases left with
  | nil => exact h'
  | cons c left => exact h

lemma unbraced_append_of_halts (hrest : Halts rest) : Unbraced (left ++ rest) ↔ Unbraced left ∧ Unbraced rest := by
  cases rest with
  | nil => simp [unbraced_of_notMem]
  | cons c rest =>
    obtain ⟨hc, hbrace⟩ := hrest c rfl
    rw [unbraced_append_iff (ne_of_isCut hc), unbraced_cons_iff (ne_of_isCut hc)]
    simp [hbrace]

lemma halts_separator (hseparator : separator = "," ∨ separator = ", ") (rest : List Char) :
    Halts (separator.toList ++ rest) := by
  rcases hseparator with rfl | rfl <;> exact halts_cons rfl (by decide) _

lemma unbraced_separator_iff (hseparator : separator = "," ∨ separator = ", ") :
    Unbraced (separator.toList ++ rest) ↔ Unbraced rest := by
  rcases hseparator with rfl | rfl
  · exact unbraced_cons_iff (by decide)
  · exact (unbraced_cons_iff (by decide)).trans (unbraced_cons_iff (by decide))

lemma unbraced_joinChars_iff (hseparator : separator = "," ∨ separator = ", ") :
    Unbraced (joinChars separator texts) ↔ ∀ text ∈ texts, Unbraced text := by
  cases texts with
  | nil => simp [joinChars, unbraced_of_notMem]
  | cons text texts =>
    rw [joinChars_cons]
    induction texts generalizing text with
    | nil => simp
    | cons next texts ih =>
      rw [List.flatMap_cons, List.append_assoc, unbraced_append_of_halts (halts_separator hseparator _),
        unbraced_separator_iff hseparator, ih, ← List.forall_mem_cons]

lemma unbraced_block_iff (hseparator : separator = "," ∨ separator = ", ") :
    Unbraced (left ++ (inBraces separator texts ++ right)) ↔
      (Unbraced left ∧ left.getLast? ≠ some '$') ∧ (∀ text ∈ texts, Unbraced text) ∧ Unbraced right := by
  have hright : Unbraced ('\x7d' :: right) ↔ Unbraced right := unbraced_cons_iff (by decide)
  rw [inBraces, List.append_assoc, List.cons_append, unbraced_append_iff (by decide), List.singleton_append,
    unbraced_append_of_halts (halts_cons rfl (by decide) right), unbraced_joinChars_iff hseparator, hright]
  tauto

variable {table : Table} (hnamed : ∀ e ∈ table, e.var.Named)

include hnamed

lemma shown_cons (hc : isCut c = true) (h : Unbraced (c :: rest)) : shown table (c :: rest) = shown table rest := by
  have hcons : shown table ([] ++ c :: rest) = _ := shown_append hnamed hc h
  have hnil : shown table [] = [] := shown_eq_nil hnamed (by simp)
  rwa [hnil, List.nil_append] at hcons

lemma shown_append_of_halts (hrest : Halts rest) (h : Unbraced (left ++ rest)) :
    shown table (left ++ rest) = shown table left ++ shown table rest := by
  cases rest with
  | nil => simp [shown_eq_nil hnamed]
  | cons c rest =>
    obtain ⟨hc, -⟩ := hrest c rfl
    rw [shown_append hnamed hc h, shown_cons hnamed hc (h.of_part (List.suffix_append _ _).isInfix)]

lemma shown_separator (hseparator : separator = "," ∨ separator = ", ") (h : Unbraced (separator.toList ++ rest)) :
    shown table (separator.toList ++ rest) = shown table rest := by
  rcases hseparator with rfl | rfl
  · exact shown_cons hnamed rfl h
  · exact (shown_cons hnamed rfl h).trans (shown_cons hnamed rfl (h.of_part (List.suffix_cons _ _).isInfix))

lemma shown_joinChars (hseparator : separator = "," ∨ separator = ", ") (h : Unbraced (joinChars separator texts)) :
    shown table (joinChars separator texts) = texts.flatMap (shown table) := by
  cases texts with
  | nil => exact shown_eq_nil hnamed (by simp [joinChars])
  | cons text texts =>
    rw [joinChars_cons] at h ⊢
    induction texts generalizing text with
    | nil => simp
    | cons next texts ih =>
      rw [List.flatMap_cons, List.append_assoc] at h ⊢
      have hhalts := halts_separator hseparator (next ++ texts.flatMap (separator.toList ++ ·))
      have hbehind := ((unbraced_append_of_halts hhalts).1 h).2
      rw [shown_append_of_halts hnamed hhalts h, shown_separator hnamed hseparator hbehind,
        ih next ((unbraced_separator_iff hseparator).1 hbehind)]
      rfl

/-- The variables of a block of matchers are those of its matchers. -/
lemma shown_block (hseparator : separator = "," ∨ separator = ", ")
    (h : Unbraced (left ++ (inBraces separator texts ++ right))) :
    shown table (left ++ (inBraces separator texts ++ right)) =
      shown table left ++ (texts.flatMap (shown table) ++ shown table right) := by
  rw [inBraces, List.append_assoc, List.cons_append, List.singleton_append] at h ⊢
  obtain ⟨-, hinside, -⟩ := (unbraced_append_iff (by decide)).1 h
  have hhalts : Halts ('\x7d' :: right) := halts_cons rfl (by decide) right
  obtain ⟨hjoin, hright⟩ := (unbraced_append_of_halts hhalts).1 hinside
  rw [shown_append hnamed rfl h, shown_append_of_halts hnamed hhalts hinside, shown_joinChars hnamed hseparator hjoin,
    shown_cons hnamed rfl hright]

end Blocks

/-! ## Printed queries -/

/-- Behind each block of a metric selector the text halts, so that the block may be left out. -/
def SetApart : List Chunk → Prop
  | [] => True
  | .series _ _ :: rest => Halts (textOf rest) ∧ SetApart rest
  | .plain _ :: rest | .stream _ :: rest => SetApart rest

namespace Metric

lemma TimeFrame.halts_chars (f : TimeFrame) : Halts f.chars := by
  have hinstant : Halts ((f.instant.map Instant.chars).getD []) := by
    cases f.instant with
    | none => exact halts_nil
    | some instant => cases instant <;> exact halts_cons rfl (by decide) _
  have hoffset : Halts ((f.offset.map Offset.chars).getD []) := by
    cases f.offset with
    | none => exact halts_nil
    | some offset =>
      simp only [Option.map_some, Option.getD_some, Offset.chars]
      split
      · exact halts_nil
      · exact halts_cons rfl (by decide) _
  exact hinstant.append hoffset

namespace Expr

mutual

lemma setApart_layout (e : Expr) {rest : List Chunk} (h : SetApart rest) (hrest : Halts (textOf rest)) :
    SetApart (e.layout ++ rest) := by
  match e with
  | number _ | text _ => exact h
  | vector selector => exact ⟨selector.frame.halts_chars.append hrest, h⟩
  | matrix selector _ => exact ⟨halts_cons rfl (by decide) _, h⟩
  | subquery body _ _ _ =>
    simp only [layout, List.append_assoc, List.cons_append, List.nil_append]
    exact setApart_layout body h (halts_cons rfl (by decide) _)
  | unary _ body => exact setApart_layout body h hrest
  | paren body =>
    simp only [layout, List.append_assoc, List.cons_append, List.nil_append]
    exact setApart_layout body h (halts_cons rfl (by decide) _)
  | call _ arguments =>
    simp only [layout, List.append_assoc, List.cons_append, List.nil_append]
    exact setApart_argumentLayout arguments h (halts_cons rfl (by decide) _)
  | aggregate _ parameter body _ =>
    simp only [layout, List.append_assoc, List.cons_append, List.nil_append]
    exact setApart_parameterLayout parameter (setApart_layout body h (halts_cons rfl (by decide) _))
  | binary _ _ left right =>
    simp only [layout, List.append_assoc, List.cons_append]
    exact setApart_layout left (setApart_layout right h hrest) (halts_cons rfl (by decide) _)

lemma setApart_argumentLayout (es : List Expr) {rest : List Chunk} (h : SetApart rest) (hrest : Halts (textOf rest)) :
    SetApart (argumentLayout es ++ rest) := by
  match es with
  | [] => exact h
  | e :: es =>
    obtain ⟨hfurther, hhalts⟩ := setApart_furtherLayout es h hrest
    rw [argumentLayout, List.append_assoc]
    exact setApart_layout e hfurther hhalts

lemma setApart_furtherLayout (es : List Expr) {rest : List Chunk} (h : SetApart rest) (hrest : Halts (textOf rest)) :
    SetApart (furtherLayout es ++ rest) ∧ Halts (textOf (furtherLayout es ++ rest)) := by
  match es with
  | [] => exact ⟨h, hrest⟩
  | e :: es =>
    obtain ⟨hfurther, hhalts⟩ := setApart_furtherLayout es h hrest
    simp only [furtherLayout, List.append_assoc, List.cons_append]
    exact ⟨setApart_layout e hfurther hhalts, halts_cons rfl (by decide) _⟩

lemma setApart_parameterLayout (p : Option Expr) {rest : List Chunk} (h : SetApart rest) :
    SetApart (parameterLayout p ++ rest) := by
  match p with
  | none => exact h
  | some e =>
    rw [parameterLayout, List.append_assoc]
    exact setApart_layout e h (halts_cons rfl (by decide) _)

end

end Expr

end Metric

lemma Log.Sample.setApart_layout (s : Log.Sample) {rest : List Chunk} (h : SetApart rest) :
    SetApart (s.layout ++ rest) := by
  induction s generalizing rest with
  | range | literal | vector => exact h
  | aggregate _ _ _ _ ih | labelReplace _ _ _ _ _ ih =>
    simp only [layout, List.append_assoc, List.cons_append, List.nil_append]
    exact ih h
  | binary _ _ _ _ ihl ihr =>
    simp only [layout, List.append_assoc, List.cons_append, List.nil_append]
    exact ihl (ihr h)

lemma Query.setApart_layout (query : Query) : SetApart query.layout := by
  have hnone : SetApart [] := trivial
  cases query with
  | metric e =>
    have hall := e.setApart_layout hnone halts_nil
    rwa [List.append_nil] at hall
  | log q =>
    cases q with
    | log stream => trivial
    | sample s =>
      have hall := s.setApart_layout hnone
      rwa [List.append_nil] at hall

/-! ## The scoped query -/

/-- The labels hold neither a dollar sign nor a digit as they are printed. -/
def LabelSet.Neutral (set : LabelSet) : Prop :=
  ∀ entry ∈ set.entries, ∀ c ∈ Matcher.chars ⟨entry.1, .equal, entry.2⟩, c ≠ '$' ∧ c.isDigit = false

instance (set : LabelSet) : Decidable set.Neutral :=
  decidable_of_iff (set.entries.all fun entry =>
      (Matcher.chars ⟨entry.1, .equal, entry.2⟩).all fun c => c != '$' && !c.isDigit) (by simp [LabelSet.Neutral])

section Injection

variable {table : Table} (hnamed : ∀ e ∈ table, e.var.Named) {set : LabelSet} (hset : set.Neutral)

include hnamed hset

/-- Labels added to matchers, in whatever order these are printed, show no variable. -/
lemma flatMap_shown_extend {order : List Matcher → List Matcher} (horder : ∀ ms, (order ms).Perm ms)
    (ms : List Matcher) :
    (((order (set.extend ms)).map Matcher.chars).flatMap (shown table)).Perm
      (((order ms).map Matcher.chars).flatMap (shown table)) := by
  have hmissing : (set.missingFrom ms).flatMap (fun m => shown table m.chars) = [] := by
    rw [List.flatMap_eq_nil_iff]
    intro m hm
    obtain ⟨entry, hentry, rfl⟩ := List.mem_map.1 hm
    exact shown_eq_nil hnamed (hset entry (List.mem_filter.1 hentry).1)
  have hextend := (horder (set.extend ms)).flatMap_right fun m => shown table m.chars
  rw [LabelSet.extend, List.flatMap_append, hmissing, List.append_nil, ← LabelSet.extend] at hextend
  rw [List.flatMap_map, List.flatMap_map]
  exact hextend.trans ((horder ms).flatMap_right _).symm

/-- Labels added to a block of matchers add no variable. -/
lemma shown_block_extend {separator : String} (hseparator : separator = "," ∨ separator = ", ")
    {order : List Matcher → List Matcher} (horder : ∀ ms, (order ms).Perm ms) {ms : List Matcher}
    {left right right' : List Char}
    (h : Unbraced (left ++ (inBraces separator ((order (set.extend ms)).map Matcher.chars) ++ right')))
    (hright : Unbraced right) (hperm : (shown table right').Perm (shown table right)) :
    Unbraced (left ++ (inBraces separator ((order ms).map Matcher.chars) ++ right)) ∧
      (shown table (left ++ (inBraces separator ((order (set.extend ms)).map Matcher.chars) ++ right'))).Perm
        (shown table (left ++ (inBraces separator ((order ms).map Matcher.chars) ++ right))) := by
  obtain ⟨hleft, htexts, -⟩ := (unbraced_block_iff hseparator).1 h
  have hold : ∀ text ∈ (order ms).map Matcher.chars, Unbraced text := by
    intro text htext
    obtain ⟨m, hm, rfl⟩ := List.mem_map.1 htext
    refine htexts _ (List.mem_map_of_mem ((horder _).mem_iff.2 ?_))
    exact List.mem_append_left _ ((horder ms).mem_iff.1 hm)
  have hblock : Unbraced (left ++ (inBraces separator ((order ms).map Matcher.chars) ++ right)) :=
    (unbraced_block_iff hseparator).2 ⟨hleft, hold, hright⟩
  refine ⟨hblock, ?_⟩
  rw [shown_block hnamed hseparator h, shown_block hnamed hseparator hblock]
  exact List.Perm.append_left _ ((flatMap_shown_extend hnamed hset horder ms).append hperm)

/-- The injected labels add no variable to a printed query. -/
lemma shown_update {chunks : List Chunk} (hapart : SetApart chunks) (left : List Char)
    (h : Unbraced (left ++ textOf (chunks.map (Chunk.update set.extend)))) :
    Unbraced (left ++ textOf chunks) ∧
      (shown table (left ++ textOf (chunks.map (Chunk.update set.extend)))).Perm
        (shown table (left ++ textOf chunks)) := by
  induction chunks generalizing left with
  | nil => exact ⟨h, .refl _⟩
  | cons chunk chunks ih =>
    rw [List.map_cons, textOf_cons] at h ⊢
    rw [textOf_cons]
    have hbehind : Unbraced ([] ++ textOf (chunks.map (Chunk.update set.extend))) :=
      h.of_part ((List.suffix_append _ _).trans (List.suffix_append _ _)).isInfix
    cases chunk with
    | plain text =>
      have hall := ih hapart (left ++ text) (by simpa using h)
      simpa using hall
    | stream ms =>
      obtain ⟨hright, hperm⟩ := ih hapart [] hbehind
      exact shown_block_extend hnamed hset (.inr rfl) (fun ms => .refl ms) h hright hperm
    | series named ms =>
      obtain ⟨hhalts, hapart⟩ := hapart
      obtain ⟨hright, hperm⟩ := ih hapart [] hbehind
      have horder (ms : List Matcher) : (Metric.printOrder ms).Perm ms := List.mergeSort_perm ms _
      by_cases hnone : (named && (set.extend ms).isEmpty) = true
      · -- The selector has a name and no matcher, before and after.
        have hbefore : (named && ms.isEmpty) = true := by
          simp only [LabelSet.extend, Bool.and_eq_true, List.isEmpty_iff, List.append_eq_nil_iff] at hnone ⊢
          exact ⟨hnone.1, hnone.2.1⟩
        rw [Chunk.update, Chunk.chars_named hnone] at h ⊢
        rw [Chunk.chars_named hbefore]
        exact ih hapart left h
      · rw [Chunk.update, Chunk.chars_series hnone] at h ⊢
        by_cases hbefore : (named && ms.isEmpty) = true
        · -- Only the scoped selector has a block.
          obtain rfl : ms = [] := by simpa using (Bool.and_eq_true_iff.1 hbefore).2
          obtain ⟨⟨hleft, -⟩, -⟩ := (unbraced_block_iff (.inl rfl)).1 h
          have hwhole := (unbraced_append_of_halts hhalts).2 ⟨hleft, hright⟩
          rw [Chunk.chars_named hbefore, List.nil_append, shown_block hnamed (.inl rfl) h,
            shown_append_of_halts hnamed hhalts hwhole]
          refine ⟨hwhole, List.Perm.append_left _ ?_⟩
          have hnew := flatMap_shown_extend hnamed hset horder []
          rw [(horder []).eq_nil] at hnew
          exact hnew.append hperm
        · rw [Chunk.chars_series hbefore]
          exact shown_block_extend hnamed hset (.inl rfl) horder h hright hperm

end Injection

lemma named_of_mem_table {query : String} {encoded : Encoded} (hencode : encode query = .ok encoded)
    (h : ∀ v ∈ variablesOf query, v.Named) : ∀ e ∈ encoded.table, e.var.Named := by
  obtain ⟨found, hclassify, rfl⟩ := exists_classify hencode
  intro e he
  obtain ⟨index, v, hindex, rfl⟩ := mem_tableOf.1 he
  obtain ⟨o, ho, rfl⟩ := mem_allocation.1 (List.mem_of_getElem? hindex)
  refine h o.var ?_
  rw [variablesOf, ← (finds_of_occurrencesFrom hclassify).map_var]
  exact List.mem_map_of_mem ho

/-- One variable in a string, as a range, an offset and an instant, and as a number. -/
def keptSample : String :=
  "rate(up\x7bjob=\"$x\"\x7d[$x] offset $x) / hits @ $x > $x"

/-- A label that one of the two selectors constrains. -/
def keptLabel : LabelSet :=
  NameMap.empty.insert "job" "node"

end QueryScope
