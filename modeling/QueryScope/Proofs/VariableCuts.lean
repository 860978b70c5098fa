import QueryScope.Proofs.InjectedText
import QueryScope.Proofs.RenamedQueries

/-!
# The variables of a text part by part

A text may be cut where no variable reaches across: before a character that is part of no name, unless a brace is open
there. Quotes do not matter, as long as none stands between the braces of a variable. Putting variables in the place of
their stand-ins leaves no brace open.
-/

namespace QueryScope.Variable

/-! ## Texts without open braces -/

/-- No brace opens behind a dollar sign. -/
def Unbraced (text : List Char) : Prop :=
  ¬ ['$', '\x7b'] <:+: text

instance (text : List Char) : Decidable (Unbraced text) :=
  inferInstanceAs (Decidable (¬ _))

section Unbraced

variable {text left right : List Char} {c : Char}

lemma Unbraced.of_part (h : Unbraced text) (hwithin : left <:+: text) : Unbraced left :=
  fun hbrace => h (hbrace.trans hwithin)

lemma unbraced_of_notMem (h : '$' ∉ text) : Unbraced text :=
  fun hbrace => h (hbrace.subset (by simp))

lemma unbraced_append_iff (hc : c ≠ '$') :
    Unbraced (left ++ c :: right) ↔
      Unbraced left ∧ Unbraced right ∧ (c = '\x7b' → left.getLast? ≠ some '$') := by
  constructor
  · intro h
    refine ⟨h.of_part (List.prefix_append _ _).isInfix, h.of_part (List.IsSuffix.isInfix ⟨left ++ [c], by simp⟩), ?_⟩
    rintro rfl hlast
    obtain ⟨front, rfl⟩ := List.getLast?_eq_some_iff.1 hlast
    exact h ⟨front, right, by simp⟩
  · rintro ⟨hleft, hright, hbrace⟩
    induction left with
    | nil =>
      intro hwithin
      rcases List.infix_cons_iff.1 hwithin with hbegins | hwithin
      · exact hc (List.cons_prefix_cons.1 hbegins).1.symm
      · exact hright hwithin
    | cons x left ih =>
      intro hwithin
      rcases List.infix_cons_iff.1 hwithin with hbegins | hwithin
      · obtain ⟨rfl, hnext⟩ := List.cons_prefix_cons.1 hbegins
        cases left with
        | nil => exact hbrace (List.cons_prefix_cons.1 hnext).1.symm rfl
        | cons y left =>
          obtain ⟨rfl, -⟩ := List.cons_prefix_cons.1 hnext
          exact hleft ⟨[], left, rfl⟩
      · refine ih (hleft.of_part (List.suffix_cons _ _).isInfix) (fun hc hlast => hbrace hc ?_) hwithin
        rw [List.getLast?_cons, hlast]
        rfl

lemma unbraced_cons_iff (hc : c ≠ '$') : Unbraced (c :: right) ↔ Unbraced right := by
  have hcons : Unbraced ([] ++ c :: right) ↔ _ := unbraced_append_iff hc
  have hnil : Unbraced [] := unbraced_of_notMem (by simp)
  simpa [hnil] using hcons

end Unbraced

/-- The braces that open behind a dollar sign are closed before the next quote. -/
def Enclosed (text : List Char) : Prop :=
  ∀ inner, '$' :: '\x7b' :: inner <:+ text →
    ∃ name behind, inner = name ++ '\x7d' :: behind ∧ ∀ c ∈ name, isQuote c = false

section Enclosed

variable {text left right rest : List Char} {c : Char} {v : Variable}

lemma Enclosed.of_suffix (h : Enclosed text) (hsuffix : rest <:+ text) : Enclosed rest :=
  fun inner hinner => h inner (hinner.trans hsuffix)

lemma enclosed_of_unbraced (h : Unbraced text) : Enclosed text := by
  rintro inner ⟨front, rfl⟩
  exact absurd ⟨front, inner, by simp⟩ h

lemma Enclosed.cons (h : Enclosed rest)
    (hc : ∀ inner, c = '$' → rest = '\x7b' :: inner →
      ∃ name behind, inner = name ++ '\x7d' :: behind ∧ ∀ c ∈ name, isQuote c = false) :
    Enclosed (c :: rest) := by
  intro inner hinner
  rcases List.suffix_cons_iff.1 hinner with heq | hsuffix
  · obtain ⟨hdollar, hrest⟩ := List.cons.inj heq
    exact hc inner hdollar.symm hrest.symm
  · exact h inner hsuffix

lemma Enclosed.append_plain (h : Enclosed rest) {front : List Char} (hfront : '$' ∉ front) :
    Enclosed (front ++ rest) := by
  induction front with
  | nil => exact h
  | cons c front ih =>
    rw [List.mem_cons, not_or] at hfront
    exact (ih hfront.2).cons fun inner hc => absurd hc.symm hfront.1

/-- The text in front of a quote has no open braces. -/
lemma Enclosed.of_quote (h : Enclosed (left ++ c :: right)) (hc : isQuote c = true) : Enclosed left := by
  rintro inner ⟨front, rfl⟩
  obtain ⟨name, behind, hinner, hname⟩ := h (inner ++ c :: right) ⟨front, by simp⟩
  rcases List.append_eq_append_iff.1 hinner with ⟨middle, rfl, hbehind⟩ | ⟨middle, rfl, hbehind⟩
  · cases middle with
    | nil =>
      obtain ⟨rfl, -⟩ := List.cons.inj hbehind
      cases hc
    | cons d middle =>
      obtain ⟨rfl, -⟩ := List.cons.inj hbehind
      rw [hname c (by simp)] at hc
      cases hc
  · cases middle with
    | nil =>
      obtain ⟨rfl, -⟩ := List.cons.inj hbehind
      cases hc
    | cons d middle =>
      obtain ⟨rfl, -⟩ := List.cons.inj hbehind
      exact ⟨name, middle, rfl, hname⟩

/-- A variable in front of a text leaves no brace open. -/
lemma Enclosed.var_append (h : Enclosed rest) (hv : v.Named) : Enclosed (v.chars ++ rest) := by
  obtain ⟨braced, name⟩ := v
  cases braced with
  | true =>
    have hname : ∀ c ∈ name, isQuote c = false := fun c hc => (hv.2 c hc).2.2
    -- A dollar sign within the name has the brace behind the name.
    have hinside : ∀ front, (∃ start, name = start ++ front) → Enclosed (front ++ '\x7d' :: rest) := by
      intro front
      induction front with
      | nil => exact fun _ => h.cons fun inner hc => absurd hc (by decide)
      | cons c front ih =>
        rintro ⟨start, rfl⟩
        refine (ih ⟨start ++ [c], by simp⟩).cons fun inner _ hinner => ?_
        cases front with
        | nil => cases (List.cons.inj hinner).1
        | cons d front =>
          obtain ⟨-, rfl⟩ := List.cons.inj hinner
          exact ⟨front, rest, rfl, fun c hc => hname c (by simp [hc])⟩
    have hwhole : Enclosed ('\x7b' :: (name ++ '\x7d' :: rest)) :=
      (hinside name ⟨[], rfl⟩).cons fun inner hc => absurd hc (by decide)
    have hchars : (⟨true, name⟩ : Variable).chars ++ rest = '$' :: '\x7b' :: (name ++ '\x7d' :: rest) := by
      simp [chars]
    rw [hchars]
    refine hwhole.cons fun inner _ hinner => ⟨name, rest, (List.cons.inj hinner).2.symm, hname⟩
  | false =>
    have hname : ∀ c ∈ name, Text.isWordChar c = true := hv.2
    have hplain : Enclosed (name ++ rest) := h.append_plain fun hmem => by cases hname _ hmem
    have hchars : (⟨false, name⟩ : Variable).chars ++ rest = '$' :: (name ++ rest) := by simp [chars]
    rw [hchars]
    refine hplain.cons fun inner _ hinner => ?_
    cases name with
    | nil => exact absurd rfl hv.1
    | cons c name =>
      obtain ⟨rfl, -⟩ := List.cons.inj hinner
      cases hname _ List.mem_cons_self

end Enclosed

/-! ## Cuts -/

/-- The variables of a text, whatever its quotes are. -/
def variablesIn (text : List Char) : List Variable :=
  (innerParts 0 text).flatMap Inner.variables

section Cuts

variable {text left right rest : List Char} {c : Char} {parts parts' : List Inner}

lemma InnerTiles.flatMap_variables (h : InnerTiles parts text) : parts.flatMap Inner.variables = variablesIn text := by
  rw [h.eq_innerParts, variablesIn]

lemma variablesIn_cons (h : ¬Starts (c :: rest)) : variablesIn (c :: rest) = variablesIn rest := by
  rw [← (InnerTiles.char h (innerTiles_innerParts 0 rest)).flatMap_variables]
  rfl

lemma not_starts_of_ne (hc : c ≠ '$') (rest : List Char) : ¬Starts (c :: rest) := by
  rw [← readHead_eq_none_iff, if_neg hc]

lemma variablesIn_of_notMem (h : '$' ∉ text) : variablesIn text = [] := by
  induction text with
  | nil => rfl
  | cons c rest ih =>
    rw [List.mem_cons, not_or] at h
    rw [variablesIn_cons (not_starts_of_ne (Ne.symm h.1) rest), ih h.2]

/-- A variable is written in full before each text that does not go on with its name. -/
lemma Spelled.of_head? {v : Variable} (h : v.Spelled left)
    (hhead : ∀ d ∈ right.head?, d ∈ left.head? ∨ Text.isWordChar d = false) : v.Spelled right := by
  obtain ⟨braced, name⟩ := v
  cases braced with
  | true => exact h
  | false => exact ⟨h.1, h.2.1, fun d hd => (hhead d hd).elim (h.2.2 d) id⟩

/-- No variable starts that reaches across the character. -/
lemma not_starts_append {x : Char} (henclosed : Enclosed (x :: rest)) (hword : Text.isWordChar c = false)
    (hbrace : c = '\x7b' → (x :: rest).getLast? ≠ some '$') (h : ¬Starts (x :: rest)) (right : List Char) :
    ¬Starts (x :: rest ++ c :: right) := by
  rintro ⟨v, behind, htext, hspelled⟩
  -- The variable would start the text in front of the character.
  have hwithin {tail : List Char} (hleft : x :: rest = v.chars ++ tail) (hbehind : behind = tail ++ c :: right) :
      False := by
    refine h ⟨v, tail, hleft, hspelled.of_head? fun d hd => .inl ?_⟩
    rw [hbehind, List.head?_append, hd]
    rfl
  rcases List.append_eq_append_iff.1 htext with ⟨middle, hchars, hright⟩ | ⟨tail, hleft, hbehind⟩
  · cases middle with
    | nil => exact @hwithin [] (by simpa using hchars.symm) hright.symm
    | cons d middle =>
      obtain ⟨rfl, -⟩ := List.cons.inj hright
      obtain ⟨braced, name⟩ := v
      cases braced with
      | true =>
        have hname : '\x7d' ∉ name := hspelled.2
        have hchars : '$' :: '\x7b' :: (name ++ ['\x7d']) = x :: (rest ++ c :: middle) := by simpa [chars] using hchars
        obtain ⟨rfl, hrest⟩ := List.cons.inj hchars
        cases rest with
        | nil => exact hbrace (List.cons.inj hrest).1.symm rfl
        | cons d rest =>
          obtain ⟨rfl, -⟩ := List.cons.inj hrest
          have hinner : name ++ ['\x7d'] = rest ++ c :: middle := (List.cons.inj hrest).2
          obtain ⟨front, tail, rfl, -⟩ := henclosed rest (List.suffix_refl _)
          have hlast : name = front ++ '\x7d' :: (tail ++ c :: middle).dropLast := by
            have hdrop := congrArg List.dropLast hinner
            rw [List.dropLast_concat] at hdrop
            rw [hdrop, List.append_assoc, List.dropLast_append_of_ne_nil (by simp), List.cons_append,
              List.dropLast_cons_of_ne_nil (by simp)]
          exact hname (by simp [hlast])
      | false =>
        have hname : ∀ d ∈ name, Text.isWordChar d = true := hspelled.2.1
        have hchars : '$' :: name = x :: (rest ++ c :: middle) := by simpa [chars] using hchars
        rw [hname c (by simp [(List.cons.inj hchars).2])] at hword
        cases hword
  · exact hwithin hleft hbehind

lemma InnerTiles.append (h : InnerTiles parts left) (h' : InnerTiles parts' (c :: right)) (henclosed : Enclosed left)
    (hword : Text.isWordChar c = false) (hbrace : c = '\x7b' → left.getLast? ≠ some '$') :
    InnerTiles (parts ++ parts') (left ++ c :: right) := by
  induction h with
  | nil => exact h'
  | @char x parts rest hvar _ ih =>
    refine .char (not_starts_append henclosed hword hbrace hvar right) (ih ?_ fun hc hlast => hbrace hc ?_)
    · exact henclosed.of_suffix (List.suffix_cons _ _)
    · rw [List.getLast?_cons, hlast]
      rfl
  | @var v parts rest hspelled _ ih =>
    rw [List.append_assoc]
    have hrest := henclosed.of_suffix (List.suffix_append _ _)
    refine .var (hspelled.of_head? fun d hd => ?_) (ih hrest fun hc hlast => ?_)
    · cases rest with
      | nil => exact .inr (Option.some.inj hd ▸ hword)
      | cons x rest => exact .inl hd
    · refine hbrace hc ?_
      rw [List.getLast?_append, hlast]
      rfl

/-- The variables of a text are those of its parts where no variable reaches across. -/
lemma variablesIn_append (henclosed : Enclosed left) (hword : Text.isWordChar c = false) (hc : c ≠ '$')
    (hbrace : c = '\x7b' → left.getLast? ≠ some '$') :
    variablesIn (left ++ c :: right) = variablesIn left ++ variablesIn right := by
  have hleft : InnerTiles (innerParts 0 left) left := innerTiles_innerParts 0 left
  have htiles := hleft.append (innerTiles_innerParts 0 (c :: right)) henclosed hword hbrace
  rw [← htiles.flatMap_variables, List.flatMap_append, ← variablesIn_cons (not_starts_of_ne hc right)]
  rfl

lemma variablesIn_var_append {v : Variable} (hspelled : v.Spelled rest) :
    variablesIn (v.chars ++ rest) = v :: variablesIn rest := by
  rw [← (InnerTiles.var hspelled (innerTiles_innerParts 0 rest)).flatMap_variables]
  rfl

/-- Quotes do not change the variables of a text. -/
lemma Tiles.flatMap_variables {parts : List Piece} (h : Tiles parts text) (henclosed : Enclosed text) :
    parts.flatMap Piece.variables = variablesIn text := by
  induction h with
  | nil => rfl
  | char _ hvar _ ih =>
    rw [variablesIn_cons hvar, ← ih (henclosed.of_suffix (List.suffix_cons _ _))]
    rfl
  | var hspelled _ ih =>
    rw [variablesIn_var_append hspelled, ← ih (henclosed.of_suffix (List.suffix_append _ _))]
    rfl
  | @closed quote body inside parts rest hquote _ hbody _ ih =>
    have hplain : quote ≠ '$' ∧ quote ≠ '\x7b' := by
      constructor <;> (rintro rfl; cases hquote)
    have hbehind := henclosed.of_suffix (List.suffix_cons _ _)
    rw [variablesIn_cons (not_starts_of_ne hplain.1 _),
      variablesIn_append (hbehind.of_quote hquote) (isWordChar_quote hquote) hplain.1 fun hc => absurd hc hplain.2,
      ← hbody.flatMap_variables, ← ih (hbehind.of_suffix ⟨inside ++ [quote], by simp⟩)]
    rfl
  | @unclosed quote body inside hquote _ hbody =>
    have hplain : quote ≠ '$' := by
      rintro rfl
      cases hquote
    rw [variablesIn_cons (not_starts_of_ne hplain _), ← hbody.flatMap_variables]
    exact List.append_nil _

lemma variablesOf_eq_variablesIn (h : Enclosed text) : variablesOf (String.ofList text) = variablesIn text := by
  have htiles := tiles_piecesOf (String.ofList text)
  rw [String.toList_ofList] at htiles
  exact htiles.flatMap_variables h

end Cuts

/-! ## Variables put back -/

section Replaced

variable {needle text : List Char} {v : Variable} {c : Char}

/-- A replacement goes from one place of the needle to the next. -/
lemma replaceAll_induction {replacement : List Char} {motive : List Char → List Char → Prop} (hneedle : needle ≠ [])
    (hnil : motive [] [])
    (htake : ∀ rest, motive rest (replaceAll needle replacement rest) →
      motive (needle ++ rest) (replacement ++ replaceAll needle replacement rest))
    (hpass : ∀ c rest, ¬ needle <+: c :: rest → motive rest (replaceAll needle replacement rest) →
      motive (c :: rest) (c :: replaceAll needle replacement rest))
    (text : List Char) : motive text (replaceAll needle replacement text) := by
  -- A replacement takes a whole needle off the text, so the induction is on its length.
  induction hlength : text.length using Nat.strong_induction_on generalizing text with
  | _ length ih =>
    by_cases hbegins : needle <+: text
    · obtain ⟨rest, rfl⟩ := hbegins
      have hshorter : rest.length < length := by
        have hpos := List.length_pos_of_ne_nil hneedle
        simp only [← hlength, List.length_append]
        omega
      rw [replaceAll_append_self hneedle]
      exact htake rest (ih _ hshorter rest rfl)
    · cases text with
      | nil => exact hnil
      | cons c rest =>
        rw [replaceAll_cons_of_not_begins hbegins]
        exact hpass c rest hbegins (ih rest.length (by simp [← hlength]) rest rfl)

lemma mem_replaceAll {replacement : List Char} (hneedle : needle ≠ [])
    (h : c ∈ replaceAll needle replacement text) : c ∈ replacement ∨ c ∈ text := by
  refine replaceAll_induction (motive := fun text out => c ∈ out → c ∈ replacement ∨ c ∈ text) hneedle ?_ ?_ ?_ text h
  · exact .inr
  · intro rest ih hmem
    rcases List.mem_append.1 hmem with hmem | hmem
    · exact .inl hmem
    · exact (ih hmem).imp_right (List.mem_append_right _)
  · intro d rest _ ih hmem
    rcases List.mem_cons.1 hmem with rfl | hmem
    · exact .inr List.mem_cons_self
    · exact (ih hmem).imp_right (List.mem_cons_of_mem _)

lemma Named.spelled_nil (hv : v.Named) : v.Spelled [] := by
  obtain ⟨braced, name⟩ := v
  cases braced with
  | true => exact ⟨hv.1, fun hmem => (hv.2 _ hmem).1 rfl⟩
  | false => exact ⟨hv.1, hv.2, by simp⟩

lemma Named.isQuote_of_mem_chars (hv : v.Named) (hc : c ∈ v.chars) : isQuote c = false := by
  by_contra hquote
  exact (hv.plain (by simpa using hquote) c hc).2 rfl

/-- A replacement by a variable leaves no brace open. -/
lemma Enclosed.replaceAll (h : Enclosed text) (hneedle : needle ≠ []) (hchars : needle.all isStandInChar = true)
    (hv : v.Named) : Enclosed (replaceAll needle v.chars text) := by
  refine replaceAll_induction (motive := fun text out => Enclosed text → Enclosed out) hneedle ?_ ?_ ?_ text h
  · exact id
  · exact fun rest ih henclosed => (ih (henclosed.of_suffix (List.suffix_append _ _))).var_append hv
  · intro c rest _ ih henclosed
    refine (ih (henclosed.of_suffix (List.suffix_cons _ _))).cons fun inner hc hrest => ?_
    -- The brace is none of a variable that was put back, so it opened in the text before.
    by_cases hbegins : needle <+: rest
    · obtain ⟨rest, rfl⟩ := hbegins
      obtain ⟨name, hname⟩ := exists_chars_eq_cons v
      rw [replaceAll_append_self hneedle, hname] at hrest
      cases (List.cons.inj hrest).1
    · cases rest with
      | nil => cases hrest
      | cons d rest =>
        rw [replaceAll_cons_of_not_begins hbegins] at hrest
        obtain ⟨rfl, rfl⟩ := List.cons.inj hrest
        obtain ⟨name, behind, rfl, hname⟩ := henclosed rest (by rw [hc])
        have hbrace : '\x7d' ∉ needle := notMem_of_isStandInChar rfl hchars
        refine ⟨_, _, replaceAll_append_cons hneedle hbrace name behind, fun c hc => ?_⟩
        rcases mem_replaceAll hneedle hc with hmem | hmem
        · exact hv.isQuote_of_mem_chars hmem
        · exact hname c hmem

/-- A dollar sign at the end of a text is none of a variable that was put back. -/
lemma getLast?_of_replaceAll (hneedle : needle ≠ []) (hv : v.Named)
    (h : (replaceAll needle v.chars text).getLast? = some '$') : text.getLast? = some '$' := by
  have hlast : v.chars.getLast? ≠ some '$' := by
    obtain ⟨c, hc, hplain⟩ := hv.spelled_nil.exists_last
    rw [hc]
    rintro ⟨⟩
    rcases hplain with hplain | hplain <;> cases hplain
  refine (replaceAll_induction (motive := fun text out =>
    (out = [] → text = []) ∧ (out.getLast? = some '$' → text.getLast? = some '$')) hneedle ?_ ?_ ?_ text).2 h
  · exact ⟨id, id⟩
  · rintro rest ⟨-, ih⟩
    refine ⟨fun hnil => absurd (List.append_eq_nil_iff.1 hnil).1 (chars_ne_nil v), fun hdollar => ?_⟩
    rw [List.getLast?_append] at hdollar ⊢
    cases hrest : (Variable.replaceAll needle v.chars rest).getLast? with
    | none =>
      rw [hrest] at hdollar
      exact absurd hdollar hlast
    | some d =>
      rw [hrest] at hdollar
      rw [ih (hrest.trans hdollar)]
      rfl
  · rintro c rest - ⟨hnil, ih⟩
    refine ⟨fun hout => absurd hout (List.cons_ne_nil _ _), fun hdollar => ?_⟩
    rw [List.getLast?_cons] at hdollar ⊢
    cases hrest : (Variable.replaceAll needle v.chars rest).getLast? with
    | none =>
      rw [hrest] at hdollar
      rw [hnil (List.getLast?_eq_none_iff.1 hrest)]
      exact hdollar
    | some d =>
      rw [hrest] at hdollar
      rw [ih (hrest.trans hdollar)]
      rfl

/-- What every replacement keeps is kept when all variables are put back. -/
lemma decodeChars_induction {table : Table} {motive : List Char → Prop}
    (hstep : ∀ e ∈ table, ∀ needle text, needle ≠ [] → needle.all isStandInChar = true → motive text →
      motive (replaceAll needle e.var.chars text)) (h : motive text) : motive (decodeChars table text) := by
  have hdurations : motive (restoreDurations table text) := by
    refine List.foldlRecOn _ _ h fun text htext e he => ?_
    have htable : e ∈ table := (List.mem_filter.1 (List.mem_mergeSort.1 he)).1
    exact hstep e htable _ _ e.durationChars_ne_nil e.all_isStandInChar_durationChars htext
  refine List.foldlRecOn _ _ hdurations fun text htext e he => ?_
  have htable : e ∈ table := List.mem_mergeSort.1 he
  have htoken := e.all_isStandInChar_token
  have hinstant : motive
      (if e.inTimestamp then replaceAll (e.token ++ ".000".toList) e.var.chars text else text) := by
    split
    · exact hstep e htable _ _ (by simp) (by rw [List.all_append, htoken]; rfl) htext
    · exact htext
  have hquoted {text : List Char} (htext : motive text) : motive
      (if e.labelQuoted = some false then replaceAll ('"' :: e.token ++ ['"']) e.var.chars text else text) := by
    split
    · exact hstep e htable _ _ (by simp) (by rw [List.all_append, List.all_cons, htoken]; rfl) htext
    · exact htext
  exact hstep e htable _ _ e.token_ne_nil htoken (hquoted hinstant)

end Replaced

end QueryScope.Variable
