import QueryScope.Proofs.QuotePlaces

/-!
# When a query keeps its quotes

Encoding puts quotes around each bare label value, and decoding takes quotes away by variable. A query comes back as
it was exactly if each variable with a bare label value is first used as one and is nowhere written between two
double quotes.
-/

namespace QueryScope.Variable

/-! ## The places of a query -/

/-- A text with its occurrences, laid out in places. The text starts at a byte. -/
inductive Lays (table : Table) : (offset : Nat) → List Char → List Occurrence → List Place → Prop
  | nil (offset : Nat) : Lays table offset [] [] []
  | char (c : Char) {offset : Nat} {text : List Char} {found : List Occurrence} {places : List Place}
      (h : Lays table (offset + c.utf8Size) text found places) :
      Lays table offset (c :: text) found (.char c :: places)
  | use {o : Occurrence} {e : Entry} (hvar : e.var = o.var) (he : e ∈ table) {text : List Char}
      {found : List Occurrence} {places : List Place}
      (h : Lays table (o.start + byteLength o.var.chars) text found places) :
      Lays table o.start (o.var.chars ++ text) (o :: found) (.use o e hvar :: places)

section Lays

variable {table : Table} {offset : Nat} {text front behind : List Char} {found : List Occurrence}
  {places before after : List Place} {o : Occurrence} {e : Entry} {hvar : e.var = o.var}

lemma Lays.gap (gap : List Char) (h : Lays table (offset + byteLength gap) text found places) :
    Lays table offset (gap ++ text) found (gap.map .char ++ places) := by
  induction gap generalizing offset with
  | nil => exact h
  | cons c gap ih =>
    apply Lays.char
    apply ih
    rwa [byteLength_cons, ← Nat.add_assoc] at h

lemma written_encoded_char (gap : List Char) (places : List Place) :
    written [] ((gap.map Place.char ++ places).flatMap Place.encoded) = gap ++ written [] (places.flatMap Place.encoded) := by
  induction gap with
  | nil => rfl
  | cons c gap ih =>
    rw [List.map_cons, List.cons_append, List.flatMap_cons, written_append, ih]
    rfl

lemma written_encoded_use (hfind : table.find? (·.var = o.var) = some e) (hvar : e.var = o.var) :
    written [] (Place.use o e hvar).encoded = standInOf table o := by
  have htoken : tokenOf table o.var = e.token := by
    rw [tokenOf, hfind]
    rfl
  have hform : e.plain.form = e.token := rfl
  rw [standInOf, Place.encoded, htoken]
  split
  · simp [quotedStandIn, written, Segment.chars, hform]
  · simp [written, Segment.chars, hform]

/-- The encoded query is written from places. -/
lemma Splices.exists_lays {out : List Char} (h : Splices (standInOf table) offset text found out)
    (hfind : ∀ o ∈ found, ∃ e ∈ table, table.find? (·.var = o.var) = some e ∧ e.var = o.var) :
    ∃ places, Lays table offset text found places ∧ written [] (places.flatMap Place.encoded) = out := by
  induction h with
  | done offset text =>
    refine ⟨text.map .char ++ [], ?_, ?_⟩
    · have hend : Lays table (offset + byteLength text) [] [] [] := .nil _
      have hlays := hend.gap text
      rwa [List.append_nil] at hlays
    · rw [written_encoded_char]
      exact List.append_nil text
  | @next offset o found gap behind out hstart hstop _ ih =>
    obtain ⟨places, hlays, hwritten⟩ := ih fun o' ho' => hfind o' (List.mem_cons_of_mem _ ho')
    obtain ⟨e, he, hfind, hvar⟩ := hfind o List.mem_cons_self
    refine ⟨gap.map .char ++ .use o e hvar :: places, ?_, ?_⟩
    · apply Lays.gap
      rw [← hstart]
      exact .use hvar he (hstop ▸ hlays)
    · rw [written_encoded_char, List.flatMap_cons, written_append, written_encoded_use hfind, hwritten]

lemma Lays.flatMap_chars (h : Lays table offset text found places) : places.flatMap Place.chars = text := by
  induction h with
  | nil => rfl
  | char c _ ih => rw [List.flatMap_cons, ih]; rfl
  | use hvar _ _ ih => rw [List.flatMap_cons, ih]; rfl

lemma Lays.exists_use (h : Lays table offset text found places) (ho : o ∈ found) :
    ∃ e hvar, .use o e hvar ∈ places := by
  induction h with
  | nil => cases ho
  | char c _ ih =>
    obtain ⟨e, hvar, he⟩ := ih ho
    exact ⟨e, hvar, List.mem_cons_of_mem _ he⟩
  | @use o' e' hvar' _ _ _ _ _ ih =>
    rcases List.mem_cons.1 ho with rfl | ho
    · exact ⟨e', hvar', List.mem_cons_self⟩
    · obtain ⟨e, hvar, he⟩ := ih ho
      exact ⟨e, hvar, List.mem_cons_of_mem _ he⟩

lemma Lays.mem (h : Lays table offset text found places) (hp : .use o e hvar ∈ places) : o ∈ found ∧ e ∈ table := by
  induction h with
  | nil => cases hp
  | char c _ ih => exact ih (by simpa using hp)
  | use hvar' he _ ih =>
    rcases List.mem_cons.1 hp with hp | hp
    · obtain ⟨rfl, rfl⟩ := Place.use.inj hp
      exact ⟨List.mem_cons_self, he⟩
    · exact ⟨List.mem_cons_of_mem _ (ih hp).1, (ih hp).2⟩

lemma Lays.start (h : Lays table offset text found (before ++ .use o e hvar :: after)) :
    o.start = offset + byteLength (before.flatMap Place.chars) := by
  generalize hplaces : before ++ Place.use o e hvar :: after = places at h
  induction h generalizing before with
  | nil => simp at hplaces
  | @char c offset text found places _ ih =>
    cases before with
    | nil => cases hplaces
    | cons p before =>
      obtain ⟨rfl, htail⟩ := List.cons.inj hplaces
      rw [ih htail, List.flatMap_cons, byteLength_append, Nat.add_assoc]
      rfl
  | @use o' e' hvar' he' text found places _ ih =>
    cases before with
    | nil =>
      obtain ⟨hp, -⟩ := List.cons.inj hplaces
      obtain ⟨rfl, -⟩ := Place.use.inj hp
      rfl
    | cons p before =>
      obtain ⟨rfl, htail⟩ := List.cons.inj hplaces
      rw [ih htail, List.flatMap_cons, byteLength_append, Nat.add_assoc]
      rfl

lemma eq_of_byteLength_eq {rest front' rest' : List Char} (h : front ++ rest = front' ++ rest')
    (hbytes : byteLength front = byteLength front') : front = front' ∧ rest = rest' := by
  have hcut : cutAt? (byteLength front) (front ++ rest) = some (front, rest) := cutAt?_eq_some_iff.2 ⟨rfl, rfl⟩
  have hcut' : cutAt? (byteLength front) (front ++ rest) = some (front', rest') :=
    cutAt?_eq_some_iff.2 ⟨h, hbytes.symm⟩
  rw [hcut] at hcut'
  exact Prod.mk.inj (Option.some.inj hcut')

/-- The byte where an occurrence starts tells the texts at both sides of its place. -/
lemma Lays.around (h : Lays table 0 text found (before ++ .use o e hvar :: after))
    (htext : text = front ++ (o.var.chars ++ behind)) (hstart : o.start = byteLength front) :
    before.flatMap Place.chars = front ∧ after.flatMap Place.chars = behind := by
  have hchars := h.flatMap_chars
  rw [htext, List.flatMap_append, List.flatMap_cons] at hchars
  have hbytes := h.start
  obtain ⟨hbefore, hrest⟩ := eq_of_byteLength_eq hchars (by omega)
  exact ⟨hbefore, List.append_cancel_left hrest⟩

end Lays

/-! ## The neighbours of a bare label value -/

/-- A part of code that can follow a bare label value. -/
def Piece.endsValue (p : Piece) : Bool :=
  p.is ',' || p.is '\x7d' || p.is ']' || p.is ')' || p.isBlank

lemma codeVerdict_eq_bare {inGrouping : Bool} {before after : List Piece}
    (h : codeVerdict inGrouping before after = .context (.labelValue false)) :
    endsWithMatcher before = true ∧ after.head?.all Piece.endsValue = true := by
  simp only [codeVerdict] at h
  split_ifs at h with _ _ _ _ _ _ _ hboth
  · exact nomatch h
  · exact nomatch h
  · exact nomatch h
  · exact nomatch h
  · rw [Bool.and_eq_true] at hboth
    exact hboth.symm
  · exact nomatch h

lemma exists_of_endsWithMatcher {before : List Piece} (h : endsWithMatcher before = true) :
    ∃ c rest, before = .char c :: rest ∧ (c = '=' ∨ c = '~' ∨ Text.isPlainBlank c = true) := by
  cases before with
  | nil => cases h
  | cons p rest =>
    by_cases hblank : p.isBlank = true
    · cases p with
      | char c => exact ⟨c, rest, rfl, .inr (.inr hblank)⟩
      | _ => cases hblank
    · have hdrop : dropBlankPieces (p :: rest) = p :: rest := List.dropWhile_cons_of_neg hblank
      rw [endsWithMatcher, hdrop] at h
      split at h <;> simp_all

section Neighbours

variable {before parts : List Piece} {offset : Nat} {marks : List Bool} {found : List Occurrence} {o : Occurrence}

lemma context_of_mem_literalOccurrences {context : Context} {body : List Inner}
    (h : o ∈ literalOccurrences context offset body) : o.context = context := by
  induction body generalizing offset with
  | nil => cases h
  | cons part body ih =>
    cases part with
    | char c => exact ih h
    | var v =>
      rcases List.mem_cons.1 h with rfl | h
      · rfl
      · exact ih h

/-- A bare label value is a variable in code with the verdict of its neighbours. -/
lemma exists_bare_part (h : occurrencesFrom before offset parts marks = .ok found) (ho : o ∈ found)
    (hcontext : o.context = .labelValue false) :
    ∃ front behind inGrouping, parts = front ++ .var o.var :: behind ∧
      o.start = offset + byteLength (front.flatMap Piece.chars) ∧
      codeVerdict inGrouping (front.reverse ++ before) behind = .context (.labelValue false) := by
  induction parts generalizing before offset marks found with
  | nil =>
    obtain rfl := Except.ok.inj h
    cases ho
  | cons p parts ih =>
    obtain ⟨here, rest, rfl, hhere, hrest⟩ := occurrencesFrom_cons h
    rcases List.mem_append.1 ho with ho | ho
    · cases p with
      | char c =>
        obtain rfl := hhere
        cases ho
      | literal quote body closed =>
        obtain rfl := hhere
        rw [context_of_mem_literalOccurrences ho] at hcontext
        exact absurd hcontext (literalContext_ne body closed before)
      | var v =>
        obtain ⟨context, hverdict, rfl⟩ := hhere
        obtain rfl := List.mem_singleton.1 ho
        obtain rfl : context = .labelValue false := hcontext
        exact ⟨[], parts, _, rfl, rfl, hverdict⟩
    · obtain ⟨front, behind, inGrouping, rfl, hstart, hverdict⟩ := ih hrest ho
      refine ⟨p :: front, behind, inGrouping, rfl, ?_, ?_⟩
      · rw [hstart, List.flatMap_cons, byteLength_append, Nat.add_assoc]
      · rwa [List.reverse_cons, List.append_assoc]

lemma exists_of_endsValue {p : Piece} (h : p.endsValue = true) :
    ∃ c, p = .char c ∧ c ≠ '$' := by
  cases p with
  | char c =>
    refine ⟨c, rfl, ?_⟩
    rintro rfl
    cases h
  | _ => cases h

/-- An operator or a blank stands before a bare label value, and no variable behind it. -/
lemma exists_bare_neighbours {query : String} (h : classify query = .ok found) (ho : o ∈ found)
    (hcontext : o.context = .labelValue false) :
    ∃ front c behind, query.toList = front ++ [c] ++ (o.var.chars ++ behind) ∧ o.start = byteLength (front ++ [c]) ∧
      (c = '=' ∨ c = '~' ∨ Text.isPlainBlank c = true) ∧ behind.head? ≠ some '$' := by
  obtain ⟨front, behind, inGrouping, hparts, hstart, hverdict⟩ := exists_bare_part h ho hcontext
  obtain ⟨hmatcher, hends⟩ := codeVerdict_eq_bare hverdict
  rw [List.append_nil] at hmatcher
  obtain ⟨c, rest, hfront, hc⟩ := exists_of_endsWithMatcher hmatcher
  obtain rfl : front = rest.reverse ++ [.char c] := by
    rw [← List.reverse_reverse front, hfront, List.reverse_cons]
  have hchars : (rest.reverse ++ [Piece.char c]).flatMap Piece.chars = rest.reverse.flatMap Piece.chars ++ [c] := by
    rw [List.flatMap_append]
    rfl
  rw [hchars, Nat.zero_add] at hstart
  refine ⟨rest.reverse.flatMap Piece.chars, c, behind.flatMap Piece.chars, ?_, hstart, hc, ?_⟩
  · rw [← flatMap_chars_piecesOf, hparts, List.flatMap_append, List.flatMap_cons, hchars]
    rfl
  · cases behind with
    | nil => simp
    | cons p behind =>
      obtain ⟨d, rfl, hd⟩ := exists_of_endsValue hends
      simpa [Piece.chars] using hd

/-- No variable of the places ends in the character. -/
def EndsNone (places : List Place) (c : Char) : Prop :=
  ∀ o e hvar, .use o e hvar ∈ places → o.var.chars.getLast? ≠ some c

lemma exists_last_char {places : List Place} {front : List Char} {c : Char} (hnone : EndsNone places c)
    (h : places.flatMap Place.chars = front ++ [c]) : ∃ before, places = before ++ [.char c] := by
  rcases List.eq_nil_or_concat' places with rfl | ⟨before, p, rfl⟩
  · simp at h
  · refine ⟨before, ?_⟩
    have hlast := congrArg List.getLast? h
    rw [List.flatMap_append, List.flatMap_singleton, List.getLast?_concat] at hlast
    cases p with
    | char d =>
      rw [Place.chars, List.getLast?_concat] at hlast
      rw [Option.some.inj hlast]
    | use o e hvar =>
      rw [Place.chars, List.getLast?_append_of_ne_nil _ o.var.chars_ne_nil] at hlast
      exact absurd hlast (hnone o e hvar (by simp))

lemma exists_first_char {places : List Place} {behind : List Char} {c : Char} (hc : c ≠ '$')
    (h : places.flatMap Place.chars = c :: behind) : ∃ after, places = .char c :: after := by
  cases places with
  | nil => cases h
  | cons p places =>
    cases p with
    | char d =>
      obtain ⟨rfl, -⟩ := List.cons.inj h
      exact ⟨places, rfl⟩
    | use o e hvar =>
      obtain ⟨name, hname⟩ := exists_chars_eq_cons o.var
      rw [List.flatMap_cons, Place.chars, hname] at h
      exact absurd (List.cons.inj h).1.symm hc

end Neighbours

/-! ## The whole query -/

/-- The occurrence is written between two double quotes. -/
def BetweenQuotes (query : List Char) (o : Occurrence) : Prop :=
  ∃ front behind, query = front ++ ['"'] ++ (o.var.chars ++ '"' :: behind) ∧ o.start = byteLength (front ++ ['"'])

/-- The quoting of the first use of a variable as a label value. -/
def firstQuoting (found : List Occurrence) (v : Variable) : Option Bool :=
  ((found.filter (·.var = v)).map Occurrence.context).findSome? Context.labelQuoted?

/-- A variable with a bare label value is first used as one and is nowhere between two double quotes. -/
def QuotesKept (query : List Char) (found : List Occurrence) : Prop :=
  ∀ o ∈ found, o.context = .labelValue false →
    firstQuoting found o.var = some false ∧ ∀ o' ∈ found, o'.var = o.var → ¬BetweenQuotes query o'

section Query

variable {query : String} {found : List Occurrence} {places : List Place} {o : Occurrence} {e : Entry}
  {hvar : e.var = o.var}

lemma getLast_ne_of_mem (h : classify query = .ok found) (ho : o ∈ found) {c : Char}
    (hword : Text.isWordChar c = false) (hbrace : c ≠ '\x7d') : o.var.chars.getLast? ≠ some c := by
  intro hlast
  obtain ⟨_, behind, -, -, -, hspelled⟩ := spelledAt_of_classify h ho
  obtain ⟨d, hd, hends⟩ := hspelled.exists_last
  rw [hd] at hlast
  obtain rfl := Option.some.inj hlast
  rcases hends with hends | hends
  · rw [hword] at hends
    cases hends
  · exact hbrace hends

lemma Lays.endsNone (hlays : Lays (tableOf found) 0 query.toList found places) (h : classify query = .ok found)
    {c : Char} (hword : Text.isWordChar c = false) (hbrace : c ≠ '\x7d') : EndsNone places c := fun _ _ _ hp =>
  getLast_ne_of_mem h (hlays.mem hp).1 hword hbrace

lemma isWordChar_operator {c : Char} (h : c = '=' ∨ c = '~' ∨ Text.isPlainBlank c = true) :
    Text.isWordChar c = false ∧ c ≠ '\x7d' ∧ c ≠ '"' := by
  rcases h with rfl | rfl | h
  · decide
  · decide
  · simp only [Text.isPlainBlank, Bool.or_eq_true, beq_iff_eq] at h
    rcases h with (((rfl | rfl) | rfl) | rfl) | rfl <;> decide

/-- The neighbours of a bare label value keep it apart from quotes and from other variables. -/
lemma Lays.apart (hlays : Lays (tableOf found) 0 query.toList found places) (h : classify query = .ok found)
    (p q : Place) (hwithin : [p, q] <:+: places) : p.Apart q := by
  obtain ⟨before, after, rfl⟩ := hwithin
  cases q with
  | char c => cases p <;> trivial
  | use o e hvar =>
    have hsplit : before ++ [p, .use o e hvar] ++ after = before ++ [p] ++ .use o e hvar :: after := by simp
    rw [hsplit] at hlays
    have ho := (hlays.mem (List.mem_append_right _ List.mem_cons_self)).1
    -- What stands before a bare label value is a character, and one of an operator or a blank.
    have hbefore : o.context = .labelValue false → ∃ c, p = .char c ∧ c ≠ '"' := by
      intro hcontext
      obtain ⟨front, c, behind, htext, hstart, hc, -⟩ := exists_bare_neighbours h ho hcontext
      obtain ⟨hword, hbrace, hquote⟩ := isWordChar_operator hc
      obtain ⟨hfront, -⟩ := hlays.around htext hstart
      have hnone : EndsNone (before ++ [p]) c := fun o' e' hvar' hp =>
        hlays.endsNone h hword hbrace o' e' hvar' (List.mem_append_left _ hp)
      obtain ⟨before', heq⟩ := exists_last_char hnone hfront
      obtain ⟨-, hp⟩ := List.append_inj' heq rfl
      exact ⟨c, (List.cons.inj hp).1, hquote⟩
    cases p with
    | char c =>
      intro hcontext
      obtain ⟨d, hd, hquote⟩ := hbefore hcontext
      rwa [Place.char.inj hd]
    | use o' e' hvar' =>
      refine ⟨fun hcontext => ?_, fun hcontext => ?_⟩
      · rw [List.append_assoc, List.singleton_append] at hlays
        have ho' := (hlays.mem (List.mem_append_right _ List.mem_cons_self)).1
        obtain ⟨front, c, behind, htext, hstart, -, hbehind⟩ := exists_bare_neighbours h ho' hcontext
        obtain ⟨-, hafter⟩ := hlays.around htext hstart
        obtain ⟨name, hname⟩ := exists_chars_eq_cons o.var
        rw [List.flatMap_cons, Place.chars, hname] at hafter
        exact hbehind (by rw [← hafter]; rfl)
      · obtain ⟨c, hc, -⟩ := hbefore hcontext
        cases hc

lemma Lays.betweenQuotes_iff (hlays : Lays (tableOf found) 0 query.toList found places)
    (h : classify query = .ok found) (hp : .use o e hvar ∈ places) :
    BetweenQuotes query.toList o ↔ [.char '"', .use o e hvar, .char '"'] <:+: places := by
  constructor
  · rintro ⟨front, behind, htext, hstart⟩
    obtain ⟨before, after, rfl⟩ := List.append_of_mem hp
    obtain ⟨hbefore, hafter⟩ := hlays.around htext hstart
    have hnone : EndsNone before '"' := fun o' e' hvar' hp' =>
      hlays.endsNone h rfl (by decide) o' e' hvar' (List.mem_append_left _ hp')
    obtain ⟨before, rfl⟩ := exists_last_char hnone hbefore
    obtain ⟨after, rfl⟩ := exists_first_char (by decide) hafter
    exact ⟨before, after, by simp⟩
  · rintro ⟨before, after, rfl⟩
    have hsplit : before ++ [.char '"', .use o e hvar, .char '"'] ++ after =
        before ++ [.char '"'] ++ .use o e hvar :: .char '"' :: after := by simp
    rw [hsplit] at hlays
    have hchars : (before ++ [Place.char '"']).flatMap Place.chars = before.flatMap Place.chars ++ ['"'] := by
      rw [List.flatMap_append]
      rfl
    refine ⟨before.flatMap Place.chars, after.flatMap Place.chars, ?_, ?_⟩
    · rw [← hlays.flatMap_chars, List.flatMap_append, hchars]
      rfl
    · rw [hlays.start, hchars, Nat.zero_add]

lemma labelQuoted_eq (he : e ∈ tableOf found) : e.labelQuoted = firstQuoting found e.var := by
  obtain ⟨index, v, -, rfl⟩ := mem_tableOf.1 he
  rfl

lemma losesQuotes_iff (he : e ∈ tableOf found) : LosesQuotes (tableOf found) e.plain ↔ e.labelQuoted = some false := by
  constructor
  · rintro ⟨e', he', hplain, hquoted⟩
    have hnumber : e'.plain.number = e.plain.number := by rw [hplain]
    rwa [← eq_of_number_eq he' he hnumber]
  · exact fun hquoted => ⟨e, he, rfl, hquoted⟩

lemma Lays.keeps_iff (hlays : Lays (tableOf found) 0 query.toList found places) (h : classify query = .ok found) :
    Keeps (LosesQuotes (tableOf found)) places ↔ QuotesKept query.toList found := by
  constructor
  · intro hkeeps o ho hcontext
    obtain ⟨e, hvar, hp⟩ := hlays.exists_use ho
    have hfirst : firstQuoting found o.var = some false := by
      rw [← hvar, ← labelQuoted_eq (hlays.mem hp).2, ← losesQuotes_iff (hlays.mem hp).2]
      exact hkeeps.bare _ hp hcontext
    refine ⟨hfirst, fun o' ho' hsame hbetween => ?_⟩
    obtain ⟨e', hvar', hp'⟩ := hlays.exists_use ho'
    refine hkeeps.between o' e' hvar' ?_ ((hlays.betweenQuotes_iff h hp').1 hbetween)
    rw [losesQuotes_iff (hlays.mem hp').2, labelQuoted_eq (hlays.mem hp').2, hvar', hsame, hfirst]
  · intro hkept
    refine ⟨fun p hp => ?_, fun o e hvar hloses hwithin => ?_⟩
    · cases p with
      | char c => trivial
      | use o e hvar =>
        intro hcontext
        obtain ⟨ho, he⟩ := hlays.mem hp
        rw [losesQuotes_iff he, labelQuoted_eq he, hvar]
        exact (hkept o ho hcontext).1
    · have hp : .use o e hvar ∈ places := hwithin.subset (by simp)
      obtain ⟨ho, he⟩ := hlays.mem hp
      obtain ⟨o', ho', hsame, hcontext⟩ := exists_bare_of_labelQuoted he ((losesQuotes_iff he).1 hloses)
      refine (hkept o' ho' hcontext).2 o ho (by rw [hsame, hvar]) ?_
      exact (hlays.betweenQuotes_iff h hp).2 hwithin

lemma exists_use_of_standIn (h : .standIn e ∈ places.flatMap Place.encoded) :
    ∃ o e' hvar, .use o e' hvar ∈ places ∧ e'.plain = e := by
  obtain ⟨p, hp, he⟩ := List.mem_flatMap.1 h
  cases p with
  | char c => simp [Place.encoded] at he
  | use o e' hvar =>
    refine ⟨o, e', hvar, hp, ?_⟩
    rw [Place.encoded] at he
    split at he
    · simpa [quotedStandIn, eq_comm] using he
    · simpa [eq_comm] using he

lemma Lays.exists_entry (hlays : Lays (tableOf found) 0 query.toList found places)
    (he : .standIn e ∈ places.flatMap Place.encoded) : ∃ e' ∈ tableOf found, e'.plain = e := by
  obtain ⟨o, e', hvar, hp, hplain⟩ := exists_use_of_standIn he
  exact ⟨e', (hlays.mem hp).2, hplain⟩

lemma getLast_ne_quote (h : classify query = .ok found) (he : e ∈ tableOf found) :
    e.var.chars.getLast? ≠ some '"' := by
  obtain ⟨index, v, hindex, rfl⟩ := mem_tableOf.1 he
  obtain ⟨o, ho, rfl⟩ := mem_allocation.1 (List.mem_of_getElem? hindex)
  exact getLast_ne_of_mem h ho rfl (by decide)

lemma Lays.infix_query (hlays : Lays (tableOf found) 0 query.toList found places) {text : List Char}
    (hquote : '"' ∉ text) (hwithin : text <:+: original (places.flatMap Place.encoded)) : text <:+: query.toList := by
  rw [← hlays.flatMap_chars]
  exact infix_of_infix_encoded hquote hwithin

lemma Lays.tame (hlays : Lays (tableOf found) 0 query.toList found places) (h : classify query = .ok found)
    (hearly : ∀ e ∈ tableOf found, e.Early) (hnine : '9' ∉ query.toList)
    (hpoint : ¬".000".toList <:+: query.toList) : Tame (places.flatMap Place.encoded) where
  early e he := by
    obtain ⟨e', he', rfl⟩ := hlays.exists_entry he
    exact hearly e' he'
  number a b ha hb hnumber := by
    obtain ⟨e, he, rfl⟩ := hlays.exists_entry ha
    obtain ⟨e', he', rfl⟩ := hlays.exists_entry hb
    rw [eq_of_number_eq he he' hnumber]
  noNine hmem := by
    obtain ⟨left, right, hsplit⟩ := List.append_of_mem hmem
    have hwithin : ['9'] <:+: query.toList :=
      hlays.infix_query (by decide) ⟨left, right, by rw [hsplit, List.append_assoc, List.singleton_append]⟩
    exact hnine (hwithin.subset List.mem_cons_self)
  plain e he := by
    obtain ⟨e, -, rfl⟩ := hlays.exists_entry he
    rfl
  last e he := by
    obtain ⟨e', he', rfl⟩ := hlays.exists_entry he
    change e'.var.chars.getLast? ≠ some '"'
    exact getLast_ne_quote h he'
  point e hwithin := by
    obtain ⟨before, after, hsplit⟩ := hwithin
    apply hpoint
    apply hlays.infix_query (by decide)
    have hinstant : original (.standIn e :: ".000".toList.map .char) = original [.standIn e] ++ ".000".toList := by
      rw [original_cons, original_map_char]
    refine ⟨original before ++ original [.standIn e], original after, ?_⟩
    rw [← hsplit, original_append, original_append, hinstant, ← List.append_assoc]

lemma nodup_tableOf (found : List Occurrence) : (tableOf found).Nodup := by
  rw [List.Nodup]
  exact (pairwise_number found).imp fun hlt heq => hlt.ne (congrArg Entry.number heq)

/-- Decoding takes quotes from around variables, as long as one that loses its quotes has any. -/
lemma Lays.exists_decodeChars (hlays : Lays (tableOf found) 0 query.toList found places)
    (h : classify query = .ok found) (hearly : ∀ e ∈ tableOf found, e.Early) (hnine : '9' ∉ query.toList)
    (htexts : ∀ text ∈ [".000", "d7h", "d8h", "d9h"], ¬text.toList <:+: query.toList) :
    ∃ segments, decodeChars (tableOf found) (written [] (places.flatMap Place.encoded)) = original segments ∧
      Reduces (LosesQuotes (tableOf found)) (places.flatMap Place.encoded) segments ∧
      ∀ e, LosesQuotes (tableOf found) e → ¬quotedStandIn e <:+: segments := by
  have htame := hlays.tame h hearly hnine (htexts ".000" (by simp))
  have hhours : ∀ x ∈ ['7', '8', '9'], ¬['d', x, 'h'] <:+: original (places.flatMap Place.encoded) := by
    intro x hx hwithin
    rcases (by simpa using hx : x = '7' ∨ x = '8' ∨ x = '9') with rfl | rfl | rfl
    · exact htexts "d7h" (by simp) (hlays.infix_query (by decide) hwithin)
    · exact htexts "d8h" (by simp) (hlays.infix_query (by decide) hwithin)
    · exact htexts "d9h" (by simp) (hlays.infix_query (by decide) hwithin)
  have hentries : ∀ e, e ∈ tokenEntries (tableOf found) ↔ e ∈ tableOf found := fun e => List.mem_mergeSort
  have hnodup : (tokenEntries (tableOf found)).Nodup := (List.mergeSort_perm _ _).nodup_iff.2 (nodup_tableOf found)
  obtain ⟨segments, hrun, hreduces, hnone⟩ := htame.foldl_restoreEntry (fun e he => hlays.exists_entry he) hearly
    (fun e he => getLast_ne_quote h he) (tokenEntries (tableOf found)) [] (fun e he => (hentries e).1 he) hnodup nofun
  refine ⟨segments, ?_, hreduces, ?_⟩
  · rw [decodeChars, restoreDurations_of_early htame.early hearly hhours, hrun]
    apply written_eq_original
    intro x hx
    obtain ⟨e, he, rfl⟩ := hlays.exists_entry (hreduces.mem hx)
    simpa using ⟨e, (hentries e).2 he, rfl⟩
  · rintro x ⟨e, he, rfl, hquoted⟩
    exact hnone e ((hentries e).2 he) hquoted

/-- A query with fewer than 9000 variables, without nines and without texts that stand-ins are printed as, comes back
from its encoded form exactly if each variable with a bare label value is first used as one and is nowhere written
between two double quotes. -/
theorem decode_encode_eq_iff {encoded : Encoded} (hclassify : classify query = .ok found)
    (hencode : encode query = .ok encoded) (hcount : encoded.table.length < 9000) (hnine : '9' ∉ query.toList)
    (htexts : ∀ text ∈ [".000", "d7h", "d8h", "d9h"], ¬text.toList <:+: query.toList) :
    decode encoded.table encoded.text = query ↔ QuotesKept query.toList found := by
  rw [encode_of_classify hclassify] at hencode
  obtain rfl := Except.ok.inj hencode
  obtain ⟨places, hlays, hwritten⟩ := (splices_of_classify hclassify).exists_lays fun o ho => find?_tableOf ho
  have hearly : ∀ e ∈ tableOf found, e.Early := fun e he =>
    ⟨(number_of_mem_tableOf he).1, (number_of_mem_tableOf he).2.trans (Nat.add_lt_add_left hcount _)⟩
  obtain ⟨segments, hdecode, hreduces, hnone⟩ := hlays.exists_decodeChars hclassify hearly hnine htexts
  calc
    decode (tableOf found) (String.ofList (encodePieces (tableOf found) (piecesOf query) found)) = query
      ↔ original segments = query.toList := by
        rw [decode, String.toList_ofList, ← hwritten, hdecode, ← String.toList_inj, String.toList_ofList]
    _ ↔ original segments = places.flatMap Place.chars := by rw [hlays.flatMap_chars]
    _ ↔ Keeps (LosesQuotes (tableOf found)) places := hreduces.original_eq_iff (hlays.apart hclassify) hnone
    _ ↔ QuotesKept query.toList found := hlays.keeps_iff hclassify

/-- The variable is bare, in single quotes, in a longer literal, and an operand. -/
def mixedSample : String :=
  "\x7ba=$x, b='$x', c=\"-$x\"\x7d > $x"

theorem decode_encode_eq_iff_sample :
    ∃ found encoded, classify mixedSample = .ok found ∧ encode mixedSample = .ok encoded ∧
      found.map Occurrence.context = [.labelValue false, .labelValue true, .generic, .generic] ∧
      decode encoded.table encoded.text = mixedSample ∧ QuotesKept mixedSample.toList found := by
  have hread : (encode mixedSample).toOption.any (fun encoded => decide (encoded.table.length = 1 ∧
      decode encoded.table encoded.text = mixedSample)) = true := by decide +kernel
  obtain ⟨encoded, hencode, hcheck⟩ := exists_ok_of_any hread
  obtain ⟨hcount, hdecode⟩ := of_decide_eq_true hcheck
  have hclassify : classify mixedSample = .ok _ := rfl
  have hkept := decode_encode_eq_iff hclassify hencode (by omega) (by decide) (by decide)
  exact ⟨_, encoded, hclassify, hencode, by decide, hdecode, hkept.1 hdecode⟩

/-- A literal loses its quotes if its variable is a bare label value before, and a bare label value gains quotes if its
variable is a literal before. -/
theorem quotes_are_lost_and_gained :
    (∃ encoded, encode "\x7ba=$x, b=\"$x\"\x7d" = .ok encoded ∧
        decode encoded.table encoded.text = "\x7ba=$x, b=$x\x7d") ∧
      ∃ encoded, encode "\x7ba='$x', b=$x\x7d" = .ok encoded ∧
        decode encoded.table encoded.text = "\x7ba='$x', b=\"$x\"\x7d" := by
  constructor
  · have hlost : (encode "\x7ba=$x, b=\"$x\"\x7d").toOption.any (fun encoded =>
        decide (decode encoded.table encoded.text = "\x7ba=$x, b=$x\x7d")) = true := by decide +kernel
    obtain ⟨encoded, hencode, hdecode⟩ := exists_ok_of_any hlost
    exact ⟨encoded, hencode, of_decide_eq_true hdecode⟩
  · have hgained : (encode "\x7ba='$x', b=$x\x7d").toOption.any (fun encoded =>
        decide (decode encoded.table encoded.text = "\x7ba='$x', b=\"$x\"\x7d")) = true := by decide +kernel
    obtain ⟨encoded, hencode, hdecode⟩ := exists_ok_of_any hgained
    exact ⟨encoded, hencode, of_decide_eq_true hdecode⟩

end Query

end QueryScope.Variable
