import QueryScope.Proofs.VariableSpans

/-!
# Queries with other names for their variables

A query in which the variables get other names falls into the same parts, up to the names. A dollar sign that starts
no variable starts none afterwards, and a literal ends at the same quote: no new name holds a quote, a backslash or a
closing brace.
-/

namespace QueryScope.Variable

/-! ## Renaming -/

/-- A name that stands for itself in code and in every literal: a word, or between braces a text without a closing
brace, quotes and backslashes. -/
def Named (v : Variable) : Prop :=
  v.name ≠ [] ∧
    if v.braced then ∀ c ∈ v.name, c ≠ '\x7d' ∧ c ≠ '\\' ∧ isQuote c = false
    else ∀ c ∈ v.name, Text.isWordChar c = true

instance (v : Variable) : Decidable v.Named :=
  decidable_of_iff
    (v.name ≠ [] ∧
      if v.braced then v.name.all (fun c => c ≠ '\x7d' ∧ c ≠ '\\' ∧ isQuote c = false) = true
      else v.name.all Text.isWordChar = true)
    (by simp only [Named, List.all_eq_true, decide_eq_true_eq])

/-- The function gives each of the variables a name of its own, with braces where there were some. -/
structure Renaming (f : Variable → Variable) (vs : List Variable) : Prop where
  braced : ∀ v ∈ vs, (f v).braced = v.braced
  named : ∀ v ∈ vs, (f v).Named
  injective : ∀ v ∈ vs, ∀ w ∈ vs, f v = f w → v = w

/-- A part of a literal with other names. -/
def Inner.rename (f : Variable → Variable) : Inner → Inner
  | char c => .char c
  | var v => .var (f v)

/-- A part of a query with other names. -/
def Piece.rename (f : Variable → Variable) : Piece → Piece
  | char c => .char c
  | var v => .var (f v)
  | literal quote body closed => .literal quote (body.map (Inner.rename f)) closed

/-- The variable of a part of a literal. -/
def Inner.variables : Inner → List Variable
  | char _ => []
  | var v => [v]

/-- The variables of a part of a query. -/
def Piece.variables : Piece → List Variable
  | char _ => []
  | var v => [v]
  | literal _ body _ => body.flatMap Inner.variables

/-- The variables of a query. -/
def variablesOf (query : String) : List Variable :=
  (piecesOf query).flatMap Piece.variables

/-- The query with other names for its variables. -/
def renamed (f : Variable → Variable) (query : String) : String :=
  String.ofList (((piecesOf query).map (Piece.rename f)).flatMap Piece.chars)

/-! ## Texts -/

/-- The second text is the first one with other names for some variables. -/
inductive Respelled (f : Variable → Variable) : List Char → List Char → Prop
  | nil : Respelled f [] []
  | char (c : Char) {text text' : List Char} (h : Respelled f text text') : Respelled f (c :: text) (c :: text')
  | var {v : Variable} {text text' : List Char} (hlast : v.chars.getLast? ≠ some '\\')
      (hbraced : (f v).braced = v.braced) (hnamed : (f v).Named) (h : Respelled f text text') :
      Respelled f (v.chars ++ text) ((f v).chars ++ text')

section Respelled

variable {f : Variable → Variable} {text text' : List Char}

lemma Respelled.append {behind behind' : List Char} (h : Respelled f text text')
    (hbehind : Respelled f behind behind') : Respelled f (text ++ behind) (text' ++ behind') := by
  induction h with
  | nil => exact hbehind
  | char c _ ih => exact .char c ih
  | var hlast hbraced hnamed _ ih =>
    rw [List.append_assoc, List.append_assoc]
    exact .var hlast hbraced hnamed ih

lemma Respelled.head?_eq (h : Respelled f text text') : text.head? = text'.head? := by
  cases h with
  | nil => rfl
  | char c h => rfl
  | @var v text text' _ _ _ _ =>
    obtain ⟨name, hname⟩ := exists_chars_eq_cons v
    obtain ⟨name', hname'⟩ := exists_chars_eq_cons (f v)
    rw [hname, hname']
    rfl

lemma mem_chars_of_braced {v : Variable} (h : v.braced = true) : '\x7d' ∈ v.chars := by
  simp [chars, h]

lemma Named.brace_notMem {v : Variable} (h : v.Named) (hbraced : v.braced = false) : '\x7d' ∉ v.chars := by
  have hword := h.2
  simp only [hbraced, Bool.false_eq_true, if_false] at hword
  simp only [chars, hbraced, Bool.false_eq_true, if_false, List.mem_cons, not_or]
  exact ⟨by decide, fun hmem => absurd (hword _ hmem) (by decide)⟩

/-- New names bring no closing brace into a text that has none. -/
lemma Respelled.brace_mem (h : Respelled f text text') (hmem : '\x7d' ∈ text') : '\x7d' ∈ text := by
  induction h with
  | nil => exact hmem
  | char c _ ih =>
    rcases List.mem_cons.1 hmem with rfl | hrest
    · exact List.mem_cons_self
    · exact List.mem_cons_of_mem c (ih hrest)
  | @var v text text' _ hbraced hnamed _ ih =>
    rw [List.mem_append]
    cases hb : v.braced with
    | true => exact .inl (mem_chars_of_braced hb)
    | false =>
      rcases List.mem_append.1 hmem with hname | hrest
      · exact absurd hname (hnamed.brace_notMem (hbraced.trans hb))
      · exact .inr (ih hrest)

/-- A dollar sign starts a variable in front of a word, and in front of braces with a text between them. -/
lemma starts_dollar_iff : Starts ('$' :: text) ↔
    text.head?.any Text.isWordChar = true ∨
      ∃ inner, text = '\x7b' :: inner ∧ '\x7d' ∈ inner ∧ inner.head? ≠ some '\x7d' := by
  constructor
  · rintro ⟨⟨braced, name⟩, behind, htext, hname, hspelled⟩
    obtain ⟨first, more, rfl⟩ := List.exists_cons_of_ne_nil hname
    cases braced with
    | true =>
      have hbrace : '\x7d' ∉ first :: more := hspelled
      obtain rfl : text = '\x7b' :: (first :: more ++ '\x7d' :: behind) := by simpa [chars] using htext
      refine .inr ⟨_, rfl, by simp, fun hhead => hbrace ?_⟩
      rw [Option.some.inj hhead]
      exact List.mem_cons_self
    | false =>
      have hword : ∀ c ∈ first :: more, Text.isWordChar c = true := hspelled.1
      obtain rfl : text = first :: more ++ behind := by simpa [chars] using htext
      exact .inl (hword first List.mem_cons_self)
  · rintro (hword | ⟨inner, rfl, hmem, hhead⟩)
    · cases text with
      | nil => cases hword
      | cons c rest =>
        refine ⟨⟨false, (c :: rest).takeWhile Text.isWordChar⟩, (c :: rest).dropWhile Text.isWordChar, ?_, ?_, ?_, ?_⟩
        · simp [chars]
        · simpa using hword
        · exact fun d hd => List.mem_takeWhile_imp hd
        · intro d hd
          have hhead := List.head?_dropWhile_not Text.isWordChar (c :: rest)
          rw [Option.mem_def.1 hd] at hhead
          exact hhead
    · obtain ⟨name, behind, rfl, hname⟩ := List.eq_append_cons_of_mem hmem
      have hne : name ≠ [] := by
        rintro rfl
        exact hhead rfl
      exact ⟨⟨true, name⟩, behind, by simp [chars], hne, hname⟩

lemma Respelled.starts {c : Char} (h : Respelled f text text') (hstarts : Starts (c :: text')) :
    Starts (c :: text) := by
  have hc : c = '$' := by
    obtain ⟨v, behind, htext, -⟩ := hstarts
    obtain ⟨name, hname⟩ := exists_chars_eq_cons v
    rw [hname] at htext
    exact (List.cons.inj htext).1
  subst hc
  rw [starts_dollar_iff] at hstarts ⊢
  rw [h.head?_eq]
  refine hstarts.imp_right ?_
  rintro ⟨inner', htext', hmem, hhead⟩
  cases h with
  | nil => cases htext'
  | char c h =>
    obtain ⟨rfl, rfl⟩ := List.cons.inj htext'
    exact ⟨_, rfl, h.brace_mem hmem, h.head?_eq ▸ hhead⟩
  | @var v text text' _ _ _ h =>
    obtain ⟨name, hname⟩ := exists_chars_eq_cons (f v)
    rw [hname] at htext'
    exact absurd (List.cons.inj htext').1 (by decide)

end Respelled

/-! ## Literals -/

section Literal

variable {f : Variable → Variable} {quote c : Char} {escaped closed : Bool} {text text' inside front : List Char}

/-- A literal goes on over a character that is escaped or is not its quote. -/
lemma literalInside_cons_iff :
    literalInside quote escaped (c :: text) = (c :: inside, closed) ↔
      (escaped = true ∨ c ≠ quote) ∧
        literalInside quote (!escaped && (c = '\\' && quote != '\x60')) text = (inside, closed) := by
  cases escaped with
  | true => simp [literalInside, Prod.ext_iff]
  | false =>
    by_cases hc : c = quote
    · simp [literalInside, hc]
    · simp [literalInside, hc, Prod.ext_iff]

/-- Behind a character other than a backslash nothing is escaped. -/
lemma literalInside_behind (hc : c ≠ '\\')
    (h : literalInside quote escaped (front ++ c :: text) = (front ++ c :: inside, closed)) :
    literalInside quote false text = (inside, closed) := by
  induction front generalizing escaped with
  | nil =>
    have hrest := (literalInside_cons_iff.1 h).2
    simpa [hc] using hrest
  | cons d front ih => exact ih (literalInside_cons_iff.1 h).2

/-- A literal goes on over characters that are neither its quote nor backslashes. -/
lemma literalInside_plain (hplain : ∀ c ∈ front, c ≠ '\\' ∧ c ≠ quote)
    (h : literalInside quote false text = (inside, closed)) :
    literalInside quote false (front ++ text) = (front ++ inside, closed) := by
  induction front with
  | nil => exact h
  | cons c front ih =>
    obtain ⟨⟨hslash, hquote⟩, hfront⟩ := List.forall_mem_cons.1 hplain
    refine literalInside_cons_iff.2 ⟨.inr hquote, ?_⟩
    simpa [hslash] using ih hfront

lemma Named.plain {v : Variable} (h : v.Named) (hquote : isQuote quote = true) :
    ∀ c ∈ v.chars, c ≠ '\\' ∧ c ≠ quote := by
  have hchars : ∀ c ∈ v.chars, c ≠ '\\' ∧ isQuote c = false := by
    obtain ⟨braced, name⟩ := v
    cases braced with
    | true =>
      have hname : ∀ c ∈ name, c ≠ '\x7d' ∧ c ≠ '\\' ∧ isQuote c = false := h.2
      simp only [chars, if_true, List.cons_append, List.forall_mem_cons, List.forall_mem_append]
      exact ⟨by decide, by decide, fun c hc => (hname c hc).2, by decide, List.forall_mem_nil _⟩
    | false =>
      have hname : ∀ c ∈ name, Text.isWordChar c = true := h.2
      simp only [chars, Bool.false_eq_true, if_false, List.forall_mem_cons]
      refine ⟨by decide, fun c hc => ⟨?_, ?_⟩⟩
      · rintro rfl
        exact absurd (hname _ hc) (by decide)
      · by_contra hne
        have hword := isWordChar_quote (Bool.eq_true_of_not_eq_false hne)
        rw [hname c hc] at hword
        cases hword
  intro c hc
  refine ⟨(hchars c hc).1, ?_⟩
  rintro rfl
  rw [(hchars c hc).2] at hquote
  cases hquote

/-- A literal ends at the same place in a text with other names. -/
lemma Respelled.literalInside_eq (h : Respelled f text text') (hquote : isQuote quote = true) {behind : List Char}
    (hinside : literalInside quote escaped (text ++ behind) = (text ++ inside, closed)) :
    literalInside quote escaped (text' ++ behind) = (text' ++ inside, closed) := by
  induction h generalizing escaped with
  | nil => exact hinside
  | char c _ ih =>
    obtain ⟨hc, hrest⟩ := literalInside_cons_iff.1 hinside
    exact literalInside_cons_iff.2 ⟨hc, ih hrest⟩
  | @var v text text' hlast hbraced hnamed _ ih =>
    obtain ⟨front, last, hv⟩ : ∃ front last, v.chars = front ++ [last] :=
      (List.eq_nil_or_concat' v.chars).resolve_left v.chars_ne_nil
    have hslash : last ≠ '\\' := by
      rintro rfl
      exact hlast (by rw [hv, List.getLast?_concat])
    simp only [hv, List.append_assoc, List.singleton_append] at hinside
    have hrest := ih (literalInside_behind hslash hinside)
    have hplain := hnamed.plain hquote
    obtain ⟨name, hname⟩ := exists_chars_eq_cons (f v)
    rw [hname, List.forall_mem_cons] at hplain
    rw [hname, List.append_assoc, List.append_assoc, List.cons_append, List.cons_append, literalInside_cons_iff]
    exact ⟨.inr hplain.1.2, by simpa using literalInside_plain hplain.2 hrest⟩

lemma within_iff (hquote : quote ≠ '\\') :
    Within quote inside ↔ literalInside quote false (inside ++ [quote]) = (inside, true) :=
  ⟨literalInside_of_within hquote, (within_literalInside quote _).1 inside⟩

lemma Respelled.within (h : Respelled f text text') (hquote : isQuote quote = true) (hwithin : Within quote text) :
    Within quote text' := by
  have hslash := ne_backslash_of_isQuote hquote
  have hinside : literalInside quote false (text ++ [quote]) = (text ++ [], true) := by
    rw [List.append_nil]
    exact (within_iff hslash).1 hwithin
  rw [within_iff hslash, h.literalInside_eq hquote hinside, List.append_nil]

lemma Respelled.neverCloses (h : Respelled f text text') (hquote : isQuote quote = true)
    (hnever : NeverCloses quote text) : NeverCloses quote text' := by
  have hslash := ne_backslash_of_isQuote hquote
  have hinside : literalInside quote false (text ++ []) = (text ++ [], false) := by
    rw [List.append_nil]
    exact (neverCloses_iff hslash).1 hnever
  have hinside' := h.literalInside_eq hquote hinside
  rw [List.append_nil] at hinside'
  exact (neverCloses_iff hslash).2 hinside'

end Literal

/-! ## Parts -/

section Parts

variable {f : Variable → Variable}

/-- A new name is written in full where the old one was. -/
lemma Named.spelled {v w : Variable} {rest rest' : List Char} (h : w.Named) (hbraced : w.braced = v.braced)
    (hspelled : v.Spelled rest) (hhead : rest.head? = rest'.head?) : w.Spelled rest' := by
  refine ⟨h.1, ?_⟩
  have hname := h.2
  have hrest := hspelled.2
  cases hb : v.braced with
  | true =>
    simp only [hbraced, hb, if_true] at hname ⊢
    exact fun hmem => (hname _ hmem).1 rfl
  | false =>
    simp only [hbraced, hb, Bool.false_eq_true, if_false] at hname hrest ⊢
    exact ⟨hname, hhead ▸ hrest.2⟩

lemma Spelled.getLast?_ne {v : Variable} {rest : List Char} (h : v.Spelled rest) :
    v.chars.getLast? ≠ some '\\' := by
  obtain ⟨c, hc, hlast⟩ := h.exists_last
  rw [hc]
  rintro heq
  obtain rfl := Option.some.inj heq
  exact absurd hlast (by decide)

lemma InnerTiles.renamed {body : List Inner} {inside : List Char} (h : InnerTiles body inside)
    (hvars : ∀ v ∈ body.flatMap Inner.variables, (f v).braced = v.braced ∧ (f v).Named) :
    InnerTiles (body.map (Inner.rename f)) ((body.map (Inner.rename f)).flatMap Inner.chars) ∧
      Respelled f inside ((body.map (Inner.rename f)).flatMap Inner.chars) := by
  induction h with
  | nil => exact ⟨.nil, .nil⟩
  | @char c parts rest hvar _ ih =>
    obtain ⟨htiles, hrest⟩ := ih hvars
    exact ⟨.char (fun hstarts => hvar (hrest.starts hstarts)) htiles, .char c hrest⟩
  | @var v parts rest hspelled _ ih =>
    obtain ⟨⟨hbraced, hnamed⟩, hparts⟩ := List.forall_mem_cons.1 hvars
    obtain ⟨htiles, hrest⟩ := ih hparts
    exact ⟨.var (hnamed.spelled hbraced hspelled hrest.head?_eq) htiles, .var hspelled.getLast?_ne hbraced hnamed hrest⟩

/-- By induction on the parts: the new names come one part after another, in front of a text that has them already. -/
lemma Tiles.renamed {parts : List Piece} {text : List Char} (h : Tiles parts text)
    (hvars : ∀ v ∈ parts.flatMap Piece.variables, (f v).braced = v.braced ∧ (f v).Named) :
    Tiles (parts.map (Piece.rename f)) ((parts.map (Piece.rename f)).flatMap Piece.chars) ∧
      Respelled f text ((parts.map (Piece.rename f)).flatMap Piece.chars) := by
  induction h with
  | nil => exact ⟨.nil, .nil⟩
  | @char c parts rest hquote hvar _ ih =>
    obtain ⟨htiles, hrest⟩ := ih hvars
    exact ⟨.char hquote (fun hstarts => hvar (hrest.starts hstarts)) htiles, .char c hrest⟩
  | @var v parts rest hspelled _ ih =>
    obtain ⟨⟨hbraced, hnamed⟩, hparts⟩ := List.forall_mem_cons.1 hvars
    obtain ⟨htiles, hrest⟩ := ih hparts
    exact ⟨.var (hnamed.spelled hbraced hspelled hrest.head?_eq) htiles, .var hspelled.getLast?_ne hbraced hnamed hrest⟩
  | @closed quote body inside parts rest hquote hinside hbody _ ih =>
    rw [List.flatMap_cons, List.forall_mem_append] at hvars
    obtain ⟨hinner, hrespelled⟩ := hbody.renamed hvars.1
    obtain ⟨htiles, hrest⟩ := ih hvars.2
    have htext : ((Piece.literal quote body true :: parts).map (Piece.rename f)).flatMap Piece.chars =
        quote :: ((body.map (Inner.rename f)).flatMap Inner.chars ++
          quote :: (parts.map (Piece.rename f)).flatMap Piece.chars) := by
      simp [Piece.rename, Piece.chars]
    rw [htext]
    exact ⟨.closed hquote (hrespelled.within hquote hinside) hinner htiles,
      .char quote (hrespelled.append (.char quote hrest))⟩
  | @unclosed quote body inside hquote hinside hbody =>
    rw [List.flatMap_cons, List.forall_mem_append] at hvars
    obtain ⟨hinner, hrespelled⟩ := hbody.renamed hvars.1
    have htext : ([Piece.literal quote body false].map (Piece.rename f)).flatMap Piece.chars =
        quote :: (body.map (Inner.rename f)).flatMap Inner.chars := by
      simp [Piece.rename, Piece.chars]
    rw [htext]
    exact ⟨.unclosed hquote (hrespelled.neverCloses hquote hinside) hinner, .char quote hrespelled⟩

/-- The parts of a query with other names are the parts of the query, with other names. -/
lemma piecesOf_renamed {query : String} (h : Renaming f (variablesOf query)) :
    piecesOf (renamed f query) = (piecesOf query).map (Piece.rename f) := by
  have hvars : ∀ v ∈ (piecesOf query).flatMap Piece.variables, (f v).braced = v.braced ∧ (f v).Named := fun v hv =>
    ⟨h.braced v hv, h.named v hv⟩
  have htiles := ((tiles_piecesOf query).renamed hvars).1
  rw [← String.toList_ofList (l := ((piecesOf query).map (Piece.rename f)).flatMap Piece.chars)] at htiles
  exact (tiles_iff.1 htiles).symm

end Parts

end QueryScope.Variable
