import Mathlib.Tactic
import QueryScope.Proofs.VariableParts

/-!
# The parts of a query by a grammar

A grammar says how the parts tile a query: a literal goes up to the first quote that is not escaped, a variable is
read wherever one is written in full, and what is left are single characters. A quote inside the braces of a
variable opens no literal, and a variable in a literal ends before the literal does.
-/

namespace QueryScope.Variable

/-! ## Variables -/

/-- The variable is written in full before a text: its name is a word that does not go on there, or the first
closing brace ends it. -/
def Spelled (v : Variable) (behind : List Char) : Prop :=
  v.name ≠ [] ∧
    if v.braced then '\x7d' ∉ v.name
    else (∀ c ∈ v.name, Text.isWordChar c = true) ∧ ∀ c ∈ behind.head?, Text.isWordChar c = false

/-- A variable starts the text. -/
def Starts (text : List Char) : Prop :=
  ∃ v behind, text = v.chars ++ behind ∧ Spelled v behind

section Read

variable {v : Variable} {text rest : List Char}

lemma spelled_of_read? (h : read? text = some (v, rest)) : '$' :: text = v.chars ++ rest ∧ v.Spelled rest := by
  unfold read? at h
  split at h
  · next inner =>
    have hsplit := @List.takeWhile_append_dropWhile _ (· != '\x7d') inner
    have hname : '\x7d' ∉ inner.takeWhile (· != '\x7d') := fun hmem => by
      simpa using List.mem_takeWhile_imp hmem
    simp only at h
    split at h
    · cases h
    · next c behind hbehind =>
      split at h
      · cases h
      · next hne =>
        obtain ⟨rfl, rfl⟩ : ⟨true, _⟩ = v ∧ behind = rest := by simpa using h
        have hc : c = '\x7d' := by
          have := List.head?_dropWhile_not (· != '\x7d') inner
          simpa [hbehind] using this
        subst hc
        rw [hbehind] at hsplit
        exact ⟨by simp [chars, hsplit], by simpa using hne, by simpa [Spelled] using hname⟩
  · simp only at h
    split at h
    · cases h
    · next hne =>
      obtain ⟨rfl, rfl⟩ : ⟨false, _⟩ = v ∧ _ = rest := by simpa using h
      have hsplit := @List.takeWhile_append_dropWhile _ Text.isWordChar text
      refine ⟨by simp [chars, hsplit], by simpa using hne, ?_⟩
      simp only [Bool.false_eq_true, if_false]
      refine ⟨fun c hc => List.mem_takeWhile_imp hc, fun c hc => ?_⟩
      have hhead := List.head?_dropWhile_not Text.isWordChar text
      rw [Option.mem_def] at hc
      rw [hc] at hhead
      simpa using hhead

lemma read?_of_spelled (htext : '$' :: text = v.chars ++ rest) (h : v.Spelled rest) :
    read? text = some (v, rest) := by
  obtain ⟨braced, name⟩ := v
  obtain ⟨hname, h⟩ := h
  cases braced with
  | true =>
    have hbrace : '\x7d' ∉ name := h
    obtain rfl : text = '\x7b' :: (name ++ '\x7d' :: rest) := by simpa [chars] using htext
    have hall : ∀ c ∈ name, (c != '\x7d') = true := fun c hc => by
      simpa using fun heq : c = '\x7d' => hbrace (heq ▸ hc)
    have htake : (name ++ '\x7d' :: rest).takeWhile (· != '\x7d') = name := by
      rw [List.takeWhile_append_of_pos hall, List.takeWhile_cons_of_neg (by simp), List.append_nil]
    have hdrop : (name ++ '\x7d' :: rest).dropWhile (· != '\x7d') = '\x7d' :: rest := by
      rw [List.dropWhile_append_of_pos hall, List.dropWhile_cons_of_neg (by simp)]
    simp [read?, htake, hdrop, hname]
  | false =>
    obtain ⟨hword, hend⟩ : (∀ c ∈ name, Text.isWordChar c = true) ∧ ∀ c ∈ rest.head?, Text.isWordChar c = false := h
    obtain rfl : text = name ++ rest := by simpa [chars] using htext
    have htake : (name ++ rest).takeWhile Text.isWordChar = name := by
      rw [List.takeWhile_append_of_pos hword]
      cases rest with
      | nil => simp
      | cons c rest => rw [List.takeWhile_cons_of_neg (by simp [hend c rfl]), List.append_nil]
    have hdrop : (name ++ rest).dropWhile Text.isWordChar = rest := by
      rw [List.dropWhile_append_of_pos hword]
      cases rest with
      | nil => rfl
      | cons c rest => rw [List.dropWhile_cons_of_neg (by simp [hend c rfl])]
    unfold read?
    split
    · next inner hinner =>
      cases name with
      | nil => exact absurd rfl hname
      | cons c name =>
        obtain ⟨rfl, -⟩ := List.cons.inj hinner
        exact absurd (hword '\x7b' List.mem_cons_self) (by decide)
    · simp [htake, hdrop, hname]

/-- A variable is read exactly where one is written in full. -/
lemma read?_eq_some_iff : read? text = some (v, rest) ↔ '$' :: text = v.chars ++ rest ∧ v.Spelled rest :=
  ⟨spelled_of_read?, fun h => read?_of_spelled h.1 h.2⟩

lemma length_chars (v : Variable) : v.chars.length = v.width + 1 := by
  unfold chars width
  split
  · simp
  · simp

lemma chars_ne_nil (v : Variable) : v.chars ≠ [] := by
  rw [← List.length_pos_iff_ne_nil, length_chars]
  omega

/-- A variable ends in a character of a word or in a brace. -/
lemma Spelled.exists_last (h : v.Spelled rest) :
    ∃ c, v.chars.getLast? = some c ∧ (Text.isWordChar c = true ∨ c = '\x7d') := by
  obtain ⟨braced, name⟩ := v
  obtain ⟨hname, h⟩ := h
  cases braced with
  | true =>
    refine ⟨'\x7d', ?_, .inr rfl⟩
    rw [chars, if_pos rfl]
    exact List.getLast?_concat
  | false =>
    refine ⟨name.getLast hname, ?_, .inl (h.1 _ (List.getLast_mem hname))⟩
    simp [chars, List.getLast?_cons, List.getLast?_eq_getLast_of_ne_nil hname]

/-- The first character of a text with the variable that it starts. -/
lemma readHead_eq_some_iff {c : Char} :
    (if c = '$' then read? text else none) = some (v, rest) ↔ c :: text = v.chars ++ rest ∧ v.Spelled rest := by
  by_cases hc : c = '$'
  · rw [if_pos hc, read?_eq_some_iff, hc]
  · rw [if_neg hc]
    constructor
    · exact nofun
    · rintro ⟨htext, -⟩
      unfold chars at htext
      split at htext
      · exact absurd (List.cons.inj htext).1 hc
      · exact absurd (List.cons.inj htext).1 hc

lemma readHead_eq_none_iff {c : Char} :
    (if c = '$' then read? text else none) = none ↔ ¬Starts (c :: text) := by
  rw [Option.eq_none_iff_forall_not_mem]
  constructor
  · rintro h ⟨v, behind, htext, hspelled⟩
    exact h (v, behind) (readHead_eq_some_iff.2 ⟨htext, hspelled⟩)
  · rintro h ⟨v, behind⟩ hread
    exact h ⟨v, behind, readHead_eq_some_iff.1 hread⟩

lemma drop_width_of_eq {c : Char} (h : c :: text = v.chars ++ rest) : text.drop v.width = rest := by
  have hdrop := congrArg (List.drop (v.width + 1)) h
  rwa [List.drop_succ_cons, ← length_chars, List.drop_left] at hdrop

end Read

/-! ## Literals -/

/-- How the parts tile the inside of a literal. -/
inductive InnerTiles : List Inner → List Char → Prop
  | nil : InnerTiles [] []
  | char {c : Char} {parts : List Inner} {rest : List Char} (hvar : ¬Starts (c :: rest)) (h : InnerTiles parts rest) :
      InnerTiles (.char c :: parts) (c :: rest)
  | var {v : Variable} {parts : List Inner} {rest : List Char} (hspelled : v.Spelled rest)
      (h : InnerTiles parts rest) : InnerTiles (.var v :: parts) (v.chars ++ rest)

lemma innerTiles_innerParts (skip : Nat) (text : List Char) : InnerTiles (innerParts skip text) (text.drop skip) := by
  induction text generalizing skip with
  | nil => cases skip <;> exact .nil
  | cons c rest ih =>
    cases skip with
    | succ skip => exact ih skip
    | zero =>
      rw [innerParts]
      split
      · next v behind hread =>
        obtain ⟨htext, hspelled⟩ := readHead_eq_some_iff.1 hread
        have hrest := ih v.width
        rw [drop_width_of_eq htext] at hrest
        rw [List.drop_zero, htext]
        exact .var hspelled hrest
      · next hread => exact .char (readHead_eq_none_iff.1 hread) (ih 0)

lemma innerParts_eq_drop (skip : Nat) (text : List Char) : innerParts skip text = innerParts 0 (text.drop skip) := by
  induction text generalizing skip with
  | nil => cases skip <;> rfl
  | cons c rest ih =>
    cases skip with
    | zero => rfl
    | succ skip => exact ih skip

lemma InnerTiles.eq_innerParts {parts : List Inner} {text : List Char} (h : InnerTiles parts text) :
    parts = innerParts 0 text := by
  induction h with
  | nil => rfl
  | char hvar _ ih => rw [innerParts, readHead_eq_none_iff.2 hvar, ih]
  | @var v parts rest hspelled _ ih =>
    cases htext : v.chars ++ rest with
    | nil => simp [chars_ne_nil] at htext
    | cons c behind =>
      rw [innerParts, readHead_eq_some_iff.2 ⟨htext.symm, hspelled⟩]
      dsimp only
      rw [innerParts_eq_drop, drop_width_of_eq htext.symm, ih]

/-- A text that may stand between the quotes of a literal: behind a backslash, backticks apart, every character may
stand, and elsewhere every one but the quote. -/
inductive Within (quote : Char) : List Char → Prop
  | nil : Within quote []
  | char {c : Char} {rest : List Char} (hquote : c ≠ quote) (hplain : c = '\\' → quote = '\x60')
      (h : Within quote rest) : Within quote (c :: rest)
  | escape {c : Char} {rest : List Char} (hquote : quote ≠ '\x60') (h : Within quote rest) :
      Within quote ('\\' :: c :: rest)

/-- The literal that goes on with this text is not closed. -/
def NeverCloses (quote : Char) (text : List Char) : Prop :=
  ∀ inside rest, text = inside ++ quote :: rest → ¬Within quote inside

section Literal

variable {quote : Char} {text inside rest : List Char}

lemma literalInside_of_within (hquote : quote ≠ '\\') (h : Within quote inside) :
    literalInside quote false (inside ++ quote :: rest) = (inside, true) := by
  induction h with
  | nil => simp [literalInside]
  | @char c inside hne hplain _ ih =>
    have hescaped : (decide (c = '\\') && quote != '\x60') = false := by
      by_cases hc : c = '\\'
      · simp [hplain hc]
      · simp [hc]
    rw [List.cons_append, literalInside, if_neg hne, hescaped, ih]
  | @escape c inside hne _ ih =>
    have hescaped : (decide ('\\' = '\\') && quote != '\x60') = true := by simpa using hne
    rw [List.cons_append, List.cons_append, literalInside, if_neg hquote.symm, hescaped, literalInside, ih]

/-- The closing quote of a literal is found behind an inside, also if the first character is escaped. -/
lemma within_literalInside (quote : Char) (text : List Char) :
    (∀ inside, literalInside quote false text = (inside, true) → Within quote inside) ∧
      ∀ inside, literalInside quote true text = (inside, true) → ∃ c rest, inside = c :: rest ∧ Within quote rest := by
  induction text with
  | nil => exact ⟨nofun, nofun⟩
  | cons c text ih =>
    constructor
    · intro inside h
      rw [literalInside] at h
      by_cases hc : c = quote
      · rw [if_pos hc] at h
        obtain rfl := (Prod.mk.inj h).1
        exact .nil
      · rw [if_neg hc] at h
        cases hresult : literalInside quote (decide (c = '\\') && quote != '\x60') text with
        | mk behind closed =>
          rw [hresult] at h
          obtain ⟨rfl, rfl⟩ := Prod.mk.inj h
          by_cases hescape : c = '\\' ∧ quote ≠ '\x60'
          · rw [show (decide (c = '\\') && quote != '\x60') = true by simpa using hescape] at hresult
            obtain ⟨next, rest, rfl, hrest⟩ := ih.2 _ hresult
            rw [hescape.1]
            exact .escape hescape.2 hrest
          · rw [show (decide (c = '\\') && quote != '\x60') = false by simpa using hescape] at hresult
            exact .char hc (by tauto) (ih.1 _ hresult)
    · intro inside h
      rw [literalInside] at h
      obtain ⟨rfl, hclosed⟩ := Prod.mk.inj h
      exact ⟨c, _, rfl, ih.1 _ (Prod.ext rfl hclosed)⟩

lemma literalInside_of_unclosed {escaped : Bool} (h : literalInside quote escaped text = (inside, false)) :
    inside = text := by
  induction text generalizing escaped inside with
  | nil =>
    cases escaped <;> exact (Prod.mk.inj h).1.symm
  | cons c text ih =>
    cases escaped with
    | true =>
      obtain ⟨rfl, hclosed⟩ := Prod.mk.inj h
      exact congrArg (c :: ·) (ih (Prod.ext rfl hclosed))
    | false =>
      rw [literalInside] at h
      split_ifs at h with hc
      · cases h
      · obtain ⟨rfl, hclosed⟩ := Prod.mk.inj h
        exact congrArg (c :: ·) (ih (Prod.ext rfl hclosed))

lemma neverCloses_of_unclosed (hquote : quote ≠ '\\') (h : literalInside quote false text = (inside, false)) :
    NeverCloses quote text := by
  rintro inside rest rfl hwithin
  rw [literalInside_of_within hquote hwithin] at h
  cases h

/-- A literal is not closed if its quote is looked for in vain. -/
lemma neverCloses_iff (hquote : quote ≠ '\\') :
    NeverCloses quote text ↔ literalInside quote false text = (text, false) := by
  refine ⟨fun h => ?_, neverCloses_of_unclosed hquote⟩
  cases hresult : literalInside quote false text with
  | mk inside closed =>
    cases closed with
    | true =>
      have htext := literalInside_append quote false text
      rw [hresult] at htext
      have hclosing : text = inside ++ quote :: text.drop (inside.length + 1) := by simpa using htext.symm
      exact absurd ((within_literalInside quote text).1 inside hresult) (h _ _ hclosing)
    | false => rw [literalInside_of_unclosed hresult]

end Literal

/-! ## Whole queries -/

lemma ne_backslash_of_isQuote {c : Char} (h : isQuote c = true) : c ≠ '\\' := by
  rintro rfl
  exact absurd h (by decide)

/-- How the parts tile a query. -/
inductive Tiles : List Piece → List Char → Prop
  | nil : Tiles [] []
  | char {c : Char} {parts : List Piece} {rest : List Char} (hquote : isQuote c = false) (hvar : ¬Starts (c :: rest))
      (h : Tiles parts rest) : Tiles (.char c :: parts) (c :: rest)
  | var {v : Variable} {parts : List Piece} {rest : List Char} (hspelled : v.Spelled rest) (h : Tiles parts rest) :
      Tiles (.var v :: parts) (v.chars ++ rest)
  | closed {quote : Char} {body : List Inner} {inside : List Char} {parts : List Piece} {rest : List Char}
      (hquote : isQuote quote = true) (hinside : Within quote inside) (hbody : InnerTiles body inside)
      (h : Tiles parts rest) : Tiles (.literal quote body true :: parts) (quote :: (inside ++ quote :: rest))
  | unclosed {quote : Char} {body : List Inner} {inside : List Char} (hquote : isQuote quote = true)
      (hinside : NeverCloses quote inside) (hbody : InnerTiles body inside) :
      Tiles [.literal quote body false] (quote :: inside)

lemma pieces_length (text : List Char) : pieces text.length text = [] := by
  induction text with
  | nil => rfl
  | cons c rest ih => exact ih

lemma tiles_pieces (skip : Nat) (text : List Char) : Tiles (pieces skip text) (text.drop skip) := by
  induction text generalizing skip with
  | nil => cases skip <;> exact .nil
  | cons c rest ih =>
    cases skip with
    | succ skip => exact ih skip
    | zero =>
      rw [List.drop_zero, pieces]
      by_cases hquote : isQuote c = true
      · rw [if_pos hquote]
        have hbackslash := ne_backslash_of_isQuote hquote
        cases hinside : literalInside c false rest with
        | mk inside closed =>
          have hbody := innerTiles_innerParts 0 inside
          have htext := literalInside_append c false rest
          have hrest := ih (inside.length + if closed then 1 else 0)
          rw [hinside] at htext
          cases closed with
          | true =>
            have hwithin := (within_literalInside c rest).1 inside hinside
            have hrest' : rest = inside ++ c :: rest.drop (inside.length + 1) := by simpa using htext.symm
            have htiles := Tiles.closed hquote hwithin hbody hrest
            rwa [if_pos rfl, ← hrest'] at htiles
          | false =>
            obtain rfl := literalInside_of_unclosed hinside
            have htiles := Tiles.unclosed hquote (neverCloses_of_unclosed hbackslash hinside) hbody
            rw [← pieces_length inside] at htiles
            exact htiles
      · rw [if_neg hquote]
        split
        · next v behind hread =>
          obtain ⟨htext, hspelled⟩ := readHead_eq_some_iff.1 hread
          have hrest := ih v.width
          rw [drop_width_of_eq htext] at hrest
          rw [htext]
          exact .var hspelled hrest
        · next hread => exact .char (by simpa using hquote) (readHead_eq_none_iff.1 hread) (ih 0)

lemma pieces_eq_drop (skip : Nat) (text : List Char) : pieces skip text = pieces 0 (text.drop skip) := by
  induction text generalizing skip with
  | nil => cases skip <;> rfl
  | cons c rest ih =>
    cases skip with
    | zero => rfl
    | succ skip => exact ih skip

/-- The grammar leaves no choice. -/
lemma Tiles.eq_pieces {parts : List Piece} {text : List Char} (h : Tiles parts text) : parts = pieces 0 text := by
  induction h with
  | nil => rfl
  | char hquote hvar _ ih => rw [pieces, if_neg (by simp [hquote]), readHead_eq_none_iff.2 hvar, ih]
  | @var v parts rest hspelled _ ih =>
    cases htext : v.chars ++ rest with
    | nil => simp [chars_ne_nil] at htext
    | cons c behind =>
      have hread := readHead_eq_some_iff.2 ⟨htext.symm, hspelled⟩
      have hquote : isQuote c = false := by
        by_cases hc : c = '$'
        · rw [hc]
          rfl
        · rw [if_neg hc] at hread
          cases hread
      rw [pieces, if_neg (by simp [hquote]), hread]
      dsimp only
      rw [pieces_eq_drop, drop_width_of_eq htext.symm, ih]
  | @closed quote body inside parts rest hquote hinside hbody _ ih =>
    have hbackslash := ne_backslash_of_isQuote hquote
    rw [pieces, if_pos hquote, literalInside_of_within hbackslash hinside]
    dsimp only
    rw [pieces_eq_drop, hbody.eq_innerParts, ih]
    simp
  | @unclosed quote body inside hquote hinside hbody =>
    have hbackslash := ne_backslash_of_isQuote hquote
    rw [pieces, if_pos hquote, (neverCloses_iff hbackslash).1 hinside]
    dsimp only
    rw [if_neg (by simp), add_zero, pieces_length, hbody.eq_innerParts]

/-- The parts of a query are those of the grammar. -/
lemma tiles_iff {parts : List Piece} {query : String} : Tiles parts query.toList ↔ parts = piecesOf query := by
  constructor
  · exact fun h => h.eq_pieces
  · rintro rfl
    exact tiles_pieces 0 query.toList

end QueryScope.Variable
