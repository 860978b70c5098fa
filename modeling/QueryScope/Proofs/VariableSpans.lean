import QueryScope.Proofs.CodecRoundTrip
import QueryScope.Proofs.QueryTiling

/-!
# The variables of a query and the bytes they take

The occurrences that are found in a query lie one behind another on the boundaries of its characters, none is
missing, and the encoded query is the query with each of them cut out and its stand-in put there.
-/

namespace QueryScope.Variable

/-! ## Bytes -/

lemma byteLength_append (a b : List Char) : byteLength (a ++ b) = byteLength a + byteLength b := by
  induction a with
  | nil => simp [byteLength]
  | cons c a ih =>
    change c.utf8Size + byteLength (a ++ b) = c.utf8Size + byteLength a + byteLength b
    rw [ih, Nat.add_assoc]

lemma byteLength_cons (c : Char) (text : List Char) : byteLength (c :: text) = c.utf8Size + byteLength text :=
  rfl

lemma byteLength_pos {text : List Char} (h : text ≠ []) : 0 < byteLength text := by
  cases text with
  | nil => exact absurd rfl h
  | cons c text =>
    rw [byteLength_cons]
    have := c.utf8Size_pos
    omega

lemma byteLength_chars_pos (v : Variable) : 0 < byteLength v.chars :=
  byteLength_pos v.chars_ne_nil

/-- The text before a byte and the text from it on, unless the byte is inside a character or behind the text. -/
def cutAt? : (bytes : Nat) → List Char → Option (List Char × List Char)
  | 0, text => some ([], text)
  | _ + 1, [] => none
  | bytes + 1, c :: rest =>
    if c.utf8Size ≤ bytes + 1 then (cutAt? (bytes + 1 - c.utf8Size) rest).map fun cut => (c :: cut.1, cut.2)
    else none

lemma cutAt?_eq_some_iff {bytes : Nat} {text front rest : List Char} :
    cutAt? bytes text = some (front, rest) ↔ text = front ++ rest ∧ byteLength front = bytes := by
  induction text generalizing bytes front with
  | nil =>
    cases bytes with
    | zero =>
      simp only [cutAt?, Option.some.injEq, Prod.mk.injEq]
      constructor
      · rintro ⟨rfl, rfl⟩
        exact ⟨rfl, rfl⟩
      · rintro ⟨htext, -⟩
        obtain ⟨rfl, rfl⟩ := List.append_eq_nil_iff.1 htext.symm
        exact ⟨rfl, rfl⟩
    | succ bytes =>
      simp only [cutAt?, reduceCtorEq, false_iff]
      rintro ⟨htext, hbytes⟩
      rw [(List.append_eq_nil_iff.1 htext.symm).1] at hbytes
      cases hbytes
  | cons c text ih =>
    have hpos := c.utf8Size_pos
    cases bytes with
    | zero =>
      simp only [cutAt?, Option.some.injEq, Prod.mk.injEq]
      constructor
      · rintro ⟨rfl, rfl⟩
        exact ⟨rfl, rfl⟩
      · rintro ⟨htext, hbytes⟩
        have hfront : front = [] := by
          by_contra hne
          have := byteLength_pos hne
          omega
        rw [hfront] at htext ⊢
        exact ⟨rfl, htext⟩
    | succ bytes =>
      rw [cutAt?]
      cases front with
      | nil =>
        split_ifs
        · simp [byteLength]
        · simp [byteLength]
      | cons first front =>
        rw [byteLength_cons, List.cons_append, List.cons.injEq]
        split_ifs with hsize
        · rw [Option.map_eq_some_iff]
          constructor
          · rintro ⟨⟨front', rest'⟩, hcut, heq⟩
            simp only [Prod.mk.injEq, List.cons.injEq] at heq
            obtain ⟨⟨rfl, rfl⟩, rfl⟩ := heq
            obtain ⟨htext, hbytes⟩ := ih.1 hcut
            exact ⟨⟨rfl, htext⟩, by omega⟩
          · rintro ⟨⟨rfl, htext⟩, hbytes⟩
            exact ⟨(front, rest), ih.2 ⟨htext, by omega⟩, rfl⟩
        · constructor
          · exact nofun
          · rintro ⟨⟨rfl, -⟩, hbytes⟩
            omega

/-- A text with the bytes of each occurrence cut out and its stand-in put there; `offset` bytes stand before the
text. There is none if an occurrence starts or ends inside a character, or not behind the one before it. -/
def splice? (standIn : Occurrence → List Char) : (offset : Nat) → List Char → List Occurrence → Option (List Char)
  | _, text, [] => some text
  | offset, text, o :: found =>
    if offset ≤ o.start ∧ o.start < o.stop then do
      let before ← cutAt? (o.start - offset) text
      let cut ← cutAt? (o.stop - o.start) before.2
      let rest ← splice? standIn o.stop cut.2 found
      return before.1 ++ standIn o ++ rest
    else none

/-- What an encoded query has in the place of an occurrence: quotes are put around a bare label value. -/
def standInOf (table : Table) (o : Occurrence) : List Char :=
  if o.context = .labelValue false then '"' :: tokenOf table o.var ++ ['"'] else tokenOf table o.var

/-! ## Occurrences by parts -/

/-- The occurrences of a part that starts at a byte. -/
def Piece.Holds (offset : Nat) : Piece → List Occurrence → Prop
  | char _, here => here = []
  | var v, here => ∃ context, here = [⟨v, offset, offset + byteLength v.chars, context⟩]
  | literal _ body _, here =>
    ∃ context, context ≠ .labelValue false ∧ here = literalOccurrences context (offset + 1) body

/-- The occurrences of parts of which the first starts at a byte. -/
inductive Finds : Nat → List Piece → List Occurrence → Prop
  | nil (offset : Nat) : Finds offset [] []
  | cons {offset : Nat} {p : Piece} {parts : List Piece} {here found : List Occurrence} (hhere : p.Holds offset here)
      (h : Finds (offset + byteLength p.chars) parts found) : Finds offset (p :: parts) (here ++ found)

lemma finds_of_occurrencesFrom {before parts : List Piece} {offset : Nat} {marks : List Bool}
    {found : List Occurrence} (h : occurrencesFrom before offset parts marks = .ok found) :
    Finds offset parts found := by
  induction parts generalizing before offset marks found with
  | nil =>
    obtain rfl := Except.ok.inj h
    exact .nil offset
  | cons p parts ih =>
    obtain ⟨here, behind, rfl, hhere, hrest⟩ := occurrencesFrom_cons h
    refine .cons ?_ (ih hrest)
    cases p with
    | char c => exact hhere
    | literal quote body closed => exact ⟨_, literalContext_ne body closed before, hhere⟩
    | var v =>
      obtain ⟨context, -, rfl⟩ := hhere
      exact ⟨context, rfl⟩

/-! ## Cutting and putting together -/

/-- A text falls into the occurrences and what stands between them, and the other text has the stand-ins of the
occurrences there. The first text starts at a byte. -/
inductive Splices (standIn : Occurrence → List Char) : Nat → List Char → List Occurrence → List Char → Prop
  | done (offset : Nat) (text : List Char) : Splices standIn offset text [] text
  | next {offset : Nat} {o : Occurrence} {found : List Occurrence} (gap : List Char) {behind out : List Char}
      (hstart : o.start = offset + byteLength gap) (hstop : o.stop = o.start + byteLength o.var.chars)
      (h : Splices standIn o.stop behind found out) :
      Splices standIn offset (gap ++ (o.var.chars ++ behind)) (o :: found) (gap ++ (standIn o ++ out))

section Splices

variable {standIn : Occurrence → List Char} {offset : Nat} {text out : List Char} {found : List Occurrence}

lemma Splices.gap (gap : List Char) (h : Splices standIn (offset + byteLength gap) text found out) :
    Splices standIn offset (gap ++ text) found (gap ++ out) := by
  cases h with
  | done => exact .done offset _
  | next gap' hstart hstop h =>
    rw [← List.append_assoc, ← List.append_assoc gap]
    refine .next (gap ++ gap') ?_ hstop h
    rw [hstart, byteLength_append, Nat.add_assoc]

lemma Splices.splice?_eq (h : Splices standIn offset text found out) : splice? standIn offset text found = some out := by
  induction h with
  | done => rfl
  | @next offset o found gap behind out hstart hstop _ ih =>
    have hpos := byteLength_chars_pos o.var
    have hbefore : o.start - offset = byteLength gap := by omega
    have hcut : o.stop - o.start = byteLength o.var.chars := by omega
    rw [splice?, if_pos (by omega), hbefore, hcut, cutAt?_eq_some_iff.2 ⟨rfl, rfl⟩]
    simp only [bind, Option.bind_some]
    rw [cutAt?_eq_some_iff.2 ⟨rfl, rfl⟩]
    simp [ih]

lemma Splices.le_start (h : Splices standIn offset text found out) : ∀ o ∈ found, offset ≤ o.start := by
  induction h with
  | done => exact nofun
  | @next offset o found gap behind out hstart hstop _ ih =>
    intro o' ho'
    rcases List.mem_cons.1 ho' with rfl | hmem
    · omega
    · have hle := ih o' hmem
      omega

lemma Splices.pairwise (h : Splices standIn offset text found out) : found.Pairwise fun o o' => o.stop ≤ o'.start := by
  induction h with
  | done => exact .nil
  | next gap hstart hstop h ih => exact .cons h.le_start ih

end Splices

section Finds

variable {table : Table} {offset : Nat} {parts : List Piece} {found : List Occurrence} {behind out : List Char}

lemma splices_literal {context : Context} (hcontext : context ≠ .labelValue false) (body : List Inner)
    (h : Splices (standInOf table) (offset + byteLength (body.flatMap Inner.chars)) behind found out) :
    Splices (standInOf table) offset (body.flatMap Inner.chars ++ behind)
      (literalOccurrences context offset body ++ found) (body.flatMap (encodeInner table) ++ out) := by
  induction body generalizing offset with
  | nil => exact h
  | cons part body ih =>
    cases part with
    | char c =>
      apply Splices.gap [c]
      apply ih
      simpa [Inner.chars, byteLength, Nat.add_assoc] using h
    | var v =>
      have hrest : Splices (standInOf table) (offset + byteLength v.chars + byteLength (body.flatMap Inner.chars))
          behind found out := by
        simpa [Inner.chars, byteLength_append, Nat.add_assoc] using h
      have hvar := Splices.next (o := ⟨v, offset, offset + byteLength v.chars, context⟩) [] rfl rfl (ih hrest)
      simpa [standInOf, hcontext, encodeInner, Inner.chars, literalOccurrences] using hvar

lemma byteLength_quote {c : Char} (h : isQuote c = true) : byteLength [c] = 1 := by
  simp only [isQuote, Bool.or_eq_true, beq_iff_eq] at h
  rcases h with (rfl | rfl) | rfl <;> rfl

lemma InnerTiles.flatMap_chars {body : List Inner} {inside : List Char} (h : InnerTiles body inside) :
    body.flatMap Inner.chars = inside := by
  induction h with
  | nil => rfl
  | char _ _ ih => rw [List.flatMap_cons, ih, Inner.chars, List.singleton_append]
  | var _ _ ih => rw [List.flatMap_cons, ih, Inner.chars]

/-- A literal between its quotes, of which the second may be missing. -/
lemma splices_quoted {quote : Char} {body : List Inner} {inside closing : List Char} {context : Context}
    (hquote : isQuote quote = true) (hbody : InnerTiles body inside) (hcontext : context ≠ .labelValue false)
    (h : Splices (standInOf table) (offset + byteLength (quote :: inside ++ closing)) behind found out) :
    Splices (standInOf table) offset ([quote] ++ (inside ++ (closing ++ behind)))
      (literalOccurrences context (offset + 1) body ++ found)
      ([quote] ++ (body.flatMap (encodeInner table) ++ (closing ++ out))) := by
  have hbytes := byteLength_quote hquote
  rw [← List.singleton_append, byteLength_append, byteLength_append, hbytes, ← Nat.add_assoc, ← Nat.add_assoc,
    ← hbody.flatMap_chars] at h
  rw [← hbody.flatMap_chars]
  apply Splices.gap
  rw [hbytes]
  apply splices_literal hcontext
  exact h.gap closing

/-- The encoded query is the query with stand-ins in the places of its occurrences. -/
lemma Tiles.splices {text : List Char} (h : Tiles parts text) (hfinds : Finds offset parts found) :
    Splices (standInOf table) offset text found (encodePieces table parts found) := by
  induction h generalizing offset found with
  | nil =>
    cases hfinds
    exact .done offset []
  | @char c parts rest hquote hvar _ ih =>
    cases hfinds with
    | cons hhere hrest =>
      obtain rfl := hhere
      exact Splices.gap [c] (ih hrest)
  | @var v parts rest hspelled _ ih =>
    cases hfinds with
    | cons hhere hrest =>
      obtain ⟨context, rfl⟩ := hhere
      have hvar := Splices.next (o := ⟨v, offset, offset + byteLength v.chars, context⟩) [] rfl rfl (ih hrest)
      rw [List.singleton_append, encodePieces_var parts ⟨v, offset, offset + byteLength v.chars, context⟩]
      exact hvar
  | @closed quote body inside parts rest hquote hinside hbody _ ih =>
    cases hfinds with
    | cons hhere hrest =>
      obtain ⟨context, hcontext, rfl⟩ := hhere
      rw [Piece.chars, if_pos rfl, hbody.flatMap_chars] at hrest
      rw [encodePieces_literal, if_pos rfl, List.append_assoc, List.append_assoc]
      exact splices_quoted hquote hbody hcontext (ih hrest)
  | @unclosed quote body inside hquote hinside hbody =>
    cases hfinds with
    | cons hhere hrest =>
      obtain ⟨context, hcontext, rfl⟩ := hhere
      cases hrest
      have hdone : Splices (standInOf table) (offset + byteLength (quote :: inside ++ [])) [] [] [] := .done _ []
      have hliteral := splices_quoted hquote hbody hcontext hdone
      rw [encodePieces_literal, if_neg (by simp), List.append_assoc, List.append_assoc]
      simpa [encodePieces] using hliteral

end Finds

/-! ## The bytes of an occurrence -/

/-- The occurrence is a variable that is written in full where it starts, up to where it stops. The text starts at
a byte. -/
def SpelledAt (offset : Nat) (text : List Char) (o : Occurrence) : Prop :=
  ∃ front behind, text = front ++ (o.var.chars ++ behind) ∧ o.start = offset + byteLength front ∧
    o.stop = o.start + byteLength o.var.chars ∧ o.var.Spelled behind

section SpelledAt

variable {offset : Nat} {text inside : List Char} {o : Occurrence}

lemma SpelledAt.gap (gap : List Char) (h : SpelledAt (offset + byteLength gap) text o) :
    SpelledAt offset (gap ++ text) o := by
  obtain ⟨front, behind, rfl, hstart, hstop, hspelled⟩ := h
  refine ⟨gap ++ front, behind, by rw [List.append_assoc], ?_, hstop, hspelled⟩
  rw [hstart, byteLength_append, Nat.add_assoc]

lemma isWordChar_quote {c : Char} (h : isQuote c = true) : Text.isWordChar c = false := by
  simp only [isQuote, Bool.or_eq_true, beq_iff_eq] at h
  rcases h with (rfl | rfl) | rfl <;> rfl

/-- A quote ends every name, so a variable goes up to the closing quote of a literal at most. -/
lemma Spelled.append_quote {v : Variable} {behind : List Char} (h : v.Spelled behind) {quote : Char}
    (hquote : isQuote quote = true) (rest : List Char) : v.Spelled (behind ++ quote :: rest) := by
  refine ⟨h.1, ?_⟩
  obtain ⟨braced, name⟩ := v
  cases braced with
  | true => exact h.2
  | false =>
    refine ⟨h.2.1, fun c hc => ?_⟩
    cases behind with
    | nil =>
      obtain rfl : quote = c := Option.some.inj hc
      exact isWordChar_quote hquote
    | cons first behind => exact h.2.2 c hc

lemma SpelledAt.append_quote (h : SpelledAt offset inside o) {quote : Char} (hquote : isQuote quote = true)
    (rest : List Char) : SpelledAt offset (inside ++ quote :: rest) o := by
  obtain ⟨front, behind, rfl, hstart, hstop, hspelled⟩ := h
  exact ⟨front, behind ++ quote :: rest, by simp, hstart, hstop, hspelled.append_quote hquote rest⟩

lemma InnerTiles.spelledAt {body : List Inner} {context : Context} (h : InnerTiles body inside)
    (ho : o ∈ literalOccurrences context offset body) : SpelledAt offset inside o := by
  induction h generalizing offset with
  | nil => cases ho
  | @char c parts rest hvar _ ih =>
    apply SpelledAt.gap [c]
    exact ih ho
  | @var v parts rest hspelled _ ih =>
    rw [literalOccurrences] at ho
    rcases List.mem_cons.1 ho with rfl | hmem
    · exact ⟨[], rest, rfl, rfl, rfl, hspelled⟩
    · exact SpelledAt.gap v.chars (ih hmem)

lemma Tiles.spelledAt {parts : List Piece} {found : List Occurrence} (h : Tiles parts text)
    (hfinds : Finds offset parts found) (ho : o ∈ found) : SpelledAt offset text o := by
  induction h generalizing offset found with
  | nil =>
    cases hfinds
    cases ho
  | @char c parts rest hquote hvar _ ih =>
    cases hfinds with
    | cons hhere hrest =>
      obtain rfl := hhere
      exact SpelledAt.gap [c] (ih hrest ho)
  | @var v parts rest hspelled _ ih =>
    cases hfinds with
    | cons hhere hrest =>
      obtain ⟨context, rfl⟩ := hhere
      rcases List.mem_cons.1 ho with rfl | hmem
      · exact ⟨[], rest, rfl, rfl, rfl, hspelled⟩
      · exact SpelledAt.gap v.chars (ih hrest hmem)
  | @closed quote body inside parts rest hquote hinside hbody _ ih =>
    cases hfinds with
    | cons hhere hrest =>
      obtain ⟨context, -, rfl⟩ := hhere
      rcases List.mem_append.1 ho with hmem | hmem
      · apply SpelledAt.gap [quote]
        rw [byteLength_quote hquote]
        exact (hbody.spelledAt hmem).append_quote hquote rest
      · have hbehind := ih hrest hmem
        rw [Piece.chars, if_pos rfl, hbody.flatMap_chars] at hbehind
        simpa using hbehind.gap
  | @unclosed quote body inside hquote hinside hbody =>
    cases hfinds with
    | cons hhere hrest =>
      obtain ⟨context, -, rfl⟩ := hhere
      cases hrest
      rw [List.append_nil] at ho
      apply SpelledAt.gap [quote]
      rw [byteLength_quote hquote]
      exact hbody.spelledAt ho

end SpelledAt

/-! ## No variable is missing -/

/-- The insides of the literals as the bytes from behind the first quote up to the second. -/
def literalInsides : (offset : Nat) → List Piece → List (Nat × Nat)
  | _, [] => []
  | offset, p :: parts =>
    (match p with
      | .literal _ body _ => [(offset + 1, offset + 1 + byteLength (body.flatMap Inner.chars))]
      | _ => []) ++ literalInsides (offset + byteLength p.chars) parts

/-- A variable is written in full from a byte on and ends no later than the inside of a literal in which it is. -/
def VariableAt (offset : Nat) (text : List Char) (insides : List (Nat × Nat)) (place : Nat) : Prop :=
  ∃ (v : Variable) (front behind : List Char),
    text = front ++ (v.chars ++ behind) ∧ place = offset + byteLength front ∧ v.Spelled behind ∧
    ∀ inside ∈ insides, inside.1 ≤ place → place < inside.2 → place + byteLength v.chars ≤ inside.2

/-- The byte belongs to one of the occurrences. -/
def Covered (found : List Occurrence) (place : Nat) : Prop :=
  ∃ o ∈ found, o.start ≤ place ∧ place < o.stop

section Covered

variable {offset place : Nat} {text inside front behind rest : List Char} {found : List Occurrence} {v : Variable}

/-- A text that starts in the middle of another one, or behind it. -/
lemma append_eq_append_cases {a rest front tail : List Char} (h : a ++ rest = front ++ tail) :
    (∃ front', front = a ++ front' ∧ rest = front' ++ tail) ∨
      ∃ middle, middle ≠ [] ∧ a = front ++ middle ∧ tail = middle ++ rest := by
  rcases List.append_eq_append_iff.1 h with ⟨front', hfront, hrest⟩ | ⟨middle, ha, htail⟩
  · exact .inl ⟨front', hfront, hrest⟩
  · by_cases hmiddle : middle = []
    · subst hmiddle
      exact .inl ⟨[], by simpa using ha.symm, by simpa using htail.symm⟩
    · exact .inr ⟨middle, hmiddle, ha, htail⟩

lemma Covered.append_left (h : Covered found place) (found' : List Occurrence) : Covered (found ++ found') place := by
  obtain ⟨o, ho, hplace⟩ := h
  exact ⟨o, List.mem_append_left _ ho, hplace⟩

lemma Covered.append_right (h : Covered found place) (found' : List Occurrence) :
    Covered (found' ++ found) place := by
  obtain ⟨o, ho, hplace⟩ := h
  exact ⟨o, List.mem_append_right _ ho, hplace⟩

lemma covered_of_middle {w : Variable} {middle : List Char} (hmiddle : middle ≠ []) (hw : w.chars = front ++ middle)
    (context : Context) (found : List Occurrence) :
    Covered (⟨w, offset, offset + byteLength w.chars, context⟩ :: found) (offset + byteLength front) := by
  have hpos := byteLength_pos hmiddle
  refine ⟨_, List.mem_cons_self, Nat.le_add_right _ _, ?_⟩
  change _ < offset + byteLength w.chars
  rw [hw, byteLength_append]
  omega

lemma InnerTiles.covered {body : List Inner} {context : Context} (h : InnerTiles body inside)
    (hinside : inside = front ++ (v.chars ++ behind)) (hspelled : v.Spelled behind) :
    Covered (literalOccurrences context offset body) (offset + byteLength front) := by
  induction h generalizing offset front with
  | nil => simp [chars_ne_nil] at hinside
  | @char c parts rest hvar _ ih =>
    cases front with
    | nil => exact absurd ⟨v, behind, hinside, hspelled⟩ hvar
    | cons first front =>
      obtain ⟨rfl, hrest⟩ := List.cons.inj hinside
      have hcovered : Covered (literalOccurrences context (offset + c.utf8Size) parts) _ := ih hrest
      rwa [Nat.add_assoc] at hcovered
  | @var w parts rest _ _ ih =>
    rw [literalOccurrences]
    rcases append_eq_append_cases hinside with ⟨front', rfl, hrest⟩ | ⟨middle, hmiddle, hw, -⟩
    · rw [byteLength_append, ← Nat.add_assoc]
      exact (ih hrest).append_right [_]
    · exact covered_of_middle hmiddle hw _ _

lemma Spelled.of_append (h : v.Spelled (behind ++ rest)) : v.Spelled behind := by
  refine ⟨h.1, ?_⟩
  obtain ⟨braced, name⟩ := v
  cases braced with
  | true => exact h.2
  | false =>
    refine ⟨h.2.1, fun c hc => h.2.2 c ?_⟩
    cases behind with
    | nil => cases hc
    | cons first behind => exact hc

lemma not_starts_quote {quote : Char} (hquote : isQuote quote = true) :
    quote :: rest ≠ v.chars ++ behind := by
  intro h
  obtain ⟨name, hname⟩ := exists_chars_eq_cons v
  rw [hname] at h
  rw [(List.cons.inj h).1] at hquote
  cases hquote

/-- A variable that ends inside a literal is one of its parts. -/
lemma InnerTiles.covered_of_le {body : List Inner} {context : Context} {middle : List Char} (h : InnerTiles body inside)
    (hinside : inside = front ++ middle) (htail : v.chars ++ behind = middle ++ rest) (hspelled : v.Spelled behind)
    (hle : byteLength v.chars ≤ byteLength middle) :
    Covered (literalOccurrences context offset body) (offset + byteLength front) := by
  rcases append_eq_append_cases htail.symm with ⟨more, hmore, hrest⟩ | ⟨more, -, hmiddle, hbehind⟩
  · -- The variable is at least as long as what is left of the literal, so it is all of it.
    have hnil : more = [] := by
      by_contra hne
      have hpos := byteLength_pos hne
      rw [hmore, byteLength_append] at hle
      omega
    rw [hnil, List.append_nil] at hmore
    have hfull : v.Spelled ([] ++ behind) := hspelled
    refine h.covered ?_ hfull.of_append
    rw [hinside, hmore, List.append_nil]
  · rw [hmiddle] at hinside
    exact h.covered hinside (hbehind ▸ hspelled).of_append

lemma Tiles.covered {parts : List Piece} (h : Tiles parts text) (hfinds : Finds offset parts found)
    (hvar : VariableAt offset text (literalInsides offset parts) place) : Covered found place := by
  obtain ⟨v, front, behind, htext, rfl, hspelled, hends⟩ := hvar
  induction h generalizing offset found front with
  | nil => simp [chars_ne_nil] at htext
  | @char c parts rest hquote hvar _ ih =>
    cases hfinds with
    | cons hhere hrest =>
      obtain rfl := hhere
      cases front with
      | nil => exact absurd ⟨v, behind, htext, hspelled⟩ hvar
      | cons first front =>
        obtain ⟨rfl, hbehind⟩ := List.cons.inj htext
        have hplace : offset + byteLength (c :: front) = offset + byteLength [c] + byteLength front := by
          rw [← List.singleton_append, byteLength_append, Nat.add_assoc]
        rw [hplace] at hends ⊢
        exact ih hrest front hbehind hends
  | @var w parts rest hspelled' _ ih =>
    cases hfinds with
    | cons hhere hrest =>
      obtain ⟨context, rfl⟩ := hhere
      rcases append_eq_append_cases htext with ⟨front', rfl, hbehind⟩ | ⟨middle, hmiddle, hw, -⟩
      · rw [byteLength_append, ← Nat.add_assoc] at hends ⊢
        exact (ih hrest front' hbehind hends).append_right [_]
      · exact covered_of_middle hmiddle hw _ _
  | @closed quote body inside parts rest hquote hinside hbody _ ih =>
    cases hfinds with
    | cons hhere hrest =>
      obtain ⟨context, -, rfl⟩ := hhere
      have hbytes := byteLength_quote hquote
      have hchars : (Piece.literal quote body true).chars = [quote] ++ (inside ++ [quote]) := by
        rw [Piece.chars, if_pos rfl, hbody.flatMap_chars]
        rfl
      cases front with
      | nil => exact absurd htext (not_starts_quote hquote)
      | cons first front =>
        obtain ⟨rfl, hbehind⟩ := List.cons.inj htext
        rcases append_eq_append_cases hbehind with ⟨front', rfl, hclosing⟩ | ⟨middle, hmiddle, hfront, htail⟩
        · cases front' with
          | nil => exact absurd hclosing (not_starts_quote hquote)
          | cons first front' =>
            obtain ⟨rfl, hrest'⟩ := List.cons.inj hclosing
            have hplace : offset + byteLength (quote :: (inside ++ quote :: front')) =
                offset + byteLength (Piece.literal quote body true).chars + byteLength front' := by
              rw [hchars, Nat.add_assoc, ← byteLength_append]
              simp
            rw [hplace] at hends ⊢
            refine (ih hrest front' hrest' fun bounds hbounds => ?_).append_right _
            exact hends bounds (List.mem_append_right _ hbounds)
        · have hplace : offset + byteLength (quote :: front) = offset + 1 + byteLength front := by
            rw [← List.singleton_append, byteLength_append, hbytes, Nat.add_assoc]
          have hpos := byteLength_pos hmiddle
          have hlength : byteLength (body.flatMap Inner.chars) = byteLength front + byteLength middle := by
            rw [hbody.flatMap_chars, hfront, byteLength_append]
          rw [hplace] at hends ⊢
          have hend := hends (offset + 1, _) (List.mem_append_left _ List.mem_cons_self)
          dsimp only at hend
          refine (hbody.covered_of_le hfront htail hspelled ?_).append_left _
          have hle := hend (by omega) (by omega)
          omega
  | @unclosed quote body inside hquote hinside hbody =>
    cases hfinds with
    | cons hhere hrest =>
      obtain ⟨context, -, rfl⟩ := hhere
      cases front with
      | nil => exact absurd htext (not_starts_quote hquote)
      | cons first front =>
        obtain ⟨rfl, hbehind⟩ := List.cons.inj htext
        have hplace : offset + byteLength (quote :: front) = offset + 1 + byteLength front := by
          rw [← List.singleton_append, byteLength_append, byteLength_quote hquote, Nat.add_assoc]
        rw [hplace]
        exact (hbody.covered hbehind hspelled).append_left _

end Covered

/-! ## The encoded query -/

section Query

variable {query : String} {found : List Occurrence}

lemma encode_of_classify (h : classify query = .ok found) :
    encode query = .ok ⟨String.ofList (encodePieces (tableOf found) (piecesOf query) found), tableOf found⟩ := by
  have hfound : occurrences (piecesOf query) = .ok found := h
  simp only [encode, hfound]
  rfl

lemma tiles_piecesOf (query : String) : Tiles (piecesOf query) query.toList :=
  tiles_iff.2 rfl

lemma splices_of_classify (h : classify query = .ok found) :
    Splices (standInOf (tableOf found)) 0 query.toList found (encodePieces (tableOf found) (piecesOf query) found) :=
  (tiles_piecesOf query).splices (finds_of_occurrencesFrom h)

lemma spelledAt_of_classify (h : classify query = .ok found) {o : Occurrence} (ho : o ∈ found) :
    SpelledAt 0 query.toList o :=
  (tiles_piecesOf query).spelledAt (finds_of_occurrencesFrom h) ho

end Query

/-- Variables in a metric name, as a bare label value, in a literal behind a letter of two bytes, and as a range.
The last dollar sign of the literal starts no variable, since its brace would be closed behind the quote only. -/
def spanSample : String :=
  "rate(up_$a\x7bb=$c, d=\"é$e$\x7bf\"\x7d[$g])"

end QueryScope.Variable
