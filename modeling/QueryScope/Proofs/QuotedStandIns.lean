import QueryScope.Proofs.CodecRoundTrip

/-!
# Stand-ins between quotes

A variable that is first used as a bare label value is put back together with the quotes around its stand-in,
wherever there are two. Here the quotes are characters of the text, whether they were added or not, so what becomes
of them follows from the neighbours of a stand-in alone.
-/

namespace QueryScope.Variable

/-- The entry as if its variable had no use as a label value. -/
def Entry.plain (e : Entry) : Entry :=
  { e with labelQuoted := none }

/-- A stand-in between two quotes. -/
def quotedStandIn (e : Entry) : List Segment :=
  [.char '"', .standIn e, .char '"']

/-- From left to right, the variable is put back where its stand-in is between quotes, and the quotes go. -/
inductive Unquotes (e : Entry) : List Segment → List Segment → Prop
  | nil : Unquotes e [] []
  | pair {rest rest' : List Segment} (h : Unquotes e rest rest') :
      Unquotes e (.char '"' :: .standIn e :: .char '"' :: rest) (e.var.chars.map .char ++ rest')
  | keep {s : Segment} {rest rest' : List Segment} (hs : ¬quotedStandIn e <+: s :: rest)
      (h : Unquotes e rest rest') : Unquotes e (s :: rest) (s :: rest')

/-- Some stand-ins between quotes, all of them of one class, are put back without their quotes. -/
inductive Reduces (loses : Entry → Prop) : List Segment → List Segment → Prop
  | nil : Reduces loses [] []
  | pair {e : Entry} {rest rest' : List Segment} (he : loses e) (h : Reduces loses rest rest') :
      Reduces loses (.char '"' :: .standIn e :: .char '"' :: rest) (e.var.chars.map .char ++ rest')
  | keep (s : Segment) {rest rest' : List Segment} (h : Reduces loses rest rest') :
      Reduces loses (s :: rest) (s :: rest')

/-- Stand-ins without quotes of their own that can be told apart. No variable ends in a quote, and no stand-in is
printed as an instant. -/
structure Tame (segments : List Segment) : Prop extends Distinct segments where
  plain : ∀ e, .standIn e ∈ segments → e.labelQuoted = none
  last : ∀ e, .standIn e ∈ segments → e.var.chars.getLast? ≠ some '"'
  point : ∀ e, ¬.standIn e :: ".000".toList.map .char <:+: segments

section Reduces

variable {loses : Entry → Prop} {e : Entry} {s : Segment} {a b c : List Segment}

lemma exists_unquotes (e : Entry) (a : List Segment) : ∃ b, Unquotes e a b := by
  induction hlength : a.length using Nat.strong_induction_on generalizing a with
  | _ length ih =>
    cases a with
    | nil => exact ⟨[], .nil⟩
    | cons s rest =>
      rw [List.length_cons] at hlength
      by_cases hs : quotedStandIn e <+: s :: rest
      · obtain ⟨behind, hbehind⟩ := hs
        obtain ⟨rfl, rfl⟩ := List.cons.inj hbehind
        have hshorter : behind.length < length := by
          rw [← hlength]
          exact Nat.lt_add_of_pos_right (k := 3) (by omega)
        obtain ⟨behind', h⟩ := ih behind.length hshorter behind rfl
        exact ⟨_, .pair h⟩
      · obtain ⟨rest', h⟩ := ih rest.length (by omega) rest rfl
        exact ⟨_, .keep hs h⟩

lemma Unquotes.reduces (h : Unquotes e a b) (he : loses e) : Reduces loses a b := by
  induction h with
  | nil => exact .nil
  | pair _ ih => exact .pair he ih
  | keep _ _ ih => exact .keep _ ih

lemma Reduces.refl (a : List Segment) : Reduces loses a a := by
  induction a with
  | nil => exact .nil
  | cons s a ih => exact .keep s ih

/-- What is not the start of a variable was there before. -/
lemma Reduces.of_cons (h : Reduces loses a (s :: b)) (hs : s ≠ .char '$') :
    ∃ a', a = s :: a' ∧ Reduces loses a' b := by
  generalize hwhole : s :: b = whole at h
  cases h with
  | nil => cases hwhole
  | @pair e rest rest' he h =>
    obtain ⟨name, hname⟩ := exists_chars_eq_cons e.var
    rw [hname] at hwhole
    exact absurd (List.cons.inj hwhole).1 hs
  | keep s' h =>
    obtain ⟨rfl, rfl⟩ := List.cons.inj hwhole
    exact ⟨_, rfl, h⟩

lemma Reduces.isPrefix (h : Reduces loses a b) {t : List Segment} (hdollar : .char '$' ∉ t) (ht : t <+: b) :
    t <+: a := by
  induction t generalizing a b with
  | nil => exact List.nil_prefix
  | cons s t ih =>
    obtain ⟨behind, rfl⟩ := ht
    rw [List.mem_cons, not_or] at hdollar
    obtain ⟨a', rfl, hrest⟩ := h.of_cons (Ne.symm hdollar.1)
    rw [List.cons_prefix_cons]
    exact ⟨rfl, ih hrest hdollar.2 (List.prefix_append _ _)⟩

/-- Parts that do not reach into a variable were together before. -/
lemma Reduces.isInfix (h : Reduces loses a b) {t : List Segment} (hdollar : .char '$' ∉ t)
    (hpass : ∀ e, .standIn e ∈ a → ∀ rest, t <:+: e.var.chars.map .char ++ rest → t <:+: rest) (ht : t <:+: b) :
    t <:+: a := by
  induction h with
  | nil => exact ht
  | @pair e rest rest' he h ih =>
    have hrest := hpass e (by simp) _ ht
    have hinside := ih (fun e' he' => hpass e' (by simp [he'])) hrest
    exact hinside.trans (List.suffix_append (quotedStandIn e) rest).isInfix
  | @keep s rest rest' h ih =>
    rw [List.infix_cons_iff] at ht ⊢
    rcases ht with ht | ht
    · exact .inl ((Reduces.keep s h).isPrefix hdollar ht)
    · exact .inr (ih (fun e' he' => hpass e' (List.mem_cons_of_mem _ he')) ht)

lemma infix_of_infix_chars {t : List Segment} (chars : List Char) {rest : List Segment}
    (h : .standIn e :: t <:+: chars.map .char ++ rest) : .standIn e :: t <:+: rest := by
  induction chars with
  | nil => exact h
  | cons c chars ih =>
    rw [List.map_cons, List.cons_append, List.infix_cons_iff] at h
    rcases h with h | h
    · exact absurd (List.cons_prefix_cons.1 h).1 nofun
    · exact ih h

lemma quoted_of_quoted_chars {chars : List Char} (hlast : chars.getLast? ≠ some '"') {rest : List Segment}
    (h : quotedStandIn e <:+: chars.map .char ++ rest) : quotedStandIn e <:+: rest := by
  induction chars with
  | nil => exact h
  | cons c chars ih =>
    rw [List.map_cons, List.cons_append, List.infix_cons_iff] at h
    cases chars with
    | nil =>
      rcases h with h | h
      · obtain ⟨hc, -⟩ := List.cons_prefix_cons.1 h
        obtain rfl := Segment.char.inj hc
        exact absurd rfl hlast
      · exact h
    | cons d chars =>
      rcases h with h | h
      · obtain ⟨-, htail⟩ := List.cons_prefix_cons.1 h
        exact absurd (List.cons_prefix_cons.1 htail).1 nofun
      · rw [List.getLast?_cons_cons] at hlast
        exact ih hlast h

lemma Reduces.mem (h : Reduces loses a b) (he : .standIn e ∈ b) : .standIn e ∈ a := by
  induction h with
  | nil => exact he
  | pair _ _ ih =>
    rcases List.mem_append.1 he with he | he
    · simp at he
    · simp [ih he]
  | keep s _ ih =>
    rcases List.mem_cons.1 he with rfl | he
    · exact List.mem_cons_self
    · exact List.mem_cons_of_mem _ (ih he)

lemma Reduces.mem_original (h : Reduces loses a b) {x : Char} (hx : x ∈ original b) : x ∈ original a := by
  induction h with
  | nil => exact hx
  | @pair e rest rest' he h ih =>
    rw [original_append, original_map_char, List.mem_append] at hx
    rw [original_cons, original_cons (s := .standIn e)]
    rcases hx with hx | hx
    · have hvar : x ∈ original [.standIn e] := by simpa [original] using hx
      exact List.mem_append_right _ (List.mem_append_left _ hvar)
    · apply List.mem_append_right
      apply List.mem_append_right
      rw [original_cons]
      exact List.mem_append_right _ (ih hx)
  | @keep s rest rest' h ih =>
    rw [original_cons, List.mem_append] at hx ⊢
    exact hx.imp_right ih

lemma Tame.reduces (h : Tame a) (hreduces : Reduces loses a b) : Tame b where
  early e he := h.early e (hreduces.mem he)
  number e e' he he' := h.number e e' (hreduces.mem he) (hreduces.mem he')
  noNine hnine := h.noNine (hreduces.mem_original hnine)
  plain e he := h.plain e (hreduces.mem he)
  last e he := h.last e (hreduces.mem he)
  point e hpoint :=
    h.point e (hreduces.isInfix (by simp) (fun e' _ _ h' => infix_of_infix_chars e'.var.chars h') hpoint)

lemma Tame.quoted_of_reduces (h : Tame a) (hreduces : Reduces loses a b) (hquoted : quotedStandIn e <:+: b) :
    quotedStandIn e <:+: a :=
  hreduces.isInfix (by simp [quotedStandIn]) (fun e' he' _ => quoted_of_quoted_chars (h.last e' he')) hquoted

/-- A variable that is back stays as it is. -/
lemma Reduces.of_chars {chars : List Char} (hlast : chars.getLast? ≠ some '"')
    (h : Reduces loses (chars.map .char ++ a) b) : ∃ b', b = chars.map .char ++ b' ∧ Reduces loses a b' := by
  induction chars generalizing b with
  | nil => exact ⟨b, rfl, h⟩
  | cons c chars ih =>
    rw [List.map_cons, List.cons_append] at h
    generalize hrest : chars.map Segment.char ++ a = rest at h
    cases h with
    | pair he h =>
      cases chars with
      | nil => exact absurd rfl hlast
      | cons d chars => exact absurd (List.cons.inj hrest).1 nofun
    | keep s h =>
      have htail : chars.getLast? ≠ some '"' := by
        cases chars with
        | nil => simp
        | cons d chars => rwa [List.getLast?_cons_cons] at hlast
      rw [← hrest] at h
      obtain ⟨b', rfl, hbehind⟩ := ih htail h
      exact ⟨b', rfl, hbehind⟩

lemma Reduces.trans (h : Reduces loses a b) (hlast : ∀ e, .standIn e ∈ a → e.var.chars.getLast? ≠ some '"')
    (h' : Reduces loses b c) : Reduces loses a c := by
  induction h generalizing c with
  | nil => exact h'
  | @pair e rest rest' he h ih =>
    obtain ⟨c', rfl, hbehind⟩ := h'.of_chars (hlast e (by simp))
    exact .pair he (ih (fun e' he' => hlast e' (by simp [he'])) hbehind)
  | @keep s rest rest' h ih =>
    have ih {c : List Segment} := @ih c fun e' he' => hlast e' (List.mem_cons_of_mem _ he')
    cases h' with
    | keep _ h' => exact .keep s (ih h')
    | @pair e behind behind' he h' =>
      -- The three parts were next to each other before, since a variable that is back has no stand-in in it.
      obtain ⟨inner, rfl, hinner⟩ := h.of_cons nofun
      obtain ⟨outer, rfl, -⟩ := hinner.of_cons (by simp)
      have hboth : Reduces loses (.standIn e :: .char '"' :: outer) (.standIn e :: .char '"' :: behind') :=
        ih (.keep _ (.keep _ h'))
      obtain ⟨_, hinner, hclosing⟩ := hboth.of_cons nofun
      rw [← (List.cons.inj hinner).2] at hclosing
      obtain ⟨_, houter, hbehind⟩ := hclosing.of_cons (by simp)
      rw [← (List.cons.inj houter).2] at hbehind
      exact .pair he hbehind

/-- No stand-in of the entry is left between quotes. -/
lemma Unquotes.not_quoted (h : Unquotes e a b) (hlast : e.var.chars.getLast? ≠ some '"') :
    ¬quotedStandIn e <:+: b := by
  induction h with
  | nil => simp [quotedStandIn]
  | pair _ ih => exact fun hquoted => ih (quoted_of_quoted_chars hlast hquoted)
  | @keep s rest rest' hs h ih =>
    intro hquoted
    rcases List.infix_cons_iff.1 hquoted with hquoted | hquoted
    · have hreduces : Reduces (· = e) (s :: rest) (s :: rest') := .keep s (h.reduces rfl)
      exact hs (hreduces.isPrefix (by simp [quotedStandIn]) hquoted)
    · exact ih hquoted

end Reduces

/-! ## Putting the variables back -/

section Restore

variable {e : Entry} {s : Segment} {segments segments' : List Segment} {back : List Entry} {found : List Occurrence}

lemma Tame.of_cons (h : Tame (s :: segments)) : Tame segments where
  toDistinct := h.toDistinct.of_cons
  plain e he := h.plain e (List.mem_cons_of_mem _ he)
  last e he := h.last e (List.mem_cons_of_mem _ he)
  point e hpoint := h.point e (hpoint.trans (List.suffix_cons s segments).isInfix)

lemma Entry.token_eq (hplain : e.labelQuoted = none) :
    e.token = e.lead ++ Number.decimalDigits e.number ++ e.tail := by
  rw [← form_eq, form, if_neg (by simp [hplain])]

lemma Entry.quote_notMem_token (e : Entry) : '"' ∉ e.token := by
  have hdigits : '"' ∉ Number.decimalDigits e.number := fun h =>
    absurd (Number.isDigit_of_mem_decimalDigits h) (by decide)
  unfold token
  split
  · simpa using hdigits
  · exact hdigits

/-- A quote at either end of a part is the whole part. -/
lemma Tame.eq_quote (h : Tame (s :: segments))
    (hquote : (s.chars back).head? = some '"' ∨ (s.chars back).getLast? = some '"') : s = .char '"' := by
  cases s with
  | char c => simpa [Segment.chars] using hquote
  | standIn e =>
    exfalso
    have hplain := h.plain e List.mem_cons_self
    rw [Segment.chars] at hquote
    split at hquote
    · obtain ⟨name, hname⟩ := exists_chars_eq_cons e.var
      rcases hquote with hquote | hquote
      · simp [hname] at hquote
      · exact h.last e List.mem_cons_self hquote
    · rw [Entry.form, if_neg (by simp [hplain])] at hquote
      rcases hquote with hquote | hquote
      · exact e.quote_notMem_token (List.mem_of_head? hquote)
      · exact e.quote_notMem_token (List.mem_of_getLast? hquote)

lemma Tame.chars_ne_nil (h : Tame (s :: segments)) : s.chars back ≠ [] := by
  cases s with
  | char c => simp [Segment.chars]
  | standIn e =>
    obtain ⟨first, rest, hchars, -⟩ := exists_chars_standIn back (h.early e List.mem_cons_self)
    simp [hchars]

/-- Where the stand-in begins with a quote before it and one behind it, these are parts of their own. -/
lemma Tame.quoted_of_begins (h : Tame (s :: segments)) (he : e.Early) (hplain : e.labelQuoted = none)
    (hnumber : ∀ e', .standIn e' ∈ s :: segments → e'.number = e.number → e' = e) {k : Nat}
    (hk : k < (s.chars back).length)
    (hbegins : '"' :: e.token ++ ['"'] <+: (written back (s :: segments)).drop k) :
    quotedStandIn e <+: s :: segments := by
  have hneedle : '"' :: e.token ++ ['"'] =
      ('"' :: e.lead) ++ Number.decimalDigits e.number ++ (e.tail ++ ['"']) := by
    rw [e.token_eq hplain]
    simp
  have hfirst := hbegins
  rw [hneedle] at hbegins
  obtain ⟨before, after, hsplit, -, hlength, hrest⟩ := h.toDistinct.exists_of_number he hnumber hbegins
  rw [List.length_cons] at hlength
  cases before with
  | nil =>
    rw [written, List.flatMap_nil, List.length_nil] at hlength
    omega
  | cons s' before =>
    obtain ⟨rfl, rfl⟩ := List.cons.inj hsplit
    rw [written_cons, List.length_append] at hlength
    cases before with
    | cons s' before =>
      have hne : s'.chars back ≠ [] := h.of_cons.chars_ne_nil
      have hpos := List.length_pos_of_ne_nil hne
      rw [written_cons, List.length_append] at hlength
      omega
    | nil =>
      rw [written, List.flatMap_nil, List.length_nil] at hlength
      have hlast : (s.chars back).getLast? = some '"' := by
        obtain ⟨behind, hbehind⟩ := hfirst
        have hhead := congrArg List.head? hbehind
        rw [List.head?_drop, written_cons, List.getElem?_append_left hk] at hhead
        rw [List.getLast?_eq_getElem?, show (s.chars back).length - 1 = k by omega, ← hhead]
        rfl
      have hclosing : ['"'] <+: written back after := (List.prefix_append_right_inj _).1 hrest
      cases after with
      | nil => simp [written] at hclosing
      | cons s' after =>
        obtain ⟨behind, hbehind⟩ := hclosing
        have hne : s'.chars back ≠ [] := h.of_cons.of_cons.chars_ne_nil
        have hhead := congrArg List.head? hbehind
        rw [written_cons, List.head?_append_of_ne_nil _ hne] at hhead
        have hquote : s' = .char '"' := h.of_cons.of_cons.eq_quote (.inl hhead.symm)
        rw [h.eq_quote (.inr hlast), hquote]
        exact List.prefix_append (quotedStandIn e) after

lemma Tame.replaceAll_quoted (h : Tame segments) (he : e.Early) (hplain : e.labelQuoted = none)
    (hnumber : ∀ e', .standIn e' ∈ segments → e'.number = e.number → e' = e) (hback : e ∉ back)
    (hunquotes : Unquotes e segments segments') :
    replaceAll ('"' :: e.token ++ ['"']) e.var.chars (written back segments) = written back segments' := by
  induction hunquotes with
  | nil => rfl
  | @pair rest rest' _ ih =>
    have hneedle : written back (.char '"' :: .standIn e :: .char '"' :: rest) =
        '"' :: e.token ++ ['"'] ++ written back rest := by
      simp [written, Segment.chars, hback, Entry.form, hplain]
    have hchars : written back (e.var.chars.map .char ++ rest') = e.var.chars ++ written back rest' := by
      rw [written_append, written_eq_original, original_map_char]
      simp
    rw [hneedle, replaceAll_append_self (by simp), hchars,
      ih h.of_cons.of_cons.of_cons fun e' he' => hnumber e' (by simp [he'])]
  | @keep s rest rest' hs _ ih =>
    have hrest := ih h.of_cons fun e' he' => hnumber e' (List.mem_cons_of_mem _ he')
    rw [written_cons, replaceAll_append_of_not_begins, hrest, written_cons]
    intro k hk hbegins
    rw [← List.drop_append_of_le_length hk.le, ← written_cons] at hbegins
    exact hs (h.quoted_of_begins he hplain hnumber hk hbegins)

lemma Tame.not_instant (h : Tame segments) (he : e.Early) (hplain : e.labelQuoted = none)
    (hnumber : ∀ e', .standIn e' ∈ segments → e'.number = e.number → e' = e) :
    ¬e.token ++ ".000".toList <:+: written back segments := by
  intro hwithin
  obtain ⟨k, hbegins⟩ := exists_prefix_drop hwithin
  rw [e.token_eq hplain, List.append_assoc] at hbegins
  obtain ⟨before, after, rfl, -, -, hrest⟩ := h.toDistinct.exists_of_number he hnumber hbegins
  have hpoint : ".000".toList <+: written back after := (List.prefix_append_right_inj _).1 hrest
  have hafter : ∀ e', .standIn e' ∈ after → e'.Early := fun e' he' => h.early e' (by simp [he'])
  have hchars := map_char_prefix hafter rfl hpoint
  apply h.point e
  exact (List.cons_prefix_cons.2 ⟨rfl, hchars⟩).isInfix.trans (List.suffix_append _ _).isInfix

/-- What one entry does to the text: the class of those that lose their quotes has it if its variable was first used
as a bare label value. -/
lemma Tame.restoreEntry_written {loses : Entry → Prop} (h : Tame segments) (he : e.Early)
    (hlast : e.var.chars.getLast? ≠ some '"') (hloses : e.labelQuoted = some false → loses e.plain)
    (hnumber : ∀ e', .standIn e' ∈ segments → e'.number = e.number → e' = e.plain) (hback : e.plain ∉ back) :
    ∃ segments', restoreEntry (written back segments) e = written (e.plain :: back) segments' ∧
      Reduces loses segments segments' ∧ (e.labelQuoted = some false → ¬quotedStandIn e.plain <:+: segments') := by
  have hinstant : (if e.inTimestamp then replaceAll (e.token ++ ".000".toList) e.var.chars (written back segments)
      else written back segments) = written back segments := by
    split
    · apply replaceAll_of_absent
      exact h.not_instant (e := e.plain) he rfl hnumber
    · rfl
  rw [restoreEntry, hinstant]
  by_cases hquoted : e.labelQuoted = some false
  · obtain ⟨segments', hunquotes⟩ := exists_unquotes e.plain segments
    have hreduces : Reduces loses segments segments' := hunquotes.reduces (hloses hquoted)
    have hreplace : replaceAll ('"' :: e.token ++ ['"']) e.var.chars (written back segments) =
        written back segments' := h.replaceAll_quoted (e := e.plain) he rfl hnumber hback hunquotes
    simp only [if_pos hquoted, hreplace]
    refine ⟨segments', ?_, hreduces, fun _ => hunquotes.not_quoted hlast⟩
    exact (h.reduces hreduces).toDistinct.replaceAll_form (e := e.plain) he fun e' he' =>
      hnumber e' (hreduces.mem he')
  · simp only [if_neg hquoted]
    refine ⟨segments, ?_, .refl segments, fun hquoted' => absurd hquoted' hquoted⟩
    exact h.toDistinct.replaceAll_form (e := e.plain) he hnumber

/-- The entry without its quoting is that of a variable which was first used as a bare label value. -/
def LosesQuotes (table : Table) (e : Entry) : Prop :=
  ∃ e' ∈ table, e'.plain = e ∧ e'.labelQuoted = some false

/-- Putting back all entries takes quotes from around stand-ins until none that is to lose its quotes has any. -/
lemma Tame.foldl_restoreEntry (h : Tame segments)
    (hmem : ∀ e, .standIn e ∈ segments → ∃ e' ∈ tableOf found, e'.plain = e)
    (hearly : ∀ e ∈ tableOf found, e.Early) (hlast : ∀ e ∈ tableOf found, e.var.chars.getLast? ≠ some '"')
    (entries back : List Entry) (hentries : ∀ e ∈ entries, e ∈ tableOf found) (hnodup : entries.Nodup)
    (hback : ∀ e ∈ entries, e.plain ∉ back) :
    ∃ segments', entries.foldl restoreEntry (written back segments) =
        written ((entries.map Entry.plain).reverse ++ back) segments' ∧
      Reduces (LosesQuotes (tableOf found)) segments segments' ∧
      ∀ e ∈ entries, e.labelQuoted = some false → ¬quotedStandIn e.plain <:+: segments' := by
  induction entries generalizing back segments with
  | nil => exact ⟨segments, rfl, .refl segments, nofun⟩
  | cons e entries ih =>
    have he := hentries e List.mem_cons_self
    have hentries' : ∀ e' ∈ entries, e' ∈ tableOf found := fun e' he' => hentries e' (List.mem_cons_of_mem _ he')
    rw [List.nodup_cons] at hnodup
    have hnumber : ∀ e', .standIn e' ∈ segments → e'.number = e.number → e' = e.plain := by
      intro x hx hnumber
      obtain ⟨e', he', rfl⟩ := hmem x hx
      rw [eq_of_number_eq he' he hnumber]
    have hloses : e.labelQuoted = some false → LosesQuotes (tableOf found) e.plain := fun hquoted =>
      ⟨e, he, rfl, hquoted⟩
    have hback' : ∀ e' ∈ entries, e'.plain ∉ e.plain :: back := by
      intro e' he' hin
      rcases List.mem_cons.1 hin with hplain | hin
      · have hnumber' : e'.plain.number = e.plain.number := by rw [hplain]
        rw [eq_of_number_eq (hentries' e' he') he hnumber'] at he'
        exact hnodup.1 he'
      · exact hback e' (List.mem_cons_of_mem _ he') hin
    obtain ⟨middle, hstep, hreduces, hnone⟩ :=
      h.restoreEntry_written (hearly e he) (hlast e he) hloses hnumber (hback e List.mem_cons_self)
    have hmiddle := h.reduces hreduces
    obtain ⟨segments', hrun, hreduces', hnone'⟩ :=
      ih hmiddle (fun x hx => hmem x (hreduces.mem hx)) (e.plain :: back) hentries' hnodup.2 hback'
    refine ⟨segments', ?_, hreduces.trans h.last hreduces', ?_⟩
    · rw [List.foldl_cons, hstep, hrun]
      simp
    · intro e' he' hquoted
      rcases List.mem_cons.1 he' with rfl | he'
      · exact fun hwithin => hnone hquoted (hmiddle.quoted_of_reduces hreduces' hwithin)
      · exact hnone' e' he' hquoted

end Restore

end QueryScope.Variable
