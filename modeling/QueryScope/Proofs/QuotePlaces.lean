import QueryScope.Proofs.QuotedStandIns
import QueryScope.Proofs.VariableSpans

/-!
# The quotes of a query by places

A query is a sequence of characters and of occurrences. Its encoded form has quotes around those that are bare label
values. The quotes that go when the variables are put back are the added ones exactly if each bare label value loses
its quotes and no variable that does is between quotes of the query.
-/

namespace QueryScope.Variable

/-- A part of a query: a character, or an occurrence with the entry of its variable. -/
inductive Place where
  | char (c : Char)
  | use (o : Occurrence) (e : Entry) (hvar : e.var = o.var)

/-- The text of a place in the query. -/
def Place.chars : Place → List Char
  | char c => [c]
  | use o _ _ => o.var.chars

/-- The place in the encoded query. -/
def Place.encoded : Place → List Segment
  | char c => [.char c]
  | use o e _ => if o.context = .labelValue false then quotedStandIn e.plain else [.standIn e.plain]

/-- The place after the quotes that were added are gone, and no others. -/
def Place.settled : Place → List Segment
  | char c => [.char c]
  | use o e _ => if o.context = .labelValue false then e.var.chars.map .char else [.standIn e.plain]

/-- The places can be next to each other: a bare label value has no quote before it and no variable at either side. -/
def Place.Apart : Place → Place → Prop
  | char c, use o _ _ => o.context = .labelValue false → c ≠ '"'
  | use o _ _, use o' _ _ => o.context ≠ .labelValue false ∧ o'.context ≠ .labelValue false
  | _, char _ => True

/-- A bare label value is one that loses its quotes. -/
def Place.Sheds (loses : Entry → Prop) : Place → Prop
  | char _ => True
  | use o e _ => o.context = .labelValue false → loses e.plain

/-- Each bare label value loses its quotes, and no variable that does is between quotes of the query. -/
structure Keeps (loses : Entry → Prop) (places : List Place) : Prop where
  bare : ∀ p ∈ places, p.Sheds loses
  between : ∀ o e hvar, loses e.plain → ¬[.char '"', .use o e hvar, .char '"'] <:+: places

section Places

variable {loses : Entry → Prop} {p : Place} {places : List Place} {segments rest : List Segment} {o : Occurrence}
  {e : Entry}

lemma original_settled (places : List Place) : original (places.flatMap Place.settled) = places.flatMap Place.chars := by
  induction places with
  | nil => rfl
  | cons p places ih =>
    rw [List.flatMap_cons, List.flatMap_cons, original_append, ih]
    congr 1
    cases p with
    | char c => rfl
    | use o e hvar =>
      rw [Place.settled, Place.chars, ← hvar]
      split
      · exact original_map_char _
      · simp [original, Entry.plain]

/-- A text that is the query again has lost the quotes that were added, and no others. -/
lemma Reduces.settled (h : Reduces loses (places.flatMap Place.encoded) segments)
    (htext : original segments = places.flatMap Place.chars) :
    segments = places.flatMap Place.settled ∧ ∀ p ∈ places, p.Sheds loses := by
  induction places generalizing segments with
  | nil =>
    cases h
    exact ⟨rfl, nofun⟩
  | cons p places ih =>
    rw [List.flatMap_cons] at h htext
    rw [List.flatMap_cons, List.forall_mem_cons]
    generalize hrest : places.flatMap Place.encoded = rest at h
    cases p with
    | char c =>
      cases h with
      | pair he h =>
        rw [original_append, original_map_char] at htext
        exact absurd htext.symm (not_starts_quote rfl)
      | keep s h =>
        obtain ⟨hsegments, hsheds⟩ := ih (hrest ▸ h) (List.cons.inj htext).2
        rw [hsegments]
        exact ⟨rfl, trivial, hsheds⟩
    | use o e hvar =>
      rw [Place.chars, ← hvar] at htext
      rw [Place.encoded] at h
      rw [Place.settled]
      by_cases hcontext : o.context = .labelValue false
      · rw [if_pos hcontext] at h ⊢
        cases h with
        | @pair _ _ segments' hloses h =>
          rw [original_append, original_map_char] at htext
          obtain ⟨hsegments, hsheds⟩ := ih (hrest ▸ h) (List.append_cancel_left htext)
          rw [hsegments]
          exact ⟨rfl, fun _ => hloses, hsheds⟩
        | keep s h => exact absurd htext (not_starts_quote rfl)
      · rw [if_neg hcontext] at h ⊢
        cases h with
        | @keep _ _ segments' h =>
          obtain ⟨hsegments, hsheds⟩ := ih (hrest ▸ h) (List.append_cancel_left htext)
          rw [hsegments]
          exact ⟨rfl, fun hbare => absurd hbare hcontext, hsheds⟩

lemma encoded_eq_standIn (h : places.flatMap Place.encoded = .standIn e :: rest) :
    ∃ o e' hvar places', places = .use o e' hvar :: places' ∧ e'.plain = e ∧ places'.flatMap Place.encoded = rest := by
  cases places with
  | nil => cases h
  | cons p places =>
    rw [List.flatMap_cons] at h
    cases p with
    | char c => cases h
    | use o e' hvar =>
      rw [Place.encoded] at h
      split at h
      · cases h
      · obtain ⟨hstandIn, hrest⟩ := List.cons.inj h
        exact ⟨o, e', hvar, places, rfl, Segment.standIn.inj hstandIn, hrest⟩

lemma encoded_eq_quote (h : places.flatMap Place.encoded = .char '"' :: rest) :
    (∃ places', places = .char '"' :: places') ∨
      ∃ o e hvar places', places = .use o e hvar :: places' ∧ o.context = .labelValue false := by
  cases places with
  | nil => cases h
  | cons p places =>
    rw [List.flatMap_cons] at h
    cases p with
    | char c =>
      obtain ⟨hc, -⟩ := List.cons.inj h
      obtain rfl := Segment.char.inj hc
      exact .inl ⟨places, rfl⟩
    | use o e hvar =>
      rw [Place.encoded] at h
      split at h
      · next hcontext => exact .inr ⟨o, e, hvar, places, rfl, hcontext⟩
      · cases h

/-- Quotes that stand around a variable are those that were added, and all of these go. -/
lemma Reduces.settled_of_keeps (h : Reduces loses (places.flatMap Place.encoded) segments)
    (hapart : ∀ p q, [p, q] <:+: places → p.Apart q) (hkeeps : Keeps loses places)
    (hnone : ∀ e, loses e → ¬quotedStandIn e <:+: segments) : segments = places.flatMap Place.settled := by
  induction places generalizing segments with
  | nil =>
    cases h
    rfl
  | cons p places ih =>
    have hapart' : ∀ p q, [p, q] <:+: places → p.Apart q := fun p q hwithin => hapart p q (List.infix_cons hwithin)
    have hkeeps' : Keeps loses places := by
      refine ⟨fun q hq => hkeeps.bare q (List.mem_cons_of_mem _ hq), fun o e hvar hloses hwithin => ?_⟩
      exact hkeeps.between o e hvar hloses (List.infix_cons hwithin)
    have hbehind {segments' : List Segment} (hsuffix : segments' <:+ segments) :
        ∀ e, loses e → ¬quotedStandIn e <:+: segments' := fun e he hwithin => hnone e he (hwithin.trans hsuffix.isInfix)
    rw [List.flatMap_cons] at h ⊢
    generalize hrest : places.flatMap Place.encoded = rest at h
    cases p with
    | char c =>
      cases h with
      | keep _ h =>
        rw [ih (hrest ▸ h) hapart' hkeeps' (hbehind (List.suffix_cons _ _))]
        rfl
      | pair hloses h =>
        exfalso
        obtain ⟨o, e', hvar, behind, rfl, rfl, hclosing⟩ := encoded_eq_standIn hrest
        rcases encoded_eq_quote hclosing with ⟨behind', rfl⟩ | ⟨o', e'', hvar', behind', rfl, hcontext⟩
        · exact hkeeps.between o e' hvar hloses ⟨[], behind', rfl⟩
        · exact (hapart' _ _ ⟨[], behind', rfl⟩).2 hcontext
    | use o e hvar =>
      rw [Place.encoded] at h
      rw [Place.settled]
      by_cases hcontext : o.context = .labelValue false
      · rw [if_pos hcontext] at h ⊢
        cases h with
        | pair hloses h =>
          rw [ih (hrest ▸ h) hapart' hkeeps' (hbehind (List.suffix_append _ _))]
          rfl
        | keep s h =>
          exfalso
          cases h with
          | keep s h =>
            cases h with
            | @keep _ _ segments' h =>
              have hloses : loses e.plain := hkeeps.bare _ List.mem_cons_self hcontext
              exact hnone e.plain hloses ⟨[], segments', rfl⟩
            | pair hloses h =>
              obtain ⟨o', e', hvar', behind, rfl, -⟩ := encoded_eq_standIn hrest
              exact (hapart _ _ ⟨[], behind, rfl⟩).1 hcontext
      · rw [if_neg hcontext] at h ⊢
        cases h with
        | keep _ h =>
          rw [ih (hrest ▸ h) hapart' hkeeps' (hbehind (List.suffix_cons _ _))]
          rfl

/-- The variables are back with the quotes of the query exactly if the places keep their quotes. -/
lemma Reduces.original_eq_iff (h : Reduces loses (places.flatMap Place.encoded) segments)
    (hapart : ∀ p q, [p, q] <:+: places → p.Apart q) (hnone : ∀ e, loses e → ¬quotedStandIn e <:+: segments) :
    original segments = places.flatMap Place.chars ↔ Keeps loses places := by
  constructor
  · intro htext
    obtain ⟨rfl, hsheds⟩ := h.settled htext
    refine ⟨hsheds, fun o e hvar hloses hwithin => ?_⟩
    apply hnone e.plain hloses
    obtain ⟨before, after, rfl⟩ := hwithin
    have hcontext : o.context ≠ .labelValue false := fun hcontext =>
      hapart (.char '"') (.use o e hvar) ⟨before, .char '"' :: after, by simp⟩ hcontext rfl
    refine ⟨before.flatMap Place.settled, after.flatMap Place.settled, ?_⟩
    simp [Place.settled, hcontext, quotedStandIn]
  · intro hkeeps
    rw [h.settled_of_keeps hapart hkeeps hnone, original_settled]

/-! ## Texts without quotes -/

lemma prefix_append_of_prefix {text a b b' : List Char} (hb : ∀ t, '"' ∉ t → t <+: b → t <+: b') (hquote : '"' ∉ text)
    (h : text <+: a ++ b) : text <+: a ++ b' := by
  induction a generalizing text with
  | nil => exact hb text hquote h
  | cons c a ih =>
    cases text with
    | nil => exact List.nil_prefix
    | cons d text =>
      rw [List.cons_append, List.cons_prefix_cons] at h ⊢
      rw [List.mem_cons, not_or] at hquote
      exact ⟨h.1, ih hquote.2 h.2⟩

lemma prefix_of_prefix_encoded {text : List Char} (hquote : '"' ∉ text)
    (h : text <+: original (places.flatMap Place.encoded)) : text <+: places.flatMap Place.chars := by
  induction places generalizing text with
  | nil => exact h
  | cons p places ih =>
    rw [List.flatMap_cons, original_append] at h
    rw [List.flatMap_cons]
    cases p with
    | char c => exact prefix_append_of_prefix (fun _ => ih) hquote h
    | use o e hvar =>
      rw [Place.encoded] at h
      rw [Place.chars, ← hvar]
      split at h
      · cases text with
        | nil => exact List.nil_prefix
        | cons c text =>
          obtain ⟨rfl, -⟩ := List.cons_prefix_cons.1 h
          exact absurd List.mem_cons_self hquote
      · have hstandIn : original [.standIn e.plain] = e.var.chars := List.append_nil _
        rw [hstandIn] at h
        exact prefix_append_of_prefix (fun _ => ih) hquote h

/-- The added quotes bring no texts together and take none apart but at variables. -/
lemma infix_of_infix_encoded {text : List Char} (hquote : '"' ∉ text)
    (h : text <:+: original (places.flatMap Place.encoded)) : text <:+: places.flatMap Place.chars := by
  obtain ⟨k, hbegins⟩ := exists_prefix_drop h
  clear h
  induction places generalizing k with
  | nil =>
    rw [List.flatMap_nil, original, List.flatMap_nil, List.drop_nil] at hbegins
    exact hbegins.isInfix
  | cons p places ih =>
    rw [List.flatMap_cons, original_append] at hbegins
    rw [List.flatMap_cons]
    by_cases hk : (original p.encoded).length ≤ k
    · rw [List.drop_append, List.drop_of_length_le hk, List.nil_append] at hbegins
      exact (ih _ hbegins).trans (List.suffix_append _ _).isInfix
    rw [List.drop_append_of_le_length (by omega)] at hbegins
    have hinside {a : List Char} (h : text <+: a.drop k ++ original (places.flatMap Place.encoded)) :
        text <:+: a ++ places.flatMap Place.chars := by
      have hprefix := prefix_append_of_prefix (fun _ => prefix_of_prefix_encoded) hquote h
      obtain ⟨behind, hbehind⟩ := hprefix
      refine ⟨a.take k, behind, ?_⟩
      rw [List.append_assoc, hbehind, ← List.append_assoc, List.take_append_drop]
    cases p with
    | char c => exact hinside hbegins
    | use o e hvar =>
      rw [Place.encoded] at hbegins hk
      rw [Place.chars, ← hvar]
      split at hbegins
      · next hcontext =>
        have hquoted : original (quotedStandIn e.plain) = '"' :: (e.var.chars ++ ['"']) := by
          simp [quotedStandIn, original, Entry.plain]
        rw [if_pos hcontext, hquoted, List.length_cons, List.length_append, List.length_singleton] at hk
        rw [hquoted] at hbegins
        cases k with
        | zero =>
          cases text with
          | nil => exact List.nil_infix
          | cons c text =>
            obtain ⟨rfl, -⟩ := List.cons_prefix_cons.1 hbegins
            exact absurd List.mem_cons_self hquote
        | succ k =>
          rw [List.drop_succ_cons, List.drop_append_of_le_length (by omega), List.append_assoc,
            List.singleton_append, prefix_append_cons_iff hquote] at hbegins
          have hvariable : text <:+: e.var.chars := hbegins.isInfix.trans (List.drop_suffix k _).isInfix
          exact hvariable.trans (List.prefix_append _ _).isInfix
      · have hstandIn : original [.standIn e.plain] = e.var.chars := List.append_nil _
        rw [hstandIn] at hbegins
        exact hinside hbegins

end Places

end QueryScope.Variable
