import Mathlib.Tactic
import QueryScope.Proofs.DurationText
import QueryScope.Proofs.Replacement
import QueryScope.Proofs.VariableParts

/-!
# Stand-ins in a text

A query with stand-ins is a sequence of characters of its own and of places of variables. The first
9000 stand-ins hold four nines and a digit that is none. Where nothing else holds a nine, those five
characters show where each stand-in is, so a replacement hits the places of its variable and no others.
-/

namespace QueryScope.Variable

/-! ## The text of a stand-in -/

/-- The entry is one of the first 9000. -/
def Entry.Early (e : Entry) : Prop :=
  firstNumber ≤ e.number ∧ e.number < firstNumber + 9000

/-- What an encoded query holds in the place of a variable: bare label values get quotes. -/
def Entry.form (e : Entry) : List Char :=
  if e.labelQuoted = some false then '"' :: e.token ++ ['"'] else e.token

/-- The stand-in in front of its number. -/
def Entry.lead (e : Entry) : List Char :=
  (if e.labelQuoted = some false then ['"'] else []) ++ if e.inName then "__var".toList else []

/-- The stand-in behind its number. -/
def Entry.tail (e : Entry) : List Char :=
  (if e.inName then "__".toList else []) ++ if e.labelQuoted = some false then ['"'] else []

lemma Entry.form_eq (e : Entry) : e.form = e.lead ++ Number.decimalDigits e.number ++ e.tail := by
  unfold form token lead tail
  split <;> split <;> simp

lemma Entry.mem_lead {e : Entry} {c : Char} (h : c ∈ e.lead) : c ∈ ['"', '_', 'v', 'a', 'r'] := by
  unfold lead at h
  split at h <;> split at h <;> simp at h ⊢ <;> tauto

lemma Entry.mem_tail {e : Entry} {c : Char} (h : c ∈ e.tail) : c ∈ ['"', '_'] := by
  unfold tail at h
  split at h <;> split at h <;> simp at h ⊢ <;> tauto

lemma Entry.Early.decimalDigits {e : Entry} (h : e.Early) :
    ∃ a b c d, Number.decimalDigits e.number = ['9', '9', '9', '9', a, b, c, d] ∧ a ≠ '9' := by
  obtain ⟨hfirst, hlast⟩ := h
  obtain ⟨i, hi⟩ := Nat.exists_eq_add_of_le hfirst
  rw [hi, firstNumber] at hlast
  have hsplit : e.number = 10 * (10 * (10 * (10 * 9999 + i / 1000) + i / 100 % 10) + i / 10 % 10) +
      i % 10 := by
    rw [hi, firstNumber]
    omega
  have hdigit (n d : Nat) (hn : 0 < n) (hd : d < 10) :
      Number.decimalDigits (10 * n + d) = Number.decimalDigits n ++ [d.digitChar] := by
    unfold Number.decimalDigits
    rw [← Nat.toDigits_append_toDigits (by decide) hn hd, Nat.toDigits_of_lt_base hd]
  have hnine : Nat.digitChar (i / 1000) ≠ '9' := by
    have : i / 1000 < 9 := by omega
    interval_cases i / 1000 <;> decide
  refine ⟨(i / 1000).digitChar, (i / 100 % 10).digitChar, (i / 10 % 10).digitChar, (i % 10).digitChar,
    ?_, hnine⟩
  rw [hsplit, hdigit _ _ (by omega) (by omega), hdigit _ _ (by omega) (by omega),
    hdigit _ _ (by omega) (by omega), hdigit _ _ (by omega) (by omega)]
  rfl

lemma Entry.mem_form {e : Entry} {c : Char} (h : c ∈ e.form) :
    c ∈ ['"', '_', 'v', 'a', 'r'] ∨ c.isDigit := by
  rw [form_eq, List.mem_append, List.mem_append] at h
  rcases h with (h | h) | h
  · exact .inl (mem_lead h)
  · exact .inr (Number.isDigit_of_mem_decimalDigits h)
  · exact .inl (by have := mem_tail h; simp at this ⊢; tauto)

lemma Entry.durationChars_ne_nil (e : Entry) : e.durationChars ≠ [] := by
  obtain ⟨c, tail, hchars, -⟩ := Duration.exists_cons_chars ⟨e.number * 1000⟩
  simp [durationChars, hchars]

/-! ## Texts with stand-ins -/

lemma exists_chars_eq_cons (v : Variable) : ∃ name, v.chars = '$' :: name := by
  unfold chars
  split
  · exact ⟨_, rfl⟩
  · exact ⟨_, rfl⟩

lemma not_prefix_drop_append {c : Char} {text : List Char} (hc : c ∉ text) {k : Nat}
    (hk : k < text.length) (behind rest : List Char) : ¬ c :: rest <+: text.drop k ++ behind := by
  intro h
  rw [List.drop_eq_getElem_cons hk, List.cons_append, List.cons_prefix_cons] at h
  exact hc (h.1 ▸ List.getElem_mem hk)

/-- A part of a query with stand-ins: a character of its own, or the place of a variable. -/
inductive Segment where
  | char (c : Char)
  | standIn (e : Entry)

/-- The text of a part after the variables of some entries are back. -/
def Segment.chars (back : List Entry) : Segment → List Char
  | char c => [c]
  | standIn e => if e ∈ back then e.var.chars else e.form

/-- The text of all parts after the variables of some entries are back. -/
def written (back : List Entry) (segments : List Segment) : List Char :=
  segments.flatMap (Segment.chars back)

/-- The text of all parts with their variables. -/
def original (segments : List Segment) : List Char :=
  segments.flatMap fun
    | .char c => [c]
    | .standIn e => e.var.chars

/-- No nines but those of the stand-ins, all of them early and told apart by their numbers. -/
structure Distinct (segments : List Segment) : Prop where
  early : ∀ e, .standIn e ∈ segments → e.Early
  number : ∀ e e', .standIn e ∈ segments → .standIn e' ∈ segments → e.number = e'.number → e = e'
  noNine : '9' ∉ original segments

section Distinct

variable {s : Segment} {segments : List Segment} {back : List Entry} {e : Entry}

lemma original_cons : original (s :: segments) = original [s] ++ original segments := by
  simp [original]

lemma written_cons : written back (s :: segments) = s.chars back ++ written back segments := rfl

lemma Distinct.of_cons (h : Distinct (s :: segments)) : Distinct segments where
  early e he := h.early e (List.mem_cons_of_mem _ he)
  number e e' he he' := h.number e e' (List.mem_cons_of_mem _ he) (List.mem_cons_of_mem _ he')
  noNine hnine := h.noNine (by rw [original_cons]; exact List.mem_append_right _ hnine)

lemma Distinct.head_noNine (h : Distinct (s :: segments)) : '9' ∉ original [s] := fun hnine =>
  h.noNine (by rw [original_cons]; exact List.mem_append_left _ hnine)

lemma Entry.nine_notMem_lead (e : Entry) : '9' ∉ e.lead := fun h => by
  simpa using Entry.mem_lead h

lemma Entry.nine_notMem_tail (e : Entry) : '9' ∉ e.tail := fun h => by
  simpa using Entry.mem_tail h

/-- Four nines stand where one nine begins a text with stand-ins. -/
lemma Distinct.written_of_head (h : Distinct segments) (hhead : (written back segments).head? = some '9') :
    ∃ rest, written back segments = '9' :: '9' :: '9' :: '9' :: rest := by
  cases segments with
  | nil => simp [written] at hhead
  | cons s segments =>
    have hnine := h.head_noNine
    rw [written_cons] at hhead ⊢
    cases s with
    | char c => simp_all [Segment.chars, original]
    | standIn e =>
      obtain ⟨a, b, c, d, hdigits, -⟩ := (h.early e List.mem_cons_self).decimalDigits
      simp only [Segment.chars] at hhead ⊢
      split at hhead
      · obtain ⟨name, hname⟩ := exists_chars_eq_cons e.var
        simp [hname] at hhead
      · next hback =>
        rw [if_neg hback]
        rw [Entry.form_eq, hdigits] at hhead ⊢
        cases hlead : e.lead with
        | nil => exact ⟨_, rfl⟩
        | cons x lead =>
          have := e.nine_notMem_lead
          simp_all

/-- Within a stand-in, four nines and another digit stand behind its lead and nowhere else. -/
lemma Distinct.eq_length_lead (h : Distinct segments) (he : e.Early) {k : Nat} {d : Char} {rest : List Char}
    (hd : d ≠ '9') (hk : k < e.form.length)
    (hbegins : '9' :: '9' :: '9' :: '9' :: d :: rest <+: e.form.drop k ++ written back segments) :
    k = e.lead.length := by
  obtain ⟨a, b, c, d', hdigits, ha⟩ := he.decimalDigits
  rw [Entry.form_eq, hdigits, List.append_assoc] at hk hbegins
  by_cases hlead : k < e.lead.length
  · rw [List.drop_append_of_le_length hlead.le, List.append_assoc] at hbegins
    exact absurd hbegins (not_prefix_drop_append e.nine_notMem_lead hlead _ _)
  obtain ⟨i, rfl⟩ := Nat.exists_eq_add_of_le (not_lt.1 hlead)
  rw [List.drop_length_add_append] at hbegins
  -- Behind the digits four nines stand, or none. A run that starts later is too short or too long.
  have hbehind : ∀ text, '9' :: text <+: e.tail ++ written back segments →
      ∃ text', e.tail ++ written back segments = '9' :: '9' :: '9' :: '9' :: text' := by
    intro text htext
    cases htail : e.tail with
    | nil =>
      rw [htail, List.nil_append] at htext
      obtain ⟨text', htext'⟩ := htext
      exact h.written_of_head (by rw [← htext']; rfl)
    | cons x tail =>
      have hx := e.nine_notMem_tail
      simp_all
  match i with
  | 0 => rfl
  | 1 | 2 | 3 | 4 => simp [ha.symm] at hbegins
  | 5 | 6 | 7 =>
    simp only [List.drop_succ_cons, List.drop_zero, List.cons_append, List.nil_append,
      List.cons_prefix_cons] at hbegins
    obtain ⟨text', htext'⟩ := hbehind _ (by tauto)
    simp only [htext', List.cons_prefix_cons] at hbegins
    tauto
  | i + 8 =>
    have hi : i < e.tail.length := by simp at hk; omega
    exact absurd hbegins (not_prefix_drop_append e.nine_notMem_tail hi _ _)

/-- Four nines and another digit show the place of a stand-in. -/
lemma Distinct.exists_of_nines (h : Distinct segments) {k : Nat} {d : Char} {rest : List Char} (hd : d ≠ '9')
    (hbegins : '9' :: '9' :: '9' :: '9' :: d :: rest <+: (written back segments).drop k) :
    ∃ before e after, segments = before ++ .standIn e :: after ∧ e ∉ back ∧
      k = (written back before).length + e.lead.length := by
  induction segments generalizing k with
  | nil => simp [written] at hbegins
  | cons s segments ih =>
    rw [written_cons] at hbegins
    by_cases hk : (s.chars back).length ≤ k
    · rw [List.drop_append, List.drop_of_length_le hk, List.nil_append] at hbegins
      obtain ⟨before, e, after, rfl, hback, hk'⟩ := ih h.of_cons hbegins
      refine ⟨s :: before, e, after, rfl, hback, ?_⟩
      rw [written_cons, List.length_append]
      omega
    · rw [not_le] at hk
      rw [List.drop_append_of_le_length hk.le] at hbegins
      have hnine := h.head_noNine
      cases s with
      | char c =>
        exact absurd hbegins (not_prefix_drop_append (by simpa [original, Segment.chars] using hnine) hk _ _)
      | standIn e =>
        simp only [Segment.chars] at hk hbegins
        split at hk
        · next hback =>
          rw [if_pos hback] at hbegins
          exact absurd hbegins (not_prefix_drop_append (by simpa [original] using hnine) hk _ _)
        · next hback =>
          rw [if_neg hback] at hbegins
          have hlead := h.of_cons.eq_length_lead (h.early e List.mem_cons_self) hd hk hbegins
          exact ⟨[], e, segments, rfl, hback, by simpa [written] using hlead⟩

lemma written_append (before after : List Segment) :
    written back (before ++ after) = written back before ++ written back after :=
  List.flatMap_append

/-- A number in a text shows the place of its stand-in. -/
lemma Distinct.exists_of_number (h : Distinct segments) (he : e.Early)
    (hnumber : ∀ e', .standIn e' ∈ segments → e'.number = e.number → e' = e) {k : Nat}
    {lead rest : List Char}
    (hbegins : lead ++ Number.decimalDigits e.number ++ rest <+: (written back segments).drop k) :
    ∃ before after, segments = before ++ .standIn e :: after ∧ e ∉ back ∧
      k + lead.length = (written back before).length + e.lead.length ∧
      rest <+: e.tail ++ written back after := by
  have hdrop : Number.decimalDigits e.number ++ rest <+: (written back segments).drop (k + lead.length) := by
    have := hbegins.drop lead.length
    rwa [List.append_assoc, List.drop_left, List.drop_drop] at this
  obtain ⟨a, b, c, d, hdigits, ha⟩ := he.decimalDigits
  have hnines := hdrop
  rw [hdigits] at hnines
  obtain ⟨before, e', after, rfl, hback, hk⟩ := h.exists_of_nines ha hnines
  have hplace : Number.decimalDigits e.number ++ rest <+:
      Number.decimalDigits e'.number ++ (e'.tail ++ written back after) := by
    have hform : Segment.chars back (.standIn e') = e'.lead ++ Number.decimalDigits e'.number ++ e'.tail := by
      rw [Segment.chars, if_neg hback, Entry.form_eq]
    rw [hk, written_append, written_cons, hform, List.drop_length_add_append] at hdrop
    simpa [List.append_assoc] using hdrop
  obtain ⟨a', b', c', d', hdigits', -⟩ :=
    (h.early e' (List.mem_append_right _ List.mem_cons_self)).decimalDigits
  have hsame : Number.decimalDigits e.number = Number.decimalDigits e'.number := by
    rw [hdigits, hdigits'] at hplace ⊢
    simp only [List.cons_append, List.cons_prefix_cons, List.nil_append] at hplace
    simp [hplace]
  obtain rfl : e' = e := by
    apply hnumber e' (List.mem_append_right _ List.mem_cons_self)
    have := congrArg Number.natOfDigits hsame
    rw [Number.natOfDigits_decimalDigits, Number.natOfDigits_decimalDigits] at this
    exact this.symm
  exact ⟨before, after, rfl, hback, hk, (List.prefix_append_right_inj _).1 hplace⟩

/-- Replacing the text of a stand-in puts its variable back everywhere. -/
lemma Distinct.replaceAll_form (h : Distinct segments) (he : e.Early)
    (hnumber : ∀ e', .standIn e' ∈ segments → e'.number = e.number → e' = e) :
    replaceAll e.form e.var.chars (written back segments) = written (e :: back) segments := by
  induction segments with
  | nil => rfl
  | cons s segments ih =>
    have hrest := ih h.of_cons fun e' he' => hnumber e' (List.mem_cons_of_mem _ he')
    rw [written_cons, written_cons]
    by_cases hs : s = .standIn e ∧ e ∉ back
    · obtain ⟨rfl, hback⟩ := hs
      have hne : e.form ≠ [] := by
        obtain ⟨a, b, c, d, hdigits, -⟩ := he.decimalDigits
        simp [Entry.form_eq, hdigits]
      simp only [Segment.chars, if_neg hback, List.mem_cons_self, if_true]
      rw [replaceAll_append_self hne, hrest]
    · have hchars : s.chars (e :: back) = s.chars back := by
        cases s with
        | char c => rfl
        | standIn e' =>
          simp only [Segment.chars, List.mem_cons]
          by_cases heq : e' = e
          · subst heq
            have : e' ∈ back := by simpa using hs
            simp [this]
          · simp [heq]
      rw [hchars, replaceAll_append_of_not_begins, hrest]
      intro k hk hbegins
      rw [← List.drop_append_of_le_length hk.le, ← written_cons, Entry.form_eq] at hbegins
      obtain ⟨before, after, hsplit, hback, hlength, -⟩ := h.exists_of_number he hnumber hbegins
      cases before with
      | nil =>
        obtain ⟨rfl, -⟩ := List.cons.inj hsplit
        exact hs ⟨rfl, hback⟩
      | cons s' before =>
        obtain ⟨rfl, -⟩ := List.cons.inj hsplit
        rw [written_cons, List.length_append] at hlength
        omega

/-- The number of a variable that is back is nowhere in a text. -/
lemma Distinct.not_infix_of_mem (h : Distinct segments) (he : e.Early)
    (hnumber : ∀ e', .standIn e' ∈ segments → e'.number = e.number → e' = e) (hback : e ∈ back)
    (lead rest : List Char) :
    ¬ lead ++ Number.decimalDigits e.number ++ rest <:+: written back segments := by
  intro hwithin
  obtain ⟨k, hbegins⟩ := exists_prefix_drop hwithin
  obtain ⟨before, after, -, hnot, -⟩ := h.exists_of_number he hnumber hbegins
  exact hnot hback

/-! ## Texts of the query itself -/

/-- A variable or a stand-in may begin with the character. -/
def leadsPart (c : Char) : Bool :=
  c == '9' || c == '_' || c == '"' || c == '$'

lemma exists_chars_standIn (back : List Entry) (he : e.Early) :
    ∃ first rest, Segment.chars back (.standIn e) = first :: rest ∧ leadsPart first = true := by
  rw [Segment.chars]
  split
  · obtain ⟨name, hname⟩ := exists_chars_eq_cons e.var
    exact ⟨'$', name, hname, rfl⟩
  · obtain ⟨a, b, c, d, hdigits, -⟩ := he.decimalDigits
    rw [Entry.form_eq, hdigits, Entry.lead]
    split <;> split <;> simp [leadsPart]

/-- Characters that begin neither a variable nor a stand-in are parts of their own. -/
lemma map_char_prefix {text : List Char} (hearly : ∀ e, .standIn e ∈ segments → e.Early)
    (htext : text.all (fun c => !leadsPart c) = true)
    (h : text <+: written back segments) : text.map .char <+: segments := by
  induction text generalizing segments with
  | nil => exact List.nil_prefix
  | cons c text ih =>
    cases segments with
    | nil => simp [written] at h
    | cons s segments =>
      rw [written_cons] at h
      cases s with
      | char c' =>
        obtain ⟨rfl, hrest⟩ := List.cons_prefix_cons.1 h
        refine List.cons_prefix_cons.2 ⟨rfl, ih ?_ ?_ hrest⟩
        · exact fun e he => hearly e (List.mem_cons_of_mem _ he)
        · rw [List.all_cons, Bool.and_eq_true] at htext
          exact htext.2
      | standIn e =>
        obtain ⟨first, rest, hchars, hfirst⟩ :=
          exists_chars_standIn back (hearly e List.mem_cons_self)
        rw [hchars, List.cons_append, List.cons_prefix_cons] at h
        simp [h.1, hfirst] at htext

lemma original_append (before after : List Segment) :
    original (before ++ after) = original before ++ original after :=
  List.flatMap_append

lemma original_map_char (text : List Char) : original (text.map .char) = text := by
  induction text with
  | nil => rfl
  | cons c text ih => rw [List.map_cons, original_cons, ih, original, List.flatMap_singleton, List.singleton_append]

/-- Characters that begin neither a variable nor a stand-in are characters of the query. -/
lemma prefix_original {text : List Char} (hearly : ∀ e, .standIn e ∈ segments → e.Early)
    (htext : text.all (fun c => !leadsPart c) = true)
    (h : text <+: written back segments) : text <+: original segments := by
  obtain ⟨rest, rfl⟩ := map_char_prefix hearly htext h
  rw [original_append, original_map_char]
  exact List.prefix_append _ _

lemma Entry.notMem_form {c : Char} (hc : c ∈ ['d', 'h']) : c ∉ e.form := by
  intro h
  rcases Entry.mem_form h with h | h <;> simp at hc h <;> rcases hc with rfl | rfl <;> simp at h

lemma prefix_original_of_letter {x : Char} (hearly : ∀ e, .standIn e ∈ segments → e.Early)
    (h : [x, 'h'] <+: written [] segments) : [x, 'h'] <+: original segments := by
  cases segments with
  | nil => simp [written] at h
  | cons s segments =>
    rw [written_cons] at h
    cases s with
    | char c =>
      obtain ⟨rfl, hrest⟩ := List.cons_prefix_cons.1 h
      refine List.cons_prefix_cons.2 ⟨rfl, prefix_original ?_ rfl hrest⟩
      exact fun e he => hearly e (List.mem_cons_of_mem _ he)
    | standIn e =>
      have hlength : 1 < e.form.length := by
        obtain ⟨a, b, c, d, hdigits, -⟩ := (hearly e List.mem_cons_self).decimalDigits
        simp [Entry.form_eq, hdigits]
        omega
      have hsecond := h.drop 1
      simp only [Segment.chars, List.not_mem_nil, if_false] at hsecond
      rw [List.drop_append_of_le_length hlength.le] at hsecond
      exact absurd hsecond (not_prefix_drop_append (Entry.notMem_form (by simp)) hlength _ _)

/-- No stand-in takes part in a count of days with a digit of hours behind it. -/
lemma infix_original {x : Char} (hearly : ∀ e, .standIn e ∈ segments → e.Early)
    (h : ['d', x, 'h'] <:+: written [] segments) : ['d', x, 'h'] <:+: original segments := by
  obtain ⟨k, hbegins⟩ := exists_prefix_drop h
  clear h
  induction segments generalizing k with
  | nil => simp [written] at hbegins
  | cons s segments ih =>
    have hearly' : ∀ e, .standIn e ∈ segments → e.Early := fun e he =>
      hearly e (List.mem_cons_of_mem _ he)
    rw [written_cons] at hbegins
    by_cases hk : (s.chars []).length ≤ k
    · rw [List.drop_append, List.drop_of_length_le hk, List.nil_append] at hbegins
      rw [original_cons]
      exact (ih hearly' _ hbegins).trans (List.suffix_append _ _).isInfix
    rw [List.drop_append_of_le_length (by omega)] at hbegins
    cases s with
    | standIn e =>
      have hd : 'd' ∉ Segment.chars [] (.standIn e) := by
        simpa [Segment.chars] using Entry.notMem_form (by simp)
      exact absurd hbegins (not_prefix_drop_append hd (by omega) _ _)
    | char c =>
      obtain rfl : k = 0 := by simpa [Segment.chars] using hk
      obtain ⟨rfl, hrest⟩ := List.cons_prefix_cons.1 hbegins
      exact (List.cons_prefix_cons.2 ⟨rfl, prefix_original_of_letter hearly' hrest⟩).isInfix

/-! ## Putting the variables back -/

/-- One entry put back changes the places of its variable and no others. -/
lemma Distinct.restoreEntry_written (h : Distinct segments) (he : e.Early)
    (hnumber : ∀ e', .standIn e' ∈ segments → e'.number = e.number → e' = e)
    (htimestamp : e.inTimestamp → e.labelQuoted ≠ some false)
    (hpoint : ¬ ".000".toList <:+: original segments) :
    restoreEntry (written back segments) e = written (e :: back) segments := by
  have hinstant : (if e.inTimestamp then
      replaceAll (e.token ++ ".000".toList) e.var.chars (written back segments)
      else written back segments) = written back segments := by
    split
    · next hts =>
      apply replaceAll_of_absent
      intro hwithin
      obtain ⟨k, hbegins⟩ := exists_prefix_drop hwithin
      have htoken : e.token = e.lead ++ Number.decimalDigits e.number ++ e.tail := by
        rw [← Entry.form_eq, Entry.form, if_neg (htimestamp hts)]
      rw [htoken, List.append_assoc] at hbegins
      obtain ⟨before, after, rfl, -, -, hrest⟩ := h.exists_of_number he hnumber hbegins
      have hafter := prefix_original
        (fun e' he' => h.early e' (List.mem_append_right _ (List.mem_cons_of_mem _ he'))) rfl
        ((List.prefix_append_right_inj _).1 hrest)
      apply hpoint
      rw [original, List.flatMap_append, List.flatMap_cons]
      exact hafter.isInfix.trans
        ((List.suffix_append _ _).isInfix.trans (List.suffix_append _ _).isInfix)
    · rfl
  rw [restoreEntry, hinstant]
  by_cases hquoted : e.labelQuoted = some false
  · have hform : '"' :: e.token ++ ['"'] = e.form := by rw [Entry.form, if_pos hquoted]
    simp only [if_pos hquoted, hform]
    rw [h.replaceAll_form he hnumber]
    apply replaceAll_of_absent
    rw [Entry.token]
    split
    · exact h.not_infix_of_mem he hnumber List.mem_cons_self _ _
    · simpa using h.not_infix_of_mem he hnumber List.mem_cons_self [] []
  · have hform : e.token = e.form := by rw [Entry.form, if_neg hquoted]
    simp only [if_neg hquoted, hform]
    exact h.replaceAll_form he hnumber

end Distinct

end QueryScope.Variable
