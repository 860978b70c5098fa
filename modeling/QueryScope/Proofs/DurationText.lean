import QueryScope.Duration
import QueryScope.Proofs.CharClasses
import QueryScope.Proofs.ScanSteps

/-!
# Written durations are read back

A duration is written by counts of units from the largest to the smallest. The reader takes the
counts one by one and adds them up to the milliseconds that were written, so below the limit of
`2 ^ 64` milliseconds no two durations are written alike.
-/

namespace QueryScope

namespace Number

lemma natOfDigits_decimalDigits (n : Nat) : natOfDigits (decimalDigits n) = n :=
  Nat.ofDigitChars_ten_toDigits

lemma isDigit_of_mem_decimalDigits {n : Nat} {c : Char} (h : c ∈ decimalDigits n) : c.isDigit :=
  Nat.isDigit_of_mem_toDigits (by decide) (by decide) h

lemma decimalDigits_ne_nil (n : Nat) : decimalDigits n ≠ [] :=
  Nat.toDigits_ne_nil

end Number

namespace Text

lemma isBlank_of_isAlphanum {c : Char} (h : c.isAlphanum = true) : isBlank c = false := by
  simp only [Char.isAlphanum, Bool.or_eq_true, isAlpha_iff, isDigit_iff] at h
  simp only [isBlank, Ranges.holds, blankRanges, List.any_cons, List.any_nil, Bool.or_false, Bool.or_eq_false_iff,
    Bool.and_eq_false_iff, decide_eq_false_iff_not]
  omega

lemma trim_of_forall_not_blank {text : List Char} (h : ∀ c ∈ text, isBlank c = false) : trim text = text := by
  have hstart {chars : List Char} (hchars : ∀ c ∈ chars, isBlank c = false) : chars.dropWhile isBlank = chars := by
    cases chars with
    | nil => rfl
    | cons c chars => simp [hchars c List.mem_cons_self]
  rw [trim, trimEnd, trimStart, hstart h, hstart fun c hc => h c (List.mem_reverse.1 hc), List.reverse_reverse]

end Text

namespace Duration

/-- No count and no unit of a duration goes on at the start of the text. -/
def Ends (rest : List Char) : Prop :=
  rest.head?.any Char.isAlphanum = false

lemma Ends.not_digit {rest : List Char} (h : Ends rest) : rest.head?.any Char.isDigit = false := by
  cases rest with
  | nil => rfl
  | cons c rest =>
    have hc : c.isAlphanum = false := by simpa [Ends] using h
    simp_all [Char.isAlphanum]

lemma Ends.not_alpha {rest : List Char} (h : Ends rest) : rest.head?.any Char.isAlpha = false := by
  cases rest with
  | nil => rfl
  | cons c rest =>
    have hc : c.isAlphanum = false := by simpa [Ends] using h
    simp_all [Char.isAlphanum]

lemma Measure.read?_append (m : Measure) {rest : List Char}
    (h : rest.head?.any Char.isAlpha = false) : Measure.read? (m.symbol ++ rest) = some (m, rest) := by
  cases m <;> cases rest with
  | nil => decide
  | cons c rest =>
    have hc : c.isAlpha = false := by simpa using h
    simp [Measure.read?, Measure.all, Measure.symbol, Text.after?, hc]

/-- One count with its unit is read and the rest goes on from the larger total. -/
lemma scanCounts_unit {total count : Nat} {last : Option Measure} {m : Measure} {rest : List Char}
    (hcount : count < limit) (horder : ∀ l, last = some l → l.rank < m.rank)
    (htotal : total + count * m.millis < limit) (hrest : rest.head?.any Char.isAlpha = false) :
    scanCounts total last (Number.decimalDigits count ++ m.symbol ++ rest) =
      scanCounts (total + count * m.millis) (some m) rest := by
  have hsymbol : (m.symbol ++ rest).head?.any Char.isDigit = false := by cases m <;> rfl
  have hdigits : ∀ c ∈ Number.decimalDigits count, c.isDigit := fun c hc =>
    Number.isDigit_of_mem_decimalDigits hc
  have hlast : (last.any fun l => decide (m.rank ≤ l.rank)) = false := by
    cases last with
    | none => rfl
    | some l => simpa using horder l rfl
  rw [scanCounts, List.append_assoc, Text.takeWhile_append_stop hdigits hsymbol,
    Text.dropWhile_append_stop hdigits hsymbol]
  simp only [Number.decimalDigits_ne_nil, if_false, Number.natOfDigits_decimalDigits]
  rw [if_neg (Nat.not_le.2 hcount)]
  split
  case h_1 m' next hread =>
    rw [Measure.read?_append m hrest, Option.some.injEq, Prod.mk.injEq] at hread
    obtain ⟨rfl, rfl⟩ := hread
    rw [hlast]
    simp only [Bool.false_eq_true, if_false]
    rw [if_neg (Nat.not_le.2 htotal)]
  case h_2 hread => simp [Measure.read?_append m hrest] at hread

lemma scanCounts_end {total : Nat} {m : Measure} {rest : List Char} (h : Ends rest) :
    scanCounts total (some m) rest = .ok (⟨total⟩, rest) := by
  have hnone : ([] ++ rest).takeWhile Char.isDigit = [] :=
    Text.takeWhile_append_stop (by simp) h.not_digit
  rw [List.nil_append] at hnone
  rw [scanCounts]
  simp [hnone]

/-- A count of a unit, written out. -/
def countChars (count : Nat × Measure) : List Char :=
  Number.decimalDigits count.1 ++ count.2.symbol

/-- The milliseconds of some counts. -/
def countsMillis (counts : List (Nat × Measure)) : Nat :=
  (counts.map fun count => count.1 * count.2.millis).sum

/-- Some time is written as counts of the given units, if these go down to milliseconds. -/
lemma exists_counts {units : List Measure} {left : Nat} (hfine : .millisecond ∈ units ∨ left = 0) :
    ∃ counts, writeUnits units left = counts.flatMap countChars ∧
      (counts.map Prod.snd).Sublist units ∧ countsMillis counts = left := by
  induction units generalizing left with
  | nil =>
    obtain rfl : left = 0 := by simpa using hfine
    exact ⟨[], rfl, .slnil, rfl⟩
  | cons m smaller ih =>
    have hother (h : m ≠ .millisecond) : .millisecond ∈ smaller ∨ left = 0 :=
      hfine.imp_left fun hmem => (List.mem_cons.1 hmem).resolve_left h.symm
    have hskip (h : .millisecond ∈ smaller ∨ left = 0) :
        ∃ counts, writeUnits smaller left = counts.flatMap countChars ∧
          (counts.map Prod.snd).Sublist (m :: smaller) ∧ countsMillis counts = left := by
      obtain ⟨counts, hchars, hunits, hsum⟩ := ih h
      exact ⟨counts, hchars, hunits.cons m, hsum⟩
    unfold writeUnits
    split_ifs with hexact hzero
    · refine hskip (hother ?_)
      rintro rfl
      simp [Measure.whenExact] at hexact
    · by_cases hms : m = .millisecond
      · subst hms
        exact hskip (Or.inr (by simpa [Measure.millis] using hzero))
      · exact hskip (hother hms)
    · have hfine' : .millisecond ∈ smaller ∨ left % m.millis = 0 := by
        by_cases hms : m = .millisecond
        · subst hms
          exact Or.inr (Nat.mod_one left)
        · rcases hother hms with h | h
          · exact Or.inl h
          · simp [h]
      obtain ⟨counts, hchars, hunits, hsum⟩ := ih hfine'
      refine ⟨(left / m.millis, m) :: counts, ?_, hunits.cons_cons m, ?_⟩
      · rw [List.flatMap_cons, hchars, countChars]
      · rw [countsMillis, List.map_cons, List.sum_cons, ← countsMillis, hsum, Nat.div_add_mod']

/-- A duration is written as counts of units that get smaller and smaller. -/
lemma exists_counts_chars (d : Duration) :
    ∃ counts, counts ≠ [] ∧ d.chars = counts.flatMap countChars ∧
      (counts.map Prod.snd).Pairwise (fun m n => m.rank < n.rank) ∧ countsMillis counts = d.millis % limit := by
  unfold chars
  dsimp only
  split_ifs with hzero
  · exact ⟨[(0, .second)], by simp, rfl, by simp, hzero.symm⟩
  · obtain ⟨counts, hchars, hunits, hsum⟩ := exists_counts (.inl (by decide : .millisecond ∈ Measure.all))
    have hall : Measure.all.Pairwise fun m n => m.rank < n.rank := by decide
    refine ⟨counts, ?_, hchars, hall.sublist hunits, hsum⟩
    rintro rfl
    exact hzero hsum.symm

lemma countChars_append_head {counts : List (Nat × Measure)} {rest : List Char} (h : Ends rest) :
    (counts.flatMap countChars ++ rest).head?.any Char.isAlpha = false := by
  cases counts with
  | nil => exact h.not_alpha
  | cons count counts =>
    obtain ⟨c, digits, hdigits⟩ := List.exists_cons_of_ne_nil (Number.decimalDigits_ne_nil count.1)
    have hc : c.isDigit := Number.isDigit_of_mem_decimalDigits (hdigits ▸ List.mem_cons_self)
    simpa [countChars, hdigits] using Text.isAlpha_of_isDigit hc

/-- Counts of smaller and smaller units are read and added up. -/
lemma scanCounts_counts {counts : List (Nat × Measure)} {total : Nat} {last : Option Measure} {rest : List Char}
    (horder : (last.toList ++ counts.map Prod.snd).Pairwise fun m n => m.rank < n.rank)
    (hsome : last = none → counts ≠ []) (hlimit : total + countsMillis counts < limit) (hrest : Ends rest) :
    scanCounts total last (counts.flatMap countChars ++ rest) = .ok (⟨total + countsMillis counts⟩, rest) := by
  induction counts generalizing total last with
  | nil =>
    cases last with
    | none => exact absurd rfl (hsome rfl)
    | some l => exact scanCounts_end hrest
  | cons count counts ih =>
    obtain ⟨n, m⟩ := count
    have hchars : countChars (n, m) = Number.decimalDigits n ++ m.symbol := rfl
    have hsum : countsMillis ((n, m) :: counts) = n * m.millis + countsMillis counts := rfl
    have hpos : 0 < m.millis := by cases m <;> decide
    have hcount : n ≤ n * m.millis := Nat.le_mul_of_pos_right n hpos
    have hfirst : ∀ l, last = some l → l.rank < m.rank := by
      rintro l rfl
      exact List.rel_of_pairwise_cons horder List.mem_cons_self
    have horder' : ((some m).toList ++ counts.map Prod.snd).Pairwise fun m n => m.rank < n.rank :=
      horder.sublist (List.sublist_append_right _ _)
    rw [List.flatMap_cons, List.append_assoc, hchars,
      scanCounts_unit (by omega) hfirst (by omega) (countChars_append_head hrest),
      ih horder' (by simp) (by omega), hsum, Nat.add_assoc]

lemma scanCounts_chars (d : Duration) {rest : List Char} (hrest : Ends rest) :
    scanCounts 0 none (d.chars ++ rest) = .ok (⟨d.millis % limit⟩, rest) := by
  have hlimit : d.millis % limit < limit := Nat.mod_lt _ (by decide)
  obtain ⟨counts, hne, hchars, horder, hsum⟩ := d.exists_counts_chars
  have hread : scanCounts 0 none (counts.flatMap countChars ++ rest) = .ok (⟨0 + countsMillis counts⟩, rest) :=
    scanCounts_counts horder (fun _ => hne) (by omega) hrest
  rw [hchars, hread, hsum, Nat.zero_add]

/-- The written form of a duration begins with a digit. -/
lemma exists_cons_chars (d : Duration) : ∃ c tail, d.chars = c :: tail ∧ c.isDigit = true := by
  have hends : Ends [] := rfl
  have hread := scanCounts_chars d hends
  rw [List.append_nil] at hread
  cases hchars : d.chars with
  | nil =>
    rw [hchars, scanCounts] at hread
    simp [Scan.miss] at hread
  | cons c tail =>
    refine ⟨c, tail, rfl, ?_⟩
    by_contra hdigit
    rw [hchars, scanCounts] at hread
    simp [hdigit, Scan.miss] at hread

/-- The written form of a duration is read as its milliseconds below the limit. -/
lemma scan_chars (d : Duration) {rest : List Char} (hrest : Ends rest) :
    scan (d.chars ++ rest) = .ok (⟨d.millis % limit⟩, rest) := by
  obtain ⟨c, tail, hc, hdigit⟩ := d.exists_cons_chars
  have hsign : (d.chars ++ rest).head? ≠ some '-' := by
    rw [hc]
    rintro ⟨⟩
    simp at hdigit
  rw [scan, if_neg hsign, scanCounts_chars d hrest]

lemma mod_limit_of_lt {d : Duration} (h : d.millis < limit) : (⟨d.millis % limit⟩ : Duration) = d := by
  rw [Nat.mod_eq_of_lt h]

/-! ## Whole texts -/

lemma Measure.isAlpha_of_mem_symbol {m : Measure} {c : Char} (h : c ∈ m.symbol) : c.isAlpha = true := by
  have hall : m.symbol.all Char.isAlpha = true := by cases m <;> rfl
  exact List.all_eq_true.1 hall c h

lemma isAlphanum_of_mem_chars {d : Duration} {c : Char} (h : c ∈ d.chars) : c.isAlphanum = true := by
  obtain ⟨counts, -, hchars, -, -⟩ := d.exists_counts_chars
  rw [hchars, List.mem_flatMap] at h
  obtain ⟨count, -, hc⟩ := h
  rw [Char.isAlphanum, Bool.or_eq_true]
  rcases List.mem_append.1 hc with hc | hc
  · exact .inr (Number.isDigit_of_mem_decimalDigits hc)
  · exact .inl (Measure.isAlpha_of_mem_symbol hc)

lemma parse_text (d : Duration) : parse d.text = .ok ⟨d.millis % limit⟩ := by
  have htrim : Text.trim d.chars = d.chars :=
    Text.trim_of_forall_not_blank fun c hc => Text.isBlank_of_isAlphanum (isAlphanum_of_mem_chars hc)
  have hends : Ends [] := rfl
  have hread := scan_chars d hends
  rw [List.append_nil] at hread
  rw [parse, text, String.toList_ofList, htrim, Scan.readAll, hread]

lemma Measure.rank_lt_rank_iff {m n : Measure} : m.rank < n.rank ↔ n.millis < m.millis := by
  cases m <;> cases n <;> decide

lemma eq_of_text_eq {d e : Duration} (hd : d.millis < limit) (he : e.millis < limit) (h : e.text = d.text) :
    e = d := by
  have hparse := parse_text e
  rw [h, parse_text d, mod_limit_of_lt hd, mod_limit_of_lt he] at hparse
  exact (Except.ok.inj hparse).symm

/-- A duration below the limit is read back from its written form, which is that of no other one and has its
units in decreasing order. -/
theorem written_duration_is_read {d : Duration} (h : d.millis < limit) :
    parse d.text = .ok d ∧ (∀ e : Duration, e.millis < limit → e.text = d.text → e = d) ∧
      ∃ counts, d.text = String.ofList (counts.flatMap countChars) ∧ countsMillis counts = d.millis ∧
        (counts.map Prod.snd).Pairwise fun m n => n.millis < m.millis := by
  obtain ⟨counts, -, hchars, horder, hsum⟩ := d.exists_counts_chars
  rw [Nat.mod_eq_of_lt h] at hsum
  refine ⟨?_, fun e he htext => eq_of_text_eq h he htext, counts, ?_, hsum, ?_⟩
  · rw [parse_text, mod_limit_of_lt h]
  · rw [text, hchars]
  · exact horder.imp fun hrank => Measure.rank_lt_rank_iff.1 hrank

/-- The longest duration of all. -/
theorem written_duration_is_read_sample :
    (⟨limit - 1⟩ : Duration).millis < limit ∧
      (⟨limit - 1⟩ : Duration).text = "213503982334d14h25m51s615ms" ∧
      parse "213503982334d14h25m51s615ms" = .ok ⟨limit - 1⟩ := by
  have hlimit : (⟨limit - 1⟩ : Duration).millis < limit := by decide
  have htext : (⟨limit - 1⟩ : Duration).text = "213503982334d14h25m51s615ms" := rfl
  exact ⟨hlimit, htext, htext ▸ (written_duration_is_read hlimit).1⟩

end Duration

end QueryScope
