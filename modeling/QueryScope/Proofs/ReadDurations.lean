import QueryScope.Proofs.DurationText

/-!
# Which durations are read

What is read in units is a duration below the limit of `2 ^ 64` milliseconds, and so it is printed as itself.
A bare number of seconds has no such bound: the number fits the limit, its milliseconds need not.
-/

namespace QueryScope.Duration

/-- A text of counts with their units, the counts by their digits. -/
def unitChars (counts : List (List Char × Measure)) : List Char :=
  counts.flatMap fun count => count.1 ++ count.2.symbol

lemma Measure.eq_append_of_read? {text rest : List Char} {m : Measure} (h : read? text = some (m, rest)) :
    text = m.symbol ++ rest := by
  obtain ⟨n, -, hn⟩ := List.exists_of_findSome?_eq_some h
  split at hn
  case h_1 tail htail =>
    split at hn
    · cases hn
    · obtain ⟨rfl, rfl⟩ := Prod.mk.inj (Option.some.inj hn)
      exact Text.eq_append_of_after? htail
  case h_2 => cases hn

/-- The total is kept below the limit from unit to unit; only a first count without a unit is not added to it. -/
lemma scanCounts_eq_ok {total : Nat} {last : Option Measure} {input rest : List Char} {d : Duration}
    (h : scanCounts total last input = .ok (d, rest)) (htotal : total < limit) :
    (d.millis < limit ∧ ∃ counts, (last = none → counts ≠ []) ∧ input = unitChars counts ++ rest) ∨
      (last = none ∧ ∃ digits, input = digits ++ rest ∧ digits.all Char.isDigit = true ∧
        d.millis = Number.natOfDigits digits * 1000) := by
  fun_induction scanCounts total last input with
  | case1 total last input _ _ hlast =>
    obtain ⟨rfl, rfl⟩ := Prod.mk.inj (Except.ok.inj h)
    refine .inl ⟨htotal, [], ?_, rfl⟩
    rintro rfl
    cases hlast
  | case6 total last input digits behind _ count _ m next hread _ hlimit ih =>
    obtain ⟨hfits, counts, -, rfl⟩ | ⟨hnone, -⟩ := ih h (by omega)
    · refine .inl ⟨hfits, (digits, m) :: counts, by simp, ?_⟩
      calc input = digits ++ (m.symbol ++ (unitChars counts ++ rest)) := by
            rw [← Measure.eq_append_of_read? hread, List.takeWhile_append_dropWhile]
        _ = unitChars ((digits, m) :: counts) ++ rest := by simp [unitChars]
    · cases hnone
  | case9 total last input digits behind _ count _ _ hlast _ =>
    obtain ⟨rfl, rfl⟩ := Prod.mk.inj (Except.ok.inj h)
    exact .inr ⟨Option.not_isSome_iff_eq_none.1 hlast, digits, List.takeWhile_append_dropWhile.symm,
      List.all_takeWhile, rfl⟩
  | _ => cases h

lemma not_all_isDigit_unitChars {counts : List (List Char × Measure)} (h : counts ≠ []) :
    (unitChars counts).all Char.isDigit = false := by
  obtain ⟨⟨digits, m⟩, counts, rfl⟩ := List.exists_cons_of_ne_nil h
  have hsymbol : m.symbol.all Char.isDigit = false := by cases m <;> rfl
  simp only [unitChars, List.flatMap_cons, List.all_append, hsymbol, Bool.and_false, Bool.false_and]

lemma scan_eq_ok {input rest : List Char} {d : Duration} (h : scan input = .ok (d, rest)) :
    (d.millis < limit ∧ ∃ counts, counts ≠ [] ∧ input = unitChars counts ++ rest) ∨
      ∃ digits, input = digits ++ rest ∧ digits.all Char.isDigit = true ∧
        d.millis = Number.natOfDigits digits * 1000 := by
  rw [scan] at h
  split at h
  · cases h
  · obtain ⟨hfits, counts, hne, hinput⟩ | ⟨-, hbare⟩ := scanCounts_eq_ok h (by decide)
    · exact .inl ⟨hfits, counts, hne rfl, hinput⟩
    · exact .inr hbare

lemma parse_text_eq_ok_iff {d : Duration} : parse d.text = .ok d ↔ d.millis < limit := by
  rw [parse_text]
  constructor
  · intro h
    have hmod : d.millis % limit = d.millis := congrArg millis (Except.ok.inj h)
    rw [← hmod]
    exact Nat.mod_lt _ (by decide)
  · intro h
    rw [mod_limit_of_lt h]

/-- A duration that is read lies below the limit, unless it is a bare number of seconds that is too large. Exactly
where it does, it is printed as itself. -/
theorem read_duration_fits_iff {input rest : List Char} {d : Duration} (h : scan input = .ok (d, rest)) :
    (limit ≤ d.millis ↔ ∃ digits, input = digits ++ rest ∧ digits.all Char.isDigit = true ∧
      limit ≤ Number.natOfDigits digits * 1000) ∧
    (parse d.text = .ok d ↔ d.millis < limit) := by
  refine ⟨?_, parse_text_eq_ok_iff⟩
  obtain ⟨hfits, counts, hne, rfl⟩ | ⟨digits, rfl, hdigits, hmillis⟩ := scan_eq_ok h
  · refine iff_of_false (Nat.not_le.2 hfits) ?_
    rintro ⟨digits, hinput, hdigits, -⟩
    rw [← List.append_cancel_right hinput, not_all_isDigit_unitChars hne] at hdigits
    cases hdigits
  · rw [hmillis]
    constructor
    · intro hlimit
      exact ⟨digits, rfl, hdigits, hlimit⟩
    · rintro ⟨digits', hinput, -, hlimit⟩
      rwa [List.append_cancel_right hinput]

/-- The largest bare number of seconds below the limit. -/
theorem read_duration_fits_iff_sample :
    ∃ d, scan "18446744073709551]".toList = .ok (d, [']']) ∧ ¬ limit ≤ d.millis ∧ parse d.text = .ok d := by
  have hread : scan "18446744073709551]".toList = .ok (⟨18446744073709551000⟩, [']']) := by
    rw [scan, if_neg (by decide), scanCounts]
    rfl
  obtain ⟨-, hprinted⟩ := read_duration_fits_iff hread
  exact ⟨_, hread, by decide, hprinted.2 (by decide)⟩

/-- One second more, and the number is printed as another duration. -/
theorem seconds_are_printed_as_other_duration :
    ∃ d, scan "18446744073709552]".toList = .ok (d, [']']) ∧ limit ≤ d.millis ∧ d.text = "384ms" := by
  have hread : scan "18446744073709552]".toList = .ok (⟨18446744073709552000⟩, [']']) := by
    rw [scan, if_neg (by decide), scanCounts]
    rfl
  exact ⟨_, hread, by decide, rfl⟩

end QueryScope.Duration
