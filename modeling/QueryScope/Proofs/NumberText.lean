import QueryScope.Proofs.DurationText
import QueryScope.Proofs.Rounding
import QueryScope.Scan.Numeral

/-!
# Written numbers are read back

A number is written in positional notation with the digits of its shortest decimal. The reader finds
the same decimal, and rounds it to the number that was written. A timestamp is written to the
thousandth, so that the number nearest to its thousandths is read.
-/

namespace QueryScope

namespace Number

lemma natOfDigits_append_zeros (digits : List Char) (count : Nat) :
    natOfDigits (digits ++ List.replicate count '0') = natOfDigits digits * 10 ^ count := by
  induction count with
  | zero => simp
  | succ count ih =>
    have hstep : natOfDigits (digits ++ List.replicate count '0' ++ ['0']) =
        10 * natOfDigits (digits ++ List.replicate count '0') := by
      simp [natOfDigits]
    rw [List.replicate_succ', ← List.append_assoc, hstep, ih, Nat.pow_succ]
    ring

lemma natOfDigits_zeros_append (count : Nat) (digits : List Char) :
    natOfDigits (List.replicate count '0' ++ digits) = natOfDigits digits := by
  induction count with
  | zero => rfl
  | succ count ih => exact ih

lemma exists_cons_decimalDigits (n : Nat) : ∃ c tail, decimalDigits n = c :: tail ∧ c.isDigit = true := by
  obtain ⟨c, tail, hc⟩ := List.exists_cons_of_ne_nil (decimalDigits_ne_nil n)
  exact ⟨c, tail, hc, isDigit_of_mem_decimalDigits (hc ▸ List.mem_cons_self)⟩

/-- Positional notation begins with a digit. -/
lemma exists_cons_insertPoint (n places : Nat) :
    ∃ c tail, Decimal.insertPoint (decimalDigits n) places = c :: tail ∧ c.isDigit = true := by
  obtain ⟨c, tail, hc, hdigit⟩ := exists_cons_decimalDigits n
  unfold Decimal.insertPoint
  split_ifs with hzero hshort
  · exact ⟨c, tail, hc, hdigit⟩
  · exact ⟨'0', _, rfl, by decide⟩
  · obtain ⟨k, hk⟩ : ∃ k, (decimalDigits n).length - places = k + 1 :=
      ⟨(decimalDigits n).length - places - 1, by omega⟩
    exact ⟨c, _, by rw [hk, hc]; rfl, hdigit⟩

lemma exists_cons_positional (d : Decimal) : ∃ c tail, d.positional = c :: tail ∧ c.isDigit = true := by
  unfold Decimal.positional
  split_ifs
  · obtain ⟨c, tail, hc, hdigit⟩ := exists_cons_decimalDigits d.digits
    exact ⟨c, _, by rw [hc]; rfl, hdigit⟩
  · exact exists_cons_insertPoint _ _

lemma roundDiv_le (num den : Nat) : roundDiv num den ≤ num / den + 1 := by
  unfold roundDiv
  dsimp only
  split_ifs <;> omega

/-- A timestamp as it is written: the number nearest to a whole number of thousandths. -/
def Binary64.roundMillis : Binary64 → Binary64
  | .finite negative rank =>
    .ofRatio negative (roundDiv (unitsOfRank rank * 1000) unitsPerOne) 1000
  | v => v

lemma Binary64.neg_ofRatio (num den : Nat) :
    (Binary64.ofRatio false num den).neg = Binary64.ofRatio true num den := by
  unfold ofRatio ofRank
  split_ifs <;> rfl

/-- The number is written with a minus sign. -/
def Binary64.isNegative : Binary64 → Bool
  | .nan => false
  | .infinite negative => negative
  | .finite negative _ => negative

lemma Binary64.isNegative_ofRank (rank : Nat) : (Binary64.ofRank false rank).isNegative = false := by
  unfold ofRank
  split_ifs <;> rfl

lemma Decimal.isNegative_toBinary64 (d : Decimal) : (d.toBinary64 false).isNegative = false := by
  unfold Decimal.toBinary64
  simp only [Binary64.ofRatio]
  split_ifs <;> first | exact Binary64.isNegative_ofRank _ | rfl

end Number

namespace Scan

open Number

/-- No number goes on at the start of the text. -/
def NumberEnds (rest : List Char) : Prop :=
  rest.head?.any (fun c => Text.isWordChar c || c == '.') = false

lemma NumberEnds.not_word {rest : List Char} (h : NumberEnds rest) :
    rest.head?.any Text.isWordChar = false := by
  cases rest with
  | nil => rfl
  | cons c rest => simp_all [NumberEnds]

lemma NumberEnds.not_digit {rest : List Char} (h : NumberEnds rest) :
    rest.head?.any Char.isDigit = false := by
  cases rest with
  | nil => rfl
  | cons c rest => simp_all [NumberEnds, Text.isWordChar, Char.isAlphanum]

lemma NumberEnds.not_alpha {rest : List Char} (h : NumberEnds rest) :
    rest.head?.any Char.isAlpha = false := by
  cases rest with
  | nil => rfl
  | cons c rest => simp_all [NumberEnds, Text.isWordChar, Char.isAlphanum]

lemma exponentPart_of_ends {rest : List Char} (h : NumberEnds rest) : exponentPart rest = (0, rest) := by
  cases rest with
  | nil => rfl
  | cons c rest =>
    have hc : c.isAlpha = false := by simpa using h.not_alpha
    have hne : ¬(c = 'e' ∨ c = 'E') := by
      rintro (rfl | rfl) <;> exact absurd hc (by decide)
    simp only [exponentPart, if_neg hne]

/-- No whole number goes on at the start of the text, but the unit of a duration may. -/
def WholeEnds (rest : List Char) : Prop :=
  rest.head?.any (fun c => c.isDigit || ['.', 'e', 'E', 'x', 'X'].contains c) = false

lemma NumberEnds.wholeEnds {rest : List Char} (h : NumberEnds rest) : WholeEnds rest := by
  cases rest with
  | nil => rfl
  | cons c rest =>
    have hdigit : c.isDigit = false := by simpa using h.not_digit
    have hmarks : c ∉ ['.', 'e', 'E', 'x', 'X'] := by
      intro hmem
      have hc : (Text.isWordChar c || c == '.') = false := by simpa [NumberEnds] using h
      simp only [List.mem_cons, List.not_mem_nil, or_false] at hmem
      rcases hmem with rfl | rfl | rfl | rfl | rfl <;> exact absurd hc (by decide)
    simpa [WholeEnds, hdigit] using hmarks

lemma decimal?_whole {digits rest : List Char} (hdigits : ∀ c ∈ digits, c.isDigit) (hrest : WholeEnds rest)
    (hne : digits ≠ []) : decimal? (digits ++ rest) = some (⟨natOfDigits digits, 0⟩, rest) := by
  have hstop : rest.head?.any Char.isDigit = false := by
    cases rest with
    | nil => rfl
    | cons c rest => simp_all [WholeEnds]
  have hmantissa : mantissa? (digits ++ rest) = some (digits, [], rest) := by
    unfold mantissa?
    rw [Text.takeWhile_append_stop hdigits hstop, Text.dropWhile_append_stop hdigits hstop]
    cases rest with
    | nil => simp [hne]
    | cons c rest =>
      have hc : c ≠ '.' := by
        rintro rfl
        simp [WholeEnds] at hrest
      simp only [if_neg hne]
      split
      case h_1 heq => exact absurd (List.cons.inj heq).1 hc
      case h_2 => rfl
  have hexponent : exponentPart rest = (0, rest) := by
    cases rest with
    | nil => rfl
    | cons c rest =>
      have hc : ¬(c = 'e' ∨ c = 'E') := by
        rintro (rfl | rfl) <;> simp [WholeEnds] at hrest
      simp only [exponentPart, if_neg hc]
  simp [decimal?, hmantissa, hexponent]

section Decimals

variable {digits rest : List Char} (hdigits : ∀ c ∈ digits, c.isDigit) (hrest : NumberEnds rest)

include hdigits hrest

lemma decimal?_point {whole : List Char} (hwhole : ∀ c ∈ whole, c.isDigit) (hne : whole ≠ []) :
    decimal? (whole ++ '.' :: (digits ++ rest)) =
      some (⟨natOfDigits (whole ++ digits), -digits.length⟩, rest) := by
  have hpoint : ('.' :: (digits ++ rest)).head?.any Char.isDigit = false := by
    simp only [List.head?_cons, Option.any_some]
    decide
  have hmantissa : mantissa? (whole ++ '.' :: (digits ++ rest)) = some (whole, digits, rest) := by
    unfold mantissa?
    rw [Text.takeWhile_append_stop hwhole hpoint, Text.dropWhile_append_stop hwhole hpoint]
    simp only
    rw [Text.takeWhile_append_stop hdigits hrest.not_digit,
      Text.dropWhile_append_stop hdigits hrest.not_digit]
    simp [hne]
  simp [decimal?, hmantissa, exponentPart_of_ends hrest]

end Decimals

lemma specialNumber?_of_digit {c : Char} (hc : c.isDigit) (tail : List Char) :
    specialNumber? (c :: tail) = none := by
  rw [Text.isDigit_iff] at hc
  have hlower : c.toLower = c := by
    unfold Char.toLower
    rw [dif_neg]
    rintro ⟨hge, hle⟩
    simp only [UInt32.le_iff_toNat_le, ge_iff_le] at hge hle
    have hcode : c.val.toNat = c.toNat := rfl
    have hlow : 'A'.val.toNat = 65 := rfl
    omega
  have hi : c ≠ 'i' := by
    rintro rfl
    exact absurd hc (by decide)
  have hn : c ≠ 'n' := by
    rintro rfl
    exact absurd hc (by decide)
  simp [specialNumber?, hlower, hi, hn]

lemma specialNumber?_eq_none_iff {text : List Char} :
    specialNumber? text = none ↔ (text.drop 3).head?.any Text.isWordChar = true ∨
      (text.take 3).map Char.toLower ≠ ['i', 'n', 'f'] ∧ (text.take 3).map Char.toLower ≠ ['n', 'a', 'n'] := by
  unfold specialNumber?
  dsimp only
  split_ifs with h1 h2 h3 <;> simp_all

lemma isAlpha_of_toLower {c : Char} (h : c.toLower.isAlpha = true) : c.isAlpha = true := by
  unfold Char.toLower at h
  split_ifs at h with hupper
  · rw [Text.isAlpha_iff]
    left
    simp only [UInt32.le_iff_toNat_le, ge_iff_le] at hupper
    exact hupper
  · exact h

/-- Whether a name is taken for a number does not depend on what follows the name. -/
lemma specialNumber?_append_word {name tail : List Char}
    (htail : tail.head?.any Label.isMetricNameChar = false) :
    specialNumber? (name ++ tail) = none ↔ specialNumber? name = none := by
  have hword : tail.head?.any Text.isWordChar = false := Label.any_isWordChar_of_any_isMetricNameChar htail
  rw [specialNumber?_eq_none_iff, specialNumber?_eq_none_iff]
  rcases Nat.lt_or_ge name.length 3 with hshort | hlong
  · -- A short name is no number, and neither is one that a letter would have to complete.
    have hname3 : (name.drop 3).head?.any Text.isWordChar = false ∧ name.take 3 = name := by
      rw [List.drop_eq_nil_of_le hshort.le, List.take_of_length_le hshort.le]
      exact ⟨rfl, rfl⟩
    have hne {word : List Char} (hlength : word.length = 3) : (name.take 3).map Char.toLower ≠ word := by
      rintro rfl
      simp [hname3.2] at hlength
      omega
    have hne' {word : List Char} (hlength : word.length = 3) (halpha : ∀ c ∈ word, c.isAlpha = true) :
        ((name ++ tail).take 3).map Char.toLower ≠ word := by
      rintro rfl
      cases tail with
      | nil =>
        simp at hlength
        omega
      | cons c tail =>
        have hmem : c ∈ (name ++ c :: tail).take 3 := by
          rw [List.take_append, hname3.2]
          refine List.mem_append_right _ ?_
          obtain ⟨k, hk⟩ : ∃ k, 3 - name.length = k + 1 := ⟨2 - name.length, by omega⟩
          rw [hk]
          simp
        have hc := isAlpha_of_toLower (halpha c.toLower (List.mem_map_of_mem hmem))
        simp only [List.head?_cons, Option.any_some] at hword
        rw [Bool.eq_false_iff] at hword
        exact hword (Text.isWordChar_iff.2 (Or.inl hc))
    constructor
    · intro _
      exact Or.inr ⟨hne rfl, hne rfl⟩
    · intro _
      exact Or.inr ⟨hne' rfl (List.all_eq_true.1 (by decide)), hne' rfl (List.all_eq_true.1 (by decide))⟩
  · have htake : (name ++ tail).take 3 = name.take 3 := List.take_append_of_le_length hlong
    have hdrop : ((name ++ tail).drop 3).head?.any Text.isWordChar =
        (name.drop 3).head?.any Text.isWordChar := by
      rw [List.drop_append_of_le_length hlong]
      cases name.drop 3 with
      | nil => exact hword
      | cons c more => rfl
    rw [htake, hdrop]

lemma afterHexMark?_of_head {tail : List Char} (c : Char) (htail : tail.head? ∉ [some 'x', some 'X']) :
    afterHexMark? (c :: tail) = none := by
  unfold afterHexMark?
  split
  case h_1 rest heq =>
    obtain ⟨-, rfl⟩ := List.cons.inj heq
    exact absurd (by simp) htail
  case h_2 rest heq =>
    obtain ⟨-, rfl⟩ := List.cons.inj heq
    exact absurd (by simp) htail
  case h_3 => rfl

lemma number_of_decimal? {digits tail rest : List Char} {d : Decimal} (hdigits : ∀ c ∈ digits, c.isDigit)
    (hne : digits ≠ []) (htail : tail.head? ∉ [some 'x', some 'X'])
    (h : decimal? (digits ++ tail) = some (d, rest)) :
    number (digits ++ tail) = .ok (d.toBinary64 false, rest) := by
  obtain ⟨c, more, rfl⟩ := List.exists_cons_of_ne_nil hne
  have hmore : (more ++ tail).head? ∉ [some 'x', some 'X'] := by
    cases more with
    | nil => exact htail
    | cons e more =>
      have he : e.isDigit = true := hdigits e (by simp)
      simp only [List.cons_append, List.head?_cons, List.mem_cons, Option.some.injEq, List.not_mem_nil, or_false]
      rintro (rfl | rfl) <;> exact absurd he (by decide)
  rw [List.cons_append] at h ⊢
  simp only [number, specialNumber?_of_digit (hdigits c (by simp)), afterHexMark?_of_head c hmore, h]

lemma number_whole {digits rest : List Char} (hrest : WholeEnds rest) (hdigits : ∀ c ∈ digits, c.isDigit)
    (hne : digits ≠ []) :
    number (digits ++ rest) = .ok ((⟨natOfDigits digits, 0⟩ : Decimal).toBinary64 false, rest) := by
  refine number_of_decimal? hdigits hne ?_ (decimal?_whole hdigits hrest hne)
  cases rest with
  | nil => simp
  | cons c rest => simp_all [WholeEnds]

section Written

variable {rest : List Char} (hrest : NumberEnds rest)

include hrest

lemma number_point {whole digits : List Char} (hwhole : ∀ c ∈ whole, c.isDigit) (hne : whole ≠ [])
    (hdigits : ∀ c ∈ digits, c.isDigit) :
    number (whole ++ '.' :: (digits ++ rest)) =
      .ok ((⟨natOfDigits (whole ++ digits), -digits.length⟩ : Decimal).toBinary64 false, rest) :=
  number_of_decimal? hwhole hne (by simp) (decimal?_point hdigits hrest hwhole hne)

lemma number_insertPoint (n places : Nat) :
    number (Decimal.insertPoint (decimalDigits n) places ++ rest) =
      .ok ((⟨n, -places⟩ : Decimal).toBinary64 false, rest) := by
  have hdigits : ∀ c ∈ decimalDigits n, c.isDigit := fun c => isDigit_of_mem_decimalDigits
  have hvalue := natOfDigits_decimalDigits n
  have hne := decimalDigits_ne_nil n
  unfold Decimal.insertPoint
  generalize decimalDigits n = digits at *
  subst hvalue
  split_ifs with hzero hshort
  · subst hzero
    exact number_whole hrest.wholeEnds hdigits hne
  · -- Zeros fill the places between the point and the first digit.
    have hfraction : ∀ c ∈ List.replicate (places - digits.length) '0' ++ digits, c.isDigit := by
      intro c hc
      rcases List.mem_append.1 hc with hc | hc
      · rw [List.eq_of_mem_replicate hc]
        decide
      · exact hdigits c hc
    have hwhole : ∀ c ∈ ['0'], c.isDigit := by simp
    have hread := number_point hrest hwhole (by simp) hfraction
    have hzeros : ['0'] ++ (List.replicate (places - digits.length) '0' ++ digits) =
        List.replicate (places - digits.length + 1) '0' ++ digits := rfl
    have hlength : (List.replicate (places - digits.length) '0' ++ digits).length = places := by
      simp only [List.length_append, List.length_replicate]
      omega
    rw [hzeros, natOfDigits_zeros_append, hlength] at hread
    simpa using hread
  · have hsplit := List.take_append_drop (digits.length - places) digits
    have hwhole : digits.take (digits.length - places) ≠ [] := by
      intro hnil
      have hlength := congrArg List.length hnil
      simp only [List.length_take, List.length_nil] at hlength
      omega
    have hfraction : ∀ c ∈ digits.drop (digits.length - places), c.isDigit :=
      fun c hc => hdigits c (List.mem_of_mem_drop hc)
    have hread := number_point hrest (fun c hc => hdigits c (List.mem_of_mem_take hc)) hwhole hfraction
    have hlength : (digits.drop (digits.length - places)).length = places := by
      rw [List.length_drop]
      omega
    rw [hsplit, hlength] at hread
    simpa using hread

lemma number_positional (d : Decimal) :
    number (d.positional ++ rest) = .ok (d.toBinary64 false, rest) := by
  unfold Decimal.positional
  split_ifs with hexponent
  · have hdigits : ∀ c ∈ decimalDigits d.digits ++ List.replicate d.exponent.toNat '0', c.isDigit := by
      intro c hc
      rcases List.mem_append.1 hc with hc | hc
      · exact isDigit_of_mem_decimalDigits hc
      · rw [List.eq_of_mem_replicate hc]
        decide
    have hread := number_whole hrest.wholeEnds hdigits (by simp [decimalDigits_ne_nil])
    rw [hread, natOfDigits_append_zeros, natOfDigits_decimalDigits, Decimal.toBinary64_mul_ten_pow]
    simp [hexponent]
  · have hplaces : (-((-d.exponent).toNat : Int)) = d.exponent := by omega
    have hread := number_insertPoint hrest d.digits (-d.exponent).toNat
    rwa [hplaces] at hread

/-- A finite number without a sign is read from its written form. -/
lemma number_shortest (rank : Fin rankCount) :
    number ((shortest .up rank).positional ++ rest) = .ok (.finite false rank, rest) := by
  rw [number_positional hrest, toBinary64_shortest]

lemma number_nan : number ('N' :: 'a' :: 'N' :: rest) = .ok (.nan, rest) := by
  have hlower : ['N', 'a', 'N'].map Char.toLower = ['n', 'a', 'n'] := by decide
  simp [number, specialNumber?, hrest.not_word, hlower]

lemma number_infinite {name : List Char} (hname : name.map Char.toLower = ['i', 'n', 'f']) :
    number (name ++ rest) = .ok (.infinite false, rest) := by
  have hlength : name.length = 3 := by simpa using congrArg List.length hname
  have htake : (name ++ rest).take 3 = name := by simp [← hlength]
  have hdrop : (name ++ rest).drop 3 = rest := by simp [← hlength]
  simp [number, specialNumber?, htake, hdrop, hname, hrest.not_word]

omit hrest in
/-- A name is no number unless it is a special one. -/
lemma number_of_nameStart {c : Char} {tail : List Char} (hc : Label.isMetricNameStart c = true)
    (hspecial : specialNumber? (c :: tail) = none) : number (c :: tail) = .error ⟨false, [], c :: tail⟩ := by
  have hcode : c.toNat ≠ 46 ∧ ¬(48 ≤ c.toNat ∧ c.toNat ≤ 57) := by
    rw [Label.isMetricNameStart_iff, Label.isNameStart_iff, Text.isAlpha_iff] at hc
    omega
  have hpoint : c ≠ '.' := fun h => hcode.1 (Text.toNat_eq_iff.1 h)
  have hzero : c ≠ '0' := fun h => hcode.2 (by rw [h]; decide)
  have hdigit : c.isDigit = false := by
    rw [Bool.eq_false_iff, Ne, Text.isDigit_iff]
    exact hcode.2
  have hhex : afterHexMark? (c :: tail) = none := by
    unfold afterHexMark?
    split
    · simp_all
    · simp_all
    · rfl
  have hdecimal : decimal? (c :: tail) = none := by
    have hmantissa : mantissa? (c :: tail) = none := by
      unfold mantissa?
      simp only [List.takeWhile_cons, List.dropWhile_cons, hdigit, Bool.false_eq_true, if_false]
      split
      · simp_all
      · rfl
    simp [decimal?, hmantissa]
  simp [number, hspecial, hhex, hdecimal, miss]

/-- A timestamp without a sign is read to the thousandth. -/
lemma number_thousandths (rank : Fin rankCount) :
    number (Decimal.insertPoint (decimalDigits (roundDiv (unitsOfRank rank * 1000) unitsPerOne)) 3 ++ rest)
      = .ok (.ofRatio false (roundDiv (unitsOfRank rank * 1000) unitsPerOne) 1000, rest) := by
  have hhigh : roundDiv (unitsOfRank rank * 1000) unitsPerOne < 10 ^ (310 + 3) := by
    calc roundDiv (unitsOfRank rank * 1000) unitsPerOne
        ≤ unitsOfRank rank * 1000 / unitsPerOne + 1 := roundDiv_le _ _
      _ ≤ 2 * binadeSize * 2 ^ 2045 * 1000 / unitsPerOne + 1 :=
          Nat.add_le_add_right
            (Nat.div_le_div_right (Nat.mul_le_mul_right 1000 (unitsOfRank_lt rank).le)) 1
      _ < 10 ^ (310 + 3) := by decide +kernel
  have hlow : roundDiv (unitsOfRank rank * 1000) unitsPerOne = 0 ∨
      10 ^ (3 - 331) ≤ roundDiv (unitsOfRank rank * 1000) unitsPerOne := by
    simp only [Nat.reduceSubDiff, pow_zero]
    omega
  rw [number_insertPoint hrest, Decimal.toBinary64_of_places false hhigh hlow]
  rfl

end Written

end Scan

end QueryScope
