import QueryScope.Number.Shortest
import QueryScope.Proofs.DurationText

/-!
# Rounding to binary numbers

The rank nearest to a quotient depends on the quotient alone, and the rank nearest to the units of a
rank is that rank. So decimals of one value are read alike, and the shortest decimal of a binary
number is read back as that number.
-/

namespace QueryScope.Number

lemma unitsPerOne_pos : 0 < unitsPerOne := by
  decide +kernel

lemma roundDiv_mul_left {c : Nat} (hc : 0 < c) (num den : Nat) :
    roundDiv (c * num) (c * den) = roundDiv num den := by
  have hquotient : c * num / (c * den) = num / den := Nat.mul_div_mul_left num den hc
  have hrest : 2 * (c * num % (c * den)) = c * (2 * (num % den)) := by
    rw [Nat.mul_mod_mul_left]
    ring
  simp only [roundDiv, hquotient, hrest, Nat.mul_lt_mul_left hc]

lemma roundDiv_mul_self {den : Nat} (hden : 0 < den) (n : Nat) : roundDiv (n * den) den = n := by
  have hquotient : n * den / den = n := Nat.mul_div_cancel n hden
  have hrest : n * den % den = 0 := Nat.mul_mod_left n den
  simp only [roundDiv, hquotient, hrest, Nat.mul_zero, hden, if_true]

lemma nearestRank_mul_left {c : Nat} (hc : 0 < c) (num den : Nat) :
    nearestRank (c * num) (c * den) = nearestRank num den := by
  have hquotient : c * num / (c * den) = num / den := Nat.mul_div_mul_left num den hc
  simp only [nearestRank, hquotient]
  rw [Nat.mul_assoc, roundDiv_mul_left hc]

lemma log2_mul_two_pow {a : Nat} (hlow : binadeSize ≤ a) (hhigh : a < 2 * binadeSize) (k : Nat) :
    (a * 2 ^ k).log2 = 52 + k := by
  have hsize : binadeSize = 2 ^ 52 := rfl
  have hpos : 0 < 2 ^ k := Nat.two_pow_pos k
  have hne : a * 2 ^ k ≠ 0 := Nat.mul_ne_zero (by omega) (by omega)
  rw [Nat.log2_eq_iff hne, pow_succ, pow_add, ← hsize]
  constructor
  · exact Nat.mul_le_mul_right _ hlow
  · calc a * 2 ^ k < 2 * binadeSize * 2 ^ k := Nat.mul_lt_mul_of_pos_right hhigh hpos
      _ = binadeSize * 2 ^ k * 2 := by ring

lemma nearestRank_unitsOfRank (rank : Nat) : nearestRank (unitsOfRank rank) 1 = rank := by
  have hpos : 0 < binadeSize := by decide
  unfold nearestRank
  simp only [Nat.div_one, Nat.one_mul, Nat.pow_eq]
  by_cases hsmall : rank < binadeSize
  · have hunits : unitsOfRank rank = rank := by rw [unitsOfRank, if_pos hsmall]
    have hshift : rank.log2 - 52 = 0 := by
      rcases Nat.eq_zero_or_pos rank with rfl | hrank
      · decide
      · have hlog : rank.log2 < 52 := (Nat.log2_lt (by omega)).2 hsmall
        omega
    rw [hunits, hshift, pow_zero, Nat.zero_mul, Nat.add_zero]
    simpa using roundDiv_mul_self Nat.one_pos rank
  · have hbinade : 0 < rank / binadeSize := Nat.div_pos (Nat.le_of_not_lt hsmall) hpos
    have hmod : rank % binadeSize < binadeSize := Nat.mod_lt _ hpos
    have hunits : unitsOfRank rank =
        (binadeSize + rank % binadeSize) * 2 ^ (rank / binadeSize - 1) := by
      rw [unitsOfRank, if_neg hsmall, Nat.pow_eq]
    have hlog := log2_mul_two_pow (Nat.le_add_right binadeSize (rank % binadeSize)) (by omega)
      (rank / binadeSize - 1)
    have hshift : 52 + (rank / binadeSize - 1) - 52 = rank / binadeSize - 1 := by omega
    rw [hunits, hlog, hshift, roundDiv_mul_self (Nat.two_pow_pos _)]
    calc binadeSize + rank % binadeSize + (rank / binadeSize - 1) * binadeSize
        = (rank / binadeSize - 1 + 1) * binadeSize + rank % binadeSize := by ring
      _ = rank / binadeSize * binadeSize + rank % binadeSize := by rw [Nat.sub_add_cancel hbinade]
      _ = rank := Nat.div_add_mod' rank binadeSize

namespace Binary64

lemma ofRatio_mul_left {c : Nat} (hc : 0 < c) (negative : Bool) (num den : Nat) :
    ofRatio negative (c * num) (c * den) = ofRatio negative num den := by
  unfold ofRatio
  rw [Nat.mul_assoc, nearestRank_mul_left hc]

lemma ofRank_val (negative : Bool) (rank : Fin rankCount) :
    ofRank negative rank.val = .finite negative rank := by
  simp [ofRank]

lemma ofRatio_unitsOfRank (negative : Bool) (rank : Fin rankCount) :
    ofRatio negative (unitsOfRank rank) unitsPerOne = .finite negative rank := by
  have hpos := unitsPerOne_pos
  have hrank : nearestRank (unitsOfRank rank * unitsPerOne) unitsPerOne = rank.val := by
    calc nearestRank (unitsOfRank rank * unitsPerOne) unitsPerOne
        = nearestRank (unitsPerOne * unitsOfRank rank) (unitsPerOne * 1) := by
          rw [Nat.mul_comm, Nat.mul_one]
      _ = nearestRank (unitsOfRank rank) 1 := nearestRank_mul_left hpos _ _
      _ = rank.val := nearestRank_unitsOfRank _
  rw [ofRatio, hrank, ofRank_val]

end Binary64

lemma length_decimalDigits_mul_ten {n : Nat} (hn : n ≠ 0) :
    (decimalDigits (10 * n)).length = (decimalDigits n).length + 1 := by
  have hdigits := Nat.toDigits_append_toDigits (b := 10) (n := n) (d := 0) (by decide) (by omega)
    (by decide)
  unfold decimalDigits
  rw [Nat.add_zero] at hdigits
  rw [← hdigits]
  simp

namespace Decimal

/-- A zero at the end of the digits does not change the number that is read. -/
lemma toBinary64_mul_ten (negative : Bool) (n : Nat) (e : Int) :
    toBinary64 negative ⟨10 * n, e⟩ = toBinary64 negative ⟨n, e + 1⟩ := by
  by_cases hn : n = 0
  · simp [toBinary64, hn]
  · have hten : 10 * n ≠ 0 := by omega
    have hplace : ((decimalDigits (10 * n)).length : Int) + e = (decimalDigits n).length + (e + 1) := by
      rw [length_decimalDigits_mul_ten hn]
      push_cast
      ring
    have hratio : (if 0 ≤ e then Binary64.ofRatio negative (10 * n * 10 ^ e.toNat) 1
          else Binary64.ofRatio negative (10 * n) (10 ^ (-e).toNat)) =
        if 0 ≤ e + 1 then Binary64.ofRatio negative (n * 10 ^ (e + 1).toNat) 1
          else Binary64.ofRatio negative n (10 ^ (-(e + 1)).toNat) := by
      rcases lt_trichotomy e (-1) with he | he | he
      · have hexp : (-e).toNat = (-(e + 1)).toNat + 1 := by omega
        rw [if_neg (by omega), if_neg (by omega), hexp, pow_succ', Binary64.ofRatio_mul_left (by decide)]
      · subst he
        simpa using Binary64.ofRatio_mul_left (c := 10) (by decide) negative n 1
      · have hexp : (e + 1).toNat = e.toNat + 1 := by omega
        rw [if_pos (by omega), if_pos (by omega), hexp, pow_succ]
        ring_nf
    unfold toBinary64
    simp only [hn, hten, if_false, hplace, Nat.pow_eq, hratio]

lemma toBinary64_mul_ten_pow (negative : Bool) (n k : Nat) (e : Int) :
    toBinary64 negative ⟨n * 10 ^ k, e⟩ = toBinary64 negative ⟨n, e + k⟩ := by
  induction k generalizing e with
  | zero => simp
  | succ k ih =>
    have hpow : n * 10 ^ (k + 1) = 10 * (n * 10 ^ k) := by ring
    rw [hpow, toBinary64_mul_ten, ih]
    congr 2
    push_cast
    ring

lemma toBinary64_dropZeros (negative : Bool) (count : Nat) (d : Decimal) :
    (d.dropZeros count).toBinary64 negative = d.toBinary64 negative := by
  induction count generalizing d with
  | zero => rfl
  | succ count ih =>
    unfold dropZeros
    split_ifs with h
    · have hdigits : 10 * (d.digits / 10) = d.digits := Nat.mul_div_cancel' (Nat.dvd_of_mod_eq_zero h.2)
      rw [ih, ← toBinary64_mul_ten, hdigits]
    · rfl

lemma toBinary64_reduced (negative : Bool) (d : Decimal) :
    d.reduced.toBinary64 negative = d.toBinary64 negative :=
  toBinary64_dropZeros negative _ d

/-- A decimal with its places in the range that is read in full is read as the nearest number. -/
lemma toBinary64_of_places (negative : Bool) {n k : Nat} (hhigh : n < 10 ^ (310 + k))
    (hlow : n = 0 ∨ 10 ^ (k - 331) ≤ n) :
    toBinary64 negative ⟨n, -k⟩ = Binary64.ofRatio negative n (10 ^ k) := by
  by_cases hn : n = 0
  · subst hn
    have hzero : nearestRank (0 * unitsPerOne) (10 ^ k) = 0 := by
      have hden : 0 < 10 ^ k := by positivity
      simp [nearestRank, roundDiv, hden]
    rw [Binary64.ofRatio, hzero]
    simp [toBinary64]
  · have hlength : (decimalDigits n).length ≤ 310 + k :=
      (Nat.length_toDigits_le_iff (by decide) (by omega)).2 hhigh
    have hlength' : k - 331 < (decimalDigits n).length := by
      by_contra hle
      have hpos : 0 < (decimalDigits n).length := Nat.length_toDigits_pos
      have hlt : n < 10 ^ (k - 331) :=
        (Nat.length_toDigits_le_iff (by decide) (by omega)).1 (Nat.le_of_not_lt hle)
      omega
    unfold toBinary64
    simp only [hn, if_false, Nat.pow_eq]
    rw [if_neg (by omega), if_neg (by omega)]
    rcases Nat.eq_zero_or_pos k with rfl | hk
    · simp
    · rw [if_neg (by omega), neg_neg, Int.toNat_natCast]

end Decimal

/-- The magnitudes of the first binades end at least one spacing before the next binade. -/
lemma unitsOfRank_add_le_of_binade {rank n : Nat} (h : rank / binadeSize ≤ n + 1) :
    unitsOfRank rank + 2 ^ n ≤ 2 * binadeSize * 2 ^ n := by
  have hpos : 0 < binadeSize := by decide
  have hmod : rank % binadeSize < binadeSize := Nat.mod_lt _ hpos
  have hpow : 0 < 2 ^ n := Nat.two_pow_pos n
  have hunits : unitsOfRank rank ≤ (2 * binadeSize - 1) * 2 ^ n := by
    unfold unitsOfRank
    split_ifs with hsmall
    · calc rank ≤ 2 * binadeSize - 1 := by omega
        _ ≤ (2 * binadeSize - 1) * 2 ^ n := Nat.le_mul_of_pos_right _ hpow
    · have hexp : 2 ^ (rank / binadeSize - 1) ≤ 2 ^ n := Nat.pow_le_pow_right (by decide) (by omega)
      exact Nat.mul_le_mul (by omega) hexp
  calc unitsOfRank rank + 2 ^ n ≤ (2 * binadeSize - 1) * 2 ^ n + 2 ^ n := Nat.add_le_add_right hunits _
    _ = (2 * binadeSize - 1 + 1) * 2 ^ n := (Nat.succ_mul _ _).symm
    _ = 2 * binadeSize * 2 ^ n := by rw [Nat.sub_add_cancel (by omega)]

lemma unitsOfRank_add_le (rank : Fin rankCount) :
    unitsOfRank rank + 2 ^ 2045 ≤ 2 * binadeSize * 2 ^ 2045 := by
  have hbinade : rank.val / binadeSize < 2047 :=
    (Nat.div_lt_iff_lt_mul (by decide)).2 rank.isLt
  exact unitsOfRank_add_le_of_binade (by omega)

lemma unitsOfRank_lt (rank : Fin rankCount) : unitsOfRank rank < 2 * binadeSize * 2 ^ 2045 :=
  lt_of_lt_of_le (Nat.lt_add_of_pos_right (Nat.two_pow_pos _)) (unitsOfRank_add_le rank)

lemma unitsOfRank_pos {rank : Nat} (h : rank ≠ 0) : 0 < unitsOfRank rank := by
  have hpos : 0 < binadeSize := by decide
  unfold unitsOfRank
  split_ifs
  · omega
  · exact Nat.mul_pos (by omega) (Nat.two_pow_pos _)

/-- All digits of a binary number are read as that number. -/
lemma toBinary64_exactDecimal {rank : Fin rankCount} (h : rank.val ≠ 0) :
    (exactDecimal (unitsOfRank rank)).toBinary64 false = .finite false rank := by
  have hhigh : unitsOfRank rank * 5 ^ 1074 < 10 ^ (310 + 1074) := by
    calc unitsOfRank rank * 5 ^ 1074
        < 2 * binadeSize * 2 ^ 2045 * 5 ^ 1074 :=
          Nat.mul_lt_mul_of_pos_right (unitsOfRank_lt rank) (by decide +kernel)
      _ ≤ 10 ^ (310 + 1074) := by decide +kernel
  have hlow : 10 ^ (1074 - 331) ≤ unitsOfRank rank * 5 ^ 1074 :=
    le_trans (b := 5 ^ 1074) (by decide +kernel) (Nat.le_mul_of_pos_left _ (unitsOfRank_pos h))
  have hten : 10 ^ 1074 = 5 ^ 1074 * unitsPerOne := by decide +kernel
  calc (exactDecimal (unitsOfRank rank)).toBinary64 false
      = Binary64.ofRatio false (unitsOfRank rank * 5 ^ 1074) (10 ^ 1074) := by
        rw [exactDecimal, Nat.pow_eq]
        exact Decimal.toBinary64_of_places (k := 1074) false hhigh (Or.inr hlow)
    _ = Binary64.ofRatio false (5 ^ 1074 * unitsOfRank rank) (5 ^ 1074 * unitsPerOne) := by
        rw [hten, Nat.mul_comm]
    _ = .finite false rank := by
        rw [Binary64.ofRatio_mul_left (by decide +kernel), Binary64.ofRatio_unitsOfRank]

lemma toBinary64_of_candidate {tie : Tie} {value : Binary64} {exact d : Decimal} {count : Nat}
    (h : candidate tie value exact count = some d) : d.toBinary64 false = value := by
  unfold candidate at h
  simp only at h
  split_ifs at h with hbelow habove
  · obtain rfl := Option.some.inj h
    exact hbelow.1
  · obtain rfl := Option.some.inj h
    exact habove

/-- The shortest decimal of a magnitude is read back as that magnitude. -/
lemma toBinary64_shortest (tie : Tie) (rank : Fin rankCount) :
    (shortest tie rank).toBinary64 false = .finite false rank := by
  unfold shortest
  simp only
  split_ifs with hzero
  · rw [← Binary64.ofRank_val, hzero]
    simp [Decimal.toBinary64]
  · split
    case h_1 d hfound =>
      obtain ⟨count, -, hcandidate⟩ := List.exists_of_findSome?_eq_some hfound
      rw [Decimal.toBinary64_reduced, toBinary64_of_candidate hcandidate]
    case h_2 => rw [Decimal.toBinary64_reduced, toBinary64_exactDecimal hzero]

end QueryScope.Number
