import QueryScope.Proofs.NumberText
import Mathlib.Data.Nat.Dist

/-!
# Numbers written to the thousandth

The binary number that is read from a quotient is a nearest one. So a number that is written to the
thousandth and read again has the same thousandths, although it may be another number.
-/

namespace QueryScope.Number

/-! ## Nearest whole numbers -/

lemma mul_add_le_mul {a b : Nat} (h : a < b) (den : Nat) : a * den + den ≤ b * den := by
  rw [← Nat.succ_mul]
  exact Nat.mul_le_mul_right den h

lemma le_roundDiv (num den : Nat) : num / den ≤ roundDiv num den := by
  unfold roundDiv
  dsimp only
  split_ifs <;> omega

section RoundDiv

variable {num den : Nat} (hden : 0 < den)

include hden

/-- A rounded quotient is at most a half away, and even at a half. -/
lemma two_mul_dist_roundDiv (num : Nat) :
    2 * (roundDiv num den * den).dist num ≤ den ∧
      (2 * (roundDiv num den * den).dist num = den → roundDiv num den % 2 = 0) := by
  have hsplit : num / den * den + num % den = num := Nat.div_add_mod' num den
  have hrest : num % den < den := Nat.mod_lt num hden
  have hsucc : (num / den + 1) * den = num / den * den + den := Nat.succ_mul _ _
  unfold roundDiv Nat.dist
  dsimp only
  split_ifs <;> omega

/-- Two whole numbers a half away from a quotient are neighbours, so that one of them is odd. -/
lemma eq_roundDiv {n : Nat} (hhalf : 2 * (n * den).dist num ≤ den)
    (heven : 2 * (n * den).dist num = den → n % 2 = 0) : roundDiv num den = n := by
  obtain ⟨hhalf', heven'⟩ := two_mul_dist_roundDiv hden num
  have hneighbour {a b : Nat} (h : a < b) : b = a + 1 ∨ a * den + den + den ≤ b * den := by
    by_cases hb : b = a + 1
    · exact .inl hb
    · rw [← Nat.succ_mul]
      exact .inr (mul_add_le_mul (by omega) den)
  unfold Nat.dist at *
  rcases Nat.lt_trichotomy (roundDiv num den) n with h | h | h
  · have hstep := mul_add_le_mul h den
    have := hneighbour h
    omega
  · exact h
  · have hstep := mul_add_le_mul h den
    have := hneighbour h
    omega

/-- What is not farther from a rounded quotient is rounded to it too. -/
lemma roundDiv_of_nearer {other : Nat}
    (h : other.dist (roundDiv num den * den) ≤ num.dist (roundDiv num den * den)) :
    roundDiv other den = roundDiv num den := by
  obtain ⟨hhalf, heven⟩ := two_mul_dist_roundDiv hden num
  rw [Nat.dist_comm, Nat.dist_comm num] at h
  refine eq_roundDiv hden ?_ fun htie => heven ?_
  · omega
  · omega

lemma dist_roundDiv_le (k : Nat) : (roundDiv num den * den).dist num ≤ (k * den).dist num := by
  have hhalf := (two_mul_dist_roundDiv hden num).1
  unfold Nat.dist at *
  rcases Nat.lt_trichotomy (roundDiv num den) k with h | h | h
  · have hstep := mul_add_le_mul h den
    omega
  · rw [h]
  · have hstep := mul_add_le_mul h den
    omega

end RoundDiv

/-! ## Nearest ranks -/

lemma unitsOfRank_add_mul {m s : Nat} (hle : m ≤ 2 * binadeSize) (hlow : s = 0 ∨ binadeSize ≤ m) :
    unitsOfRank (m + s * binadeSize) = m * 2 ^ s := by
  have hpos : 0 < binadeSize := by decide
  by_cases hsmall : m < binadeSize
  · obtain rfl : s = 0 := by omega
    rw [unitsOfRank, if_pos (by omega)]
    simp
  · rw [unitsOfRank, if_neg (by omega), Nat.pow_eq, Nat.add_mul_mod_self_right, Nat.add_mul_div_right _ _ hpos]
    rcases Nat.lt_or_ge m (2 * binadeSize) with hlt | hge
    · have hdiv : m / binadeSize = 1 := Nat.div_eq_of_lt_le (by omega) (by omega)
      have hmod := Nat.div_add_mod' m binadeSize
      rw [hdiv, Nat.one_mul] at hmod
      rw [hdiv, hmod, Nat.add_sub_cancel_left]
    · obtain rfl : m = 2 * binadeSize := by omega
      rw [Nat.mul_mod_left, Nat.mul_div_cancel _ hpos, Nat.add_zero, Nat.add_comm 2 s]
      change binadeSize * 2 ^ (s + 1) = _
      ring

/-- Large magnitudes are multiples of their spacing. -/
lemma two_pow_dvd_unitsOfRank {rank s : Nat} (h : binadeSize * 2 ^ s ≤ unitsOfRank rank) :
    2 ^ s ∣ unitsOfRank rank := by
  have hpos : 0 < binadeSize := by decide
  have hmod : rank % binadeSize < binadeSize := Nat.mod_lt _ hpos
  unfold unitsOfRank at h ⊢
  rw [Nat.pow_eq] at h ⊢
  split_ifs at h ⊢ with hsmall
  · have hle : binadeSize ≤ binadeSize * 2 ^ s := Nat.le_mul_of_pos_right _ (Nat.two_pow_pos s)
    omega
  · have hlt : binadeSize * 2 ^ s < binadeSize * 2 ^ (rank / binadeSize - 1 + 1) := by
      calc binadeSize * 2 ^ s ≤ (binadeSize + rank % binadeSize) * 2 ^ (rank / binadeSize - 1) := h
        _ < (2 * binadeSize) * 2 ^ (rank / binadeSize - 1) :=
          Nat.mul_lt_mul_of_pos_right (by omega) (Nat.two_pow_pos _)
        _ = binadeSize * 2 ^ (rank / binadeSize - 1 + 1) := by ring
    have hexp : s < rank / binadeSize - 1 + 1 :=
      (Nat.pow_lt_pow_iff_right (by decide)).1 (Nat.lt_of_mul_lt_mul_left hlt)
    exact Dvd.dvd.mul_left (Nat.pow_dvd_pow 2 (by omega)) _

/-- The spacing at a quotient: its binade goes from `binadeSize` to twice as many spacings, unless the
spacing is one unit. -/
lemma spacing_bounds (num : Nat) {den : Nat} (hden : 0 < den) :
    num < 2 * binadeSize * (den * 2 ^ ((num / den).log2 - 52)) ∧
      ((num / den).log2 - 52 = 0 ∨ binadeSize * (den * 2 ^ ((num / den).log2 - 52)) ≤ num) := by
  have hsize : binadeSize = 2 ^ 52 := rfl
  constructor
  · have hlt : num / den < 2 ^ (53 + ((num / den).log2 - 52)) :=
      lt_of_lt_of_le Nat.lt_log2_self (Nat.pow_le_pow_right (by decide) (by omega))
    calc num < 2 ^ (53 + ((num / den).log2 - 52)) * den := (Nat.div_lt_iff_lt_mul hden).1 hlt
      _ = 2 * binadeSize * (den * 2 ^ ((num / den).log2 - 52)) := by rw [pow_add, hsize]; ring
  · by_cases hsmall : (num / den).log2 - 52 = 0
    · exact .inl hsmall
    · have hne : num / den ≠ 0 := by
        intro hzero
        rw [hzero] at hsmall
        exact hsmall (by decide)
      have hexp : (num / den).log2 = 52 + ((num / den).log2 - 52) := by omega
      refine .inr ?_
      calc binadeSize * (den * 2 ^ ((num / den).log2 - 52)) = 2 ^ (num / den).log2 * den := by
            conv_rhs => rw [hexp, pow_add, ← hsize]
            ring
        _ ≤ num := (Nat.le_div_iff_mul_le hden).1 (Nat.log2_self_le hne)

lemma unitsOfRank_nearestRank (num : Nat) {den : Nat} (hden : 0 < den) :
    unitsOfRank (nearestRank num den) =
      roundDiv num (den * 2 ^ ((num / den).log2 - 52)) * 2 ^ ((num / den).log2 - 52) := by
  obtain ⟨hhigh, hlow⟩ := spacing_bounds num hden
  have hpos : 0 < den * 2 ^ ((num / den).log2 - 52) := Nat.mul_pos hden (Nat.two_pow_pos _)
  refine unitsOfRank_add_mul ?_ (hlow.imp_right fun h => ?_)
  · have hquotient := (Nat.div_lt_iff_lt_mul hpos).2 hhigh
    exact (roundDiv_le _ _).trans hquotient
  · exact ((Nat.le_div_iff_mul_le hpos).2 h).trans (le_roundDiv _ _)

/-- No magnitude is nearer to a quotient than the one with the nearest rank. -/
lemma dist_nearestRank_le (num : Nat) {den : Nat} (hden : 0 < den) (rank : Nat) :
    (unitsOfRank (nearestRank num den) * den).dist num ≤ (unitsOfRank rank * den).dist num := by
  obtain ⟨-, hlow⟩ := spacing_bounds num hden
  rw [unitsOfRank_nearestRank num hden]
  generalize (num / den).log2 - 52 = s at hlow ⊢
  have hpos : 0 < den * 2 ^ s := Nat.mul_pos hden (Nat.two_pow_pos s)
  have hunits (k : Nat) : k * 2 ^ s * den = k * (den * 2 ^ s) := by ring
  rw [hunits]
  by_cases hdvd : 2 ^ s ∣ unitsOfRank rank
  · obtain ⟨k, hk⟩ := hdvd
    rw [hk, Nat.mul_comm _ k, hunits]
    exact dist_roundDiv_le hpos k
  · -- Below the binade the least magnitude of the binade is nearer.
    have hs : s ≠ 0 := by
      rintro rfl
      exact hdvd (by simp)
    have hbelow : unitsOfRank rank < binadeSize * 2 ^ s := by
      by_contra hge
      exact hdvd (two_pow_dvd_unitsOfRank (Nat.le_of_not_lt hge))
    have hle : unitsOfRank rank * den ≤ binadeSize * (den * 2 ^ s) := by
      rw [← hunits]
      exact Nat.mul_le_mul_right den hbelow.le
    have hnum := hlow.resolve_left hs
    refine (dist_roundDiv_le hpos binadeSize).trans ?_
    unfold Nat.dist
    omega

lemma le_unitsOfRank_of_binade {rank n : Nat} (h : n + 2 ≤ rank / binadeSize) :
    2 * binadeSize * 2 ^ n ≤ unitsOfRank rank := by
  have hpos : 0 < binadeSize := by decide
  have hlarge : binadeSize ≤ rank := (Nat.one_le_div_iff hpos).1 (by omega)
  rw [unitsOfRank, if_neg (by omega), Nat.pow_eq]
  calc 2 * binadeSize * 2 ^ n = binadeSize * 2 ^ (n + 1) := by ring
    _ ≤ (binadeSize + rank % binadeSize) * 2 ^ (rank / binadeSize - 1) :=
      Nat.mul_le_mul (Nat.le_add_right _ _) (Nat.pow_le_pow_right (by decide) (by omega))

namespace Binary64

/-- The number nearest to the thousandths of a number has these thousandths, and it is finite. -/
lemma roundDiv_nearestRank (rank : Fin rankCount) :
    let thousandths := roundDiv (unitsOfRank rank * 1000) unitsPerOne
    let nearest := nearestRank (thousandths * unitsPerOne) 1000
    roundDiv (unitsOfRank nearest * 1000) unitsPerOne = thousandths ∧ nearest < rankCount := by
  intro thousandths nearest
  have hnear : (unitsOfRank nearest * 1000).dist (thousandths * unitsPerOne) ≤
      (unitsOfRank rank * 1000).dist (thousandths * unitsPerOne) :=
    dist_nearestRank_le (thousandths * unitsPerOne) (by decide) rank
  refine ⟨roundDiv_of_nearer unitsPerOne_pos hnear, ?_⟩
  by_contra hinfinite
  have hhalf : 2 * (thousandths * unitsPerOne).dist (unitsOfRank rank * 1000) ≤ unitsPerOne :=
    (two_mul_dist_roundDiv unitsPerOne_pos _).1
  -- The thousandths are too close to a finite magnitude for one beyond the next binade to be nearest.
  have hbinade : 2045 + 2 ≤ nearest / binadeSize :=
    (Nat.le_div_iff_mul_le (by decide)).2 (Nat.le_of_not_lt hinfinite)
  have hgap := (unitsOfRank_add_le rank).trans (le_unitsOfRank_of_binade hbinade)
  have hsmall : unitsPerOne ≤ 2 ^ 2045 := by decide +kernel
  have hpos := unitsPerOne_pos
  generalize 2 ^ 2045 = gap at hgap hsmall
  generalize unitsPerOne = one at *
  unfold Nat.dist at hnear hhalf
  omega

lemma milliChars_roundMillis (v : Binary64) : v.roundMillis.milliChars = v.milliChars := by
  cases v with
  | nan => rfl
  | infinite negative => rfl
  | finite negative rank =>
    obtain ⟨hthousandths, hfinite⟩ := roundDiv_nearestRank rank
    rw [roundMillis, ofRatio, ofRank, dif_pos hfinite, milliChars, milliChars]
    dsimp only
    rw [hthousandths]

end Binary64

end QueryScope.Number
