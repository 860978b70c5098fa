/-!
# Binary floating point numbers

The 64-bit binary numbers as exact values. Finite magnitudes are counted in increasing order from
zero, so that the count of a magnitude, its rank, is its bit pattern without the sign. Every
magnitude is a whole number of units, a unit being the smallest positive magnitude.
-/

namespace QueryScope.Number

/-- How many magnitudes share one spacing. -/
def binadeSize : Nat :=
  Nat.pow 2 52

/-- How many finite magnitudes there are. -/
def rankCount : Nat :=
  2047 * binadeSize

/-- How many units make one. -/
def unitsPerOne : Nat :=
  Nat.pow 2 1074

/-- A 64-bit binary number. -/
inductive Binary64 where
  | nan
  | infinite (negative : Bool)
  | finite (negative : Bool) (rank : Fin rankCount)
deriving DecidableEq

/-- The quotient rounded to the nearest whole number, a half to the even one. -/
def roundDiv (num den : Nat) : Nat :=
  let quotient := num / den
  let twice := 2 * (num % den)
  if twice < den then quotient
  else if den < twice then quotient + 1
  else if quotient % 2 = 0 then quotient
  else quotient + 1

/-- The units of the magnitude with a rank. -/
def unitsOfRank (rank : Nat) : Nat :=
  if rank < binadeSize then rank
  else (binadeSize + rank % binadeSize) * Nat.pow 2 (rank / binadeSize - 1)

/-- The rank of the magnitude nearest to a quotient of units, as if ranks went on forever. -/
def nearestRank (num den : Nat) : Nat :=
  let shift := (num / den).log2 - 52
  roundDiv num (den * Nat.pow 2 shift) + shift * binadeSize

namespace Binary64

/-- The number of a sign and a rank; a rank beyond the finite ones gives an infinity. -/
def ofRank (negative : Bool) (rank : Nat) : Binary64 :=
  if bound : rank < rankCount then .finite negative ⟨rank, bound⟩ else .infinite negative

/-- The number nearest to a quotient of whole numbers. -/
def ofRatio (negative : Bool) (num den : Nat) : Binary64 :=
  ofRank negative (nearestRank (num * unitsPerOne) den)

/-- The number nearest to a whole number. -/
def ofNat (n : Nat) : Binary64 :=
  ofRatio false n 1

/-- The number of a 64-bit pattern. -/
def ofBits (bits : Nat) : Binary64 :=
  let negative := bits / Nat.pow 2 63 % 2 = 1
  let rank := bits % Nat.pow 2 63
  if rank ≤ rankCount then ofRank negative rank else .nan

/-- The number with the other sign. -/
def neg : Binary64 → Binary64
  | nan => nan
  | infinite negative => infinite !negative
  | finite negative rank => finite (!negative) rank

/-- Whether the number is neither an infinity nor undefined. -/
def isFinite : Binary64 → Bool
  | finite _ _ => true
  | _ => false

end Binary64

end QueryScope.Number
