import QueryScope.Number.Binary64

/-!
# Decimal numbers

A decimal number is a whole number of powers of ten. It is read into the nearest binary number
and written in positional notation.
-/

namespace QueryScope.Number

/-- The decimal digits of a whole number. -/
def decimalDigits (n : Nat) : List Char :=
  Nat.toDigits 10 n

/-- The whole number that decimal digits write. -/
def natOfDigits (digits : List Char) : Nat :=
  digits.foldl (fun n c => 10 * n + (c.toNat - '0'.toNat)) 0

/-- The number `digits * 10 ^ exponent`. -/
structure Decimal where
  digits : Nat
  exponent : Int
deriving DecidableEq

namespace Decimal

/-- The nearest binary number of a sign. Exponents that lead far out of the range of binary numbers
are decided by the place of the first digit alone. -/
def toBinary64 (negative : Bool) (d : Decimal) : Binary64 :=
  if d.digits = 0 then .ofRank negative 0
  else
    let place := (decimalDigits d.digits).length + d.exponent
    if 310 < place then .infinite negative
    else if place < -330 then .ofRank negative 0
    else if 0 ≤ d.exponent then .ofRatio negative (d.digits * Nat.pow 10 d.exponent.toNat) 1
    else .ofRatio negative d.digits (Nat.pow 10 (-d.exponent).toNat)

/-- The same number with its last digit other than zero. The count bounds the zeros dropped. -/
def dropZeros : Nat → Decimal → Decimal
  | 0, d => d
  | count + 1, d =>
    if d.digits ≠ 0 ∧ d.digits % 10 = 0 then dropZeros count ⟨d.digits / 10, d.exponent + 1⟩ else d

/-- The same number without zeros at the end of its digits. -/
def reduced (d : Decimal) : Decimal :=
  d.dropZeros (decimalDigits d.digits).length

/-- Positional notation of digits of which the last `places` stand behind the point. -/
def insertPoint (digits : List Char) (places : Nat) : List Char :=
  if places = 0 then digits
  else if digits.length ≤ places then
    '0' :: '.' :: List.replicate (places - digits.length) '0' ++ digits
  else digits.take (digits.length - places) ++ '.' :: digits.drop (digits.length - places)

/-- Positional notation, without a point for whole numbers. -/
def positional (d : Decimal) : List Char :=
  if 0 ≤ d.exponent then
    decimalDigits d.digits ++ List.replicate d.exponent.toNat '0'
  else insertPoint (decimalDigits d.digits) (-d.exponent).toNat

end Decimal

end QueryScope.Number
