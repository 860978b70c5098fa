/-!
# Numerals in a radix

Digits are ASCII digits and letters of either case.
-/

namespace QueryScope.Text

/-- The value of a digit. -/
def digitValue? (c : Char) : Option Nat :=
  if c.isDigit then some (c.toNat - '0'.toNat)
  else if 'a' ≤ c && c ≤ 'z' then some (c.toNat - 'a'.toNat + 10)
  else if 'A' ≤ c && c ≤ 'Z' then some (c.toNat - 'A'.toNat + 10)
  else none

/-- The value of a digit below a radix. -/
def digitBelow? (radix : Nat) (c : Char) : Option Nat :=
  (digitValue? c).filter (· < radix)

/-- The number written by at least one digit, and by nothing but digits. -/
def numeral? (radix : Nat) (digits : List Char) : Option Nat :=
  match digits with
  | [] => none
  | _ => digits.foldlM (fun n c => (digitBelow? radix c).map (radix * n + ·)) 0

/-- A numeral that may have a plus sign before it. -/
def plusNumeral? (radix : Nat) (text : List Char) : Option Nat :=
  match text with
  | '+' :: digits => numeral? radix digits
  | digits => numeral? radix digits

/-- The character with a code point, if there is one. -/
def charOfCode? (code : Nat) : Option Char :=
  if code.isValidChar then some (Char.ofNat code) else none

end QueryScope.Text
