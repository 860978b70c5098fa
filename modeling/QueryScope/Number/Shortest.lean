import QueryScope.Number.Decimal

/-!
# The shortest decimal that reads back

A finite binary number is written with the fewest decimal digits from which it is read back. Of
two such decimals the nearer is taken; a format says which one wins when both are equally near.
-/

namespace QueryScope.Number

/-- Which of two equally near decimals is taken. -/
inductive Tie where
  | up
  | even
deriving DecidableEq

/-- All decimal digits of a number of units. -/
def exactDecimal (units : Nat) : Decimal :=
  ⟨units * Nat.pow 5 1074, -1074⟩

/-- The decimal of `count` digits below a decimal, and what is left of the decimal above it, in
the units of its last digit. -/
def cutDigits (d : Decimal) (count : Nat) : Decimal × Nat × Nat :=
  let cut := (decimalDigits d.digits).length - count
  (⟨d.digits / Nat.pow 10 cut, d.exponent + cut⟩, d.digits % Nat.pow 10 cut, Nat.pow 10 cut)

/-- The decimal with `count` digits next to an exact decimal that reads back as `value`, the nearer
one if there are two. -/
def candidate (tie : Tie) (value : Binary64) (exact : Decimal) (count : Nat) : Option Decimal :=
  let (below, left, whole) := cutDigits exact count
  let above : Decimal := ⟨below.digits + 1, below.exponent⟩
  let belowReads := below.toBinary64 false = value
  let aboveReads := above.toBinary64 false = value
  let preferBelow :=
    2 * left < whole ∨ (2 * left = whole ∧ tie = .even ∧ below.digits % 2 = 0)
  if belowReads ∧ (preferBelow ∨ ¬aboveReads) then some below
  else if aboveReads then some above
  else none

/-- The shortest decimal that reads back as the magnitude with a rank. -/
def shortest (tie : Tie) (rank : Fin rankCount) : Decimal :=
  let exact := exactDecimal (unitsOfRank rank)
  if rank.val = 0 then ⟨0, 0⟩
  else
    match (List.range 17).findSome? fun i => candidate tie (.finite false rank) exact (i + 1) with
    | some d => d.reduced
    | none => exact.reduced

namespace Binary64

/-- A minus sign for negative numbers. -/
def sign (negative : Bool) : List Char :=
  if negative then ['-'] else []

/-- The number in a query: positional notation, ties up, infinities with their sign. -/
def queryChars : Binary64 → List Char
  | nan => ['N', 'a', 'N']
  | infinite negative => (if negative then '-' else '+') :: ['I', 'n', 'f']
  | finite negative rank => sign negative ++ (shortest .up rank).positional

/-- The number in a query, as a string. -/
def queryText (value : Binary64) : String :=
  String.ofList value.queryChars

/-- The number rounded to three decimal places, a half to the even neighbour. -/
def milliChars : Binary64 → List Char
  | nan => ['N', 'a', 'N']
  | infinite negative => sign negative ++ ['i', 'n', 'f']
  | finite negative rank =>
    let thousandths := decimalDigits (roundDiv (unitsOfRank rank * 1000) unitsPerOne)
    sign negative ++ Decimal.insertPoint thousandths 3

/-- The number in a data document: `1000.0`, `12.34`, `0.00123`, `1e30` or `1.234e33`, ties to the even
digit. Positional notation is kept for at most sixteen places before and four zeros behind the
point. -/
def documentText : Binary64 → String
  | nan => ".nan"
  | infinite negative => String.ofList (sign negative) ++ ".inf"
  | finite negative rank =>
    let d := shortest .even rank
    let digits := decimalDigits d.digits
    let place := digits.length + d.exponent
    let magnitude : List Char :=
      if rank.val = 0 then ['0', '.', '0']
      else if 0 ≤ d.exponent ∧ place ≤ 16 then d.positional ++ ['.', '0']
      else if -5 < place ∧ place ≤ 16 then d.positional
      else
        let mantissa := if digits.length = 1 then digits else Decimal.insertPoint digits (digits.length - 1)
        mantissa ++ 'e' :: (toString (place - 1)).toList
    String.ofList (sign negative ++ magnitude)

end Binary64

end QueryScope.Number
