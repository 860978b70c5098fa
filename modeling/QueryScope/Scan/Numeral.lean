import QueryScope.Number.Decimal
import QueryScope.Scan.Basic
import QueryScope.Text.Digits
import QueryScope.Text.Letter

/-!
# Numbers in queries

A number is a decimal with an optional fraction and exponent, a hexadecimal number, `Inf` or `NaN`.
-/

namespace QueryScope.Scan

open Number

/-- The digits before the point of a decimal number, those behind it, and the text behind both. There
is at least one digit. -/
def mantissa? (text : List Char) : Option (List Char × List Char × List Char) :=
  let whole := text.takeWhile Char.isDigit
  let rest := text.dropWhile Char.isDigit
  match rest with
  | '.' :: tail =>
    let fraction := tail.takeWhile Char.isDigit
    if whole = [] ∧ fraction = [] then none
    else some (whole, fraction, tail.dropWhile Char.isDigit)
  | _ => if whole = [] then none else some (whole, [], rest)

/-- The exponent at the start of a text, and the text behind it; zero and the whole text where there
is no exponent. -/
def exponentPart (text : List Char) : Int × List Char :=
  match text with
  | e :: tail =>
    if e = 'e' ∨ e = 'E' then
      let (negative, digitsAnd) :=
        match tail with
        | '-' :: rest => (true, rest)
        | '+' :: rest => (false, rest)
        | rest => (false, rest)
      let digits := digitsAnd.takeWhile Char.isDigit
      if digits = [] then (0, text)
      else
        let value : Int := natOfDigits digits
        (if negative then -value else value, digitsAnd.dropWhile Char.isDigit)
    else (0, text)
  | [] => (0, text)

/-- The decimal number at the start of a text, and the text behind it. -/
def decimal? (text : List Char) : Option (Decimal × List Char) :=
  match mantissa? text with
  | none => none
  | some (whole, fraction, rest) =>
    let (exponent, behind) := exponentPart rest
    some (⟨natOfDigits (whole ++ fraction), exponent - fraction.length⟩, behind)

/-- `Inf` or `NaN` in any case, where no name goes on, and the text behind it. -/
def specialNumber? (text : List Char) : Option (Binary64 × List Char) :=
  let rest := text.drop 3
  let name := (text.take 3).map Char.toLower
  if rest.head?.any Text.isWordChar then none
  else if name = ['i', 'n', 'f'] then some (.infinite false, rest)
  else if name = ['n', 'a', 'n'] then some (.nan, rest)
  else none

/-- The digits behind the mark of a hexadecimal number and what follows. -/
def afterHexMark? : List Char → Option (List Char)
  | '0' :: 'x' :: rest => some rest
  | '0' :: 'X' :: rest => some rest
  | _ => none

/-- A number without a sign. A hexadecimal number has at most 64 bits. -/
def number : Scanner Binary64 := fun input =>
  match specialNumber? input with
  | some result => .ok result
  | none =>
    match afterHexMark? input with
    | some rest =>
      match Text.numeral? 16 (rest.takeWhile Text.isHexDigit) with
      | some value =>
        if value < Nat.pow 2 64 then .ok (.ofNat value, rest.dropWhile Text.isHexDigit) else miss input
      | none => miss input
    | none =>
      match decimal? input with
      | some (value, rest) => .ok (value.toBinary64 false, rest)
      | none => miss input

end QueryScope.Scan
