import QueryScope.Text.Digits
import QueryScope.Text.Lead

/-!
# Numbers, dates and truth values

No setting is a number, a date or a truth value, but a settings document may hold them where nothing
is read from it. So only their form matters.
-/

namespace QueryScope.Toml

/-- The text without a sign before it. -/
def withoutSign : List Char → List Char
  | '+' :: rest => rest
  | '-' :: rest => rest
  | text => text

/-- Digits with single underscores between them. -/
def isDigitRun (radix : Nat) (text : List Char) : Bool :=
  (text.splitOn '_').all fun part => (Text.numeral? radix part).isSome

/-- Decimal digits, with no zero before others. -/
def isCount (text : List Char) : Bool :=
  isDigitRun 10 text && (text.length = 1 || text.head? ≠ some '0')

/-- An integer. -/
def isInteger : List Char → Bool
  | '0' :: 'x' :: digits => isDigitRun 16 digits
  | '0' :: 'o' :: digits => isDigitRun 8 digits
  | '0' :: 'b' :: digits => isDigitRun 2 digits
  | text => isCount (withoutSign text)

/-- An exponent. -/
def isExponent : List Char → Bool
  | c :: rest => (c == 'e' || c == 'E') && isDigitRun 10 (withoutSign rest)
  | [] => false

/-- A number that is no integer. -/
def isDecimal (text : List Char) : Bool :=
  let isPart (c : Char) : Bool := c.isDigit || c == '_'
  let body := withoutSign text
  let rest := body.dropWhile isPart
  let isTail :=
    match rest with
    | '.' :: more =>
      let behind := more.dropWhile isPart
      isDigitRun 10 (more.takeWhile isPart) && (behind.isEmpty || isExponent behind)
    | _ => isExponent rest
  body = "inf".toList || body = "nan".toList || (isCount (body.takeWhile isPart) && isTail)

/-- A number of the given width in bounds, and the text behind it. -/
def boundedField? (width least most : Nat) (text : List Char) : Option (Nat × List Char) :=
  if (text.take width).length = width then
    ((Text.numeral? 10 (text.take width)).filter fun n => least ≤ n && n ≤ most).map
      (·, text.drop width)
  else none

/-- The number of days of a month. -/
def daysOf (year month : Nat) : Nat :=
  if month = 2 then
    if year % 4 = 0 && (year % 100 ≠ 0 || year % 400 = 0) then 29 else 28
  else if [4, 6, 9, 11].contains month then 30
  else 31

/-- The text behind a date. -/
def afterDate? (text : List Char) : Option (List Char) := do
  let (year, text) ← boundedField? 4 0 9999 text
  let (month, text) ← boundedField? 2 1 12 (← Text.after? ['-'] text)
  let (_, text) ← boundedField? 2 1 (daysOf year month) (← Text.after? ['-'] text)
  return text

/-- The text behind a fraction of a second. -/
def afterFraction? : List Char → Option (List Char)
  | '.' :: rest => if rest.head?.any Char.isDigit then some (rest.dropWhile Char.isDigit) else none
  | text => some text

/-- The text behind a time of the day. The seconds may be left out. -/
def afterTime? (text : List Char) : Option (List Char) := do
  let (_, text) ← boundedField? 2 0 23 text
  let (_, text) ← boundedField? 2 0 59 (← Text.after? [':'] text)
  match text with
  | ':' :: rest =>
    let (_, text) ← boundedField? 2 0 60 rest
    afterFraction? text
  | _ => return text

/-- The difference of a local time from universal time. -/
def isOffset : List Char → Bool
  | ['Z'] => true
  | ['z'] => true
  | c :: rest => (c == '+' || c == '-') && (afterTime? rest).any (·.isEmpty) && rest.length = 5
  | [] => false

/-- A date, a time of the day, or both. -/
def isMoment (text : List Char) : Bool :=
  match afterDate? text with
  | none => (afterTime? text).any (·.isEmpty)
  | some [] => true
  | some (c :: rest) =>
    (c == 'T' || c == 't' || c == ' ') && (afterTime? rest).any fun text => text.isEmpty || isOffset text

/-- A value that is written without quotes and brackets. -/
def isScalar (text : List Char) : Bool :=
  text = "true".toList || text = "false".toList || isInteger text || isDecimal text || isMoment text

/-- A character of such values. -/
def isScalarChar (c : Char) : Bool :=
  c.isAlphanum || "+-._:".toList.contains c

/-- The value without quotes and brackets at the start of a text, and the text behind it. A blank may
divide a date from a time. -/
def scalar? (text : List Char) : Option (List Char × List Char) :=
  let word := text.takeWhile isScalarChar
  let behind := text.drop word.length
  let found :=
    match behind with
    | ' ' :: rest =>
      if afterDate? word = some [] && rest.head?.any Char.isDigit then
        word ++ ' ' :: rest.takeWhile isScalarChar
      else word
    | _ => word
  if isScalar found then some (found, text.drop found.length) else none

end QueryScope.Toml
