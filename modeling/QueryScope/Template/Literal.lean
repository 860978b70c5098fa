import QueryScope.Scan.Numeral
import QueryScope.Template.Item

/-!
# Literals in templates

Which strings, character constants and numbers the template language takes.
-/

namespace QueryScope.Template

/-- The character with a code point of so many hexadecimal digits exists, or is not asked for. -/
def isCodeEscape (digits : List Char) (width : Nat) (wantsCharacter : Bool) : Bool :=
  digits.length = width && digits.all Text.isHexDigit &&
    (!wantsCharacter || ((Text.numeral? 16 digits).bind Text.charOfCode?).isSome)

/-- The number of characters behind the backslash and letter of an escape, if it is well formed. -/
def escapeWidth? (quote c : Char) (rest : List Char) : Option Nat :=
  if "abfnrtv\\".toList.contains c || c = quote then some 0
  else if c = 'x' then if isCodeEscape (rest.take 2) 2 false then some 2 else none
  else if c = 'u' then if isCodeEscape (rest.take 4) 4 true then some 4 else none
  else if c = 'U' then if isCodeEscape (rest.take 8) 8 true then some 8 else none
  else if '0' ≤ c ∧ c ≤ '7' then
    match Text.numeral? 8 (c :: rest.take 2) with
    | some value => if (rest.take 2).length = 2 ∧ value ≤ 255 then some 2 else none
    | none => none
  else none

/-- The length of the first character of a literal with a quote, escaped or not. -/
def characterLength? (quote : Char) : List Char → Option Nat
  | [] => none
  | c :: rest =>
    if c = quote then none
    else if c ≠ '\\' then some 1
    else
      match rest with
      | [] => none
      | e :: tail => (escapeWidth? quote e tail).map (· + 2)

/-- The inside of a string has well formed characters only. The first `skip` characters belong to the
character before. -/
def isStringBody : (skip : Nat) → List Char → Bool
  | _, [] => true
  | skip + 1, _ :: rest => isStringBody skip rest
  | 0, c :: rest =>
    match characterLength? '"' (c :: rest) with
    | some length => isStringBody (length - 1) rest
    | none => false

/-- A quoted string that the language takes. -/
def isValidString (text : List Char) : Bool :=
  isStringBody 0 ((text.drop 1).dropLast)

/-- What is wrong with a character constant. -/
inductive ConstantFault where
  | invalid
  | malformed

/-- What is wrong with a character constant, if anything is. -/
def constantFault? (text : List Char) : Option ConstantFault :=
  let body := text.drop 1
  match characterLength? '\'' body with
  | none => some .invalid
  | some length => if body.drop length = ['\''] then none else some .malformed

/-- The text without the sign it starts with. -/
def dropSign : List Char → List Char
  | '+' :: rest => rest
  | '-' :: rest => rest
  | text => text

/-- A decimal number with an optional sign, fraction and exponent, and nothing behind it. -/
def isDecimalText (text : List Char) : Bool :=
  (Scan.decimal? (dropSign text)).any (·.2.isEmpty)

/-- The digits behind the mark of a base. -/
def afterBaseMark? (text : List Char) : Option (List Char) :=
  match text.map Char.toLower with
  | '0' :: 'x' :: rest => some rest
  | '0' :: 'o' :: rest => some rest
  | '0' :: 'b' :: rest => some rest
  | _ => none

/-- A real number. Behind the mark of a base there is at least one hexadecimal digit. -/
def isReal (text : List Char) : Bool :=
  match afterBaseMark? (dropSign text) with
  | some digits => digits.any Text.isHexDigit
  | none => isDecimalText (dropSign text)

/-- A sign that is not part of an exponent stands behind this character. -/
def signsPart (before sign : Char) : Bool :=
  (sign == '+' || sign == '-') && !"eEpP".toList.contains before

/-- A complex number without its mark, read backwards, split at the sign of its second part. -/
def splitBackwards : List Char → Option (List Char × List Char)
  | sign :: before :: rest =>
    if signsPart before sign then some ([sign], before :: rest)
    else (splitBackwards (before :: rest)).map fun parts => (sign :: parts.1, parts.2)
  | _ => none

/-- The two parts of a complex number without its mark. -/
def splitComplex? (text : List Char) : Option (List Char × List Char) :=
  (splitBackwards text.reverse).map fun parts => (parts.2.reverse, parts.1.reverse)

/-- A number that the language takes; underscores do not count. -/
def isValidNumber (text : List Char) : Bool :=
  let body := text.filter (· != '_')
  if body.getLast? = some 'i' then
    match splitComplex? body.dropLast with
    | some (real, imaginary) => isReal real && isReal imaginary
    | none => isReal body.dropLast
  else isReal body

end QueryScope.Template
