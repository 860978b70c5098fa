import QueryScope.Scan.Basic
import QueryScope.Text.Digits

/-!
# String literals in queries

A literal stands between backticks, where it is taken as it is, or between single or double
quotes, where escapes are decoded and a line end is not allowed.
-/

namespace QueryScope.Scan

/-- What is wrong with a string literal. -/
inductive LiteralFault where
  | unclosed
  | badEscape
deriving DecidableEq

/-- The character that a letter escapes. -/
def letterEscape? (c : Char) : Option Char :=
  if c = 'a' then some '\x07'
  else if c = 'b' then some '\x08'
  else if c = 'f' then some '\x0c'
  else if c = 'n' then some '\n'
  else if c = 'r' then some '\r'
  else if c = 't' then some '\t'
  else if c = 'v' then some '\x0b'
  else if c = '\\' ∨ c = '"' ∨ c = '\'' then some c
  else none

/-- How many hexadecimal digits follow the letter of a code point escape. -/
def codeWidth? (c : Char) : Option Nat :=
  if c = 'x' then some 2
  else if c = 'u' then some 4
  else if c = 'U' then some 8
  else none

/-- The character with the code point that exactly `width` digits write. -/
def codeEscape? (radix width : Nat) (digits : List Char) : Option Char :=
  if digits.length = width then (Text.plusNumeral? radix digits).bind Text.charOfCode? else none

/-- The character that an escape stands for, and how many characters of the text behind the
backslash it takes. -/
def escape? (c : Char) (rest : List Char) : Option (Char × Nat) :=
  match letterEscape? c with
  | some decoded => some (decoded, 0)
  | none =>
    match codeWidth? c with
    | some width => (codeEscape? 16 width (rest.take width)).map (·, width)
    | none =>
      if '0' ≤ c ∧ c ≤ '7' then (codeEscape? 8 3 (c :: rest.take 2)).map (·, 2) else none

/-- The decoded characters up to a closing quote, and the text behind it. -/
def literalBody (quote : Char) (text : List Char) : Except LiteralFault (List Char × List Char) :=
  match text with
  | [] => .error .unclosed
  | c :: rest =>
    if c = quote then .ok ([], rest)
    else if c = '\n' then .error .unclosed
    else if c = '\\' then
      match rest with
      | [] => .error .unclosed
      | e :: tail =>
        match escape? e tail with
        | none => .error .badEscape
        | some (decoded, width) => do
          let (body, behind) ← literalBody quote (tail.drop width)
          return (decoded :: body, behind)
    else do
      let (body, behind) ← literalBody quote rest
      return (c :: body, behind)
termination_by text.length
decreasing_by
  · simp
    omega
  · simp

/-- The characters up to a closing backtick, and the text behind it. -/
def rawBody (text : List Char) : Except LiteralFault (List Char × List Char) :=
  match text.dropWhile (· != '\x60') with
  | [] => .error .unclosed
  | _ :: behind => .ok (text.takeWhile (· != '\x60'), behind)

/-- A string literal. -/
def stringLiteral : Scanner String := fun input =>
  match input with
  | '\x60' :: text =>
    match rawBody text with
    | .ok (body, rest) => .ok (String.ofList body, rest)
    | .error _ => demand "closing backtick" input
  | c :: text =>
    if c = '"' ∨ c = '\'' then
      match literalBody c text with
      | .ok (body, rest) => .ok (String.ofList body, rest)
      | .error .unclosed => demand "closing quote" input
      | .error .badEscape => refuse "invalid escape sequence in string" input
    else miss input
  | [] => miss input

end QueryScope.Scan
