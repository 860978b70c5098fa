import QueryScope.Text.Digits
import QueryScope.Yaml.Cursor
import QueryScope.Yaml.Token

/-!
# Anchors, tags and directives
-/

namespace QueryScope.Yaml

/-- The name of an anchor or alias behind its mark. Only blanks and a few marks may follow it. -/
def anchorName? (c : Cursor) : Option (List Char × Cursor) :=
  let name := (c.skip 1).rest.takeWhile isNameChar
  let behind := c.skip (1 + name.length)
  if name.isEmpty then none
  else if endsWord behind.rest || behind.head?.any ("?:,]\x7d%@\x60".toList.contains ·) then
    some (name, behind)
  else none

/-- The value of two hexadecimal digits behind a percent sign. -/
def octet? : List Char → Option (Nat × List Char)
  | '%' :: a :: b :: rest => (Text.numeral? 16 [a, b]).map (·, rest)
  | _ => none

/-- The number of octets that write a character which begins with the given one, and the bits of the
character that it holds. -/
def leadingOctet? (octet : Nat) : Option (Nat × Nat) :=
  if octet < 0x80 then some (1, octet)
  else if octet < 0xc0 then none
  else if octet < 0xe0 then some (2, octet % 0x20)
  else if octet < 0xf0 then some (3, octet % 0x10)
  else if octet < 0xf8 then some (4, octet % 0x08)
  else none

/-- Reads the later octets of a character into its code. -/
def laterOctets? : Nat → Nat → List Char → Option (Nat × List Char)
  | 0, code, rest => some (code, rest)
  | n + 1, code, rest =>
    match octet? rest with
    | some (octet, behind) =>
      if 0x80 ≤ octet ∧ octet < 0xc0 then laterOctets? n (code * 0x40 + octet % 0x40) behind else none
    | none => none

/-- The least code of a character that the given number of octets writes. -/
def leastCode (width : Nat) : Nat :=
  [0, 0, 0x80, 0x800, 0x10000].getD width 0

/-- The character that octets in hexadecimal digits write at the start of a text, and how many
characters of the text they take. The octets may have the form of a character without being one. -/
def percentChar? (text : List Char) : Option (Option Char × Nat) := do
  let (octet, rest) ← octet? text
  let (width, bits) ← leadingOctet? octet
  let (code, _) ← laterOctets? (width - 1) bits rest
  return (if code < leastCode width then none else Text.charOfCode? code, 3 * width)

/-- The characters of a tag at a place, and the place behind them. -/
def tagChars? (bracketed : Bool) : Nat → TagText → Cursor → Option (TagText × Cursor)
  | 0, text, c => some (text, c)
  | bound + 1, text, c =>
    match c.rest with
    | [] => some (text, c)
    | x :: _ =>
      if x == '%' then
        match percentChar? c.rest with
        | some (y, width) => tagChars? bracketed bound (text ++ [y]) (c.skip width)
        | none => none
      else if isTagChar bracketed x then tagChars? bracketed bound (text ++ [some x]) (c.skip 1)
      else some (text, c)

/-- A tag up to its first null character, which ends it. -/
def beforeNull (text : TagText) : TagText :=
  text.takeWhile (· ≠ some '\x00')

/-- The handle of a tag at a place: a name between exclamation marks, of which the second may be
missing. -/
def tagHandle? (c : Cursor) : Option (List Char × Cursor) :=
  if c.sees '!' then
    let name := (c.skip 1).rest.takeWhile isNameChar
    let behind := c.skip (1 + name.length)
    if behind.sees '!' then some ('!' :: name ++ ['!'], behind.skip 1) else some ('!' :: name, behind)
  else none

/-- The parts of a tag at a place. A tag between angle brackets has no handle, nor has the single
exclamation mark. -/
def tagParts? (c : Cursor) : Option (List Char × TagText × Cursor) :=
  if (c.skip 1).sees '<' then do
    let c := c.skip 2
    let (text, c) ← tagChars? true (c.rest.length + 1) [] c
    if text.isEmpty || !c.sees '>' then none
    else return ([], beforeNull text, c.skip 1)
  else do
    let (handle, c) ← tagHandle? c
    let (text, behind) ← tagChars? false (c.rest.length + 1) [] c
    if 1 < handle.length && handle.getLast? = some '!' then
      if text.isEmpty then none else return (handle, beforeNull text, behind)
    else
      let suffix := beforeNull ((handle.drop 1).map some ++ text)
      return if suffix.isEmpty then ([], [some '!'], behind) else (['!'], suffix, behind)

/-- The tag at a place. A blank follows it, or a comma in flow collections. -/
def tag? (inFlow : Bool) (c : Cursor) : Option (Token × Cursor) := do
  let (handle, suffix, c) ← tagParts? c
  if endsWord c.rest || (inFlow && c.sees ',') then return (.tag handle suffix, c) else none

/-- The number of at most nine digits at a place. -/
def versionNumber? (c : Cursor) : Option (Nat × Cursor) :=
  let digits := c.rest.takeWhile Char.isDigit
  if digits.length ≤ 9 then (Text.numeral? 10 digits).map (·, c.skip digits.length) else none

/-- The version of the format behind the name of its directive. -/
def versionDirective? (c : Cursor) : Option (Token × Cursor) := do
  let (major, c) ← versionNumber? (c.skipWhile isGap)
  if c.sees '.' then
    let (minor, c) ← versionNumber? (c.skip 1)
    return (.version major minor, c)
  else none

/-- The handle and what it stands for behind the name of the directive. -/
def handleDirective? (c : Cursor) : Option (Token × Cursor) := do
  let (handle, c) ← tagHandle? (c.skipWhile isGap)
  if handle ≠ ['!'] && (handle.length < 2 || handle.getLast? ≠ some '!') then none
  else if !c.head?.any isGap then none
  else
    let c := c.skipWhile isGap
    let (stem, c) ← tagChars? true (c.rest.length + 1) [] c
    if stem.isEmpty || !endsWord c.rest then none
    else return (.tagHandle handle (beforeNull stem), c)

/-- The directive on a line. -/
def directive? (c : Cursor) : Option (Token × Cursor) := do
  let c := c.skip 1
  let name := c.rest.takeWhile isNameChar
  let c := c.skip name.length
  if name.isEmpty || !endsWord c.rest then none
  else
    let (token, c) ←
      if name = "YAML".toList then versionDirective? c
      else if name = "TAG".toList then handleDirective? c
      else none
    let c ← c.skipLine?
    return (token, c)

end QueryScope.Yaml
