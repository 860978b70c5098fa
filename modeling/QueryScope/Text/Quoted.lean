import QueryScope.Text.Letter
import QueryScope.Text.Escaped

/-!
# Quoted string literals

The written form of a string in a query: double quotes around it, an escape for each character
that cannot stand between them.
-/

namespace QueryScope.Text

/-- A number in lower case hexadecimal, filled with zeros to a width. -/
def paddedHex (width n : Nat) : List Char :=
  List.replicate (width - (hexDigits n).length) '0' ++ hexDigits n

/-- One character of a quoted literal. -/
def quoteChar (c : Char) : List Char :=
  if c = '"' then ['\\', '"']
  else if c = '\\' then ['\\', '\\']
  else if c = '\x07' then ['\\', 'a']
  else if c = '\x08' then ['\\', 'b']
  else if c = '\x0c' then ['\\', 'f']
  else if c = '\n' then ['\\', 'n']
  else if c = '\r' then ['\\', 'r']
  else if c = '\t' then ['\\', 't']
  else if c = '\x0b' then ['\\', 'v']
  else if isControl c then
    if c.toNat < 0x80 then '\\' :: 'x' :: paddedHex 2 c.toNat
    else '\\' :: 'u' :: paddedHex 4 c.toNat
  else [c]

/-- The characters of a literal for a text. -/
def quoteChars (text : List Char) : List Char :=
  '"' :: text.flatMap quoteChar ++ ['"']

/-- The literal for a string. -/
def quote (text : String) : String :=
  String.ofList (quoteChars text.toList)

end QueryScope.Text
