import QueryScope.Text.Ranges

/-!
# Blank characters

The characters of the Unicode property White_Space, and the trimming of texts by them.
-/

namespace QueryScope.Text

/-- The code points of White_Space. -/
def blankRanges : Ranges :=
  [(0x9, 0xd), (0x20, 0x20), (0x85, 0x85), (0xa0, 0xa0), (0x1680, 0x1680), (0x2000, 0x200a),
    (0x2028, 0x2029), (0x202f, 0x202f), (0x205f, 0x205f), (0x3000, 0x3000)]

/-- A character of White_Space. -/
def isBlank (c : Char) : Bool :=
  blankRanges.holds c

/-- A space, a tab, a line feed, a form feed or a carriage return. -/
def isPlainBlank (c : Char) : Bool :=
  c == ' ' || c == '\t' || c == '\n' || c == '\x0c' || c == '\r'

/-- The text without the blanks it starts with. -/
def trimStart (text : List Char) : List Char :=
  text.dropWhile isBlank

/-- The text without the blanks it ends with. -/
def trimEnd (text : List Char) : List Char :=
  (text.reverse.dropWhile isBlank).reverse

/-- The text without the blanks at its two ends. -/
def trim (text : List Char) : List Char :=
  trimEnd (trimStart text)

/-- The string without the blanks at its two ends. -/
def trimmed (text : String) : String :=
  String.ofList (trim text.toList)

/-- A string of blanks only. -/
def isAllBlank (text : String) : Bool :=
  text.toList.all isBlank

end QueryScope.Text
