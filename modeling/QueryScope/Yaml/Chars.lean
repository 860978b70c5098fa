/-!
# Characters of documents

The classes of characters that the structure of a document rests on.
-/

namespace QueryScope.Yaml

/-- A character that a document may hold. -/
def isAllowed (c : Char) : Bool :=
  c == '\t' || c == '\n' || c == '\r' || (' ' ≤ c && c ≤ '~') || c == '\u0085' ||
    ('\u00a0' ≤ c && c ≤ '\ufffd') || 0x10000 ≤ c.toNat

/-- A character that separates words on a line. -/
def isGap (c : Char) : Bool :=
  c == ' ' || c == '\t'

/-- A character that ends a line. -/
def isBreak (c : Char) : Bool :=
  c == '\n' || c == '\r' || c == '\u0085' || c == '\u2028' || c == '\u2029'

/-- The text begins with a separator or the end of a line, or is empty. -/
def endsWord : List Char → Bool
  | [] => true
  | c :: _ => isGap c || isBreak c

/-- The text begins with the end of a line, or is empty. -/
def endsLine : List Char → Bool
  | [] => true
  | c :: _ => isBreak c

/-- A character of the names of anchors and tag handles. -/
def isNameChar (c : Char) : Bool :=
  c.isAlphanum || c == '_' || c == '-'

/-- A character of tags. Between angle brackets, three more are taken. -/
def isTagChar (bracketed : Bool) (c : Char) : Bool :=
  isNameChar c || ";/?:@&=+$.%!~*'()".toList.contains c || (bracketed && ",[]".toList.contains c)

/-- What a line's end at the start of a text counts as: the ends of lines that only some systems know
are kept, all others are one line feed. -/
def breakText : List Char → List Char
  | [] => []
  | c :: _ => if c == '\u2028' || c == '\u2029' then [c] else ['\n']

end QueryScope.Yaml
