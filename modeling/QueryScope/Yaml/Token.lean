/-!
# Tokens of documents
-/

namespace QueryScope.Yaml

/-- How a scalar is written, as far as its meaning depends on it. -/
inductive Style where
  | plain
  | literal
  | quoted
deriving DecidableEq

/-- The characters of a tag. Octets that write no character stand in it as `none`. -/
abbrev TagText := List (Option Char)

/-- The pieces that a document is made of. Block collections have tokens where they begin and end,
though nothing is written there. -/
inductive Token where
  | version (major minor : Nat)
  | tagHandle (handle : List Char) (stem : TagText)
  | documentStart
  | documentEnd
  | blockSequence
  | blockMapping
  | blockEnd
  | flowSequence
  | flowSequenceEnd
  | flowMapping
  | flowMappingEnd
  | item
  | comma
  | key
  | value
  | alias (name : List Char)
  | anchor (name : List Char)
  | tag (handle : List Char) (suffix : TagText)
  | scalar (style : Style) (text : List Char)
deriving DecidableEq

end QueryScope.Yaml
