import QueryScope.Text.Escaped

/-!
# Items of templates

A template is plain text with actions between double braces. It falls into items: the texts, the
delimiters, and the words inside actions.
-/

namespace QueryScope.Template

/-- The words with a meaning of their own at the start of an action. -/
inductive Keyword where
  | block
  | breakLoop
  | continueLoop
  | define
  | elseBranch
  | endMark
  | ifBranch
  | rangeLoop
  | template
  | withScope
deriving DecidableEq

/-- What an item is. -/
inductive Kind where
  | text
  /-- the start of an action -/
  | opening
  /-- the end of an action -/
  | closing
  | space
  | assign
  | declare
  | pipe
  /-- another printable character -/
  | char
  | charConstant
  | bool
  | dot
  | nil
  | field
  | var
  | identifier
  | number
  | string
  | rawString
  | leftParen
  | rightParen
  | keyword (word : Keyword)
  | eof
  /-- a mistake, which ends the items; the text of the item says what it is -/
  | mistake
deriving DecidableEq

/-- A part of a template and the line where it starts. -/
structure Item where
  kind : Kind
  text : List Char
  line : Nat
deriving DecidableEq

/-- How a message names an item. -/
def Item.describe (item : Item) : String :=
  match item.kind with
  | .eof => "EOF"
  | .mistake => String.ofList item.text
  | .keyword _ | .dot | .nil => "<" ++ String.ofList item.text ++ ">"
  | _ =>
    if 10 < item.text.length then Text.escaped (String.ofList (item.text.take 10)) ++ "..."
    else Text.escaped (String.ofList item.text)

/-- The meaning of a word in an action. -/
def wordKind (word : List Char) : Kind :=
  match String.ofList word with
  | "block" => .keyword .block
  | "break" => .keyword .breakLoop
  | "continue" => .keyword .continueLoop
  | "define" => .keyword .define
  | "else" => .keyword .elseBranch
  | "end" => .keyword .endMark
  | "if" => .keyword .ifBranch
  | "range" => .keyword .rangeLoop
  | "template" => .keyword .template
  | "with" => .keyword .withScope
  | "nil" => .nil
  | "true" | "false" => .bool
  | _ => .identifier

end QueryScope.Template
