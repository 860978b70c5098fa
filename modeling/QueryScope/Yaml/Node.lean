import QueryScope.Yaml.Token

/-!
# Trees of documents

A document is a tree of scalars, sequences and mappings. An alias stands for the node that has its
anchor.
-/

namespace QueryScope.Yaml

/-- A tag. -/
structure Tag where
  chars : TagText
deriving DecidableEq

namespace Tag

/-- The text of a tag, if all of it can be read. -/
def text? (tag : Tag) : Option String :=
  (tag.chars.mapM id).map String.ofList

/-- The tag is one of those that the format itself has. -/
def isFormat (name : String) (tag : Tag) : Bool :=
  tag.text? == some ("tag:yaml.org,2002:" ++ name)

/-- The tag belongs to the document: it begins with an exclamation mark. -/
def isLocal (tag : Tag) : Bool :=
  tag.chars.head? == some (some '!')

/-- A text without the exclamation mark before it, unless that is all of it. -/
def withoutMark : List Char → List Char
  | ['!'] => ['!']
  | '!' :: rest => rest
  | text => text

/-- The name of a tag that belongs to the document, if all of it can be read. Two exclamation marks
before the name are as good as one. -/
def localName? (tag : Tag) : Option String :=
  if tag.isLocal then
    (tag.chars.mapM id).map fun text => String.ofList (withoutMark (withoutMark text))
  else none

end Tag

/-- A scalar with its tag. -/
structure Scalar where
  tag : Option Tag := none
  style : Style := .plain
  text : String := ""
deriving DecidableEq

/-- The scalar that is read where nothing is written. -/
def Scalar.empty : Scalar := {}

/-- A node of a document. -/
inductive Node where
  | scalar (scalar : Scalar)
  | sequence (tag : Option Tag) (items : List Node)
  | mapping (tag : Option Tag) (entries : List (Node × Node))
  | alias (anchor : Nat)

/-- The node that is read where nothing is written. -/
def Node.empty : Node :=
  .scalar .empty

mutual

/-- The number of steps that a walk through a node takes: one for a scalar or an alias, and for a
collection two more than for its content. -/
def Node.steps : Node → Nat
  | .scalar _ => 1
  | .alias _ => 1
  | .sequence _ items => 2 + Node.stepsOfItems items
  | .mapping _ entries => 2 + Node.stepsOfEntries entries

/-- The steps through the items of a sequence. -/
def Node.stepsOfItems : List Node → Nat
  | [] => 0
  | item :: rest => item.steps + Node.stepsOfItems rest

/-- The steps through the entries of a mapping. -/
def Node.stepsOfEntries : List (Node × Node) → Nat
  | [] => 0
  | (key, value) :: rest => key.steps + value.steps + Node.stepsOfEntries rest

end

/-- The anchors of a document. An anchor gets as its number how many names were in use before it, and
a name that is used again goes to the new number. So two anchors may have one number, which then goes
to the later one. -/
structure Anchors where
  /-- the number of each name -/
  names : List (List Char × Nat) := []
  /-- the numbers that were given, the latest first, and how many anchors stand before each -/
  numbers : List (Nat × Nat) := []
  /-- the nodes with an anchor, by how many anchors stand before it -/
  nodes : List (Nat × Node) := []

namespace Anchors

/-- The number of a name. -/
def number? (a : Anchors) (name : List Char) : Option Nat :=
  a.names.lookup name

/-- Gives a number to a name. -/
def define (a : Anchors) (name : List Char) : Anchors :=
  { a with
    names := (name, a.names.length) :: a.names.filter (·.1 ≠ name)
    numbers := (a.names.length, a.numbers.length) :: a.numbers }

/-- Keeps the node of the anchor that stands behind the given number of anchors. -/
def settle (a : Anchors) (before : Nat) (node : Node) : Anchors :=
  { a with nodes := (before, node) :: a.nodes }

/-- The node that a number stands for. -/
def node? (a : Anchors) (number : Nat) : Option Node :=
  (a.numbers.lookup number).bind fun before => a.nodes.lookup before

end Anchors

/-- A document. -/
structure Document where
  root : Node := .empty
  anchors : Anchors := {}

end QueryScope.Yaml
