/-!
# Binary operators

The operators of queries, how they bind, and the clauses that go with them and with aggregations.
-/

namespace QueryScope

/-- A binary operator. -/
inductive Operator where
  | or
  | and
  | andNot
  | equal
  | notEqual
  | greater
  | less
  | greaterEqual
  | lessEqual
  | add
  | sub
  | mul
  | div
  | mod
  | atan2
  | pow
deriving DecidableEq

namespace Operator

/-- The written form of an operator. -/
def symbol : Operator → String
  | or => "or"
  | and => "and"
  | andNot => "unless"
  | equal => "=="
  | notEqual => "!="
  | greater => ">"
  | less => "<"
  | greaterEqual => ">="
  | lessEqual => "<="
  | add => "+"
  | sub => "-"
  | mul => "*"
  | div => "/"
  | mod => "%"
  | atan2 => "atan2"
  | pow => "^"

/-- How strongly an operator binds. -/
def precedence : Operator → Nat
  | or => 1
  | and | andNot => 2
  | equal | notEqual | greater | less | greaterEqual | lessEqual => 3
  | add | sub => 4
  | mul | div | mod | atan2 => 5
  | pow => 6

/-- The operator compares two values. -/
def isComparison (op : Operator) : Bool :=
  op.precedence == 3

/-- The operator combines sets of series. -/
def isSetOperation : Operator → Bool
  | or | and | andNot => true
  | _ => false

/-- The least precedence of an operator in the right operand: only powers nest to the right. -/
def rightPrecedence (op : Operator) : Nat :=
  if op = pow then op.precedence else op.precedence + 1

end Operator

/-- The side of a binary operation that has many series for one of the other. -/
inductive Side where
  | left
  | right
deriving DecidableEq

/-- The side that is many, and the labels taken over from the other side. -/
structure GroupClause where
  side : Side
  labels : List String
deriving DecidableEq

/-- By which labels the series of two operands are matched. -/
structure Matching where
  /-- on these labels, or on all others -/
  on : Bool
  labels : List String
  group : Option GroupClause
deriving DecidableEq

/-- The clauses between a binary operator and its right operand. -/
structure Modifiers where
  bool : Bool := false
  matching : Option Matching := none
deriving DecidableEq

/-- The labels that an aggregation keeps or drops. -/
structure Grouping where
  without : Bool
  labels : List String
deriving DecidableEq

end QueryScope
