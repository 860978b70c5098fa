import QueryScope.Operator.Basic
import QueryScope.Scan.Lexeme

/-!
# Reading binary operators

Operators with their clauses, and expressions made of operands and operators. Of two operators the
one that binds more strongly takes the operand between them; of two equally strong ones the left
one does, powers apart.
-/

namespace QueryScope.Operator

open Scan

/-- The operators written with signs; one that starts another stands behind it. -/
def signs : List (String × Operator) :=
  [("==", equal), ("!=", notEqual), (">=", greaterEqual), ("<=", lessEqual), (">", greater),
    ("<", less), ("+", add), ("-", sub), ("*", mul), ("/", div), ("%", mod), ("^", pow)]

/-- The operators written as words. -/
def words : List (String × Operator) :=
  [("and", and), ("or", or), ("unless", andNot), ("atan2", atan2)]

/-- A binary operator. -/
def scan : Scanner Operator :=
  orElse (literalOf signs) (keywordOf words)

/-- The clause for operations of many series with one. -/
def groupClause : Scanner GroupClause := do
  let side ← keywordOf [("group_left", Side.left), ("group_right", Side.right)]
  blanks
  let labels ← opt labelList
  return ⟨side, labels.getD []⟩

/-- The clause that says by which labels series are matched. -/
def matchingClause (op : Operator) (on : Bool) : Scanner Matching := do
  blanks
  let labels ← expecting "label list" (commit labelList)
  blanks
  let group ← opt groupClause
  if group.isSome && op.isSetOperation then refuse "no grouping allowed for set operations"
  blanks
  return ⟨on, labels, group⟩

/-- The clauses behind an operator. -/
def modifiers (op : Operator) : Scanner Modifiers := do
  let bool ← optKeyword "bool"
  if bool then
    if !op.isComparison then refuse "bool modifier can only be used on comparison operators"
    blanks
  match ← opt (keywordOf [("on", true), ("ignoring", false)]) with
  | some on => return ⟨bool, some (← matchingClause op on)⟩
  | none => return ⟨bool, none⟩

/-- The next operator if it binds at least as strongly as `least`; otherwise nothing is read, not even
blanks. -/
def next? (least : Nat) : Scanner (Option Operator) := do
  let before ← get
  blanks
  match ← opt scan with
  | some op =>
    if least ≤ op.precedence then return some op
    else
      set before
      return none
  | none =>
    set before
    return none

/-- A right operand, which must be there. -/
def rightOperand {α : Type} (operand : Scanner α) : Scanner α := fun input =>
  match operand input with
  | .ok result => .ok result
  | .error failure =>
    if failure.committed then .error failure
    else demand "right-hand operand" failure.rest

/-- What follows the operand `left` in an expression of operators at least as strong as `least`. The
bound is more than the number of operators. -/
def extend {α : Type} (operand : Scanner α) (combine : Operator → Modifiers → α → α → α) :
    (bound least : Nat) → (left : α) → Scanner α
  | 0, _, left => return left
  | bound + 1, least, left => do
    match ← next? least with
    | none => return left
    | some op =>
      blanks
      let clauses ← modifiers op
      let right ← rightOperand do
        let first ← operand
        extend operand combine bound op.rightPrecedence first
      extend operand combine bound least (combine op clauses left right)

/-- An expression of operands and operators at least as strong as `least`. -/
def chain {α : Type} (operand : Scanner α) (combine : Operator → Modifiers → α → α → α)
    (least : Nat) : Scanner α := do
  let first ← operand
  extend operand combine ((← get).length + 1) least first

/-- The clause that says by which labels an aggregation groups. -/
def grouping : Scanner Grouping := do
  let without ← keywordOf [("by", false), ("without", true)]
  blanks
  let labels ← expecting "grouping label list" (commit labelList)
  return ⟨without, labels⟩

end QueryScope.Operator
