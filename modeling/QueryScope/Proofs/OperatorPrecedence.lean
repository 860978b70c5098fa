import QueryScope.Proofs.LogShape
import QueryScope.Proofs.MetricReads
import QueryScope.Proofs.OperatorChain

/-!
# Precedence of operators

An expression of operands and operators is a tree whose leaves are the operands. The reader gives the tree
in which stronger operators stand below weaker ones and equally strong ones lean to the left, powers to the
right. It gives this tree for every row of operands and operators, and nothing else.
-/

namespace QueryScope.Operator

open Scan

lemma one_le_precedence (op : Operator) : 1 ≤ op.precedence := by
  cases op <;> decide

lemma precedence_le_rightPrecedence (op : Operator) : op.precedence ≤ op.rightPrecedence := by
  unfold rightPrecedence
  split_ifs <;> omega

lemma precedence_eq_six_iff (op : Operator) : op.precedence = 6 ↔ op = pow := by
  cases op <;> decide

/-- The operators that a right operand takes. -/
lemma rightPrecedence_le_iff (op inner : Operator) :
    op.rightPrecedence ≤ inner.precedence ↔ op.precedence < inner.precedence ∨ op = pow ∧ inner = pow := by
  have hop := op.precedence_le
  have hinner := inner.precedence_le
  rw [← op.precedence_eq_six_iff, ← inner.precedence_eq_six_iff, rightPrecedence]
  split_ifs with hpow
  · have hsix := op.precedence_eq_six_iff.2 hpow
    omega
  · have hsix := mt op.precedence_eq_six_iff.1 hpow
    omega

/-- The operators that may stand behind a finished operation. -/
lemma lt_rightPrecedence_iff (op inner : Operator) :
    op.precedence < inner.rightPrecedence ↔ op.precedence ≤ inner.precedence ∧ op ≠ pow := by
  have hop := op.precedence_le
  have hinner := inner.precedence_le
  rw [ne_eq, ← op.precedence_eq_six_iff, rightPrecedence]
  split_ifs with hpow
  · have hsix := inner.precedence_eq_six_iff.2 hpow
    omega
  · have hsix := mt inner.precedence_eq_six_iff.1 hpow
    omega

/-- Operands joined by operators. -/
inductive Tree (α : Type) where
  | operand (value : α)
  | binary (op : Operator) (modifiers : Modifiers) (left right : Tree α)

namespace Tree

variable {α : Type}

/-- The expression of a tree, given how two expressions are combined. -/
def build (combine : Operator → Modifiers → α → α → α) : Tree α → α
  | operand value => value
  | binary op modifiers left right => combine op modifiers (left.build combine) (right.build combine)

/-- The leftmost operand. -/
def first : Tree α → α
  | operand value => value
  | binary _ _ left _ => left.first

/-- The operators from left to right, each with its clauses and the operand behind it. -/
def others : Tree α → List (Operator × Modifiers × α)
  | operand _ => []
  | binary op modifiers left right => left.others ++ (op, modifiers, right.first) :: right.others

/-- The operator at the root. -/
def root? : Tree α → Option Operator
  | operand _ => none
  | binary op _ _ _ => some op

/-- At each operator, the one to the left below it is at least as strong, and the operator is no power; the
one to the right below it is stronger, or both are powers. -/
def Respects : Tree α → Prop
  | operand _ => True
  | binary op _ left right =>
    (∀ inner ∈ left.root?, op.precedence ≤ inner.precedence ∧ op ≠ pow) ∧
      (∀ inner ∈ right.root?, op.precedence < inner.precedence ∨ op = pow ∧ inner = pow) ∧
      left.Respects ∧ right.Respects

end Tree

section Rows

variable {α : Type} (operand : Scanner α)

/-- A row of operators, each with its clauses and an operand behind it, stands from one place of a text to
another. -/
inductive Row : List Char → List (Operator × Modifiers × α) → List Char → Prop
  | nil (text : List Char) : Row text [] text
  | cons {text behind next middle rest : List Char} {op : Operator} {m : Modifiers} {value : α}
      {others : List (Operator × Modifiers × α)} (hop : scan (dropBlanks false text) = .ok (op, behind))
      (hclauses : modifiers op (dropBlanks false behind) = .ok (m, next))
      (hoperand : operand next = .ok (value, middle)) (hrest : Row middle others rest) :
      Row text ((op, m, value) :: others) rest

/-- The expression is that of a tree of well placed operators, whose operands and operators stand one
after another in the text; no further operator follows. -/
def ReadsTree (combine : Operator → Modifiers → α → α → α) (input : List Char) (e : α) (rest : List Char) :
    Prop :=
  ∃ (tree : Tree α) (middle : List Char), tree.Respects ∧ e = tree.build combine ∧
    operand input = .ok (tree.first, middle) ∧ Row operand middle tree.others rest ∧
    ∀ op behind, scan (dropBlanks false rest) ≠ .ok (op, behind)

variable {operand}

lemma Row.append {text middle rest : List Char} {first second : List (Operator × Modifiers × α)}
    (h : Row operand text first middle) (hmore : Row operand middle second rest) :
    Row operand text (first ++ second) rest := by
  induction h with
  | nil => exact hmore
  | cons hop hclauses hoperand _ ih => exact .cons hop hclauses hoperand (ih hmore)

lemma Row.split {text rest : List Char} {first second : List (Operator × Modifiers × α)}
    (h : Row operand text (first ++ second) rest) :
    ∃ middle, Row operand text first middle ∧ Row operand middle second rest := by
  induction first generalizing text with
  | nil => exact ⟨text, .nil text, h⟩
  | cons item first ih =>
    cases h with
    | cons hop hclauses hoperand hrest =>
      obtain ⟨middle, hfirst, hsecond⟩ := ih hrest
      exact ⟨middle, .cons hop hclauses hoperand hfirst, hsecond⟩

lemma stops_one_iff (rest : List Char) :
    Stops 1 rest ↔ ∀ op behind, scan (dropBlanks false rest) ≠ .ok (op, behind) := by
  constructor
  · intro h op behind hscan
    have hlt := h.precedence_lt hscan
    have hle := op.one_le_precedence
    omega
  · intro h
    rcases next?_cases 1 rest with ⟨op, behind, hscan, -⟩ | hstop
    · exact absurd hscan (h op behind)
    · exact hstop

end Rows

section Chain

variable {α : Type} {operand : Scanner α} {combine : Operator → Modifiers → α → α → α}

/-- What is read behind a finished tree makes a larger tree. The tree is finished in that the operator behind
it does not belong to its right operand; what the reader adds is finished in the same sense. -/
lemma extend_tree (hoperand : Yields (fun _ => True) operand) {bound least : Nat} (left : Tree α) {e : α}
    {input rest : List Char} (hbound : input.length < bound)
    (h : extend operand combine bound least (left.build combine) input = .ok (e, rest))
    (hleft : left.Respects) (hleast : ∀ op ∈ left.root?, least ≤ op.precedence)
    (hfinished : ∀ op ∈ left.root?, Stops op.rightPrecedence input) :
    ∃ (tree : Tree α) (more : List (Operator × Modifiers × α)), tree.Respects ∧ e = tree.build combine ∧
      tree.first = left.first ∧ tree.others = left.others ++ more ∧ Row operand input more rest ∧
      (∀ op ∈ tree.root?, least ≤ op.precedence) ∧ Stops least rest ∧ rest.length ≤ input.length := by
  induction bound generalizing least left input e rest with
  | zero => omega
  | succ bound ih =>
    rcases next?_cases least input with ⟨op, behind, hscan, hle⟩ | hstop
    · rw [extend_of_scan hscan hle] at h
      obtain ⟨clauses, next, hclauses, h⟩ := bind_eq_ok_iff.1 h
      obtain ⟨right, after, hright, h⟩ := bind_eq_ok_iff.1 h
      obtain ⟨value, middle, hvalue, hright⟩ := bind_eq_ok_iff.1 (rightOperand_eq_ok_iff.1 hright)
      have hstart := length_dropBlanks_le false input
      have hbehind := length_scan_lt hscan
      have hnext := length_modifiers_le hclauses
      have hmiddle := (hoperand hvalue).2
      -- The right operand starts with a single operand, of which there is no operator to compare with.
      obtain ⟨inner, row, hinner, rfl, hfirst, hothers, hrow, hroot, hinnerStops, hafter⟩ :=
        ih (.operand value) (by omega) hright trivial (by simp [Tree.root?]) (by simp [Tree.root?])
      have hrespects : (Tree.binary op clauses left inner).Respects := by
        refine ⟨fun q hq => ?_, fun q hq => ?_, hleft, hinner⟩
        · exact (lt_rightPrecedence_iff op q).1 ((hfinished q hq).precedence_lt hscan)
        · exact (rightPrecedence_le_iff op q).1 (hroot q hq)
      obtain ⟨tree, more, htree, he, hfirst', hothers', hmore, hroot', hstops, hrest⟩ :=
        ih (.binary op clauses left inner) (by omega) h hrespects
          (by simpa [Tree.root?] using hle) (by simpa [Tree.root?] using hinnerStops)
      refine ⟨tree, (op, clauses, value) :: (row ++ more), htree, he, hfirst', ?_, ?_, hroot', hstops, by omega⟩
      · rw [hothers', Tree.others, hfirst, hothers, Tree.first, Tree.others]
        simp
      · exact .cons hscan hclauses hvalue (hrow.append hmore)
    · rw [extend_of_stops hstop] at h
      obtain ⟨rfl, rfl⟩ := Prod.mk.inj (Except.ok.inj h)
      exact ⟨left, [], hleft, rfl, rfl, by simp, .nil _, hleast, hstop, le_rfl⟩

/-- A well placed tree is read from its row, and what follows the row is read behind the tree. -/
lemma takeOperators_tree (hoperand : Yields (fun _ => True) operand) (least : Nat) {tree : Tree α}
    {input middle rest : List Char} (htree : tree.Respects) (hleast : ∀ op ∈ tree.root?, least ≤ op.precedence)
    (hfinished : ∀ op ∈ tree.root?, Stops op.rightPrecedence rest)
    (hfirst : operand input = .ok (tree.first, middle)) (hrow : Row operand middle tree.others rest) :
    (operand >>= takeOperators operand combine least) input =
      takeOperators operand combine least (tree.build combine) rest := by
  induction tree generalizing least input middle rest with
  | operand value =>
    cases hrow with
    | nil => rw [bind_of_ok hfirst]; rfl
  | binary op m left right ihleft ihright =>
    obtain ⟨hleftRoot, hrightRoot, hleft, hright⟩ := htree
    have hop : least ≤ op.precedence := hleast op rfl
    obtain ⟨place, hleftRow, hrow⟩ := Row.split hrow
    cases hrow with
    | cons hscan hclauses hvalue hrightRow =>
      have hleftRead := ihleft least hleft
        (fun q hq => hop.trans (hleftRoot q hq).1)
        (fun q hq => by
          rw [Stops, next?_of_scan hscan, if_neg]
          exact not_le.2 ((lt_rightPrecedence_iff op q).2 (hleftRoot q hq)))
        hfirst hleftRow
      have hstops : Stops op.rightPrecedence rest := hfinished op rfl
      have hrightRead := ihright op.rightPrecedence hright
        (fun q hq => (rightPrecedence_le_iff op q).2 (hrightRoot q hq))
        (fun q hq => hstops.mono
          (((rightPrecedence_le_iff op q).2 (hrightRoot q hq)).trans q.precedence_le_rightPrecedence))
        hvalue hrightRow
      rw [hleftRead]
      exact takeOperators_of_scan hoperand hscan hop hclauses (hrightRead.trans (takeOperators_of_stops hstops))

lemma chain_one_eq_ok_iff (hoperand : Yields (fun _ => True) operand) {input rest : List Char} {e : α} :
    chain operand combine 1 input = .ok (e, rest) ↔ ReadsTree operand combine input e rest := by
  constructor
  · intro h
    obtain ⟨value, middle, hvalue, h⟩ := bind_eq_ok_iff.1 h
    rw [bind_of_ok (get_apply _)] at h
    obtain ⟨tree, more, htree, he, hfirst, hothers, hrow, -, hstops, -⟩ :=
      extend_tree hoperand (.operand value) (Nat.lt_succ_self _) h trivial (by simp [Tree.root?])
        (by simp [Tree.root?])
    refine ⟨tree, middle, htree, he, hfirst ▸ hvalue, ?_, (stops_one_iff rest).1 hstops⟩
    rw [hothers]
    exact hrow
  · rintro ⟨tree, middle, htree, rfl, hvalue, hrow, hend⟩
    have hstops : Stops 1 rest := (stops_one_iff rest).2 hend
    have hfinished : ∀ op ∈ tree.root?, Stops op.rightPrecedence rest := fun op _ =>
      hstops.mono (op.one_le_precedence.trans op.precedence_le_rightPrecedence)
    rw [chain_eq_takeOperators,
      takeOperators_tree hoperand 1 htree (fun op _ => op.one_le_precedence) hfinished hvalue hrow]
    exact takeOperators_of_stops hstops

end Chain

/-- In both dialects an expression is read exactly as the tree of its row of operands and operators in which
operators are placed by precedence: all lean to the left, powers to the right. -/
theorem expressions_respect_precedence (depth : Nat) (input rest : List Char) :
    (∀ e : Metric.Expr, Metric.scanExpr (Metric.operand depth) input = .ok (e, rest) ↔
      ReadsTree (Metric.operand depth) Metric.Expr.binary input e rest) ∧
    ∀ s : Log.Sample, Log.sampleExpr (Log.operand depth) input = .ok (s, rest) ↔
      ReadsTree (Log.operand depth) Log.Sample.binary input s rest := by
  constructor
  · intro e
    exact chain_one_eq_ok_iff (Metric.yields_operand depth)
  · intro s
    have hoperand := (Log.yields_operand depth).mono fun _ _ => trivial
    exact chain_one_eq_ok_iff hoperand

end QueryScope.Operator
