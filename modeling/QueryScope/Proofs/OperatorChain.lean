import QueryScope.Proofs.OperatorText

/-!
# Operators one by one

The operators behind an operand are taken one by one until one is too weak. The bound of the reader
plays no part: it is larger than the number of operators in any text.
-/

namespace QueryScope.Operator

open Scan

section Chain

variable {α : Type} {inner : Scanner α} {combine : Operator → Modifiers → α → α → α}

lemma rightOperand_eq_ok_iff {operand : Scanner α} {input : List Char} {result : α × List Char} :
    rightOperand operand input = .ok result ↔ operand input = .ok result := by
  unfold rightOperand
  cases h : operand input with
  | error failure => by_cases hc : failure.committed <;> simp [hc, demand]
  | ok pair => simp

lemma rightOperand_congr {first second : Scanner α} {input : List Char} (h : first input = second input) :
    rightOperand first input = rightOperand second input := by
  unfold rightOperand
  rw [h]

/-- One operator is taken with its clauses and its right operand. -/
lemma extend_of_scan {bound least : Nat} {left : α} {input behind : List Char} {op : Operator}
    (hscan : scan (dropBlanks false input) = .ok (op, behind)) (hle : least ≤ op.precedence) :
    extend inner combine (bound + 1) least left input =
      (do
        let clauses ← modifiers op
        let right ← rightOperand (inner >>= extend inner combine bound op.rightPrecedence)
        extend inner combine bound least (combine op clauses left right) : Scanner α)
        (dropBlanks false behind) := by
  rw [extend, bind_of_ok ((next?_of_scan hscan).trans (if_pos hle))]
  simp only [bind_of_ok (blanks_apply _)]

lemma extend_of_stops {bound least : Nat} {left : α} {input : List Char} (h : Stops least input) :
    extend inner combine (bound + 1) least left input = .ok (left, input) := by
  rw [extend, bind_of_ok h]
  rfl

lemma length_modifiers_le {op : Operator} {m : Modifiers} {behind tail : List Char}
    (h : modifiers op (dropBlanks false behind) = .ok (m, tail)) : tail.length ≤ behind.length := by
  obtain ⟨-, -, -, htail⟩ := modifiers_sound h (solid_dropBlanks false behind)
  exact htail.trans (length_dropBlanks_le false behind)

lemma yields_extend {P : α → Prop} (hinner : Yields P inner)
    (hcombine : ∀ op m left right, m.Valid op → P left → P right → P (combine op m left right))
    (bound least : Nat) {left : α} (hleft : P left) : Yields P (extend inner combine bound least left) := by
  induction bound generalizing least left with
  | zero => exact .pure hleft
  | succ bound ih =>
    intro input a rest h
    rcases next?_cases least input with ⟨op, behind, hscan, hle⟩ | hstop
    · rw [extend_of_scan hscan hle] at h
      obtain ⟨clauses, tail, hclauses, h⟩ := bind_eq_ok_iff.1 h
      obtain ⟨right, after, hright, h⟩ := bind_eq_ok_iff.1 h
      have hbehind := length_scan_lt hscan
      have hstart := length_dropBlanks_le false input
      have htail := length_modifiers_le hclauses
      obtain ⟨hvalid, -⟩ := modifiers_sound hclauses (solid_dropBlanks false behind)
      obtain ⟨hP, hafter⟩ :=
        (hinner.bind fun first hfirst => ih op.rightPrecedence hfirst) (rightOperand_eq_ok_iff.1 hright)
      obtain ⟨ha, hrest⟩ := ih least (hcombine op clauses left right hvalid hleft hP) h
      exact ⟨ha, by omega⟩
    · rw [extend_of_stops hstop] at h
      obtain ⟨rfl, rfl⟩ := Prod.mk.inj (Except.ok.inj h)
      exact ⟨hleft, le_rfl⟩

lemma yields_chain {P : α → Prop} (hinner : Yields P inner)
    (hcombine : ∀ op m left right, m.Valid op → P left → P right → P (combine op m left right)) (least : Nat) :
    Yields P (chain inner combine least) :=
  hinner.bind fun _ hfirst => yields_get.bind fun _ _ => yields_extend hinner hcombine _ least hfirst

/-- All operators behind an operand that are at least as strong as `least`. -/
def takeOperators (inner : Scanner α) (combine : Operator → Modifiers → α → α → α) (least : Nat) (left : α) :
    Scanner α := fun input =>
  extend inner combine (input.length + 1) least left input

lemma extend_eq_takeOperators (hinner : Yields (fun _ => True) inner) {bound : Nat} {input : List Char}
    (h : input.length < bound) (least : Nat) (left : α) :
    extend inner combine bound least left input = takeOperators inner combine least left input := by
  unfold takeOperators
  induction hlength : input.length using Nat.strong_induction_on generalizing bound input least left with
  | _ length ih =>
    obtain ⟨bound, rfl⟩ : ∃ k, bound = k + 1 := ⟨bound - 1, by omega⟩
    rcases next?_cases least input with ⟨op, behind, hscan, hle⟩ | hstop
    · rw [extend_of_scan hscan hle, extend_of_scan hscan hle]
      cases hclauses : modifiers op (dropBlanks false behind) with
      | error failure => rw [bind_of_error hclauses, bind_of_error hclauses]
      | ok result =>
        obtain ⟨clauses, tail⟩ := result
        rw [bind_of_ok hclauses, bind_of_ok hclauses]
        have hstart := length_dropBlanks_le false input
        have hbehind := length_scan_lt hscan
        have htail := length_modifiers_le hclauses
        -- Both bounds exceed what is left behind the operator.
        have hboth (least' : Nat) (left' : α) (text : List Char) (htext : text.length ≤ behind.length) :
            extend inner combine bound least' left' text = extend inner combine length least' left' text :=
          (ih text.length (by omega) (by omega) least' left' rfl).trans
            (ih text.length (by omega) (by omega) least' left' rfl).symm
        have hright : rightOperand (inner >>= extend inner combine bound op.rightPrecedence) tail =
            rightOperand (inner >>= extend inner combine length op.rightPrecedence) tail := by
          refine rightOperand_congr ?_
          cases hfirst : inner tail with
          | error failure => rw [bind_of_error hfirst, bind_of_error hfirst]
          | ok result =>
            obtain ⟨first, middle⟩ := result
            have hmiddle := (hinner hfirst).2
            rw [bind_of_ok hfirst, bind_of_ok hfirst]
            exact hboth _ _ _ (by omega)
        cases hvalue : rightOperand (inner >>= extend inner combine length op.rightPrecedence) tail with
        | error failure => rw [bind_of_error (hright.trans hvalue), bind_of_error hvalue]
        | ok result =>
          obtain ⟨right, after⟩ := result
          have hextend : Yields (fun _ => True) (inner >>= extend inner combine length op.rightPrecedence) :=
            hinner.bind fun _ _ => yields_extend hinner (fun _ _ _ _ _ _ _ => trivial) _ _ trivial
          have hafter := hextend (rightOperand_eq_ok_iff.1 hvalue)
          rw [bind_of_ok (hright.trans hvalue), bind_of_ok hvalue]
          exact hboth _ _ _ (by omega)
    · rw [extend_of_stops hstop, extend_of_stops hstop]

lemma yields_takeOperators (hinner : Yields (fun _ => True) inner) (least : Nat) (left : α) :
    Yields (fun _ => True) (takeOperators inner combine least left) :=
  fun _ _ _ h => yields_extend hinner (fun _ _ _ _ _ _ _ => trivial) _ least trivial h

/-- One operator is taken with its clauses and its right operand, which takes the stronger ones. -/
lemma takeOperators_of_scan (hinner : Yields (fun _ => True) inner) {least : Nat} {left right : α}
    {input behind tail rest : List Char} {op : Operator} {m : Modifiers}
    (hscan : scan (dropBlanks false input) = .ok (op, behind)) (hle : least ≤ op.precedence)
    (hclauses : modifiers op (dropBlanks false behind) = .ok (m, tail))
    (hright : (inner >>= takeOperators inner combine op.rightPrecedence) tail = .ok (right, rest)) :
    takeOperators inner combine least left input =
      takeOperators inner combine least (combine op m left right) rest := by
  have hstart := length_dropBlanks_le false input
  have hbehind := length_scan_lt hscan
  have htail := length_modifiers_le hclauses
  obtain ⟨first, middle, hfirst, hmore⟩ := bind_eq_ok_iff.1 hright
  have hmiddle := (hinner hfirst).2
  have hrest := (yields_takeOperators hinner _ first hmore).2
  have hvalue : rightOperand (inner >>= extend inner combine input.length op.rightPrecedence) tail =
      .ok (right, rest) := by
    rw [rightOperand_eq_ok_iff, bind_of_ok hfirst, extend_eq_takeOperators hinner (by omega), hmore]
  rw [takeOperators, extend_of_scan hscan hle, bind_of_ok hclauses, bind_of_ok hvalue]
  exact extend_eq_takeOperators hinner (by omega) _ _

lemma takeOperators_of_stops {least : Nat} {left : α} {input : List Char} (h : Stops least input) :
    takeOperators inner combine least left input = .ok (left, input) :=
  extend_of_stops h

lemma chain_eq_takeOperators (least : Nat) :
    chain inner combine least = inner >>= takeOperators inner combine least :=
  rfl

end Chain

section Written

variable {α : Type} {inner : Scanner α} {combine : Operator → Modifiers → α → α → α}
  {list : List String → List Char}

/-- A written operator is taken with its clauses and its right operand. -/
lemma takeOperators_written (hinner : Yields (fun _ => True) inner) (hlist : ReadsLabels list) {least : Nat}
    {left right : α} {op : Operator} {m : Modifiers} {tail rest : List Char} (hle : least ≤ op.precedence)
    (hvalid : m.Valid op) (hsolid : Solid tail) (hclear : m.Clear tail)
    (hright : (inner >>= takeOperators inner combine op.rightPrecedence) tail = .ok (right, rest)) :
    takeOperators inner combine least left
        (' ' :: (op.symbol.toList ++ (m.written list ++ ' ' :: tail))) =
      takeOperators inner combine least (combine op m left right) rest := by
  obtain ⟨text, htext⟩ := m.written_append_cons list tail
  have hscan : scan (dropBlanks false (' ' :: (op.symbol.toList ++ ' ' :: text))) = .ok (op, ' ' :: text) := by
    rw [dropBlanks_space, op.symbol_solid, scan_symbol]
  have hclauses : modifiers op (dropBlanks false (' ' :: text)) = .ok (m, tail) :=
    htext ▸ modifiers_written hlist hvalid hsolid hclear
  rw [htext]
  exact takeOperators_of_scan hinner hscan hle hclauses hright

end Written

end QueryScope.Operator
