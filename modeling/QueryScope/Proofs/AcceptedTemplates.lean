import QueryScope.Proofs.ScanSteps
import QueryScope.Proofs.TemplateRuns

/-!
# Accepted templates are well nested

Each text, action or definition that a check goes past does what its mark says to the open structures, and the
check ends outside of all of them. So the marks of a template that passes the check follow the grammar.
-/

namespace QueryScope.Template

/-- The marks of a check that ends well complete the structures with which it began. -/
lemma Run.completes {s : State} (h : Run s) (hcounted : Counted s.frames s.loops) : Completes s.frames (marks s.items) := by
  induction h with
  | done hframes hend =>
    rw [hframes, hend.marks]
    exact Nested.body (.nil false)
  | step hleads hturns _ ih =>
    rw [hleads.marks]
    exact hturns.completes hcounted (ih (hturns.counted hcounted))

lemma nested_of_checkItems {name : String} {vars : List String} {items : List Item}
    (h : checkItems name vars items = .ok ()) (horder : InOrder items) : Nested (marks items) :=
  (run_of_checkItems h horder).completes rfl

/-- The keywords at the start of the actions of an accepted template are properly nested. -/
theorem accepted_templates_are_nested (name text : String) (h : check name text = .ok ()) :
    Nested (marks (lex text.toList)) :=
  nested_of_checkItems h (inOrder_lex text.toList)

/-- A definition, and a loop with a chain of conditions, both ways out, a block and a second body. -/
def nestedSample : String :=
  "\x7b\x7bdefine \"row\"\x7d\x7d\x7b\x7bif .A\x7d\x7da\x7b\x7bend\x7d\x7d\x7b\x7bend\x7d\x7d" ++
    "\x7b\x7brange .L\x7d\x7d\x7b\x7bif .A\x7d\x7d\x7b\x7bbreak\x7d\x7d\x7b\x7belse if .B\x7d\x7db\x7b\x7belse\x7d\x7d\x7b\x7bcontinue\x7d\x7d\x7b\x7bend\x7d\x7d" ++
    "\x7b\x7bblock \"cell\" .\x7d\x7d\x7b\x7bwith .C\x7d\x7dc\x7b\x7belse with .D\x7d\x7dd\x7b\x7bend\x7d\x7d\x7b\x7bend\x7d\x7d\x7b\x7belse\x7d\x7de\x7b\x7bend\x7d\x7d"

theorem accepted_templates_are_nested_sample :
    check "page" nestedSample = .ok () ∧
      marks (lex nestedSample.toList) = [.named .define, .control .ifBranch, .closes, .closes, .control .rangeLoop,
        .control .ifBranch, .jump false, .elseControl .ifBranch, .plainElse, .jump true, .closes, .named .block,
        .control .withScope, .elseControl .withScope, .closes, .closes, .plainElse, .closes] ∧
      Nested (marks (lex nestedSample.toList)) := by
  have hcheck : (check "page" nestedSample).toOption.any (fun _ => true) = true := by decide +kernel
  obtain ⟨⟨⟩, hok, -⟩ := exists_ok_of_any hcheck
  exact ⟨hok, by decide +kernel, accepted_templates_are_nested "page" nestedSample hok⟩

end QueryScope.Template
