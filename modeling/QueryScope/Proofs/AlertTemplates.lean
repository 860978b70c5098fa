import QueryScope.Proofs.TemplateRuns

/-!
# Templates of alerts

A template of an alert is checked behind three actions, each of which declares a variable. The lexer has closed
them where the template starts, and each of them is one round of the check that ends outside of all structures. So
the check of the template is the check of its text alone, with the variables there from the start.
-/

namespace QueryScope.Template

/-! ## The bound and the first line -/

section Bounds

variable {name : String} {s : State}

/-- A bound that is more than the number of items does not matter to a check. -/
lemma checkRest_eq_of_weight_lt {bound bound' : Nat} (hbound : weight s.items < bound)
    (hbound' : weight s.items < bound') (horder : InOrder s.items) :
    checkRest bound name s = checkRest bound' name s := by
  induction bound generalizing s bound' with
  | zero => omega
  | succ bound ih =>
    obtain ⟨bound', rfl⟩ := Nat.exists_eq_succ_of_ne_zero (Nat.ne_zero_of_lt hbound')
    rw [checkRest_succ, Nat.succ_eq_add_one, checkRest_succ]
    apply bind_congr_of_ok
    intro goesOn m hround
    cases goesOn with
    | false => rfl
    | true =>
      obtain ⟨mark, vars, hleads, -⟩ := round_eq_ok hround horder
      have hless := hleads.weight_lt
      apply ih
      · omega
      · omega
      · exact hleads.order horder

/-- No item stands before the line where the lexer began. -/
lemma le_line_of_mem_itemsFrom (mode : Mode) (skip line : Nat) (text : List Char) :
    ∀ item ∈ itemsFrom mode skip line text, line ≤ item.line := by
  fun_induction itemsFrom mode skip line text <;> grind

end Bounds

/-- A check on the first line, outside of all structures. -/
def outside (actionLine : Nat) (vars : List String) (items : List Item) : State :=
  ⟨items, 1, vars, 0, actionLine, []⟩

/-- A check begins with a look at the first item, so it does not matter that its line is not reached yet. -/
lemma round_outside (name : String) (vars : List String) {items : List Item}
    (hlines : ∀ item ∈ items, 1 ≤ item.line) : round name (outside 0 vars items) = round name (start vars items) := by
  cases items with
  | nil => rfl
  | cons item items =>
    have hline : 1 ≤ item.line := hlines item List.mem_cons_self
    have hpeek : peek name (outside 0 vars (item :: items)) = .ok (item, start vars (item :: items)) := by
      change Except.ok (item, State.mk (item :: items) (max 1 item.line) vars 0 0 []) = _
      rw [max_eq_right hline]
      rfl
    have hagain : peek name (start vars (item :: items)) = .ok (item, start vars (item :: items)) := by
      change Except.ok (item, State.mk (item :: items) (max item.line item.line) vars 0 0 []) = _
      rw [max_self]
      rfl
    unfold round
    refine (bind_of_ok (get_eq_ok_iff.2 ⟨rfl, rfl⟩) _).trans ((bind_of_ok hpeek _).trans ?_)
    exact ((bind_of_ok (get_eq_ok_iff.2 ⟨rfl, rfl⟩) _).trans (bind_of_ok hagain _)).symm

lemma checkRest_outside (bound : Nat) (name : String) (vars : List String) {items : List Item}
    (hlines : ∀ item ∈ items, 1 ≤ item.line) :
    checkRest (bound + 1) name (outside 0 vars items) = checkRest (bound + 1) name (start vars items) := by
  rw [checkRest_succ]
  change (round name (outside 0 vars items) >>= _) = _
  rw [round_outside name vars hlines]
  rfl

/-! ## One declaration -/

/-- The items of an action that declares a variable to be a field. -/
def declaration (var field : String) : List Item :=
  [⟨.opening, ['\x7b', '\x7b'], 1⟩, ⟨.var, var.toList, 1⟩, ⟨.space, [' '], 1⟩, ⟨.declare, [':', '='], 1⟩,
    ⟨.space, [' '], 1⟩, ⟨.field, field.toList, 1⟩, ⟨.closing, ['\x7d', '\x7d'], 1⟩]

section Declaration

variable {name : String} (var field : String) {vars : List String} {line : Nat} {rest : List Item} {inner : Check Unit}

lemma marks_declaration : marks (declaration var field ++ rest) = marks rest := by
  simp [declaration, marks, mark?, keyword?, afterSpaces]

lemma declarations_declaration :
    declarations "command" 2 name (outside line vars ((declaration var field).tail ++ rest)) =
      .ok ((), outside line (var :: vars) ((declaration var field).drop 4 ++ rest)) := by
  have h : declarations "command" 2 name (outside line vars ((declaration var field).tail ++ rest)) =
      .ok ((), outside line (String.ofList var.toList :: vars) ((declaration var field).drop 4 ++ rest)) := rfl
  rw [h, String.ofList_toList]

lemma operand_declaration :
    operand inner name (outside line vars ((declaration var field).drop 5 ++ rest)) =
      .ok (some .field, outside line vars ((declaration var field).drop 6 ++ rest)) :=
  rfl

lemma command_declaration (bound : Nat) :
    command inner (bound + 1) none name (outside line vars ((declaration var field).drop 5 ++ rest)) =
      .ok (.field, outside line vars ((declaration var field).drop 6 ++ rest)) := by
  unfold command
  refine (bind_of_ok (a := ()) rfl _).trans ?_
  refine (bind_of_ok (operand_declaration var field) _).trans ?_
  rfl

lemma commands_declaration (bound : Nat) :
    commands inner "command" .closing (bound + 2) name (outside line vars ((declaration var field).drop 4 ++ rest)) =
      .ok ([.field], outside line vars rest) := by
  unfold commands
  refine (bind_of_ok (m := outside line vars ((declaration var field).drop 6 ++ rest)) rfl _).trans ?_
  refine (bind_of_ok (m := outside line vars ((declaration var field).drop 5 ++ rest)) rfl _).trans ?_
  refine (bind_of_ok (get_eq_ok_iff.2 ⟨rfl, rfl⟩) _).trans ?_
  refine (bind_of_ok (command_declaration var field _) _).trans ?_
  rfl

lemma pipeline_declaration :
    pipeline "command" name (outside line vars ((declaration var field).tail ++ rest)) =
      .ok ((), outside line (var :: vars) rest) := by
  unfold pipeline
  refine (bind_of_ok (get_eq_ok_iff.2 ⟨rfl, rfl⟩) _).trans ?_
  refine (bind_of_ok (declarations_declaration var field) _).trans ?_
  refine (bind_of_ok (get_eq_ok_iff.2 ⟨rfl, rfl⟩) _).trans ?_
  refine (bind_of_ok (commands_declaration var field _) _).trans ?_
  rfl

lemma action_declaration :
    action name (outside line vars ((declaration var field).tail ++ rest)) =
      .ok (.stays, outside line (var :: vars) rest) := by
  unfold action
  refine (bind_of_ok (a := ⟨.var, var.toList, 1⟩)
    (m := outside line vars ((declaration var field).drop 2 ++ rest)) rfl _).trans ?_
  refine (bind_of_ok (m := outside line vars ((declaration var field).tail ++ rest)) rfl _).trans ?_
  exact bind_of_ok (pipeline_declaration var field) _

lemma textOrAction_declaration :
    textOrAction name (outside 0 vars (declaration var field ++ rest)) = .ok ((), outside 0 (var :: vars) rest) := by
  unfold textOrAction
  refine (bind_of_ok (a := ⟨.opening, ['\x7b', '\x7b'], 1⟩)
    (m := outside 0 vars ((declaration var field).tail ++ rest)) rfl _).trans ?_
  refine (bind_of_ok (m := outside 1 vars ((declaration var field).tail ++ rest)) rfl _).trans ?_
  refine (bind_of_ok (get_eq_ok_iff.2 ⟨rfl, rfl⟩) _).trans ?_
  refine (bind_of_ok (action_declaration var field) _).trans ?_
  rfl

/-- The action is one round of a check, in which the variable is declared. -/
lemma round_declaration :
    round name (outside 0 vars (declaration var field ++ rest)) = .ok (true, outside 0 (var :: vars) rest) := by
  unfold round
  refine (bind_of_ok (get_eq_ok_iff.2 ⟨rfl, rfl⟩) _).trans ?_
  refine (bind_of_ok (a := ⟨.opening, ['\x7b', '\x7b'], 1⟩)
    (m := outside 0 vars (declaration var field ++ rest)) rfl _).trans ?_
  refine (bind_of_ok (a := false) (m := outside 0 vars (declaration var field ++ rest)) rfl _).trans ?_
  exact bind_of_ok (textOrAction_declaration var field) _

lemma checkRest_declaration (bound : Nat) :
    checkRest (bound + 1) name (outside 0 vars (declaration var field ++ rest)) =
      checkRest bound name (outside 0 (var :: vars) rest) := by
  rw [checkRest_succ]
  exact bind_of_ok (round_declaration var field) _

end Declaration

/-! ## Alerts -/

/-- The variables that the templates of an alert may use, the last one first. -/
def alertVars : List String :=
  ["$value", "$externalLabels", "$labels", "$"]

set_option maxRecDepth 2000 in
lemma lex_alertDeclarations (text : List Char) :
    lex (alertDeclarations.toList ++ text) = declaration "$labels" ".Labels" ++
      (declaration "$externalLabels" ".ExternalLabels" ++ (declaration "$value" ".Value" ++ lex text)) := by
  rfl

lemma checkRest_alert (bound : Nat) (name : String) (text : List Char) :
    checkRest (bound + 3) name (start ["$"] (lex (alertDeclarations.toList ++ text))) =
      checkRest bound name (outside 0 alertVars (lex text)) := by
  rw [lex_alertDeclarations]
  exact (checkRest_declaration _ _ _).trans ((checkRest_declaration _ _ _).trans (checkRest_declaration _ _ _))

/-- The declarations in front of a template of an alert change neither the items of the template nor its structure,
and the check finds what it finds in the template alone with the variables there from the start: the same mistake
on the same line, or none. -/
theorem alert_declarations_are_variables (alert text : String) :
    lex (alertDeclarations ++ text).toList = (lex alertDeclarations.toList).dropLast ++ lex text.toList ∧
      marks (lex (alertDeclarations ++ text).toList) = marks (lex text.toList) ∧
      checkAlert alert text = checkItems ("__alert_" ++ alert) alertVars (lex text.toList) := by
  rw [String.toList_append]
  refine ⟨?_, ?_, ?_⟩
  · have hempty := lex_alertDeclarations []
    rw [List.append_nil] at hempty
    rw [lex_alertDeclarations, hempty]
    rfl
  · rw [lex_alertDeclarations, marks_declaration, marks_declaration, marks_declaration]
  · -- The declarations are three of the rounds, and the bound is high enough for those that follow.
    obtain ⟨bound, hbound⟩ : ∃ bound, (lex (alertDeclarations.toList ++ text.toList)).length + 1 = bound + 1 + 3 ∧
        (lex text.toList).length ≤ bound := by
      refine ⟨(lex text.toList).length + 18, ?_, by omega⟩
      rw [lex_alertDeclarations]
      simp only [declaration, List.length_append, List.length_cons, List.length_nil]
      omega
    have hweight : weight (lex text.toList) ≤ (lex text.toList).length := List.countP_le_length
    have hlines : ∀ item ∈ lex text.toList, 1 ≤ item.line := le_line_of_mem_itemsFrom .text 0 1 text.toList
    change checkItems _ ["$"] (lex (alertDeclarations ++ text).toList) = _
    rw [String.toList_append, checkItems_eq, checkItems_eq, hbound.1, checkRest_alert,
      checkRest_outside _ _ _ hlines]
    congr 1
    apply checkRest_eq_of_weight_lt
    · change weight (lex text.toList) < bound + 1
      omega
    · change weight (lex text.toList) < _
      omega
    · exact inOrder_lex text.toList

end QueryScope.Template
