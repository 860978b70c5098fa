import QueryScope.Template.Lexer
import Mathlib.Tactic

/-!
# The order of the items of a template

Nothing follows the end of a template, and behind an action comes text, another action or the end.
-/

namespace QueryScope.Template

/-- An item may stand right before another one: it is not the end, and a keyword does not stand right behind
an action. -/
def Follows (item next : Item) : Prop :=
  item.kind ≠ .eof ∧ (item.kind = .closing → ∀ word, next.kind ≠ .keyword word)

/-- The items stand in an order that a template can give them. -/
def InOrder (items : List Item) : Prop :=
  items.IsChain Follows

/-- The start of the inside of an action is neither the end of the action nor of the template. -/
def Lexeme.IsInner : Lexeme → Prop
  | item kind _ => kind ≠ .eof ∧ kind ≠ .closing
  | mistake _ => True

lemma isInner_quotedLexeme (quote : Char) {kind : Kind} (hkind : kind ≠ .eof ∧ kind ≠ .closing)
    (complaint : String) (text : List Char) : (quotedLexeme quote kind complaint text).IsInner := by
  unfold quotedLexeme
  split
  · exact hkind
  · trivial

lemma isInner_rawLexeme (text : List Char) : (rawLexeme text).IsInner := by
  unfold rawLexeme
  split
  · simp [Lexeme.IsInner]
  · trivial

lemma isInner_wordLexeme {kind : List Char → Kind} (hkind : ∀ word, kind word ≠ .eof ∧ kind word ≠ .closing)
    (lead : Nat) (text : List Char) : (wordLexeme kind lead text).IsInner := by
  unfold wordLexeme
  dsimp only
  split_ifs
  · exact hkind _
  · trivial

lemma isInner_numberLexeme (text : List Char) : (numberLexeme text).IsInner := by
  unfold numberLexeme
  dsimp only
  split_ifs
  · simp [Lexeme.IsInner]
  · trivial

lemma wordKind_ne (word : List Char) : wordKind word ≠ .eof ∧ wordKind word ≠ .closing := by
  unfold wordKind
  split <;> simp

lemma Lexeme.IsInner.ite {c : Prop} [Decidable c] {first second : Lexeme} (hfirst : first.IsInner)
    (hsecond : second.IsInner) : (if c then first else second).IsInner := by
  split_ifs
  · exact hfirst
  · exact hsecond

lemma isInner_lexeme (depth : Nat) (c : Char) (rest : List Char) : (lexeme depth c rest).IsInner := by
  have hitem {kind : Kind} (more : Nat) (h : kind ≠ .eof ∧ kind ≠ .closing) :
      (Lexeme.item kind more).IsInner := h
  unfold lexeme
  refine .ite (hitem _ (by decide)) (.ite (hitem _ (by decide)) (.ite ?_ ?_))
  · exact .ite (hitem _ (by decide)) trivial
  refine .ite (hitem _ (by decide)) (.ite (isInner_quotedLexeme _ (by decide) _ _) ?_)
  refine .ite (isInner_rawLexeme _) (.ite (isInner_quotedLexeme _ (by decide) _ _) ?_)
  refine .ite (isInner_wordLexeme (fun _ => by decide) _ _) (.ite ?_ ?_)
  · refine .ite (isInner_numberLexeme _) (isInner_wordLexeme (fun word => ?_) _ _)
    split_ifs <;> decide
  refine .ite (isInner_numberLexeme _) (.ite (isInner_wordLexeme wordKind_ne _ _) ?_)
  refine .ite (hitem _ (by decide)) (.ite ?_ ?_)
  · exact .ite trivial (hitem _ (by decide))
  · exact .ite (hitem _ (by decide)) trivial

/-- Outside actions no keyword comes next. -/
def Mode.Starts (mode : Mode) (items : List Item) : Prop :=
  match mode with
  | text => ∀ item ∈ items.head?, ∀ word, item.kind ≠ .keyword word
  | action _ => True

lemma InOrder.cons {item : Item} {items : List Item} (h : InOrder items) (heof : item.kind ≠ .eof)
    (hclosing : item.kind ≠ .closing) : InOrder (item :: items) :=
  List.isChain_cons.2 ⟨fun _ _ => ⟨heof, fun hkind => absurd hkind hclosing⟩, h⟩

lemma inOrder_itemsFrom (mode : Mode) (skip line : Nat) (text : List Char) :
    InOrder (itemsFrom mode skip line text) ∧ mode.Starts (itemsFrom mode skip line text) := by
  have hlast (item : Item) : InOrder [item] := List.isChain_singleton item
  fun_induction itemsFrom mode skip line text with
  | case1 => exact ⟨hlast _, by simp [Mode.Starts]⟩
  | case2 => exact ⟨hlast _, trivial⟩
  | case3 mode skip line c rest ih => exact ih
  | case4 line c rest next _ trim _ ih => exact ⟨ih.1.cons (by simp) (by simp), by simp [Mode.Starts]⟩
  | case5 line c rest next _ length _ ih => exact ih
  | case6 => exact ⟨hlast _, by simp [Mode.Starts]⟩
  | case7 line c rest next _ text ih => exact ⟨ih.1.cons (by simp) (by simp), by simp [Mode.Starts]⟩
  | case8 line c rest next width _ ih =>
    -- Behind an action the lexer is outside again.
    exact ⟨List.isChain_cons.2 ⟨fun item hitem => ⟨by simp, fun _ => ih.2 item hitem⟩, ih.1⟩, trivial⟩
  | case9 => exact ⟨hlast _, trivial⟩
  | case10 depth line c rest next _ kind more hlexeme ih =>
    have hinner : (Lexeme.item kind more).IsInner := hlexeme ▸ isInner_lexeme depth c rest
    exact ⟨ih.1.cons hinner.1 hinner.2, trivial⟩
  | case11 => exact ⟨hlast _, trivial⟩

lemma inOrder_lex (text : List Char) : InOrder (lex text) :=
  (inOrder_itemsFrom .text 0 1 text).1

end QueryScope.Template
