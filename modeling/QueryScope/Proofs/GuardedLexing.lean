import QueryScope.Proofs.AlertTemplates
import QueryScope.Proofs.GuardedLiterals
import QueryScope.Proofs.TemplateSlices

/-!
# Lexing with counters

The lexer counts lines and open parentheses, and it counts back: the line where it puts a character back, and the
parentheses where one is closed. Neither count falls below zero. What the lexer gives is then what a check relies on:
the last item is the end or a mistake, the lines do not decrease, and quoted items begin and end with their quotes.
-/

namespace QueryScope.Template

/-! ## Counters of the lexer -/

/-- The line behind a character. -/
def lineBehind (line : Nat) (c : Char) : Nat :=
  if c = '\n' then line + 1 else line

/-- The line before a character that is put back. -/
def lineBefore (line : Nat) (c : Char) : Except Breach Nat :=
  if c = '\n' then if line = 0 then .error .line else .ok (line - 1) else .ok line

/-- An item of this kind is found by its first character, which is put back before the item is read. -/
def isReread : Kind → Bool
  | .space | .number | .identifier | .bool | .nil | .keyword _ => true
  | _ => false

/-- The line behind blanks. The last of them is put back where it belongs to the end of the action. -/
def lineBehindSpaces (line : Nat) (text : List Char) : Except Breach Nat :=
  let run := text.takeWhile isSpace
  let behind := line + lineEnds run
  if Text.startsWith "-\x7d\x7d" (text.dropWhile isSpace) then
    match run.getLast? with
    | some last => lineBefore behind last
    | none => .ok behind
  else .ok behind

/-- The line behind an item of so many characters more than its first one. -/
def lineBehindItem (kind : Kind) (line : Nat) (c : Char) (rest : List Char) (more : Nat) : Except Breach Nat :=
  (if isReread kind then lineBefore (lineBehind line c) c else pure line) >>= fun start =>
    if kind = .space then lineBehindSpaces start (c :: rest)
    else pure (start + lineEnds (c :: rest.take more))

/-- The number of open parentheses behind an item. -/
def parensBehind (kind : Kind) (depth : Nat) : Except Breach Nat :=
  match kind with
  | .leftParen => .ok (depth + 1)
  | .rightParen => if depth = 0 then .error .parens else .ok (depth - 1)
  | _ => .ok depth

/-- The items from a place on. The first `skip` characters belong to what came before, which has counted their
lines. -/
def guardedFrom : (mode : Mode) → (skip line : Nat) → List Char → Except Breach (List Item)
  | .text, _, line, [] => .ok [⟨.eof, [], line⟩]
  | .action _, _, line, [] => .ok [⟨.mistake, "unclosed action".toList, line⟩]
  | mode, skip + 1, line, _ :: rest => guardedFrom mode skip line rest
  | .text, 0, line, c :: rest =>
    if Text.startsWith "\x7b\x7b" (c :: rest) then
      match openingOf (rest.drop 1) with
      | .action trim => do
        let items ← guardedFrom (.action 0) (trim + 1) (line + lineEnds ((c :: rest).take (trim + 2))) rest
        return ⟨.opening, ['\x7b', '\x7b'], line⟩ :: items
      | .comment length => guardedFrom .text (length + 1) (line + lineEnds ((c :: rest).take (length + 2))) rest
      | .mistake message lines => .ok [⟨.mistake, message.toList, line + lines⟩]
    else do
      let text := plainText (c :: rest)
      let items ← guardedFrom .text (text.length - 1) (line + lineEnds ((c :: rest).take (text.length - 1 + 1))) rest
      return ⟨.text, text, line⟩ :: items
  | .action depth, 0, line, c :: rest =>
    match actionEnd? (c :: rest) with
    | some width =>
      if depth = 0 then do
        let items ← guardedFrom .text (width + 1) (line + lineEnds ((c :: rest).take (width + 2))) rest
        return ⟨.closing, ['\x7d', '\x7d'], line + lineEnds ((c :: rest).take width)⟩ :: items
      else .ok [⟨.mistake, "unclosed left paren".toList, line⟩]
    | none =>
      match lexeme depth c rest with
      | .item kind more => do
        let behind ← lineBehindItem kind line c rest more
        let depth ← parensBehind kind depth
        let items ← guardedFrom (.action depth) more behind rest
        return ⟨kind, c :: rest.take more, line⟩ :: items
      | .mistake message => .ok [⟨.mistake, message.toList, line⟩]

section Counters

variable {depth line more : Nat} {c : Char} {rest text : List Char} {kind : Kind}

/-- The line does not change where a character is read and put back. -/
lemma lineBefore_lineBehind (line : Nat) (c : Char) : lineBefore (lineBehind line c) c = .ok line := by
  by_cases hc : c = '\n'
  · simp [lineBefore, lineBehind, hc]
  · simp [lineBefore, lineBehind, hc]

lemma lineBefore_concat (line : Nat) (lead : List Char) (c : Char) :
    lineBefore (line + lineEnds (lead ++ [c])) c = .ok (line + lineEnds lead) := by
  have hline : line + lineEnds (lead ++ [c]) = lineBehind (line + lineEnds lead) c := by
    rw [lineEnds_append, ← Nat.add_assoc, ← next_add_lineEnds]
    rfl
  rw [hline, lineBefore_lineBehind]

/-- A blank before the trimmed end of an action belongs to that end, so there are more before it. -/
lemma two_le_of_trimmed (hend : actionEnd? (c :: rest) = none) (hspace : isSpace c = true)
    (htrimmed : Text.startsWith "-\x7d\x7d" ((c :: rest).dropWhile isSpace) = true) :
    2 ≤ ((c :: rest).takeWhile isSpace).length := by
  rw [List.dropWhile_cons_of_pos hspace] at htrimmed
  rw [List.takeWhile_cons_of_pos hspace, List.length_cons]
  by_contra hshort
  have hnone : rest.takeWhile isSpace = [] := List.length_eq_zero_iff.1 (by omega)
  have hrest : rest.dropWhile isSpace = rest := by
    have h := List.takeWhile_append_dropWhile (p := isSpace) (l := rest)
    rwa [hnone, List.nil_append] at h
  rw [hrest] at htrimmed
  obtain ⟨behind, rfl⟩ := startsWith_iff.1 htrimmed
  have hbraces : Text.startsWith "\x7d\x7d" ('\x7d' :: '\x7d' :: behind) = true := startsWith_iff.2 ⟨behind, rfl⟩
  simp [actionEnd?, hspace, hbraces] at hend

lemma take_length_takeWhile {count : Nat} (h : count ≤ (text.takeWhile isSpace).length) :
    text.take count = (text.takeWhile isSpace).take count := by
  conv_lhs => rw [← List.takeWhile_append_dropWhile (p := isSpace) (l := text)]
  exact List.take_append_of_le_length h

lemma lineBehindSpaces_eq (hend : actionEnd? (c :: rest) = none) (hspace : isSpace c = true)
    (hlexeme : spaceLexeme (c :: rest) = .item .space more) :
    lineBehindSpaces line (c :: rest) = .ok (line + lineEnds (c :: rest.take more)) := by
  have hne : 0 < ((c :: rest).takeWhile isSpace).length := by simp [List.takeWhile_cons_of_pos hspace]
  simp only [spaceLexeme, Lexeme.item.injEq, true_and] at hlexeme
  rw [← List.take_succ_cons]
  unfold lineBehindSpaces
  split_ifs at hlexeme ⊢ with htrimmed
  · have hlong := two_le_of_trimmed hend hspace htrimmed
    obtain ⟨lead, last, hrun⟩ := (List.eq_nil_or_concat' ((c :: rest).takeWhile isSpace)).resolve_left
      (List.ne_nil_of_length_pos hne)
    have hcount : more + 1 = lead.length := by
      rw [hrun, List.length_append, List.length_singleton] at hlexeme hlong
      omega
    rw [take_length_takeWhile (by rw [hrun, List.length_append]; omega), hrun, hcount, List.take_left]
    simp only [List.getLast?_concat]
    exact lineBefore_concat line lead last
  · have hcount : more + 1 = ((c :: rest).takeWhile isSpace).length := by omega
    rw [take_length_takeWhile hcount.le, hcount, List.take_length]

lemma isSpace_of_lexeme (h : lexeme depth c rest = .item .space more) : isSpace c = true := by
  generalize hkind : Kind.space = kind at h
  cases inner_of_lexeme h with
  | space hspace => exact hspace
  | word =>
    unfold wordKind at hkind
    split at hkind <;> simp at hkind
  | sign hsign => simp [← hkind] at hsign
  | quoted hquoted => simp [← hkind] at hquoted
  | name hname => simp [← hkind] at hname
  | _ => simp at hkind

lemma lineBehindItem_eq (hend : actionEnd? (c :: rest) = none) (hlexeme : lexeme depth c rest = .item kind more) :
    lineBehindItem kind line c rest more = .ok (line + lineEnds (c :: rest.take more)) := by
  have hstart : (if isReread kind then lineBefore (lineBehind line c) c else pure line) = .ok line := by
    rw [lineBefore_lineBehind]
    split_ifs <;> rfl
  have hwhole : (if kind = .space then lineBehindSpaces line (c :: rest)
      else pure (line + lineEnds (c :: rest.take more))) = .ok (line + lineEnds (c :: rest.take more)) := by
    split_ifs with hkind
    · subst hkind
      have hspace := isSpace_of_lexeme hlexeme
      rw [lexeme, if_pos hspace] at hlexeme
      exact lineBehindSpaces_eq hend hspace hlexeme
    · rfl
  rw [lineBehindItem, hstart]
  exact hwhole

lemma parensBehind_eq (hlexeme : lexeme depth c rest = .item kind more) :
    parensBehind kind depth = .ok (depthBehind kind depth) := by
  have hinner := inner_of_lexeme hlexeme
  cases hinner with
  | rightParen hdepth => simp [parensBehind, depthBehind, hdepth]
  | sign hkind => rcases hkind with rfl | rfl | rfl | rfl <;> rfl
  | quoted hkind => rcases hkind with ⟨-, rfl⟩ | ⟨-, rfl⟩ <;> rfl
  | name hkind => rcases hkind with rfl | rfl | rfl <;> rfl
  | word =>
    unfold wordKind
    split <;> rfl
  | _ => rfl

/-- The counters of the lexer never fall below zero. -/
lemma guardedFrom_eq (mode : Mode) (skip line : Nat) (text : List Char) :
    guardedFrom mode skip (line + lineEnds (text.take skip)) text = .ok (itemsFrom mode skip line text) := by
  have hstart (line : Nat) (text : List Char) : line + lineEnds (text.take 0) = line := rfl
  fun_induction itemsFrom mode skip line text with
  | case1 | case2 => simp [guardedFrom, lineEnds]
  | case3 mode skip line c rest ih =>
    rw [next_add_lineEnds] at ih
    simpa only [guardedFrom, List.take_succ_cons] using ih
  | case4 line c rest next hbraces trim hopening ih =>
    rw [next_add_lineEnds] at ih
    simp only [hstart, guardedFrom, if_pos hbraces, hopening, List.take_succ_cons] at ih ⊢
    rw [ih]
    rfl
  | case5 line c rest next hbraces length hopening ih =>
    rw [next_add_lineEnds] at ih
    simp only [hstart, guardedFrom, if_pos hbraces, hopening, List.take_succ_cons] at ih ⊢
    exact ih
  | case6 line c rest hbraces message lines hopening =>
    simp only [hstart, guardedFrom, if_pos hbraces, hopening]
  | case7 line c rest next hbraces text ih =>
    rw [next_add_lineEnds] at ih
    simp only [hstart, guardedFrom, if_neg hbraces, List.take_succ_cons] at ih ⊢
    rw [ih]
    rfl
  | case8 line c rest next width hwidth ih =>
    rw [next_add_lineEnds] at ih
    simp only [hstart, guardedFrom, hwidth, if_true, List.take_succ_cons] at ih ⊢
    rw [ih]
    rfl
  | case9 depth line c rest width hwidth hdepth =>
    simp only [hstart, guardedFrom, hwidth, if_neg hdepth]
  | case10 depth line c rest next hend kind more hlexeme ih =>
    rw [next_add_lineEnds] at ih
    simp only [hstart, guardedFrom, hend, hlexeme, lineBehindItem_eq hend hlexeme, parensBehind_eq hlexeme]
    change (guardedFrom _ _ _ _ >>= _) = _
    rw [ih]
    rfl
  | case11 depth line c rest hend message hlexeme =>
    simp only [hstart, guardedFrom, hend, hlexeme]

end Counters

/-! ## What the lexer gives -/

section Items

variable {mode : Mode} {skip line : Nat} {text : List Char} {item : Item}

/-- There are no more items than characters, apart from the last one. -/
lemma length_itemsFrom_le : (itemsFrom mode skip line text).length ≤ text.length + 1 := by
  fun_induction itemsFrom mode skip line text <;> grind

/-- The lines of the items do not decrease. -/
lemma lines_itemsFrom : (itemsFrom mode skip line text).Pairwise (·.line ≤ ·.line) := by
  have hline (mode : Mode) (skip line : Nat) (c : Char) (rest : List Char) :
      ∀ item ∈ itemsFrom mode skip (if c = '\n' then line + 1 else line) rest, line ≤ item.line := by
    intro item hitem
    have hle := le_line_of_mem_itemsFrom _ _ _ _ item hitem
    split_ifs at hle <;> omega
  fun_induction itemsFrom mode skip line text with
  | case1 | case2 | case6 | case9 | case11 => exact List.pairwise_singleton _ _
  | case3 _ _ _ _ _ ih | case5 _ _ _ _ _ _ _ ih => exact ih
  | case4 _ _ _ _ _ _ _ ih | case7 _ _ _ _ _ _ ih | case10 _ _ _ _ _ _ _ _ _ ih =>
    exact List.pairwise_cons.2 ⟨hline _ _ _ _ _, ih⟩
  | case8 line c rest next width _ ih =>
    -- The items behind the action begin behind its end, not only behind its first character.
    refine List.pairwise_cons.2 ⟨fun item hitem => ?_, ih⟩
    rw [itemsFrom_skip] at hitem
    have hle := le_line_of_mem_itemsFrom _ _ _ _ item hitem
    rw [next_add_lineEnds, ← List.take_succ_cons] at hle
    have hlead : (c :: rest).take width <+: (c :: rest).take (width + 1 + 1) := List.take_prefix_take_left (by omega)
    exact (Nat.add_le_add_left (hlead.sublist.count_le _) _).trans hle

lemma lex_eq_append (text : List Char) :
    ∃ inner last, lex text = inner ++ [last] ∧ (last.kind = .eof ∨ last.kind = .mistake) := by
  obtain ⟨slices, last, rest, hitems, -, -, hends⟩ := covers .text text [] none [] ⟨rfl, [], by simp, rfl⟩
  refine ⟨_, last, hitems, ?_⟩
  cases hends with
  | eof => exact .inl rfl
  | mistake => exact .inr rfl

/-- An item is a slice of the text, apart from a mistake, and its line is that of its first character. -/
lemma slice_of_mem_lex (h : item ∈ lex text) :
    ∃ lead rest, text = lead ++ rest ∧ item.line = 1 + lineEnds lead ∧ (item.kind ≠ .mistake → item.text <+: rest) := by
  obtain ⟨slices, last, rest, hitems, htext, hcuts, hends⟩ := covers .text text [] none [] ⟨rfl, [], by simp, rfl⟩
  rw [lex, show itemsFrom .text 0 1 text = slices.map Slice.item ++ [last] from hitems, List.mem_append,
    List.mem_singleton, List.mem_map] at h
  rw [List.nil_append] at htext
  rcases h with ⟨slice, hslice, rfl⟩ | rfl
  · obtain ⟨passed, left, rfl⟩ := List.append_of_mem hslice
    refine ⟨charsOf passed ++ slice.gap, slice.item.text ++ (charsOf left ++ rest), ?_,
      by simpa using hcuts.line passed slice left rfl, fun _ => List.prefix_append _ _⟩
    rw [htext]
    simp [charsOf]
  · cases hends with
    | eof => exact ⟨charsOf slices ++ rest, [], by rw [htext, List.append_nil], rfl, fun _ => List.prefix_refl _⟩
    | mistake hgap =>
      obtain ⟨behind, rfl⟩ := hgap
      exact ⟨_, behind, by rw [htext, List.append_assoc]; rfl, rfl, fun hkind => absurd rfl hkind⟩

/-- Each item stands on a line of the text. -/
lemma line_of_mem_lex (h : item ∈ lex text) : 1 ≤ item.line ∧ item.line ≤ 1 + lineEnds text := by
  obtain ⟨lead, rest, rfl, hline, -⟩ := slice_of_mem_lex h
  rw [hline, lineEnds_append]
  omega

lemma length_text_le_of_mem_lex (h : item ∈ lex text) (hkind : item.kind ≠ .mistake) :
    item.text.length ≤ text.length := by
  obtain ⟨lead, rest, rfl, -, hbegins⟩ := slice_of_mem_lex h
  have hle := (hbegins hkind).length_le
  rw [List.length_append]
  omega

lemma afterQuote?_eq_some {quote : Char} {escaped : Bool} {behind : List Char}
    (h : afterQuote? quote escaped text = some behind) : ∃ body, text = body ++ [quote] ++ behind := by
  fun_induction afterQuote? quote escaped text with
  | case1 | case2 | case5 => cases h
  | case3 c rest _ ih | case7 c rest _ _ _ ih =>
    obtain ⟨body, rfl⟩ := ih h
    exact ⟨c :: body, rfl⟩
  | case4 rest ih =>
    obtain ⟨body, rfl⟩ := ih h
    exact ⟨'\\' :: body, rfl⟩
  | case6 => exact ⟨[], by simpa using h⟩

/-- The quote of a quoted item. -/
def IsQuote (quote : Char) (kind : Kind) : Prop :=
  quote = '"' ∧ kind = .string ∨ quote = '\'' ∧ kind = .charConstant

lemma Inner.quoted_inv {depth more : Nat} {quote c : Char} {rest : List Char} {kind : Kind}
    (hquote : IsQuote quote kind) (h : Inner depth c rest kind more) :
    c = quote ∧ ∃ behind, afterQuote? c false rest = some behind ∧ more = taken rest behind := by
  cases h with
  | quoted hc hafter =>
    refine ⟨?_, _, hafter, rfl⟩
    rcases hquote with ⟨rfl, rfl⟩ | ⟨rfl, rfl⟩ <;> simpa using hc
  | word =>
    unfold IsQuote wordKind at hquote
    split at hquote <;> simp at hquote
  | sign hsign => rcases hsign with rfl | rfl | rfl | rfl <;> simp [IsQuote] at hquote
  | name hname => rcases hname with rfl | rfl | rfl <;> simp [IsQuote] at hquote
  | _ => simp [IsQuote] at hquote

/-- A quoted item begins and ends with its quotes. -/
lemma quotes_of_mem_lex {quote : Char} (h : item ∈ lex text) (hquote : IsQuote quote item.kind) :
    ∃ body, item.text = quote :: body ++ [quote] := by
  rcases exists_lexeme_of_mem h with houter | ⟨depth, c, rest, more, hlexeme, htext⟩
  · rcases hquote with ⟨-, hkind⟩ | ⟨-, hkind⟩ <;> simp [hkind] at houter
  · obtain ⟨rfl, behind, hafter, rfl⟩ := (inner_of_lexeme hlexeme).quoted_inv hquote
    obtain ⟨body, rfl⟩ := afterQuote?_eq_some hafter
    have htaken : taken (body ++ [c] ++ behind) behind = (body ++ [c]).length := by
      rw [taken, List.length_append, Nat.add_sub_cancel]
    refine ⟨body, ?_⟩
    rw [htext, htaken, List.take_left]
    rfl

end Items

end QueryScope.Template
