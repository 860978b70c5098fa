import QueryScope.Proofs.TemplateItems

/-!
# Items as slices of a template

The items of a template are slices of its text, one behind the other, each with the line on which it begins. What no
item covers are comments outside of actions, and at the two ends of an action the marks that trim the text around it.
-/

namespace QueryScope.Template

/-! ## Parts of a text -/

lemma startsWith_iff {lead : String} {text : List Char} :
    Text.startsWith lead text = true ↔ ∃ rest, text = lead.toList ++ rest := by
  rw [Text.startsWith, Option.isSome_iff_exists]
  constructor
  · rintro ⟨rest, h⟩
    exact ⟨rest, Text.eq_append_of_after? h⟩
  · rintro ⟨rest, rfl⟩
    exact ⟨rest, Text.after?_append _ _⟩

lemma lineEnds_append (first second : List Char) : lineEnds (first ++ second) = lineEnds first + lineEnds second :=
  List.count_append

/-- The line behind a character, and the line ends from there on. -/
lemma next_add_lineEnds (c : Char) (line : Nat) (text : List Char) :
    (if c = '\n' then line + 1 else line) + lineEnds text = line + lineEnds (c :: text) := by
  by_cases hc : c = '\n'
  · simp only [hc, if_true, lineEnds, List.count_cons_self]
    omega
  · simp [hc, lineEnds]

/-- The first place of a mark: it does not begin anywhere before. -/
lemma splitAt?_eq_some {mark text inside behind : List Char} (h : Text.splitAt? mark text = some (inside, behind)) :
    text = inside ++ mark ++ behind ∧
      ∀ skipped rest, text = skipped ++ mark ++ rest → inside.length ≤ skipped.length := by
  induction text generalizing inside with
  | nil =>
    rw [Text.splitAt?] at h
    split_ifs at h with hmark
    obtain ⟨rfl, rfl⟩ : [] = inside ∧ [] = behind := by simpa using h
    exact ⟨by simpa using hmark, fun skipped rest _ => Nat.zero_le _⟩
  | cons c text ih =>
    rw [Text.splitAt?] at h
    split at h
    case h_1 found hfound =>
      obtain ⟨rfl, rfl⟩ : [] = inside ∧ found = behind := by simpa using h
      exact ⟨Text.eq_append_of_after? hfound, fun skipped rest _ => Nat.zero_le _⟩
    case h_2 hfound =>
      obtain ⟨⟨first, second⟩, hparts, hpair⟩ := Option.map_eq_some_iff.1 h
      obtain ⟨rfl, rfl⟩ : c :: first = inside ∧ second = behind := by simpa using hpair
      obtain ⟨hcut, hleast⟩ := ih hparts
      refine ⟨by simp [hcut], fun skipped rest hskipped => ?_⟩
      cases skipped with
      | nil =>
        rw [List.nil_append] at hskipped
        rw [hskipped, Text.after?_append] at hfound
        cases hfound
      | cons d skipped =>
        have hrest := hleast skipped rest (by simpa using (List.cons.inj hskipped).2)
        simpa using hrest

lemma plainText_append_drop (text : List Char) : plainText text ++ text.drop (plainText text).length = text := by
  induction text with
  | nil => rfl
  | cons c text ih =>
    rw [plainText]
    split_ifs
    · rfl
    · simpa using ih

/-- The lexer goes past the characters that belong to what came before. -/
lemma itemsFrom_skip (mode : Mode) (skip line : Nat) (text : List Char) :
    itemsFrom mode skip line text = itemsFrom mode 0 (line + lineEnds (text.take skip)) (text.drop skip) := by
  induction skip generalizing line text with
  | zero => simp [lineEnds]
  | succ skip ih =>
    cases text with
    | nil => cases mode <;> simp [itemsFrom, lineEnds]
    | cons c text =>
      rw [itemsFrom, ih, next_add_lineEnds]
      rfl

/-! ## One step of the lexer -/

section Steps

variable {line : Nat}

lemma startsWith_braces (inner : List Char) : Text.startsWith "\x7b\x7b" ('\x7b' :: '\x7b' :: inner) = true :=
  startsWith_iff.2 ⟨inner, rfl⟩

lemma itemsFrom_action {inner : List Char} {trim : Nat} (h : openingOf inner = .action trim) :
    itemsFrom .text 0 line ('\x7b' :: '\x7b' :: inner) = ⟨.opening, ['\x7b', '\x7b'], line⟩ ::
      itemsFrom (.action 0) 0 (line + lineEnds (inner.take trim)) (inner.drop trim) := by
  rw [itemsFrom, if_pos (startsWith_braces inner)]
  simp only [List.drop_succ_cons, List.drop_zero, h]
  rw [itemsFrom_skip]
  simp [lineEnds]

lemma itemsFrom_comment {inner : List Char} {length : Nat} (h : openingOf inner = .comment length) :
    itemsFrom .text 0 line ('\x7b' :: '\x7b' :: inner) =
      itemsFrom .text 0 (line + lineEnds (inner.take length)) (inner.drop length) := by
  rw [itemsFrom, if_pos (startsWith_braces inner)]
  simp only [List.drop_succ_cons, List.drop_zero, h]
  rw [itemsFrom_skip]
  simp [lineEnds]

lemma itemsFrom_openComment {inner : List Char} {message : String} {lines : Nat}
    (h : openingOf inner = .mistake message lines) :
    itemsFrom .text 0 line ('\x7b' :: '\x7b' :: inner) = [⟨.mistake, message.toList, line + lines⟩] := by
  rw [itemsFrom, if_pos (startsWith_braces inner)]
  simp only [List.drop_succ_cons, List.drop_zero, h]

lemma itemsFrom_plainText {text : List Char} (hne : text ≠ []) (h : Text.startsWith "\x7b\x7b" text = false) :
    itemsFrom .text 0 line text = ⟨.text, plainText text, line⟩ ::
      itemsFrom .text 0 (line + lineEnds (plainText text)) (text.drop (plainText text).length) := by
  obtain ⟨c, rest, rfl⟩ := List.exists_cons_of_ne_nil hne
  have hplain : plainText (c :: rest) = c :: plainText rest := by
    rw [plainText, if_neg (by simp [h])]
  have hdrop : rest.take (plainText rest).length = plainText rest :=
    (List.prefix_iff_eq_take.1 ⟨_, plainText_append_drop rest⟩).symm
  rw [itemsFrom, if_neg (by simp [h])]
  simp only [hplain, List.length_cons, Nat.add_sub_cancel, List.drop_succ_cons]
  rw [itemsFrom_skip, next_add_lineEnds, hdrop]

lemma itemsFrom_closing {text : List Char} {width : Nat} (h : actionEnd? text = some width) :
    itemsFrom (.action 0) 0 line text =
      ⟨.closing, ['\x7d', '\x7d'], line + lineEnds (text.take width)⟩ ::
        itemsFrom .text 0 (line + lineEnds (text.take (width + 2))) (text.drop (width + 2)) := by
  cases text with
  | nil => simp [actionEnd?, Text.startsWith, Text.after?] at h
  | cons c rest =>
    simp only [itemsFrom, h, if_true]
    rw [itemsFrom_skip, next_add_lineEnds]
    rfl

lemma itemsFrom_openParen {text : List Char} {depth width : Nat} (h : actionEnd? text = some width) :
    itemsFrom (.action (depth + 1)) 0 line text = [⟨.mistake, "unclosed left paren".toList, line⟩] := by
  cases text with
  | nil => simp [actionEnd?, Text.startsWith, Text.after?] at h
  | cons c rest => simp only [itemsFrom, h, Nat.add_one_ne_zero, if_false]

lemma itemsFrom_item {c : Char} {rest : List Char} {depth : Nat} {kind : Kind} {more : Nat}
    (hend : actionEnd? (c :: rest) = none) (h : lexeme depth c rest = .item kind more) :
    itemsFrom (.action depth) 0 line (c :: rest) = ⟨kind, c :: rest.take more, line⟩ ::
      itemsFrom (.action (depthBehind kind depth)) 0 (line + lineEnds (c :: rest.take more)) (rest.drop more) := by
  simp only [itemsFrom, hend, h]
  rw [itemsFrom_skip, next_add_lineEnds]

lemma itemsFrom_mistake {c : Char} {rest : List Char} {depth : Nat} {message : String}
    (hend : actionEnd? (c :: rest) = none) (h : lexeme depth c rest = .mistake message) :
    itemsFrom (.action depth) 0 line (c :: rest) = [⟨.mistake, message.toList, line⟩] := by
  simp only [itemsFrom, hend, h]

end Steps

/-! ## Items inside actions -/

/-- What an item inside an action is that begins with a character and takes `more` characters behind it. -/
inductive Inner (depth : Nat) (c : Char) (rest : List Char) : (kind : Kind) → (more : Nat) → Prop
  | space {more : Nat} (hspace : isSpace c = true) (hmore : more ≤ (rest.takeWhile isSpace).length) :
      Inner depth c rest .space more
  | sign {kind : Kind} (hkind : kind = .assign ∨ kind = .pipe ∨ kind = .leftParen ∨ kind = .char) :
      Inner depth c rest kind 0
  | declare {behind : List Char} (hrest : rest = '=' :: behind) : Inner depth c rest .declare 1
  | quoted {kind : Kind} {behind : List Char} (hkind : c = '"' ∧ kind = .string ∨ c = '\'' ∧ kind = .charConstant)
      (hquote : afterQuote? c false rest = some behind) : Inner depth c rest kind (taken rest behind)
  | raw {inside behind : List Char} (hrest : rest = inside ++ ['\x60'] ++ behind) :
      Inner depth c rest .rawString (inside.length + 1)
  | name {kind : Kind} (hkind : kind = .var ∨ kind = .dot ∨ kind = .field) :
      Inner depth c rest kind (rest.takeWhile isWordPart).length
  | number {behind : List Char} (hlead : c = '.' ∨ c = '+' ∨ c = '-' ∨ c.isDigit = true)
      (hnumber : afterComplex (c :: rest) = (behind, true)) : Inner depth c rest .number (taken (c :: rest) behind - 1)
  | word (hword : isWordPart c = true) :
      Inner depth c rest (wordKind (c :: rest.takeWhile isWordPart)) (rest.takeWhile isWordPart).length
  | rightParen (hdepth : depth ≠ 0) : Inner depth c rest .rightParen 0

/-- Behind an item of this kind, or in front of all items, the lexer is outside of actions. -/
def isOutside : Option Kind → Bool
  | none => true
  | some .text => true
  | some .closing => true
  | _ => false

/-- A lexeme is what its kind says, or a mistake. -/
def Lexeme.Fits (depth : Nat) (c : Char) (rest : List Char) : Lexeme → Prop
  | item kind more => Inner depth c rest kind more
  | mistake _ => True

section Inner

variable {depth : Nat} {c : Char} {rest : List Char}

lemma Lexeme.Fits.ite {condition : Prop} [Decidable condition] {first second : Lexeme}
    (hfirst : condition → first.Fits depth c rest) (hsecond : second.Fits depth c rest) :
    (if condition then first else second).Fits depth c rest := by
  split_ifs with h
  · exact hfirst h
  · exact hsecond

lemma fits_spaceLexeme (hspace : isSpace c = true) : (spaceLexeme (c :: rest)).Fits depth c rest := by
  simp only [spaceLexeme, List.takeWhile_cons_of_pos hspace, List.length_cons]
  refine Inner.space hspace ?_
  split_ifs <;> omega

lemma fits_numberLexeme (hlead : c = '.' ∨ c = '+' ∨ c = '-' ∨ c.isDigit = true) :
    (numberLexeme (c :: rest)).Fits depth c rest := by
  simp only [numberLexeme]
  split_ifs with hgood
  · exact Inner.number hlead (Prod.ext rfl hgood)
  · trivial

/-- A field or a variable behind its first character. -/
lemma fits_nameLexeme {kind : List Char → Kind}
    (hkind : ∀ word, kind word = .var ∨ kind word = .dot ∨ kind word = .field) :
    (wordLexeme kind 1 rest).Fits depth c rest := by
  simp only [wordLexeme, Nat.add_sub_cancel_left]
  split_ifs
  · exact Inner.name (hkind _)
  · trivial

lemma fits_wordLexeme (hword : isWordPart c = true) : (wordLexeme wordKind 0 (c :: rest)).Fits depth c rest := by
  simp only [wordLexeme, List.takeWhile_cons_of_pos hword, List.length_cons, Nat.zero_add, Nat.add_sub_cancel]
  split_ifs
  · exact Inner.word hword
  · trivial

lemma fits_quotedLexeme {quote : Char} {kind : Kind} (hc : c = quote)
    (hkind : quote = '"' ∧ kind = .string ∨ quote = '\'' ∧ kind = .charConstant) (complaint : String) :
    (quotedLexeme quote kind complaint rest).Fits depth c rest := by
  subst hc
  unfold quotedLexeme
  split
  · exact Inner.quoted hkind ‹_›
  · trivial

lemma fits_rawLexeme : (rawLexeme rest).Fits depth c rest := by
  unfold rawLexeme
  split
  · exact Inner.raw (splitAt?_eq_some ‹_›).1
  · trivial

lemma fits_lexeme (depth : Nat) (c : Char) (rest : List Char) : (lexeme depth c rest).Fits depth c rest := by
  have hsign {kind : Kind} (hkind : kind = .assign ∨ kind = .pipe ∨ kind = .leftParen ∨ kind = .char) :
      (Lexeme.item kind 0).Fits depth c rest := Inner.sign hkind
  unfold lexeme
  refine .ite fits_spaceLexeme (.ite (fun _ => hsign (by simp)) (.ite (fun _ => .ite (fun hrest => ?_) trivial) ?_))
  · rcases rest with _ | ⟨d, behind⟩
    · simp [startsIn] at hrest
    · obtain rfl : d = '=' := by simpa [startsIn] using hrest
      exact Inner.declare rfl
  refine .ite (fun _ => hsign (by simp)) (.ite (fun hc => fits_quotedLexeme hc (by simp) _) ?_)
  refine .ite (fun _ => fits_rawLexeme) (.ite (fun hc => fits_quotedLexeme hc (by simp) _) ?_)
  refine .ite (fun _ => fits_nameLexeme (by simp)) (.ite (fun hc => .ite (fun _ => fits_numberLexeme (.inl hc)) ?_) ?_)
  · refine fits_nameLexeme fun word => ?_
    split_ifs
    · exact .inr (.inl rfl)
    · exact .inr (.inr rfl)
  refine .ite (fun hc => fits_numberLexeme (.inr hc)) (.ite fits_wordLexeme (.ite (fun _ => hsign (by simp)) ?_))
  refine .ite (fun _ => ?_) (.ite (fun _ => hsign (by simp)) trivial)
  split_ifs with hdepth
  · trivial
  · exact Inner.rightParen hdepth

lemma inner_of_lexeme {kind : Kind} {more : Nat} (h : lexeme depth c rest = .item kind more) :
    Inner depth c rest kind more := by
  have hfits := fits_lexeme depth c rest
  rwa [h] at hfits

/-- An item inside an action is neither text nor one of the ends of the action, nor is it the last item. -/
lemma Inner.kind_ne {kind : Kind} {more : Nat} (h : Inner depth c rest kind more) :
    isOutside (some kind) = false ∧ kind ≠ .eof ∧ kind ≠ .mistake := by
  have hword (word : List Char) :
      isOutside (some (wordKind word)) = false ∧ wordKind word ≠ .eof ∧ wordKind word ≠ .mistake := by
    unfold wordKind
    split <;> simp [isOutside]
  cases h with
  | sign hkind => rcases hkind with rfl | rfl | rfl | rfl <;> simp [isOutside]
  | quoted hkind => rcases hkind with ⟨-, rfl⟩ | ⟨-, rfl⟩ <;> simp [isOutside]
  | name hkind => rcases hkind with rfl | rfl | rfl <;> simp [isOutside]
  | word => exact hword _
  | _ => simp [isOutside]

end Inner

/-- An item of the kinds that only actions have was taken from the inside of one. -/
lemma exists_lexeme_of_mem {mode : Mode} {skip line : Nat} {text : List Char} {item : Item}
    (h : item ∈ itemsFrom mode skip line text) :
    item.kind ∈ [Kind.text, .opening, .closing, .eof, .mistake] ∨
      ∃ depth c rest more, lexeme depth c rest = .item item.kind more ∧ item.text = c :: rest.take more := by
  fun_induction itemsFrom mode skip line text with
  | case1 | case2 | case6 | case9 | case11 =>
    obtain rfl := List.mem_singleton.1 h
    simp
  | case3 _ _ _ _ _ ih | case5 _ _ _ _ _ _ _ ih => exact ih h
  | case4 _ _ _ _ _ _ _ ih | case7 _ _ _ _ _ _ ih | case8 _ _ _ _ _ _ ih =>
    rcases List.mem_cons.1 h with rfl | h
    · simp
    · exact ih h
  | case10 depth line c rest next _ kind more hlexeme ih =>
    rcases List.mem_cons.1 h with rfl | h
    · exact .inr ⟨depth, c, rest, more, hlexeme, rfl⟩
    · exact ih h

/-! ## What no item covers -/

/-- The mark behind the start of an action that trims the text before it, if there is one. -/
def IsLeftTrim (text : List Char) : Prop :=
  text = [] ∨ ∃ blank, isSpace blank = true ∧ text = ['-', blank]

/-- The mark before the end of an action that trims the text behind it, if there is one. -/
def IsRightTrim (text : List Char) : Prop :=
  text = [] ∨ ∃ blank, isSpace blank = true ∧ text = [blank, '-']

/-- An action that is a comment. The comment ends where it first can. -/
def IsComment (text : List Char) : Prop :=
  ∃ left body right, IsLeftTrim left ∧ IsRightTrim right ∧ ¬['*', '/'] <:+: body ++ ['*'] ∧
    text = ['\x7b', '\x7b'] ++ left ++ ['/', '*'] ++ body ++ ['*', '/'] ++ right ++ ['\x7d', '\x7d']

/-- Comments one behind the other. -/
def AreComments (text : List Char) : Prop :=
  ∃ comments : List (List Char), (∀ comment ∈ comments, IsComment comment) ∧ text = comments.flatten

/-- What may stand between an item and the next one and is covered by none: comments outside of actions, and inside of
them a mark behind the start and one before the end. -/
def Uncovered (previous : Option Kind) (next : Kind) (gap : List Char) : Prop :=
  if isOutside previous then AreComments gap
  else ∃ left right, gap = left ++ right ∧ IsLeftTrim left ∧ IsRightTrim right ∧
    (left ≠ [] → previous = some .opening) ∧ (right ≠ [] → next = .closing)

section Marks

variable {text : List Char}

lemma isLeftTrim_take (text : List Char) : IsLeftTrim (text.take (if startsLeftTrim text then 2 else 0)) := by
  unfold startsLeftTrim
  split
  case h_1 blank rest =>
    by_cases hblank : isSpace blank = true
    · exact .inr ⟨blank, hblank, by simp [hblank]⟩
    · exact .inl (by simp [hblank])
  case h_2 => exact .inl (by simp)

lemma actionEnd?_eq_some {width : Nat} (h : actionEnd? text = some width) :
    ∃ trim behind, IsRightTrim trim ∧ trim.length = width ∧ text = trim ++ ['\x7d', '\x7d'] ++ behind := by
  have huntrimmed (h : (if Text.startsWith "\x7d\x7d" text = true then some 0 else none) = some width) :
      ∃ trim behind, IsRightTrim trim ∧ trim.length = width ∧ text = trim ++ ['\x7d', '\x7d'] ++ behind := by
    split_ifs at h with hends
    obtain ⟨behind, hbehind⟩ := startsWith_iff.1 hends
    exact ⟨[], behind, .inl rfl, by simpa using h, by simpa using hbehind⟩
  simp only [actionEnd?] at h
  split at h
  case h_1 blank rest =>
    by_cases htrimmed : (isSpace blank && Text.startsWith "\x7d\x7d" rest) = true
    · rw [if_pos htrimmed] at h
      obtain ⟨hblank, hends⟩ := Bool.and_eq_true_iff.1 htrimmed
      obtain ⟨behind, rfl⟩ := startsWith_iff.1 hends
      exact ⟨[blank, '-'], behind, .inr ⟨blank, hblank, rfl⟩, by simpa using h, rfl⟩
    · rw [if_neg htrimmed] at h
      exact huntrimmed h
  case h_2 => exact huntrimmed (by simpa using h)

lemma openingOf_eq_action {inner : List Char} {trim : Nat} (h : openingOf inner = .action trim) :
    IsLeftTrim (inner.take trim) := by
  simp only [openingOf] at h
  split at h
  case h_1 =>
    obtain rfl := Opening.action.inj h
    exact isLeftTrim_take inner
  case h_2 => split at h <;> (try split at h) <;> cases h

lemma openingOf_eq_comment {inner : List Char} {length : Nat} (h : openingOf inner = .comment length) :
    IsComment (['\x7b', '\x7b'] ++ inner.take length) := by
  simp only [openingOf] at h
  split at h
  case h_1 => cases h
  case h_2 opened hopened =>
    split at h
    case h_1 => cases h
    case h_2 body behind hbody =>
      split at h
      case h_1 => cases h
      case h_2 width hwidth =>
        obtain ⟨rfl, hfirst⟩ := splitAt?_eq_some hbody
        obtain ⟨right, rest, hright, rfl, rfl⟩ := actionEnd?_eq_some hwidth
        obtain rfl := Opening.comment.inj h
        have hleft := isLeftTrim_take inner
        generalize (if startsLeftTrim inner then 2 else 0) = trim at hleft hopened ⊢
        refine ⟨inner.take trim, body, right, hleft, hright, ?_, ?_⟩
        · rintro ⟨skipped, behind, hinfix⟩
          -- A mark in the body would be a place before the first one.
          have hearlier := hfirst skipped (behind ++ '/' :: (right ++ ['\x7d', '\x7d'] ++ rest)) (by
            rw [← List.append_assoc, ← List.append_assoc, ← List.append_assoc, hinfix]
            simp)
          have hlength := congrArg List.length hinfix
          simp only [List.length_append, List.length_cons, List.length_nil] at hlength
          omega
        · have hinner := List.take_append_drop trim inner
          rw [Text.eq_append_of_after? hopened] at hinner
          have htrim : (inner.take trim).length = trim := by
            have hlength := congrArg List.length (Text.eq_append_of_after? hopened)
            simp only [List.length_drop, List.length_append, List.length_cons, List.length_nil] at hlength
            rw [List.length_take]
            omega
          generalize inner.take trim = left at hinner htrim ⊢
          have hall : inner = (left ++ ['/', '*'] ++ body ++ ['*', '/'] ++ right ++ ['\x7d', '\x7d']) ++ rest := by
            simpa using hinner.symm
          rw [hall, List.take_left' (by simp [htrim]; omega)]
          simp

lemma openingOf_eq_mistake {inner : List Char} {message : String} {lines : Nat}
    (h : openingOf inner = .mistake message lines) : ∃ gap, gap <+: inner ∧ lines = lineEnds gap := by
  simp only [openingOf] at h
  split at h
  case h_1 => cases h
  case h_2 =>
    split at h
    case h_1 => exact ⟨_, List.take_prefix _ _, (Opening.mistake.inj h).2.symm⟩
    case h_2 =>
      split at h
      case h_1 => exact ⟨_, List.take_prefix _ _, (Opening.mistake.inj h).2.symm⟩
      case h_2 => cases h

end Marks

/-! ## Slices -/

/-- An item with the characters in front of it that no item covers. -/
structure Slice where
  gap : List Char
  item : Item

/-- The text of slices. -/
def charsOf (slices : List Slice) : List Char :=
  slices.flatMap fun slice => slice.gap ++ slice.item.text

/-- The kind of the last item of slices, or of the one before them. -/
def kindBehind (previous : Option Kind) (slices : List Slice) : Option Kind :=
  slices.foldl (fun _ slice => some slice.item.kind) previous

/-- Slices behind a text and an item: each has the line that its item begins on, and none holds the last item. -/
structure Cuts (before : List Char) (previous : Option Kind) (slices : List Slice) : Prop where
  inner : ∀ slice ∈ slices, slice.item.kind ≠ .eof ∧ slice.item.kind ≠ .mistake ∧ slice.item.text ≠ []
  line : ∀ passed slice left, slices = passed ++ slice :: left →
    slice.item.line = 1 + lineEnds (before ++ charsOf passed ++ slice.gap)
  gap : ∀ passed slice left, slices = passed ++ slice :: left →
    Uncovered (kindBehind previous passed) slice.item.kind slice.gap

/-- The last item: the end of the text, outside of actions and with only comments before it, or a mistake that begins
in what is left. -/
inductive Ends (before : List Char) (previous : Option Kind) (rest : List Char) : Item → Prop
  | eof (houtside : isOutside previous = true) (hrest : AreComments rest) :
      Ends before previous rest ⟨.eof, [], 1 + lineEnds (before ++ rest)⟩
  | mistake {message gap : List Char} (hgap : gap <+: rest) :
      Ends before previous rest ⟨.mistake, message, 1 + lineEnds (before ++ gap)⟩

/-- The items cover a text behind other text. -/
def Tiles (before : List Char) (previous : Option Kind) (text : List Char) (items : List Item) : Prop :=
  ∃ slices last rest, items = slices.map Slice.item ++ [last] ∧ text = charsOf slices ++ rest ∧
    Cuts before previous slices ∧ Ends (before ++ charsOf slices) (kindBehind previous slices) rest last

section Tiles

variable {before text : List Char} {previous : Option Kind} {items : List Item}

lemma Tiles.last {item : Item} (h : Ends before previous text item) : Tiles before previous text [item] :=
  ⟨[], item, text, rfl, rfl, ⟨by simp, by simp, by simp⟩, by simpa [charsOf, kindBehind] using h⟩

lemma Cuts.cons {slice : Slice} {slices : List Slice}
    (h : Cuts (before ++ slice.gap ++ slice.item.text) (some slice.item.kind) slices)
    (hinner : slice.item.kind ≠ .eof ∧ slice.item.kind ≠ .mistake ∧ slice.item.text ≠ [])
    (hline : slice.item.line = 1 + lineEnds (before ++ slice.gap))
    (hgap : Uncovered previous slice.item.kind slice.gap) : Cuts before previous (slice :: slices) := by
  refine ⟨List.forall_mem_cons.2 ⟨hinner, h.inner⟩, fun passed found left hfound => ?_,
    fun passed found left hfound => ?_⟩
  · rcases List.cons_eq_append_iff.1 hfound with ⟨rfl, hhead⟩ | ⟨passed, rfl, htail⟩
    · obtain rfl := (List.cons.inj hhead).1
      simpa [charsOf] using hline
    · rw [h.line passed found left htail]
      simp [charsOf]
  · rcases List.cons_eq_append_iff.1 hfound with ⟨rfl, hhead⟩ | ⟨passed, rfl, htail⟩
    · obtain rfl := (List.cons.inj hhead).1
      exact hgap
    · exact h.gap passed found left htail

/-- Each slice has a character at least. -/
lemma Cuts.length_le {slices : List Slice} (h : Cuts before previous slices) :
    slices.length ≤ (charsOf slices).length := by
  rw [charsOf, List.length_flatMap, ← List.length_map (fun slice : Slice => (slice.gap ++ slice.item.text).length)]
  refine List.length_le_sum_of_one_le _ fun length hlength => ?_
  obtain ⟨slice, hslice, rfl⟩ := List.mem_map.1 hlength
  rw [List.length_append]
  exact Nat.le_add_left_of_le (List.length_pos_of_ne_nil (h.inner slice hslice).2.2)

lemma Tiles.cons {gap : List Char} {item : Item} (h : Tiles (before ++ gap ++ item.text) (some item.kind) text items)
    (hinner : item.kind ≠ .eof ∧ item.kind ≠ .mistake ∧ item.text ≠ [])
    (hline : item.line = 1 + lineEnds (before ++ gap)) (hgap : Uncovered previous item.kind gap) :
    Tiles before previous (gap ++ item.text ++ text) (item :: items) := by
  obtain ⟨slices, last, rest, rfl, rfl, hcuts, hends⟩ := h
  refine ⟨⟨gap, item⟩ :: slices, last, rest, rfl, by simp [charsOf], Cuts.cons hcuts hinner hline hgap, ?_⟩
  have hchars : before ++ charsOf (⟨gap, item⟩ :: slices) = before ++ gap ++ item.text ++ charsOf slices := by
    simp [charsOf]
  rw [hchars]
  exact hends

/-- What no item covers yet, where the lexer stands behind an item. -/
def Mode.Behind (previous : Option Kind) (gap : List Char) : Mode → Prop
  | .text => isOutside previous = true ∧ AreComments gap
  | .action _ => isOutside previous = false ∧ IsLeftTrim gap ∧ (gap ≠ [] → previous = some .opening)

lemma Mode.Behind.uncovered {mode : Mode} {gap : List Char} (h : mode.Behind previous gap) (next : Kind) :
    Uncovered previous next gap := by
  cases mode with
  | text =>
    rw [Uncovered, if_pos h.1]
    exact h.2
  | action depth =>
    rw [Uncovered, if_neg (by simp [h.1])]
    exact ⟨gap, [], by simp, h.2.1, .inl rfl, h.2.2, by simp⟩

lemma AreComments.append {gap comment : List Char} (h : AreComments gap) (hcomment : IsComment comment) :
    AreComments (gap ++ comment) := by
  obtain ⟨comments, hall, rfl⟩ := h
  refine ⟨comments ++ [comment], ?_, by simp⟩
  rw [List.forall_mem_append, List.forall_mem_singleton]
  exact ⟨hall, hcomment⟩

/-- An item and what comes behind it, where the first characters that are left are not covered. -/
lemma Tiles.item (gap skipped : List Char) {rest : List Char} {item : Item} {mode : Mode} {line : Nat}
    (h : Tiles (before ++ gap ++ item.text) (some item.kind) (skipped ++ rest)
      (itemsFrom mode 0 (1 + lineEnds (before ++ gap ++ item.text ++ skipped)) rest))
    (hinner : item.kind ≠ .eof ∧ item.kind ≠ .mistake ∧ item.text ≠ [])
    (hitem : item.line = 1 + lineEnds (before ++ gap)) (hgap : Uncovered previous item.kind gap)
    (hline : line = item.line + lineEnds (item.text ++ skipped))
    (htext : text = gap ++ item.text ++ (skipped ++ rest)) :
    Tiles before previous text (item :: itemsFrom mode 0 line rest) := by
  have hlines : line = 1 + lineEnds (before ++ gap ++ item.text ++ skipped) := by
    rw [hline, hitem, List.append_assoc _ item.text, lineEnds_append _ (item.text ++ skipped)]
    omega
  rw [hlines, htext]
  exact h.cons hinner hitem hgap

lemma Tiles.mistake {message gap : List Char} (hgap : gap <+: text) :
    Tiles before previous text [⟨.mistake, message, 1 + lineEnds (before ++ gap)⟩] :=
  .last (.mistake hgap)

end Tiles

/-! ## Steps and runs of the lexer -/

/-- From a place on the items cover what is left of the text, with what no item covers yet in front of it. -/
def Covers (mode : Mode) (text : List Char) : Prop :=
  ∀ before previous gap, mode.Behind previous gap →
    Tiles before previous (gap ++ text) (itemsFrom mode 0 (1 + lineEnds (before ++ gap)) text)

section Covers

variable {inner text : List Char}

lemma covers_nil (mode : Mode) : Covers mode [] := by
  intro before previous gap hgap
  rw [List.append_nil]
  cases mode with
  | text => exact .last (.eof hgap.1 hgap.2)
  | action depth => exact .mistake (List.prefix_refl gap)

lemma covers_opening {trim : Nat} (hopening : openingOf inner = .action trim)
    (h : Covers (.action 0) (inner.drop trim)) :
    Covers .text ('\x7b' :: '\x7b' :: inner) := by
  intro before previous gap hgap
  rw [itemsFrom_action hopening]
  refine Tiles.item gap (inner.take trim) (h _ _ _ ?_) (by simp) rfl (hgap.uncovered _) ?_ (by simp)
  · exact ⟨rfl, openingOf_eq_action hopening, fun _ => rfl⟩
  · simp [lineEnds]

lemma covers_comment {length : Nat} (hopening : openingOf inner = .comment length)
    (h : Covers .text (inner.drop length)) :
    Covers .text ('\x7b' :: '\x7b' :: inner) := by
  intro before previous gap hgap
  have hcomment := openingOf_eq_comment hopening
  have hrest := h before previous _ ⟨hgap.1, hgap.2.append hcomment⟩
  have hline : 1 + lineEnds (before ++ (gap ++ (['\x7b', '\x7b'] ++ inner.take length))) =
      1 + lineEnds (before ++ gap) + lineEnds (inner.take length) := by
    simp [lineEnds, Nat.add_assoc]
  rw [hline] at hrest
  rw [itemsFrom_comment hopening]
  simpa using hrest

lemma covers_openComment {message : String} {lines : Nat} (hopening : openingOf inner = .mistake message lines) :
    Covers .text ('\x7b' :: '\x7b' :: inner) := by
  intro before previous gap _
  obtain ⟨skipped, ⟨rest, rfl⟩, rfl⟩ := openingOf_eq_mistake hopening
  rw [itemsFrom_openComment hopening]
  have hline : 1 + lineEnds (before ++ gap) + lineEnds skipped =
      1 + lineEnds (before ++ (gap ++ ['\x7b', '\x7b'] ++ skipped)) := by
    simp [lineEnds, Nat.add_assoc]
  rw [hline]
  exact .mistake ⟨rest, by simp⟩

lemma covers_plainText (hne : text ≠ []) (hbraces : Text.startsWith "\x7b\x7b" text = false)
    (h : Covers .text (text.drop (plainText text).length)) : Covers .text text := by
  intro before previous gap hgap
  rw [itemsFrom_plainText hne hbraces]
  refine Tiles.item gap [] (h _ _ _ ⟨rfl, [], by simp, rfl⟩) ⟨nofun, nofun, ?_⟩ rfl
    (hgap.uncovered _) (by simp) ?_
  · obtain ⟨c, rest, rfl⟩ := List.exists_cons_of_ne_nil hne
    simp [plainText, hbraces]
  · simp [plainText_append_drop]

lemma covers_closing {width : Nat} (hend : actionEnd? text = some width) (h : Covers .text (text.drop (width + 2))) :
    Covers (.action 0) text := by
  intro before previous gap hgap
  obtain ⟨trim, behind, htrim, rfl, rfl⟩ := actionEnd?_eq_some hend
  have hdrop : (trim ++ ['\x7d', '\x7d'] ++ behind).drop (trim.length + 2) = behind := by
    rw [List.append_assoc, List.drop_length_add_append]
    rfl
  have htake : (trim ++ ['\x7d', '\x7d'] ++ behind).take (trim.length + 2) = trim ++ ['\x7d', '\x7d'] := by
    rw [List.append_assoc, List.take_length_add_append]
    rfl
  rw [hdrop] at h
  rw [itemsFrom_closing hend, hdrop, htake]
  have hgap' : Uncovered previous .closing (gap ++ trim) := by
    rw [Uncovered, if_neg (by simp [hgap.1])]
    exact ⟨gap, trim, rfl, hgap.2.1, htrim, hgap.2.2, fun _ => rfl⟩
  refine Tiles.item (gap ++ trim) [] (h _ _ _ ⟨rfl, [], by simp, rfl⟩) (by simp) ?_ hgap' ?_ (by simp)
  · simp [lineEnds, Nat.add_assoc]
  · simp [lineEnds, Nat.add_assoc]

lemma covers_item {depth : Nat} {c : Char} {rest : List Char} {kind : Kind} {more : Nat}
    (hend : actionEnd? (c :: rest) = none) (hlexeme : lexeme depth c rest = .item kind more)
    (h : Covers (.action (depthBehind kind depth)) (rest.drop more)) : Covers (.action depth) (c :: rest) := by
  intro before previous gap hgap
  obtain ⟨houtside, heof, hmistake⟩ := (inner_of_lexeme hlexeme).kind_ne
  rw [itemsFrom_item hend hlexeme]
  refine Tiles.item gap [] (h _ _ _ ⟨houtside, .inl rfl, by simp⟩) ⟨heof, hmistake, by simp⟩ rfl
    (hgap.uncovered _) (by simp) (by simp)

/-- The induction is on the text that is left: each step takes an item or a comment from it. -/
lemma covers (mode : Mode) (text : List Char) : Covers mode text := by
  induction hlength : text.length using Nat.strong_induction_on generalizing mode text with
  | _ length ih =>
    subst hlength
    rcases text with _ | ⟨c, rest⟩
    · exact covers_nil mode
    · have hshorter (mode : Mode) (count : Nat) : Covers mode (rest.drop count) :=
        ih _ (by simp) mode _ rfl
      cases mode with
      | text =>
        by_cases hbraces : Text.startsWith "\x7b\x7b" (c :: rest) = true
        · obtain ⟨inner, hinner⟩ := startsWith_iff.1 hbraces
          obtain ⟨rfl, rfl⟩ : c = '\x7b' ∧ rest = '\x7b' :: inner := by simpa using hinner
          cases hopening : openingOf inner with
          | action trim => exact covers_opening hopening (hshorter _ (trim + 1))
          | comment length => exact covers_comment hopening (hshorter _ (length + 1))
          | mistake => exact covers_openComment hopening
        · have hplain : (plainText (c :: rest)).length = (plainText rest).length + 1 := by
            rw [plainText, if_neg hbraces, List.length_cons]
          refine covers_plainText (by simp) (by simpa using hbraces) ?_
          rw [hplain]
          exact hshorter _ _
      | action depth =>
        cases hend : actionEnd? (c :: rest) with
        | some width =>
          cases depth with
          | zero => exact covers_closing hend (hshorter _ (width + 1))
          | succ depth =>
            intro before previous gap _
            rw [itemsFrom_openParen hend]
            exact .mistake (List.prefix_append _ _)
        | none =>
          cases hlexeme : lexeme depth c rest with
          | item kind more => exact covers_item hend hlexeme (hshorter _ more)
          | mistake message =>
            intro before previous gap _
            rw [itemsFrom_mistake hend hlexeme]
            exact .mistake (List.prefix_append _ _)

end Covers

/-- The items of a template end with the end or with a mistake, and with nothing else before. They are slices of the
text in order, each with the line on which it begins. Where there is no mistake, what they leave out are comments and
the marks that trim the text around an action. -/
theorem lex_cuts_text (text : List Char) :
    ∃ slices last rest, lex text = slices.map Slice.item ++ [last] ∧ text = charsOf slices ++ rest ∧
      Cuts [] none slices ∧ Ends (charsOf slices) (kindBehind none slices) rest last ∧
      (lex text).length ≤ text.length + 1 := by
  obtain ⟨slices, last, rest, hitems, htext, hcuts, hends⟩ := covers .text text [] none [] ⟨rfl, [], by simp, rfl⟩
  refine ⟨slices, last, rest, hitems, htext, hcuts, hends, ?_⟩
  have hitemsLength : (lex text).length = slices.length + 1 := by
    rw [show lex text = slices.map Slice.item ++ [last] from hitems]
    simp
  have htextLength : text.length = (charsOf slices).length + rest.length := by
    rw [← List.length_append, ← htext, List.nil_append]
  have hslices := hcuts.length_le
  omega

end QueryScope.Template
