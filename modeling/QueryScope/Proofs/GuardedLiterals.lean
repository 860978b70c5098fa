import QueryScope.Proofs.LiteralGrammar
import QueryScope.Template.Literal

/-!
# Slices of literals

The check of a string or a character constant cuts pieces out of it by their place in bytes. A cut that is not
between two characters of the text, or not in the text at all, has no meaning. In a literal as the lexer takes it
there is no such cut, and the check ends.
-/

namespace QueryScope.Template

/-- What a check may run into that has no meaning. -/
inductive Breach where
  /-- a loop or a recursion has not ended -/
  | endless
  /-- the position would fall before the first item -/
  | position
  /-- a loop is left where none is open -/
  | loops
  /-- a parenthesis is closed where none is open -/
  | parens
  /-- the line would fall below zero -/
  | line
  /-- a text is cut outside of it or inside of a character -/
  | slice
deriving DecidableEq

/-! ## Bytes -/

/-- The number of bytes of a text. -/
def byteLength (text : List Char) : Nat :=
  (text.map Char.utf8Size).sum

/-- The first bytes of a text and the rest, if no character is cut. -/
def splitBytes? : Nat → List Char → Option (List Char × List Char)
  | 0, text => some ([], text)
  | _ + 1, [] => none
  | n + 1, c :: text =>
    if c.utf8Size ≤ n + 1 then (splitBytes? (n + 1 - c.utf8Size) text).map fun parts => (c :: parts.1, parts.2)
    else none

/-- The text between two places, if there is one. -/
def slice? (first last : Nat) (text : List Char) : Option (List Char) := do
  let (lead, _) ← splitBytes? last text
  let (_, piece) ← splitBytes? first lead
  return piece

/-- The text between two places, which there must be. -/
def cut (first last : Nat) (text : List Char) : Except Breach (List Char) :=
  match slice? first last text with
  | some piece => .ok piece
  | none => .error .slice

section Bytes

variable {text lead piece rest : List Char} {n first last : Nat}

@[simp]
lemma byteLength_nil : byteLength [] = 0 :=
  rfl

@[simp]
lemma byteLength_cons (c : Char) (text : List Char) : byteLength (c :: text) = c.utf8Size + byteLength text :=
  rfl

@[simp]
lemma byteLength_append (lead text : List Char) : byteLength (lead ++ text) = byteLength lead + byteLength text := by
  simp [byteLength]

lemma byteLength_eq_zero_iff : byteLength text = 0 ↔ text = [] := by
  cases text with
  | nil => simp
  | cons c text =>
    have := c.utf8Size_pos
    simp
    omega

lemma splitBytes?_eq_some_iff :
    splitBytes? n text = some (lead, rest) ↔ text = lead ++ rest ∧ byteLength lead = n := by
  fun_induction splitBytes? n text generalizing lead with
  | case1 text =>
    rw [byteLength_eq_zero_iff, Option.some.injEq, Prod.mk.injEq]
    constructor
    · rintro ⟨rfl, rfl⟩
      exact ⟨rfl, rfl⟩
    · rintro ⟨rfl, rfl⟩
      exact ⟨rfl, rfl⟩
  | case2 n =>
    constructor
    · exact fun h => absurd h (by simp)
    · rintro ⟨htext, hlead⟩
      obtain ⟨rfl, -⟩ := List.append_eq_nil_iff.1 htext.symm
      simp at hlead
  | case3 n c text hc ih =>
    have hpos := c.utf8Size_pos
    constructor
    · intro h
      obtain ⟨⟨first, second⟩, hsplit, hparts⟩ := Option.map_eq_some_iff.1 h
      obtain ⟨rfl, rfl⟩ := Prod.mk.inj hparts
      obtain ⟨rfl, hfirst⟩ := ih.1 hsplit
      refine ⟨rfl, ?_⟩
      rw [byteLength_cons, hfirst]
      omega
    · rintro ⟨htext, hlead⟩
      cases lead with
      | nil => simp at hlead
      | cons d lead =>
        obtain ⟨rfl, rfl⟩ := List.cons.inj htext
        rw [byteLength_cons] at hlead
        rw [ih.2 ⟨rfl, by omega⟩, Option.map_some]
  | case4 n c text hc =>
    constructor
    · exact fun h => absurd h (by simp)
    · rintro ⟨htext, hlead⟩
      cases lead with
      | nil => simp at hlead
      | cons d lead =>
        obtain ⟨rfl, rfl⟩ := List.cons.inj htext
        rw [byteLength_cons] at hlead
        omega

lemma slice?_eq_some_iff : slice? first last text = some piece ↔
    ∃ lead rest, text = lead ++ piece ++ rest ∧ byteLength lead = first ∧ byteLength (lead ++ piece) = last := by
  simp only [slice?, Option.bind_eq_bind, Option.bind_eq_some_iff, Option.pure_def, Option.some.injEq]
  constructor
  · rintro ⟨⟨whole, rest⟩, hwhole, ⟨lead, found⟩, hlead, rfl⟩
    obtain ⟨rfl, hlast⟩ := splitBytes?_eq_some_iff.1 hwhole
    obtain ⟨rfl, hfirst⟩ := splitBytes?_eq_some_iff.1 hlead
    exact ⟨lead, rest, rfl, hfirst, hlast⟩
  · rintro ⟨lead, rest, htext, hfirst, hlast⟩
    exact ⟨(lead ++ piece, rest), splitBytes?_eq_some_iff.2 ⟨htext, hlast⟩, (lead, piece),
      splitBytes?_eq_some_iff.2 ⟨rfl, hfirst⟩, rfl⟩

/-- A text is cut between two characters. -/
lemma cut_eq_ok (htext : text = lead ++ piece ++ rest) (hfirst : byteLength lead = first)
    (hlast : byteLength (lead ++ piece) = last) : cut first last text = .ok piece := by
  rw [cut, slice?_eq_some_iff.2 ⟨lead, rest, htext, hfirst, hlast⟩]

/-- What is behind the start of a text is cut off. -/
lemma cut_append (lead rest : List Char) :
    cut (byteLength lead) (byteLength (lead ++ rest)) (lead ++ rest) = .ok rest :=
  cut_eq_ok (List.append_nil _).symm rfl rfl

/-- A text is cut off in one way only. -/
lemma slice?_append (hlead : byteLength lead = first) :
    slice? first (first + n) (lead ++ text) = some piece ↔ ∃ rest, text = piece ++ rest ∧ byteLength piece = n := by
  rw [slice?_eq_some_iff]
  constructor
  · rintro ⟨front, rest, htext, hfront, hlast⟩
    rw [List.append_assoc] at htext
    have hboth : some (lead, text) = some (front, piece ++ rest) := by
      rw [← splitBytes?_eq_some_iff.2 ⟨rfl, hlead⟩, splitBytes?_eq_some_iff.2 ⟨htext, hfront⟩]
    obtain ⟨rfl, rfl⟩ := Prod.mk.inj (Option.some.inj hboth)
    rw [byteLength_append] at hlast
    exact ⟨rest, rfl, by omega⟩
  · rintro ⟨rest, rfl, hpiece⟩
    exact ⟨lead, rest, (List.append_assoc ..).symm, hlead, by rw [byteLength_append, hlead, hpiece]⟩

end Bytes

/-! ## Characters of a literal -/

/-- The digits between two places, if there is nothing else. -/
def digits? (isDigit : Char → Bool) (first last : Nat) (text : List Char) : Option (List Char) :=
  (slice? first last text).filter (·.all isDigit)

/-- The bytes of an escape with hexadecimal digits. -/
def hexBytes? (width : Nat) (text : List Char) : Option Nat :=
  (digits? Text.isHexDigit 2 (2 + width) text).map fun _ => 2 + width

/-- The bytes of an escape with a code point, which a character must have. -/
def codeBytes (width : Nat) (text : List Char) : Except Breach (Option Nat) :=
  match hexBytes? width text with
  | none => .ok none
  | some length => do
    let digits ← cut 2 length text
    return if ((Text.numeral? 16 digits).bind Text.charOfCode?).isSome then some length else none

/-- An octal digit. -/
def isOctalDigit (c : Char) : Bool :=
  '0' ≤ c && c ≤ '7'

/-- The bytes of an escape with an octal number. -/
def octalBytes? (text : List Char) : Option Nat := do
  let digits ← digits? isOctalDigit 1 4 text
  if (Text.numeral? 8 digits).any (· ≤ 255) then some 4 else none

/-- The bytes of an escape with a letter. -/
def escapeBytes (quote letter : Char) (text : List Char) : Except Breach (Option Nat) :=
  if "abfnrtv\\".toList.contains letter || letter = quote then .ok (some 2)
  else if letter = 'x' then .ok (hexBytes? 2 text)
  else if letter = 'u' then codeBytes 4 text
  else if letter = 'U' then codeBytes 8 text
  else if '0' ≤ letter ∧ letter ≤ '7' then .ok (octalBytes? text)
  else .ok none

/-- The bytes of the first character of a literal with a quote, escaped or not. -/
def characterBytes (quote : Char) (text : List Char) : Except Breach (Option Nat) :=
  match text with
  | [] => .ok none
  | c :: rest =>
    if c = quote then .ok none
    else if c ≠ '\\' then .ok (some c.utf8Size)
    else
      match rest with
      | [] => .ok none
      | letter :: _ => escapeBytes quote letter text

section Characters

variable {text lead digits : List Char} {isDigit : Char → Bool} {first width : Nat}

lemma utf8Size_of_isHexDigit (c : Char) (h : Text.isHexDigit c = true) : c.utf8Size = 1 := by
  rw [Text.isHexDigit_iff] at h
  rw [Char.utf8Size_eq_one_iff, UInt32.le_iff_toNat_le]
  change c.toNat ≤ 127
  omega

lemma utf8Size_of_isOctalDigit (c : Char) (h : isOctalDigit c = true) : c.utf8Size = 1 := by
  simp only [isOctalDigit, Bool.and_eq_true, decide_eq_true_eq, Char.le_def, UInt32.le_iff_toNat_le] at h
  rw [Char.utf8Size_eq_one_iff, UInt32.le_iff_toNat_le]
  have h7 : '7'.val.toNat = 55 := rfl
  have h127 : (127 : UInt32).toNat = 127 := rfl
  omega

lemma byteLength_of_digits (hascii : ∀ c, isDigit c = true → c.utf8Size = 1) (h : ∀ c ∈ text, isDigit c = true) :
    byteLength text = text.length := by
  induction text with
  | nil => rfl
  | cons c text ih =>
    rw [List.forall_mem_cons] at h
    rw [byteLength_cons, hascii c h.1, ih h.2, List.length_cons, Nat.add_comm]

/-- Digits are so many bytes as characters. -/
lemma digits?_append (hascii : ∀ c, isDigit c = true → c.utf8Size = 1) (hlead : byteLength lead = first) (width : Nat)
    (text : List Char) :
    digits? isDigit first (first + width) (lead ++ text) =
      if (text.take width).length = width ∧ (text.take width).all isDigit then some (text.take width) else none := by
  apply Option.ext
  intro digits
  rw [digits?, Option.filter_eq_some_iff, slice?_append hlead, Option.ite_none_right_eq_some, Option.some.injEq]
  constructor
  · rintro ⟨⟨rest, rfl, hlength⟩, hdigits⟩
    rw [byteLength_of_digits hascii (List.all_eq_true.1 hdigits)] at hlength
    have htake : (digits ++ rest).take width = digits := by rw [← hlength, List.take_left]
    rw [htake]
    exact ⟨⟨hlength, hdigits⟩, rfl⟩
  · rintro ⟨⟨hlength, hdigits⟩, rfl⟩
    refine ⟨⟨text.drop width, (List.take_append_drop ..).symm, ?_⟩, hdigits⟩
    rw [byteLength_of_digits hascii (List.all_eq_true.1 hdigits), hlength]

lemma isCodeEscape_iff {wantsCharacter : Bool} :
    isCodeEscape digits width wantsCharacter = true ↔ (digits.length = width ∧ digits.all Text.isHexDigit = true) ∧
      (wantsCharacter = true → ((Text.numeral? 16 digits).bind Text.charOfCode?).isSome = true) := by
  cases wantsCharacter <;> simp [isCodeEscape, and_assoc]

lemma hexBytes?_append (hlead : byteLength lead = 2) :
    hexBytes? width (lead ++ text) = if isCodeEscape (text.take width) width false then some (2 + width) else none := by
  rw [hexBytes?, digits?_append utf8Size_of_isHexDigit hlead]
  simp only [isCodeEscape_iff, Bool.false_eq_true, false_implies, and_true]
  split_ifs <;> rfl

lemma codeBytes_append (hlead : byteLength lead = 2) :
    codeBytes width (lead ++ text) =
      .ok (if isCodeEscape (text.take width) width true then some (2 + width) else none) := by
  have hdigits := digits?_append utf8Size_of_isHexDigit hlead width text
  simp only [codeBytes, hexBytes?, isCodeEscape_iff, true_implies, hdigits]
  by_cases h : (text.take width).length = width ∧ (text.take width).all Text.isHexDigit = true
  · -- The digits have been found, so they are there to be cut out.
    rw [if_pos h] at hdigits
    have hcut : cut 2 (2 + width) (lead ++ text) = .ok (text.take width) := by
      rw [cut, (Option.filter_eq_some_iff.1 hdigits).1]
    simp only [h, and_self, if_true, Option.map_some, hcut, true_and]
    rfl
  · simp only [h, if_false, Option.map_none, false_and]

lemma isOctalDigit_of_numeral? {n : Nat} (h : Text.numeral? 8 digits = some n) :
    ∀ c ∈ digits, isOctalDigit c = true := by
  obtain ⟨-, values, hvalues, -⟩ := (Text.numeral?_eq_some_iff (by decide)).1 h
  have hoctal : ∀ d < 8, isOctalDigit d.digitChar = true := by decide
  clear h
  induction hvalues with
  | nil => simp
  | cons hd _ ih =>
    rw [List.forall_mem_cons]
    refine ⟨?_, ih⟩
    rw [Text.eq_digitChar_of_toLower (by omega) hd.2]
    exact hoctal _ hd.1

lemma octalBytes?_escape (letter : Char) (text : List Char) :
    octalBytes? ('\\' :: letter :: text) = if (text.take 2).length = 2 ∧
      (Text.numeral? 8 (letter :: text.take 2)).any (· ≤ 255) then some 4 else none := by
  have hslash : byteLength ['\\'] = 1 := rfl
  have hdigits := digits?_append utf8Size_of_isOctalDigit hslash 3 (letter :: text)
  simp only [List.singleton_append, List.take_succ_cons, Nat.reduceAdd] at hdigits
  simp only [octalBytes?, hdigits, List.length_cons, Nat.reduceEqDiff]
  cases hnumeral : Text.numeral? 8 (letter :: text.take 2) with
  | none => split_ifs <;> simp_all
  | some value =>
    have hall := List.all_eq_true.2 (isOctalDigit_of_numeral? hnumeral)
    simp only [hall, and_true, Option.any_some]
    split_ifs <;> simp_all

/-- A letter of an escape and the digits behind it are one byte each. -/
lemma byteLength_escape {letter : Char} (hascii : ∀ c, isDigit c = true → c.utf8Size = 1)
    (hletter : letter.utf8Size = 1) (hlength : (text.take width).length = width)
    (hdigits : ∀ c ∈ text.take width, isDigit c = true) :
    byteLength (('\\' :: letter :: text).take (width + 2)) = 2 + width := by
  have hslash : '\\'.utf8Size = 1 := rfl
  rw [List.take_succ_cons, List.take_succ_cons, byteLength_cons, byteLength_cons, hslash, hletter,
    byteLength_of_digits hascii hdigits, hlength]
  omega

/-- An escape of a code point is measured in bytes. -/
lemma codeWidth_eq {letter : Char} (hletter : letter.utf8Size = 1) (width : Nat) (wantsCharacter : Bool) :
    (if isCodeEscape (text.take width) width wantsCharacter then some (2 + width) else none) =
      (if isCodeEscape (text.take width) width wantsCharacter then some width else none).map fun width =>
        byteLength (('\\' :: letter :: text).take (width + 2)) := by
  split_ifs with h
  · obtain ⟨⟨hlength, hdigits⟩, -⟩ := isCodeEscape_iff.1 h
    rw [Option.map_some, byteLength_escape utf8Size_of_isHexDigit hletter hlength
      (List.all_eq_true.1 hdigits)]
  · rfl

lemma escapeBytes_eq {quote : Char} (hquote : quote.utf8Size = 1) (letter : Char) (text : List Char) :
    escapeBytes quote letter ('\\' :: letter :: text) = .ok ((escapeWidth? quote letter text).map fun width =>
      byteLength (('\\' :: letter :: text).take (width + 2))) := by
  have hlead {letter : Char} (hletter : letter.utf8Size = 1) : byteLength ['\\', letter] = 2 := by
    rw [byteLength_cons, byteLength_cons, hletter]
    rfl
  unfold escapeBytes escapeWidth?
  by_cases hplain : ("abfnrtv\\".toList.contains letter || decide (letter = quote)) = true
  · have hletter : letter.utf8Size = 1 := by
      rcases Bool.or_eq_true_iff.1 hplain with hmem | heq
      · have hascii : ("abfnrtv\\".toList.all fun c => c.utf8Size == 1) = true := by decide
        simpa using List.all_eq_true.1 hascii letter (List.contains_iff_mem.1 hmem)
      · rw [of_decide_eq_true heq, hquote]
    rw [if_pos hplain, if_pos hplain, Option.map_some]
    exact congrArg (Except.ok ∘ some) (hlead hletter).symm
  rw [if_neg hplain, if_neg hplain]
  by_cases hx : letter = 'x'
  · subst hx
    rw [if_pos rfl, if_pos rfl, ← codeWidth_eq rfl]
    exact congrArg Except.ok (hexBytes?_append (hlead rfl))
  rw [if_neg hx, if_neg hx]
  by_cases hu : letter = 'u'
  · subst hu
    rw [if_pos rfl, if_pos rfl, ← codeWidth_eq rfl]
    exact codeBytes_append (hlead rfl)
  rw [if_neg hu, if_neg hu]
  by_cases hU : letter = 'U'
  · subst hU
    rw [if_pos rfl, if_pos rfl, ← codeWidth_eq rfl]
    exact codeBytes_append (hlead rfl)
  rw [if_neg hU, if_neg hU]
  by_cases hoctal : '0' ≤ letter ∧ letter ≤ '7'
  · rw [if_pos hoctal, if_pos hoctal, octalBytes?_escape]
    cases hnumeral : Text.numeral? 8 (letter :: text.take 2) with
    | none => simp
    | some value =>
      obtain ⟨hletter, hdigits⟩ := List.forall_mem_cons.1 (isOctalDigit_of_numeral? hnumeral)
      simp only [Option.any_some, decide_eq_true_eq]
      split_ifs with h
      · rw [Option.map_some, byteLength_escape utf8Size_of_isOctalDigit (utf8Size_of_isOctalDigit letter hletter) h.1
          hdigits]
      · rfl
  · rw [if_neg hoctal, if_neg hoctal]
    rfl

/-- The first character of a literal is measured in bytes. -/
lemma characterBytes_eq {quote : Char} (hquote : quote.utf8Size = 1) (text : List Char) :
    characterBytes quote text =
      .ok ((characterLength? quote text).map fun length => byteLength (text.take length)) := by
  cases text with
  | nil => rfl
  | cons c rest =>
    unfold characterBytes characterLength?
    by_cases hc : c = quote
    · simp only [if_pos hc, Option.map_none]
    · simp only [if_neg hc]
      by_cases hslash : c = '\\'
      · subst hslash
        cases rest with
        | nil => rfl
        | cons letter tail =>
          simp only [ne_eq, not_true_eq_false, if_false, escapeBytes_eq hquote, Option.map_map]
          rfl
      · simp only [ne_eq, hslash, not_false_eq_true, if_true, Option.map_some]
        simp

end Characters

/-! ## Whole literals -/

/-- Whether the inside of a string has well formed characters only. It may have less than `fuel` of them. -/
def stringBody : (fuel : Nat) → List Char → Except Breach Bool
  | 0, _ => .error .endless
  | fuel + 1, text => do
    if text.isEmpty then return true
    match ← characterBytes '"' text with
    | some length => stringBody fuel (← cut length (byteLength text) text)
    | none => return false

/-- Whether a quoted string is one that the language takes. -/
def stringVerdict (fuel : Nat) (text : List Char) : Except Breach Bool := do
  if byteLength text = 0 then throw .slice
  stringBody fuel (← cut 1 (byteLength text - 1) text)

/-- What is wrong with a character constant, if anything is. -/
def constantVerdict (text : List Char) : Except Breach (Option ConstantFault) := do
  let body ← cut 1 (byteLength text) text
  match ← characterBytes '\'' body with
  | none => return some .invalid
  | some length =>
    let rest ← cut length (byteLength body) body
    return if rest = ['\''] then none else some .malformed

section Literals

variable {quote : Char} {text body : List Char} {length fuel : Nat}

lemma characterLength?_pos (h : characterLength? quote text = some length) : 0 < length := by
  cases text with
  | nil => simp [characterLength?] at h
  | cons c rest =>
    simp only [characterLength?] at h
    split_ifs at h
    · obtain rfl := Option.some.inj h
      exact Nat.one_pos
    · split at h
      · simp at h
      · obtain ⟨width, -, rfl⟩ := Option.map_eq_some_iff.1 h
        exact Nat.succ_pos _

lemma isStringBody_eq (skip : Nat) (text : List Char) : isStringBody skip text = isStringBody 0 (text.drop skip) := by
  induction text generalizing skip with
  | nil => cases skip <;> simp [isStringBody]
  | cons c text ih =>
    cases skip with
    | zero => rfl
    | succ skip => rw [isStringBody, ih skip, List.drop_succ_cons]

/-- What is behind the first characters is cut off. -/
lemma cut_take (length : Nat) (text : List Char) :
    cut (byteLength (text.take length)) (byteLength text) text = .ok (text.drop length) := by
  have hcut := cut_append (text.take length) (text.drop length)
  rwa [List.take_append_drop] at hcut

lemma isStringBody_of_character (hne : text ≠ []) :
    isStringBody 0 text =
      ((characterLength? '"' text).map fun length => isStringBody 0 (text.drop length)).getD false := by
  obtain ⟨c, rest, rfl⟩ := List.exists_cons_of_ne_nil hne
  rw [isStringBody]
  cases hlength : characterLength? '"' (c :: rest) with
  | none => rfl
  | some length =>
    obtain ⟨length, rfl⟩ := Nat.exists_eq_succ_of_ne_zero (characterLength?_pos hlength).ne'
    simp only [Nat.succ_eq_add_one, Nat.add_sub_cancel, Option.map_some, Option.getD_some, List.drop_succ_cons]
    exact isStringBody_eq length rest

/-- The inside of a string is cut off character by character, and so the check of it ends. -/
lemma stringBody_eq (h : text.length < fuel) : stringBody fuel text = .ok (isStringBody 0 text) := by
  induction fuel generalizing text with
  | zero => exact absurd h (Nat.not_lt_zero _)
  | succ fuel ih =>
    rw [stringBody]
    by_cases hempty : text = []
    · subst hempty
      rfl
    · have hnot : text.isEmpty = false := by simpa using hempty
      have hquote : '"'.utf8Size = 1 := rfl
      simp only [hnot, Bool.false_eq_true, if_false, characterBytes_eq hquote, isStringBody_of_character hempty]
      cases hlength : characterLength? '"' text with
      | none => rfl
      | some length =>
        have hpos := characterLength?_pos hlength
        have hshort : (text.drop length).length < fuel := by
          have := List.length_pos_of_ne_nil hempty
          rw [List.length_drop]
          omega
        change (cut (byteLength (text.take length)) (byteLength text) text >>= stringBody fuel) = _
        rw [cut_take]
        exact ih hshort

lemma stringVerdict_eq (htext : text = '"' :: body ++ ['"']) (hfuel : text.length < fuel) :
    stringVerdict fuel text = .ok (isValidString text) := by
  have hquote : '"'.utf8Size = 1 := rfl
  have hbytes : byteLength text = byteLength body + 2 := by
    rw [htext]
    simp only [List.cons_append, byteLength_cons, byteLength_append, byteLength_nil, hquote]
    omega
  have hcut : cut 1 (byteLength text - 1) text = .ok body := by
    have hsplit : text = ['"'] ++ body ++ ['"'] := htext
    refine cut_eq_ok hsplit rfl ?_
    rw [hbytes, byteLength_append, byteLength_cons, hquote]
    simp only [byteLength_nil]
    omega
  have hbody : (text.drop 1).dropLast = body := by simp [htext]
  have hlength : body.length < fuel := by
    rw [htext] at hfuel
    simp at hfuel
    omega
  have hne : byteLength text ≠ 0 := by omega
  simp only [stringVerdict, hne, if_false, hcut, isValidString, hbody]
  exact stringBody_eq hlength

lemma constantVerdict_eq (htext : text = '\'' :: body) : constantVerdict text = .ok (constantFault? text) := by
  have hcut : cut 1 (byteLength text) text = .ok body := by
    have h := cut_append ['\''] body
    rwa [List.singleton_append, ← htext] at h
  have hbody : text.drop 1 = body := by simp [htext]
  simp only [constantVerdict, hcut, constantFault?, hbody]
  have hquote : '\''.utf8Size = 1 := rfl
  change (characterBytes '\'' body >>= _) = _
  rw [characterBytes_eq hquote]
  cases hlength : characterLength? '\'' body with
  | none => rfl
  | some length =>
    change (cut (byteLength (body.take length)) (byteLength body) body >>= _) = _
    rw [cut_take]
    rfl

end Literals

end QueryScope.Template
