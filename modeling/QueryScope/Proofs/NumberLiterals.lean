import QueryScope.Proofs.CharClasses
import QueryScope.Proofs.ScanSteps
import QueryScope.Template.Literal
import Mathlib.Data.List.TakeWhile

/-!
# Numbers in templates

The numbers that a template may hold, written down as a grammar, and the real parts that the check lets through. For
decimal numbers the two agree. Behind the mark of another base the check only asks for one hexadecimal digit.
-/

namespace QueryScope.Template

/-! ## The grammar of numbers -/

/-- One sign or none. -/
def IsSign (text : List Char) : Prop :=
  text = [] ∨ text = ['+'] ∨ text = ['-']

/-- Digits with an optional point. There is a digit before the point or behind it. -/
def IsMantissa (isDigit : Char → Bool) (text : List Char) : Prop :=
  ∃ whole fraction, (text = whole ∧ fraction = [] ∨ text = whole ++ '.' :: fraction) ∧ whole ++ fraction ≠ [] ∧
    ∀ c ∈ whole ++ fraction, isDigit c = true

/-- The mark of an exponent, an optional sign, and at least one decimal digit. -/
def IsExponent (marks : List Char) (text : List Char) : Prop :=
  ∃ mark sign digits, text = mark :: (sign ++ digits) ∧ mark ∈ marks ∧ IsSign sign ∧ digits ≠ [] ∧
    ∀ c ∈ digits, c.isDigit = true

/-- A decimal number. -/
def IsDecimal (text : List Char) : Prop :=
  ∃ mantissa exponent, text = mantissa ++ exponent ∧ IsMantissa Char.isDigit mantissa ∧
    (exponent = [] ∨ IsExponent ['e', 'E'] exponent)

/-- A real number of the language, without a sign. -/
inductive IsLiteral : List Char → Prop
  | decimal {text : List Char} (h : IsDecimal text) : IsLiteral text
  | binary {mark : Char} {digits : List Char} (hmark : mark = 'b' ∨ mark = 'B') (hne : digits ≠ [])
      (hdigits : ∀ c ∈ digits, c = '0' ∨ c = '1') : IsLiteral ('0' :: mark :: digits)
  | octal {mark : Char} {digits : List Char} (hmark : mark = 'o' ∨ mark = 'O') (hne : digits ≠ [])
      (hdigits : ∀ c ∈ digits, '0' ≤ c ∧ c ≤ '7') : IsLiteral ('0' :: mark :: digits)
  | hexadecimal {mark : Char} {digits : List Char} (hmark : mark = 'x' ∨ mark = 'X') (hne : digits ≠ [])
      (hdigits : ∀ c ∈ digits, Text.isHexDigit c = true) : IsLiteral ('0' :: mark :: digits)
  | power {mark : Char} {mantissa exponent : List Char} (hmark : mark = 'x' ∨ mark = 'X')
      (hmantissa : IsMantissa Text.isHexDigit mantissa) (hexponent : IsExponent ['p', 'P'] exponent) :
      IsLiteral ('0' :: mark :: (mantissa ++ exponent))

/-- A number whose real parts are of some form: a real number, an imaginary one, or the sum of both. -/
inductive IsNumber (real : List Char → Prop) : List Char → Prop
  | real {sign part : List Char} (hsign : IsSign sign) (hpart : real part) : IsNumber real (sign ++ part)
  | imaginary {sign part : List Char} (hsign : IsSign sign) (hpart : real part) : IsNumber real (sign ++ part ++ ['i'])
  | complex {sign part other : List Char} {plus : Char} (hsign : IsSign sign) (hpart : real part)
      (hplus : plus = '+' ∨ plus = '-') (hother : real other) : IsNumber real (sign ++ part ++ plus :: other ++ ['i'])

/-! ## Signs -/

/-- A sign that stands behind a character belongs to an exponent. -/
def SignBehind (c d : Char) : Prop :=
  d = '+' ∨ d = '-' → c ∈ ['e', 'E', 'p', 'P']

/-- Behind its first character a text has signs in exponents only. -/
def Steady (text : List Char) : Prop :=
  text.IsChain SignBehind

section Signs

variable {text : List Char}

lemma signsPart_eq_false_iff {before sign : Char} : signsPart before sign = false ↔ SignBehind before sign := by
  simp only [signsPart, SignBehind, Bool.and_eq_false_imp, Bool.or_eq_true, beq_iff_eq, Bool.not_eq_false']
  rw [List.contains_iff_mem]
  rfl

lemma splitBackwards_eq_none_iff : splitBackwards text = none ↔ text.IsChain fun d c => SignBehind c d := by
  fun_induction splitBackwards text with
  | case1 sign before rest hpart =>
    simp [List.isChain_cons_cons, ← signsPart_eq_false_iff, hpart]
  | case2 sign before rest hpart ih =>
    rw [Option.map_eq_none_iff, ih, List.isChain_cons_cons, ← signsPart_eq_false_iff]
    simp [hpart]
  | case3 text hshort =>
    rcases text with _ | ⟨c, _ | ⟨d, text⟩⟩
    · simp
    · simp
    · exact absurd rfl (hshort c d text)

/-- A text without a sign between two parts is not split. -/
lemma splitComplex?_eq_none_iff : splitComplex? text = none ↔ Steady text := by
  rw [splitComplex?, Option.map_eq_none_iff, splitBackwards_eq_none_iff, List.isChain_reverse]
  rfl

/-- The split is at the last sign that is not part of an exponent. -/
lemma splitBackwards_append {last rest : List Char} {sign c : Char}
    (hlast : (last ++ [sign]).IsChain fun d c => SignBehind c d) (hpart : ¬SignBehind c sign) :
    splitBackwards (last ++ sign :: c :: rest) = some (last ++ [sign], c :: rest) := by
  induction last with
  | nil =>
    rw [← signsPart_eq_false_iff, Bool.not_eq_false] at hpart
    simp [splitBackwards, hpart]
  | cons d last ih =>
    obtain ⟨e, before, hbefore⟩ : ∃ e before, last ++ [sign] = e :: before :=
      List.exists_cons_of_ne_nil (by simp)
    rw [List.cons_append, hbefore, List.isChain_cons_cons, ← signsPart_eq_false_iff] at hlast
    have hrest : last ++ sign :: c :: rest = e :: (before ++ c :: rest) := by
      rw [← List.cons_append, ← hbefore]
      simp
    rw [List.cons_append, hrest, splitBackwards, if_neg (by simp [hlast.1]), ← hrest, ih (hbefore ▸ hlast.2)]
    rfl

lemma splitComplex?_append {first other : List Char} {plus c : Char} (hother : Steady (plus :: other))
    (hpart : ¬SignBehind c plus) :
    splitComplex? (first ++ c :: plus :: other) = some (first ++ [c], plus :: other) := by
  have hchain : (other.reverse ++ [plus]).IsChain fun d c => SignBehind c d := by
    rw [← List.reverse_cons, List.isChain_reverse]
    exact hother
  rw [splitComplex?, List.reverse_append, List.reverse_cons, List.reverse_cons]
  simp only [List.append_assoc, List.cons_append, List.nil_append]
  rw [splitBackwards_append hchain hpart]
  simp

/-- A character that is no sign. -/
def IsPlain (c : Char) : Prop :=
  c ≠ '+' ∧ c ≠ '-'

lemma steady_of_plain (hplain : ∀ c ∈ text, IsPlain c) : Steady text := by
  induction text with
  | nil => exact List.isChain_nil
  | cons c text ih =>
    rw [List.forall_mem_cons] at hplain
    refine List.isChain_cons.2 ⟨fun d hd hsign => ?_, ih hplain.2⟩
    exact absurd hsign (not_or.2 (hplain.2 d (List.mem_of_mem_head? hd)))

lemma Steady.append_plain {plain : List Char} (h : Steady text) (hplain : ∀ c ∈ plain, IsPlain c) :
    Steady (text ++ plain) := by
  refine List.isChain_append.2 ⟨h, steady_of_plain hplain, fun _ _ d hd hsign => ?_⟩
  exact absurd hsign (not_or.2 (hplain d (List.mem_of_mem_head? hd)))

lemma IsSign.steady {sign : List Char} (hsign : IsSign sign) : Steady sign := by
  rcases hsign with rfl | rfl | rfl
  · exact List.isChain_nil
  · exact List.isChain_singleton _
  · exact List.isChain_singleton _

lemma IsSign.steady_append {sign plain : List Char} (hsign : IsSign sign) (hplain : ∀ c ∈ plain, IsPlain c) :
    Steady (sign ++ plain) :=
  hsign.steady.append_plain hplain

lemma Steady.append_exponent {mark : Char} {sign digits : List Char} (h : Steady text)
    (hmark : mark ∈ ['e', 'E', 'p', 'P']) (hsign : IsSign sign) (hdigits : ∀ c ∈ digits, IsPlain c) :
    Steady (text ++ mark :: (sign ++ digits)) := by
  have hplain : IsPlain mark := by
    constructor <;> rintro rfl <;> simp at hmark
  refine List.isChain_append.2 ⟨h, List.isChain_cons.2 ⟨fun d _ _ => hmark, hsign.steady_append hdigits⟩, ?_⟩
  rintro c _ d hd hplus
  obtain rfl : mark = d := by simpa using hd
  exact absurd hplus (not_or.2 hplain)

end Signs

/-! ## Decimal numbers -/

section Decimals

variable {text : List Char}

/-- A text is a sign and the rest, where a sign is taken if there is one. -/
lemma exists_sign (text : List Char) :
    ∃ sign, text = sign ++ dropSign text ∧ IsSign sign ∧
      (sign = [] → ∀ c ∈ (dropSign text).head?, c ≠ '+' ∧ c ≠ '-') := by
  unfold dropSign
  split
  case h_1 rest => exact ⟨['+'], rfl, .inr (.inl rfl), nofun⟩
  case h_2 rest => exact ⟨['-'], rfl, .inr (.inr rfl), nofun⟩
  case h_3 hplus hminus =>
    refine ⟨[], rfl, .inl rfl, fun _ c hc => ⟨?_, ?_⟩⟩
    · rintro rfl
      obtain ⟨rest, rfl⟩ := List.head?_eq_some_iff.1 hc
      exact hplus rest rfl
    · rintro rfl
      obtain ⟨rest, rfl⟩ := List.head?_eq_some_iff.1 hc
      exact hminus rest rfl

lemma ne_sign_of_isDigit {c : Char} (h : c.isDigit = true) : c ≠ '+' ∧ c ≠ '-' := by
  constructor <;> rintro rfl <;> simp at h

/-- What is left behind an exponent, where there is one. -/
lemma exponentPart_snd {mark : Char} {sign digits : List Char} (hmark : mark = 'e' ∨ mark = 'E') (hsign : IsSign sign)
    (hdigits : sign = [] → ∀ c ∈ digits.head?, c ≠ '+' ∧ c ≠ '-') :
    (Scan.exponentPart (mark :: (sign ++ digits))).2 =
      if digits.takeWhile Char.isDigit = [] then mark :: (sign ++ digits) else digits.dropWhile Char.isDigit := by
  simp only [Scan.exponentPart, if_pos hmark]
  rcases hsign with rfl | rfl | rfl
  · rcases digits with _ | ⟨c, digits⟩
    · rfl
    · obtain ⟨hplus, hminus⟩ := hdigits rfl c rfl
      rw [List.nil_append]
      split
      · simp_all
      · simp_all
      · split_ifs <;> rfl
  · simp only [List.cons_append, List.nil_append]
    split_ifs <;> rfl
  · simp only [List.cons_append, List.nil_append]
    split_ifs <;> rfl

/-- The exponent that is read reaches to the end of the text exactly if the text is one, or empty. -/
lemma exponentPart_eq_nil_iff : (Scan.exponentPart text).2 = [] ↔ text = [] ∨ IsExponent ['e', 'E'] text := by
  constructor
  · intro h
    rcases text with _ | ⟨mark, tail⟩
    · exact .inl rfl
    · by_cases hmark : mark = 'e' ∨ mark = 'E'
      · obtain ⟨sign, htail, hsign, hhead⟩ := exists_sign tail
        rw [htail, exponentPart_snd hmark hsign hhead] at h
        split_ifs at h with hdigits
        refine .inr ⟨mark, sign, dropSign tail, by rw [← htail], by simpa using hmark, hsign, ?_,
          List.dropWhile_eq_nil_iff.1 h⟩
        rintro hnil
        exact hdigits (by rw [hnil]; rfl)
      · simp [Scan.exponentPart, hmark] at h
  · rintro (rfl | ⟨mark, sign, digits, rfl, hmark, hsign, hne, hdigits⟩)
    · rfl
    · have hhead : ∀ c ∈ digits.head?, c ≠ '+' ∧ c ≠ '-' := fun c hc =>
        ne_sign_of_isDigit (hdigits c (List.mem_of_mem_head? hc))
      have hall : digits.takeWhile Char.isDigit = digits := List.takeWhile_eq_self_iff.2 hdigits
      rw [exponentPart_snd (by simpa using hmark) hsign fun _ => hhead, hall, if_neg hne,
        List.dropWhile_eq_nil_iff.2 hdigits]

lemma mantissa?_eq_some {whole fraction rest : List Char} (h : Scan.mantissa? text = some (whole, fraction, rest)) :
    ∃ mantissa, text = mantissa ++ rest ∧ IsMantissa Char.isDigit mantissa := by
  simp only [Scan.mantissa?] at h
  have hwhole : ∀ c ∈ text.takeWhile Char.isDigit, c.isDigit = true := fun c hc => (List.mem_takeWhile_imp hc)
  have htext := List.takeWhile_append_dropWhile (p := Char.isDigit) (l := text)
  split at h
  case h_1 tail hrest =>
    split_ifs at h with hempty
    obtain ⟨rfl, rfl, rfl⟩ : text.takeWhile Char.isDigit = whole ∧ tail.takeWhile Char.isDigit = fraction ∧
        tail.dropWhile Char.isDigit = rest := by simpa using h
    refine ⟨text.takeWhile Char.isDigit ++ '.' :: tail.takeWhile Char.isDigit, ?_, _, _, .inr rfl, ?_, ?_⟩
    · rw [List.append_assoc, List.cons_append, List.takeWhile_append_dropWhile, ← hrest, htext]
    · simpa using hempty
    · rw [List.forall_mem_append]
      exact ⟨hwhole, fun c hc => List.mem_takeWhile_imp hc⟩
  case h_2 hrest =>
    split_ifs at h with hempty
    obtain ⟨rfl, rfl, rfl⟩ : text.takeWhile Char.isDigit = whole ∧ [] = fraction ∧
        text.dropWhile Char.isDigit = rest := by simpa using h
    exact ⟨_, htext.symm, _, [], .inl ⟨rfl, rfl⟩, by simpa using hempty, by simpa using hwhole⟩

lemma mantissa?_append {mantissa rest : List Char} (h : IsMantissa Char.isDigit mantissa)
    (hrest : ∀ c ∈ rest.head?, c.isDigit = false ∧ c ≠ '.') :
    ∃ whole fraction, Scan.mantissa? (mantissa ++ rest) = some (whole, fraction, rest) := by
  obtain ⟨whole, fraction, hform, hne, hdigits⟩ := h
  rw [List.forall_mem_append] at hdigits
  have hstop : rest.head?.any Char.isDigit = false := by
    cases hhead : rest.head? with
    | none => rfl
    | some c => simpa [hhead] using (hrest c hhead).1
  rcases hform with ⟨rfl, rfl⟩ | rfl
  · refine ⟨mantissa, [], ?_⟩
    have hne' : mantissa ≠ [] := by simpa using hne
    simp only [Scan.mantissa?, Text.takeWhile_append_stop hdigits.1 hstop, Text.dropWhile_append_stop hdigits.1 hstop]
    split
    case h_1 => exact absurd rfl (hrest '.' rfl).2
    case h_2 => rw [if_neg hne']
  · refine ⟨whole, fraction, ?_⟩
    have hpoint : ('.' :: (fraction ++ rest)).head?.any Char.isDigit = false := by simp
    simp only [Scan.mantissa?, List.append_assoc, List.cons_append, Text.takeWhile_append_stop hdigits.1 hpoint,
      Text.dropWhile_append_stop hdigits.1 hpoint, Text.takeWhile_append_stop hdigits.2 hstop,
      Text.dropWhile_append_stop hdigits.2 hstop]
    rw [if_neg (by simpa using hne)]

lemma isDecimalText_iff (h : dropSign text = text) : isDecimalText text = true ↔ IsDecimal text := by
  have hread : isDecimalText text = true ↔
      ∃ whole fraction rest, Scan.mantissa? text = some (whole, fraction, rest) ∧ (Scan.exponentPart rest).2 = [] := by
    rw [isDecimalText, h, Scan.decimal?]
    cases Scan.mantissa? text with
    | none => simp
    | some read => simp [Prod.ext_iff]
  rw [hread]
  constructor
  · rintro ⟨whole, fraction, rest, hmantissa, hexponent⟩
    obtain ⟨mantissa, rfl, hdigits⟩ := mantissa?_eq_some hmantissa
    exact ⟨mantissa, rest, rfl, hdigits, exponentPart_eq_nil_iff.1 hexponent⟩
  · rintro ⟨mantissa, exponent, rfl, hmantissa, hexponent⟩
    have hhead : ∀ c ∈ exponent.head?, c.isDigit = false ∧ c ≠ '.' := by
      rintro c hc
      rcases hexponent with rfl | ⟨mark, sign, digits, rfl, hmark, -⟩
      · simp at hc
      · obtain rfl : mark = c := by simpa using hc
        have hmark' : mark = 'e' ∨ mark = 'E' := by simpa using hmark
        rcases hmark' with rfl | rfl <;> decide
    obtain ⟨whole, fraction, hread⟩ := mantissa?_append hmantissa hhead
    exact ⟨whole, fraction, exponent, hread, exponentPart_eq_nil_iff.2 hexponent⟩

lemma IsMantissa.mem {isDigit : Char → Bool} {c : Char} (h : IsMantissa isDigit text) (hc : c ∈ text) :
    c = '.' ∨ isDigit c = true := by
  obtain ⟨whole, fraction, hform, -, hdigits⟩ := h
  have hmem : c = '.' ∨ c ∈ whole ++ fraction := by
    rcases hform with ⟨rfl, rfl⟩ | rfl
    · simpa using .inr hc
    · simp only [List.mem_append, List.mem_cons] at hc ⊢
      tauto
  exact hmem.imp_right (hdigits c)

lemma IsDecimal.mem {c : Char} (h : IsDecimal text) (hc : c ∈ text) :
    c.isDigit = true ∨ c ∈ ['.', 'e', 'E', '+', '-'] := by
  obtain ⟨mantissa, exponent, rfl, hmantissa, hexponent⟩ := h
  rcases List.mem_append.1 hc with hc | hc
  · rcases hmantissa.mem hc with rfl | hdigit
    · exact .inr (by simp)
    · exact .inl hdigit
  · rcases hexponent with rfl | ⟨mark, sign, digits, rfl, hmark, hsign, -, hdigits⟩
    · simp at hc
    · rcases List.mem_cons.1 hc with rfl | hc
      · refine .inr ?_
        simp only [List.mem_cons, List.not_mem_nil, or_false] at hmark ⊢
        tauto
      · rcases List.mem_append.1 hc with hc | hc
        · rcases hsign with rfl | rfl | rfl <;> simp_all
        · exact .inl (hdigits c hc)

lemma IsMantissa.plain {isDigit : Char → Bool} (hdigit : ∀ c, isDigit c = true → IsPlain c)
    (h : IsMantissa isDigit text) : ∀ c ∈ text, IsPlain c := by
  intro c hc
  rcases h.mem hc with rfl | hc
  · exact ⟨by decide, by decide⟩
  · exact hdigit c hc

lemma IsDecimal.steady (h : IsDecimal text) : Steady text := by
  obtain ⟨mantissa, exponent, rfl, hmantissa, hexponent⟩ := h
  have hsteady : Steady mantissa := steady_of_plain (hmantissa.plain fun c => ne_sign_of_isDigit)
  rcases hexponent with rfl | ⟨mark, sign, digits, rfl, hmark, hsign, -, hdigits⟩
  · simpa using hsteady
  · refine hsteady.append_exponent ?_ hsign fun c hc => ne_sign_of_isDigit (hdigits c hc)
    simp only [List.mem_cons, List.not_mem_nil, or_false] at hmark ⊢
    tauto

end Decimals

/-! ## Real parts that are let through -/

/-- A letter behind a zero that marks another base. -/
def IsBaseMark (c : Char) : Prop :=
  c ∈ ['x', 'X', 'o', 'O', 'b', 'B']

/-- A real part that the check lets through: a decimal number, or the mark of a base and behind it, among anything that
is no sign between two parts, a hexadecimal digit. -/
inductive IsLoose : List Char → Prop
  | decimal {text : List Char} (h : IsDecimal text) : IsLoose text
  | marked {mark : Char} {tail : List Char} (hmark : IsBaseMark mark) (hdigit : ∃ c ∈ tail, Text.isHexDigit c = true)
      (hsteady : Steady ('0' :: mark :: tail)) : IsLoose ('0' :: mark :: tail)

lemma afterBaseMark?_eq_some_iff {text digits : List Char} :
    afterBaseMark? text = some digits ↔
      ∃ mark tail, text = '0' :: mark :: tail ∧ IsBaseMark mark ∧ digits = tail.map Char.toLower := by
  have hzero {c : Char} : c.toLower = '0' ↔ c = '0' := by
    rw [Text.toNat_eq_iff, Text.toNat_eq_iff, Text.toNat_toLower]
    have h : '0'.toNat = 48 := rfl
    split_ifs <;> omega
  have hmark {c : Char} : IsBaseMark c ↔ c.toLower = 'x' ∨ c.toLower = 'o' ∨ c.toLower = 'b' := by
    simp only [IsBaseMark, List.mem_cons, List.not_mem_nil, or_false, Text.toNat_eq_iff, Text.toNat_toLower]
    simp only [Char.reduceToNat]
    split_ifs <;> omega
  unfold afterBaseMark?
  rcases text with _ | ⟨zero, _ | ⟨mark, tail⟩⟩
  · simp
  · simp
  · simp only [List.map_cons, List.cons.injEq]
    constructor
    · intro h
      refine ⟨mark, tail, ?_⟩
      split at h
      case h_1 rest heq => simp_all
      case h_2 rest heq => simp_all
      case h_3 rest heq => simp_all
      case h_4 => simp at h
    · rintro ⟨_, _, ⟨rfl, rfl, rfl⟩, hbase, rfl⟩
      have hz : Char.toLower '0' = '0' := by decide
      rw [hz]
      rcases hmark.1 hbase with h | h | h <;> simp only [h]

section Loose

variable {text part : List Char}

lemma IsLoose.steady (h : IsLoose text) : Steady text := by
  cases h with
  | decimal h => exact h.steady
  | marked _ _ hsteady => exact hsteady

lemma isPlain_of_isHexDigit {c : Char} (h : Text.isHexDigit c = true) : IsPlain c := by
  constructor <;> rintro rfl <;> simp [Text.isHexDigit] at h

lemma IsBaseMark.plain {mark : Char} {tail : List Char} (hmark : IsBaseMark mark) (htail : ∀ c ∈ tail, IsPlain c) :
    ∀ c ∈ '0' :: mark :: tail, IsPlain c := by
  have hplain : IsPlain mark := by
    constructor <;> rintro rfl <;> simp [IsBaseMark] at hmark
  rw [List.forall_mem_cons, List.forall_mem_cons]
  exact ⟨⟨by decide, by decide⟩, hplain, htail⟩

lemma IsLoose.digits {mark : Char} {digits : List Char} (hmark : IsBaseMark mark) (hne : digits ≠ [])
    (hdigits : ∀ c ∈ digits, Text.isHexDigit c = true) : IsLoose ('0' :: mark :: digits) := by
  obtain ⟨c, rest, rfl⟩ := List.exists_cons_of_ne_nil hne
  have hplain : ∀ d ∈ c :: rest, IsPlain d := fun d hd => isPlain_of_isHexDigit (hdigits d hd)
  exact .marked hmark ⟨c, by simp, hdigits c (by simp)⟩ (steady_of_plain (hmark.plain hplain))

lemma IsLoose.power {mark : Char} {mantissa exponent : List Char} (hmark : IsBaseMark mark)
    (hmantissa : IsMantissa Text.isHexDigit mantissa) (hexponent : IsExponent ['p', 'P'] exponent) :
    IsLoose ('0' :: mark :: (mantissa ++ exponent)) := by
  obtain ⟨letter, sign, digits, rfl, hletter, hsign, hne, hdigits⟩ := hexponent
  refine .marked hmark ?_ ?_
  · obtain ⟨c, rest, rfl⟩ := List.exists_cons_of_ne_nil hne
    exact ⟨c, by simp, by simp [Text.isHexDigit, hdigits c (by simp)]⟩
  · refine Steady.append_exponent (steady_of_plain (hmark.plain (hmantissa.plain fun _ => isPlain_of_isHexDigit)))
      ?_ hsign fun c hc => ne_sign_of_isDigit (hdigits c hc)
    simp only [List.mem_cons, List.not_mem_nil, or_false] at hletter ⊢
    tauto

/-- Every number of the language is let through. -/
lemma IsLiteral.loose (h : IsLiteral text) : IsLoose text := by
  cases h with
  | decimal h => exact .decimal h
  | binary hmark hne hdigits =>
    refine .digits (by rcases hmark with rfl | rfl <;> simp [IsBaseMark]) hne fun c hc => ?_
    rcases hdigits c hc with rfl | rfl <;> decide
  | octal hmark hne hdigits =>
    refine .digits (by rcases hmark with rfl | rfl <;> simp [IsBaseMark]) hne fun c hc => ?_
    obtain ⟨hlow, hhigh⟩ := hdigits c hc
    rw [Char.le_def, UInt32.le_iff_toNat_le] at hlow hhigh
    change 48 ≤ c.toNat at hlow
    change c.toNat ≤ 55 at hhigh
    exact Text.isHexDigit_iff.2 (by omega)
  | hexadecimal hmark hne hdigits =>
    exact .digits (by rcases hmark with rfl | rfl <;> simp [IsBaseMark]) hne hdigits
  | power hmark hmantissa hexponent =>
    exact .power (by rcases hmark with rfl | rfl <;> simp [IsBaseMark]) hmantissa hexponent

lemma dropSign_append {sign : List Char} (hsign : IsSign sign) (hpart : ∀ c ∈ part.head?, IsPlain c) :
    dropSign (sign ++ part) = part := by
  rcases hsign with rfl | rfl | rfl
  · rcases part with _ | ⟨c, part⟩
    · rfl
    · obtain ⟨hplus, hminus⟩ := hpart c rfl
      rw [List.nil_append]
      unfold dropSign
      split
      · simp_all
      · simp_all
      · rfl
  · rfl
  · rfl

/-- A part that is let through starts with no sign. -/
lemma IsLoose.head (h : IsLoose part) : part ≠ [] ∧ ∀ c ∈ part.head?, IsPlain c := by
  cases h with
  | decimal h =>
    obtain ⟨mantissa, exponent, rfl, hmantissa, -⟩ := h
    have hplain := hmantissa.plain fun _ => ne_sign_of_isDigit
    obtain ⟨whole, fraction, hform, hne, -⟩ := hmantissa
    obtain ⟨c, rest, rfl⟩ : ∃ c rest, mantissa = c :: rest := by
      apply List.exists_cons_of_ne_nil
      rintro rfl
      simp_all
    simpa using hplain c (by simp)
  | marked hmark hdigit hsteady =>
    refine ⟨by simp, ?_⟩
    simp [IsPlain]

/-- A steady text is a real number for the check exactly if it is a sign and a part that is let through. -/
lemma isReal_iff (h : Steady text) :
    isReal text = true ↔ ∃ sign part, text = sign ++ part ∧ IsSign sign ∧ IsLoose part := by
  unfold isReal
  constructor
  · intro hreal
    obtain ⟨sign, htext, hsign, hnone⟩ := exists_sign text
    rw [htext] at h
    obtain ⟨-, hsteady, hbehind⟩ := List.isChain_append.1 h
    refine ⟨sign, dropSign text, htext, hsign, ?_⟩
    cases hbase : afterBaseMark? (dropSign text) with
    | some digits =>
      rw [hbase] at hreal
      obtain ⟨mark, tail, hpart, hmark, rfl⟩ := afterBaseMark?_eq_some_iff.1 hbase
      rw [hpart] at hsteady ⊢
      refine .marked hmark ?_ hsteady
      simpa [Text.isHexDigit_toLower] using hreal
    | none =>
      rw [hbase] at hreal
      -- Behind a sign there is no other one, so a second one is not dropped.
      have hplain : ∀ c ∈ (dropSign text).head?, IsPlain c := by
        rcases hsign with rfl | rfl | rfl
        · exact hnone rfl
        · intro c hc
          refine not_or.1 fun hc' => ?_
          simpa using hbehind '+' rfl c hc hc'
        · intro c hc
          refine not_or.1 fun hc' => ?_
          simpa using hbehind '-' rfl c hc hc'
      exact .decimal ((isDecimalText_iff (dropSign_append (.inl rfl) hplain)).1 hreal)
  · rintro ⟨sign, part, rfl, hsign, hpart⟩
    rw [dropSign_append hsign hpart.head.2]
    cases hpart with
    | marked hmark hdigit hsteady =>
      rw [afterBaseMark?_eq_some_iff.2 ⟨_, _, rfl, hmark, rfl⟩]
      simpa [Text.isHexDigit_toLower] using hdigit
    | decimal hdecimal =>
      have hbase : afterBaseMark? part = none := by
        refine Option.eq_none_iff_forall_ne_some.2 fun digits hdigits => ?_
        obtain ⟨mark, tail, rfl, hmark, -⟩ := afterBaseMark?_eq_some_iff.1 hdigits
        have hmem := hdecimal.mem (c := mark) (by simp)
        simp only [IsBaseMark, List.mem_cons, List.not_mem_nil, or_false] at hmark
        rcases hmark with rfl | rfl | rfl | rfl | rfl | rfl <;> simp at hmem
      rw [hbase]
      exact (isDecimalText_iff (dropSign_append (.inl rfl) (IsLoose.decimal hdecimal).head.2)).2 hdecimal

end Loose

end QueryScope.Template
