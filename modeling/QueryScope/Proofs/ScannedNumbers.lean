import QueryScope.Proofs.NumberLiterals
import QueryScope.Proofs.TemplateSlices

/-!
# Numbers that pass the lexer and the check

The lexer takes a number apart into sign, mark of a base, digits, point, exponent and mark of a complex number, and
the check splits what the lexer took. A number passes both exactly if its real parts are let through. A real part
that passes and is none of the language has the mark of a base and behind it more than digits: a fraction without an
exponent, an exponent without digits, a sign that belongs to no exponent.
-/

namespace QueryScope.Template

/-! ## What the lexer takes for a number -/

/-- A fraction with its point, or nothing. -/
def IsPoint (digits : String) (text : List Char) : Prop :=
  text = [] ∨ ∃ fraction, text = '.' :: fraction ∧ ∀ c ∈ fraction, c ∈ digits.toList

/-- An exponent that may have no digits, or nothing. -/
def IsPower (marks : Option String) (text : List Char) : Prop :=
  text = [] ∨ ∃ letters mark sign digits, marks = some letters ∧ text = mark :: (sign ++ digits) ∧
    mark ∈ letters.toList ∧ IsSign sign ∧ ∀ c ∈ digits, c ∈ "0123456789_".toList

/-- One number as the lexer takes it apart. -/
structure Scanned where
  base : Option Char
  sign : List Char
  whole : List Char
  point : List Char
  exponent : List Char
  unit : List Char
  isBaseMark : ∀ mark ∈ base, IsBaseMark mark
  isSign : IsSign sign
  isWhole : ∀ c ∈ whole, c ∈ (digitsOf base).1.toList
  isPoint : IsPoint (digitsOf base).1 point
  isPower : IsPower (digitsOf base).2 exponent
  isUnit : unit = [] ∨ unit = ['i']

/-- The zero and the mark that a number in another base starts with. -/
def baseLead (base : Option Char) : List Char :=
  base.elim [] (['0', ·])

/-- The characters of a number. -/
def Scanned.text (number : Scanned) : List Char :=
  number.sign ++ (baseLead number.base ++ (number.whole ++ (number.point ++ (number.exponent ++ number.unit))))

section Lexing

variable {text rest : List Char}

lemma acceptOne_spec (set : String) (text : List Char) :
    ∃ lead, text = lead ++ acceptOne set text ∧ (lead = [] ∨ ∃ c ∈ set.toList, lead = [c]) := by
  cases text with
  | nil => exact ⟨[], rfl, .inl rfl⟩
  | cons c rest =>
    by_cases hc : set.toList.contains c = true
    · exact ⟨[c], by simp only [acceptOne, if_pos hc, List.singleton_append], .inr ⟨c, List.contains_iff_mem.1 hc, rfl⟩⟩
    · exact ⟨[], by simp only [acceptOne, if_neg hc, List.nil_append], .inl rfl⟩

lemma acceptOne_sign (text : List Char) : ∃ sign, text = sign ++ acceptOne "+-" text ∧ IsSign sign := by
  obtain ⟨lead, htext, rfl | ⟨c, hc, rfl⟩⟩ := acceptOne_spec "+-" text
  · exact ⟨[], htext, .inl rfl⟩
  · refine ⟨[c], htext, .inr ?_⟩
    have hc' : c = '+' ∨ c = '-' := by simpa using hc
    exact hc'.imp (by rintro rfl; rfl) (by rintro rfl; rfl)

lemma acceptRun_spec (set : String) (text : List Char) :
    ∃ run, text = run ++ acceptRun set text ∧ ∀ c ∈ run, c ∈ set.toList :=
  ⟨_, List.takeWhile_append_dropWhile.symm, fun _ hc => List.contains_iff_mem.1 (List.mem_takeWhile_imp hc)⟩

lemma acceptOne_of_startsIn {set : String} (h : startsIn set text = true) :
    ∃ c ∈ set.toList, text = c :: acceptOne set text := by
  cases text with
  | nil => simp [startsIn] at h
  | cons c rest =>
    have hc : set.toList.contains c = true := by simpa [startsIn] using h
    exact ⟨c, List.contains_iff_mem.1 hc, by rw [acceptOne, if_pos hc]⟩

/-- The mark of a base and what stands behind it. -/
def marked? (text : List Char) : Option (Char × List Char) :=
  match text with
  | '0' :: c :: rest => if "xXoObB".toList.contains c then some (c, rest) else none
  | _ => none

lemma marked?_spec (text : List Char) :
    (∀ mark ∈ (marked? text).map (·.1), IsBaseMark mark) ∧
      text = baseLead ((marked? text).map (·.1)) ++ ((marked? text).map (·.2)).getD text := by
  unfold marked?
  split
  · split_ifs with hc
    · simpa [IsBaseMark, baseLead] using hc
    · simp [baseLead]
  · simp [baseLead]

lemma fraction_spec (digits : String) (text : List Char) :
    ∃ point, text = point ++ (if startsIn "." text then acceptRun digits (acceptOne "." text) else text) ∧
      IsPoint digits point := by
  split_ifs with hstart
  · obtain ⟨c, hc, htext⟩ := acceptOne_of_startsIn hstart
    obtain rfl : c = '.' := by simpa using hc
    obtain ⟨fraction, hrest, hfraction⟩ := acceptRun_spec digits (acceptOne "." text)
    refine ⟨'.' :: fraction, ?_, .inr ⟨fraction, rfl, hfraction⟩⟩
    rw [List.cons_append, ← hrest, ← htext]
  · exact ⟨[], rfl, .inl rfl⟩

lemma numberMantissa_eq (text : List Char) :
    let marked := marked? (acceptOne "+-" text)
    let base := marked.map (·.1)
    let behind := acceptRun (digitsOf base).1 ((marked.map (·.2)).getD (acceptOne "+-" text))
    numberMantissa text =
      (if startsIn "." behind then acceptRun (digitsOf base).1 (acceptOne "." behind) else behind,
        (digitsOf base).2) :=
  rfl

lemma numberMantissa_spec (text : List Char) :
    ∃ base sign whole point, text = sign ++ (baseLead base ++ (whole ++ (point ++ (numberMantissa text).1))) ∧
      (∀ mark ∈ base, IsBaseMark mark) ∧ IsSign sign ∧ (∀ c ∈ whole, c ∈ (digitsOf base).1.toList) ∧
      IsPoint (digitsOf base).1 point ∧ (numberMantissa text).2 = (digitsOf base).2 := by
  rw [numberMantissa_eq text]
  obtain ⟨sign, htext, hsign⟩ := acceptOne_sign text
  obtain ⟨hmark, hunsigned⟩ := marked?_spec (acceptOne "+-" text)
  generalize marked? (acceptOne "+-" text) = marked at *
  obtain ⟨whole, hbehind, hwhole⟩ :=
    acceptRun_spec (digitsOf (marked.map (·.1))).1 ((marked.map (·.2)).getD (acceptOne "+-" text))
  obtain ⟨point, hrest, hpoint⟩ := fraction_spec (digitsOf (marked.map (·.1))).1
    (acceptRun (digitsOf (marked.map (·.1))).1 ((marked.map (·.2)).getD (acceptOne "+-" text)))
  refine ⟨marked.map (·.1), sign, whole, point, ?_, hmark, ?_⟩
  · rw [← hrest, ← hbehind, ← hunsigned, ← htext]
  · exact ⟨hsign, hwhole, hpoint, rfl⟩

lemma numberExponent_spec (marks : Option String) (text : List Char) :
    ∃ exponent, text = exponent ++ numberExponent marks text ∧ IsPower marks exponent := by
  unfold numberExponent
  split
  · next letters =>
    split_ifs with hstart
    · obtain ⟨mark, hmark, htext⟩ := acceptOne_of_startsIn hstart
      obtain ⟨sign, hsigned, hsign⟩ := acceptOne_sign (acceptOne letters text)
      obtain ⟨digits, hrest, hdigits⟩ := acceptRun_spec "0123456789_" (acceptOne "+-" (acceptOne letters text))
      refine ⟨mark :: (sign ++ digits), ?_, .inr ⟨letters, mark, sign, digits, rfl, rfl, hmark, hsign, hdigits⟩⟩
      rw [List.cons_append, List.append_assoc, ← hrest, ← hsigned, ← htext]
    · exact ⟨[], rfl, .inl rfl⟩
  · exact ⟨[], rfl, .inl rfl⟩

lemma afterNumber_spec (h : afterNumber text = (rest, true)) : ∃ number : Scanned, text = number.text ++ rest := by
  obtain ⟨base, sign, whole, point, htext, hbase, hsign, hwhole, hpoint, hmarks⟩ := numberMantissa_spec text
  obtain ⟨exponent, hrest, hexponent⟩ := numberExponent_spec (numberMantissa text).2 (numberMantissa text).1
  obtain ⟨unit, hbehind, hunit⟩ := acceptOne_spec "i" (numberExponent (numberMantissa text).2 (numberMantissa text).1)
  have hend : acceptOne "i" (numberExponent (numberMantissa text).2 (numberMantissa text).1) = rest := by
    simp only [afterNumber] at h
    split at h
    · split_ifs at h
      · exact absurd (Prod.mk.inj h).2 (by simp)
      · exact (Prod.mk.inj h).1
    · next hnil => rw [hnil, (Prod.mk.inj h).1]
  have hunit' : unit = [] ∨ unit = ['i'] := by simpa using hunit
  refine ⟨⟨base, sign, whole, point, exponent, unit, hbase, hsign, hwhole, hpoint, hmarks ▸ hexponent, hunit'⟩, ?_⟩
  simp only [Scanned.text, List.append_assoc]
  rw [← hend, ← hbehind, ← hrest, ← htext]

/-- A number that ends well is one number, or two of them with the mark of a complex number at the end. -/
def IsRead (text : List Char) : Prop :=
  ∃ (first : Scanned) (second : List Char), text = first.text ++ second ∧
    (second = [] ∨ (∃ number : Scanned, second = number.text) ∧ (∃ plus ∈ second.head?, ¬IsPlain plus) ∧
      text.getLast? = some 'i')

lemma afterComplex_spec (h : afterComplex text = (rest, true)) : ∃ number, text = number ++ rest ∧ IsRead number := by
  simp only [afterComplex] at h
  rcases hfirst : afterNumber text with ⟨behind, good⟩
  simp only [hfirst] at h
  split_ifs at h with hsign
  · rw [Bool.and_eq_true] at hsign
    obtain ⟨rfl, hsign⟩ := hsign
    obtain ⟨first, htext⟩ := afterNumber_spec hfirst
    rcases hsecond : afterNumber behind with ⟨tail, ends⟩
    simp only [hsecond, Prod.mk.injEq, Bool.and_eq_true, decide_eq_true_eq] at h
    obtain ⟨rfl, rfl, hlast⟩ := h
    obtain ⟨second, hbehind⟩ := afterNumber_spec hsecond
    have hnumber : text = first.text ++ second.text ++ tail := by rw [List.append_assoc, ← hbehind, ← htext]
    refine ⟨first.text ++ second.text, hnumber, first, second.text, rfl, ?_⟩
    by_cases hnil : second.text = []
    · exact .inl hnil
    · refine .inr ⟨⟨second, rfl⟩, ?_, ?_⟩
      · obtain ⟨plus, other, hcons⟩ := List.exists_cons_of_ne_nil hnil
        rw [hbehind, hcons] at hsign
        have hplus : plus = '+' ∨ plus = '-' := by simpa [startsIn] using hsign
        exact ⟨plus, by rw [hcons]; rfl, fun hplain => absurd hplus (not_or.2 hplain)⟩
      · rwa [hnumber, List.length_append, Nat.add_sub_cancel, List.take_left] at hlast
  · obtain ⟨rfl, rfl⟩ := Prod.mk.inj h
    obtain ⟨first, htext⟩ := afterNumber_spec hfirst
    exact ⟨first.text, htext, first, [], by simp, .inl rfl⟩

lemma mem_digits {c : Char} (h : c.isDigit = true) : c ∈ (digitsOf none).1.toList := by
  rw [Text.isDigit_iff] at h
  have hmem : c ∈ (digitsOf none).1.toList ↔ c.toNat ∈ List.range' 48 10 ∨ c.toNat = 95 := by
    simp [digitsOf, Text.toNat_eq_iff, List.range', or_assoc]
  rw [hmem, List.mem_range'_1]
  omega

/-- One character that a number may start with is a number for the lexer. -/
lemma isRead_lead {c : Char} (h : c = '.' ∨ c = '+' ∨ c = '-' ∨ c.isDigit = true) : IsRead [c] := by
  have hread (number : Scanned) (htext : number.text = [c]) : IsRead [c] := ⟨number, [], by simp [htext], .inl rfl⟩
  have hsign (h : IsSign [c]) : IsRead [c] :=
    hread ⟨none, [c], [], [], [], [], by simp, h, by simp, .inl rfl, .inl rfl, .inl rfl⟩ rfl
  rcases h with rfl | rfl | rfl | hdigit
  · have hpoint : IsPoint (digitsOf none).1 ['.'] := .inr ⟨[], rfl, by simp⟩
    exact hread ⟨none, [], [], ['.'], [], [], by simp, .inl rfl, by simp, hpoint, .inl rfl, .inl rfl⟩ rfl
  · exact hsign (.inr (.inl rfl))
  · exact hsign (.inr (.inr rfl))
  · refine hread ⟨none, [], [c], [], [], [], by simp, .inl rfl, ?_, .inl rfl, .inl rfl, .inl rfl⟩ rfl
    rw [List.forall_mem_singleton]
    exact mem_digits hdigit

lemma Inner.number_inv {depth more : Nat} {c : Char} (h : Inner depth c rest .number more) :
    (c = '.' ∨ c = '+' ∨ c = '-' ∨ c.isDigit = true) ∧
      ∃ behind, afterComplex (c :: rest) = (behind, true) ∧ more = taken (c :: rest) behind - 1 := by
  generalize hkind : Kind.number = kind at h
  cases h with
  | number hlead hnumber => exact ⟨hlead, _, hnumber, rfl⟩
  | word =>
    unfold wordKind at hkind
    split at hkind <;> simp at hkind
  | sign hsign => simp [← hkind] at hsign
  | quoted hquoted => simp [← hkind] at hquoted
  | name hname => simp [← hkind] at hname
  | _ => simp at hkind

/-- The text of a number item. -/
lemma isRead_of_mem {text : List Char} {item : Item} (h : item ∈ lex text) (hkind : item.kind = .number) :
    IsRead item.text := by
  rcases exists_lexeme_of_mem h with hout | ⟨depth, c, rest, more, hlexeme, htext⟩
  · simp [hkind] at hout
  · rw [hkind] at hlexeme
    obtain ⟨hlead, behind, hnumber, rfl⟩ := (inner_of_lexeme hlexeme).number_inv
    obtain ⟨number, hsplit, hread⟩ := afterComplex_spec hnumber
    rw [htext, hsplit, taken, List.length_append, Nat.add_sub_cancel]
    rcases number with _ | ⟨d, number⟩
    · exact isRead_lead hlead
    · obtain ⟨rfl, rfl⟩ := List.cons.inj hsplit
      simpa using hread

/-! ## Underscores -/

/-- A text without its underscores. -/
def bare (text : List Char) : List Char :=
  text.filter (· != '_')

lemma bare_append (first second : List Char) : bare (first ++ second) = bare first ++ bare second :=
  List.filter_append ..

lemma bare_cons {c : Char} (hc : c ≠ '_') (text : List Char) : bare (c :: text) = c :: bare text :=
  List.filter_cons_of_pos (by simpa using hc)

lemma bare_eq_self (h : ∀ c ∈ text, c ≠ '_') : bare text = text :=
  List.filter_eq_self.2 fun c hc => by simpa using h c hc

lemma bare_sign {sign : List Char} (h : IsSign sign) : bare sign = sign := by
  rcases h with rfl | rfl | rfl <;> rfl

lemma bare_baseLead {base : Option Char} (h : ∀ mark ∈ base, IsBaseMark mark) :
    bare (baseLead base) = baseLead base := by
  cases base with
  | none => rfl
  | some mark =>
    have hmark : mark ≠ '_' := by
      rintro rfl
      simpa [IsBaseMark] using h '_' rfl
    exact bare_eq_self (by simp [baseLead, hmark])

lemma isPoint_bare {digits : String} (h : IsPoint digits text) : IsPoint digits (bare text) := by
  rcases h with rfl | ⟨fraction, rfl, hfraction⟩
  · exact .inl rfl
  · exact .inr ⟨_, bare_cons (by decide) _, fun c hc => hfraction c (List.mem_of_mem_filter hc)⟩

lemma exponentMark_mem {base : Option Char} {letters : String} {mark : Char} (h : (digitsOf base).2 = some letters)
    (hmark : mark ∈ letters.toList) : mark ∈ ['e', 'E', 'p', 'P'] := by
  unfold digitsOf at h
  split at h
  · split_ifs at h
    · obtain rfl := Option.some.inj h
      have hmark' : mark = 'p' ∨ mark = 'P' := by simpa using hmark
      rcases hmark' with rfl | rfl <;> simp
    · obtain rfl := Option.some.inj h
      have hmark' : mark = 'e' ∨ mark = 'E' := by simpa using hmark
      rcases hmark' with rfl | rfl <;> simp
  · obtain rfl := Option.some.inj h
    have hmark' : mark = 'e' ∨ mark = 'E' := by simpa using hmark
    rcases hmark' with rfl | rfl <;> simp

lemma isPower_bare {base : Option Char} (h : IsPower (digitsOf base).2 text) :
    IsPower (digitsOf base).2 (bare text) := by
  rcases h with rfl | ⟨letters, mark, sign, digits, hmarks, rfl, hmark, hsign, hdigits⟩
  · exact .inl rfl
  · refine .inr ⟨letters, mark, sign, bare digits, hmarks, ?_, hmark, hsign,
      fun c hc => hdigits c (List.mem_of_mem_filter hc)⟩
    rw [bare_cons, bare_append, bare_sign hsign]
    rintro rfl
    simpa using exponentMark_mem hmarks hmark

/-- A number without its underscores. -/
def Scanned.unscored (number : Scanned) : Scanned where
  base := number.base
  sign := number.sign
  whole := bare number.whole
  point := bare number.point
  exponent := bare number.exponent
  unit := number.unit
  isBaseMark := number.isBaseMark
  isSign := number.isSign
  isWhole := fun c hc => number.isWhole c (List.mem_of_mem_filter hc)
  isPoint := isPoint_bare number.isPoint
  isPower := isPower_bare number.isPower
  isUnit := number.isUnit

lemma Scanned.text_unscored (number : Scanned) : number.unscored.text = bare number.text := by
  have hunit : bare number.unit = number.unit := by
    rcases number.isUnit with h | h <;> rw [h] <;> rfl
  simp only [Scanned.text, Scanned.unscored, bare_append, bare_sign number.isSign, bare_baseLead number.isBaseMark,
    hunit]

lemma isRead_bare (h : IsRead text) : IsRead (bare text) := by
  obtain ⟨first, second, rfl, hsecond⟩ := h
  refine ⟨first.unscored, bare second, by rw [bare_append, first.text_unscored], ?_⟩
  rcases hsecond with rfl | ⟨⟨number, rfl⟩, ⟨plus, hplus, hsign⟩, hlast⟩
  · exact .inl rfl
  · refine .inr ⟨⟨number.unscored, number.text_unscored.symm⟩, ⟨plus, ?_, hsign⟩, ?_⟩
    · obtain ⟨other, hother⟩ := List.head?_eq_some_iff.1 hplus
      have hne : plus ≠ '_' := by
        rintro rfl
        exact hsign ⟨by decide, by decide⟩
      rw [hother, bare_cons hne]
      rfl
    · obtain ⟨init, hinit⟩ := List.getLast?_eq_some_iff.1 hlast
      rw [hinit, bare_append]
      exact List.getLast?_eq_some_iff.2 ⟨_, rfl⟩

/-! ## Signs in a number of the lexer -/

lemma isPlain_of_mem_digitsOf {base : Option Char} {c : Char} (hc : c ∈ (digitsOf base).1.toList) : IsPlain c := by
  unfold digitsOf at hc
  constructor
  · rintro rfl
    split at hc
    · split_ifs at hc <;> simp at hc
    · simp at hc
  · rintro rfl
    split at hc
    · split_ifs at hc <;> simp at hc
    · simp at hc

lemma IsPoint.plain {base : Option Char} (h : IsPoint (digitsOf base).1 text) : ∀ c ∈ text, IsPlain c := by
  rcases h with rfl | ⟨fraction, rfl, hfraction⟩
  · simp
  · rw [List.forall_mem_cons]
    exact ⟨⟨by decide, by decide⟩, fun c hc => isPlain_of_mem_digitsOf (hfraction c hc)⟩

lemma baseLead_plain {base : Option Char} (h : ∀ mark ∈ base, IsBaseMark mark) : ∀ c ∈ baseLead base, IsPlain c := by
  cases base with
  | none => simp [baseLead]
  | some mark => exact (h mark rfl).plain (by simp)

/-- A number of the lexer has a sign at its start and in its exponent only. -/
lemma Scanned.steady (number : Scanned) : Steady number.text := by
  have hmantissa : Steady (number.sign ++ (baseLead number.base ++ (number.whole ++ number.point))) := by
    refine number.isSign.steady_append ?_
    simp only [List.forall_mem_append]
    exact ⟨baseLead_plain number.isBaseMark, fun c hc => isPlain_of_mem_digitsOf (number.isWhole c hc),
      number.isPoint.plain⟩
  have hpower :
      Steady (number.sign ++ (baseLead number.base ++ (number.whole ++ number.point)) ++ number.exponent) := by
    rcases number.isPower with h | ⟨letters, mark, sign, digits, hmarks, h, hmark, hsign, hdigits⟩
    · rwa [h, List.append_nil]
    · rw [h]
      refine hmantissa.append_exponent (exponentMark_mem hmarks hmark) hsign fun c hc => ?_
      exact @isPlain_of_mem_digitsOf none c (hdigits c hc)
  have hunit : ∀ c ∈ number.unit, IsPlain c := by
    rcases number.isUnit with h | h <;> simp [h, IsPlain]
  simpa only [Scanned.text, List.append_assoc] using hpower.append_plain hunit

end Lexing

/-! ## Digits behind the mark of a base -/

/-- A character that ends the digits of a number. -/
def endsDigits (c : Char) : Bool :=
  ['.', 'p', 'P', '+', '-', 'i'].contains c

/-- Behind the mark of a base come digits of that base, up to the first character that ends digits. -/
def Digitized (text : List Char) : Prop :=
  ∀ sign mark tail, text = sign ++ '0' :: mark :: tail → IsSign sign → IsBaseMark mark →
    ∀ c ∈ tail.takeWhile (!endsDigits ·), c ∈ (digitsOf (some mark)).1.toList

/-- A part with the mark of a base and, behind it, a point, the mark of an exponent or of a complex number, or a
sign. -/
inductive IsFlawed : List Char → Prop
  | marked {mark c : Char} {tail : List Char} (hmark : IsBaseMark mark) (hmem : c ∈ tail) (hc : endsDigits c = true) :
      IsFlawed ('0' :: mark :: tail)

section Digits

variable {text more part : List Char}

/-- The characters of a number behind its sign. -/
def Scanned.unsigned (number : Scanned) : List Char :=
  baseLead number.base ++ (number.whole ++ (number.point ++ (number.exponent ++ number.unit)))

lemma Scanned.text_eq (number : Scanned) : number.text = number.sign ++ number.unsigned :=
  rfl

lemma Scanned.head_unsigned (number : Scanned) : ∀ c ∈ number.unsigned.head?, IsPlain c := by
  intro c hc
  simp only [Scanned.unsigned, List.head?_append, Option.mem_def, Option.or_eq_some_iff] at hc
  rcases hc with hc | ⟨-, hc | ⟨-, hc | ⟨-, hc | ⟨-, hc⟩⟩⟩⟩
  · exact baseLead_plain number.isBaseMark c (List.mem_of_mem_head? hc)
  · exact isPlain_of_mem_digitsOf (number.isWhole c (List.mem_of_mem_head? hc))
  · exact number.isPoint.plain c (List.mem_of_mem_head? hc)
  · rcases number.isPower with h | ⟨letters, mark, sign, digits, hmarks, h, hmark, -⟩
    · simp [h] at hc
    · obtain rfl : mark = c := by simpa [h] using hc
      have hmem := exponentMark_mem hmarks hmark
      constructor <;> rintro rfl <;> simp at hmem
  · rcases number.isUnit with h | h
    · simp [h] at hc
    · obtain rfl : 'i' = c := by simpa [h] using hc
      exact ⟨by decide, by decide⟩

lemma Scanned.dropSign_append (number : Scanned) (hmore : more ≠ [] → number.text ≠ []) :
    dropSign (number.text ++ more) = number.unsigned ++ more := by
  rw [Scanned.text_eq, List.append_assoc]
  by_cases hunsigned : number.unsigned = [] ∧ more ≠ []
  · have hne := hmore hunsigned.2
    rw [Scanned.text_eq, hunsigned.1, List.append_nil] at hne
    rcases number.isSign.resolve_left hne with h | h <;> rw [h] <;> rfl
  · refine Template.dropSign_append number.isSign fun c hc => ?_
    rw [not_and_or, not_not] at hunsigned
    rcases hunsigned with hunsigned | rfl
    · rw [List.head?_append_of_ne_nil _ hunsigned] at hc
      exact number.head_unsigned c hc
    · rw [List.append_nil] at hc
      exact number.head_unsigned c hc

/-- A number that the lexer takes for a decimal one has no mark of a base. -/
lemma Scanned.not_isBaseMark (number : Scanned) (hbase : number.base = none) :
    ∀ c ∈ number.unsigned, ¬IsBaseMark c := by
  have hdigit {c : Char} (hc : c ∈ (digitsOf none).1.toList) : ¬IsBaseMark c := by
    intro hmark
    simp only [IsBaseMark, List.mem_cons, List.not_mem_nil, or_false] at hmark
    rcases hmark with rfl | rfl | rfl | rfl | rfl | rfl <;> simp [digitsOf] at hc
  have hwhole := number.isWhole
  have hpoint := number.isPoint
  have hpower := number.isPower
  rw [hbase] at hwhole hpoint hpower
  simp only [Scanned.unsigned, hbase, List.forall_mem_append]
  refine ⟨by simp [baseLead], fun c hc => hdigit (hwhole c hc), ?_, ?_, ?_⟩
  · rcases hpoint with h | ⟨fraction, h, hfraction⟩
    · simp [h]
    · rw [h, List.forall_mem_cons]
      exact ⟨by simp [IsBaseMark], fun c hc => hdigit (hfraction c hc)⟩
  · rcases hpower with h | ⟨letters, mark, sign, digits, hmarks, h, hmark, hsign, hdigits⟩
    · simp [h]
    · obtain rfl : "eE" = letters := by simpa [digitsOf] using hmarks
      have hmark' : mark = 'e' ∨ mark = 'E' := by simpa using hmark
      rw [h, List.forall_mem_cons, List.forall_mem_append]
      refine ⟨?_, ?_, fun c hc => hdigit (hdigits c hc)⟩
      · rcases hmark' with rfl | rfl <;> simp [IsBaseMark]
      · rcases hsign with rfl | rfl | rfl <;> simp [IsBaseMark]
  · rcases number.isUnit with h | h <;> simp [h, IsBaseMark]

lemma isLiteral_of_digits {mark : Char} {digits : List Char} (hmark : IsBaseMark mark) (hne : digits ≠ [])
    (hdigits : ∀ c ∈ digits, c ∈ (digitsOf (some mark)).1.toList ∧ c ≠ '_') : IsLiteral ('0' :: mark :: digits) := by
  have hall (good : Char → Bool)
      (hgood : ((digitsOf (some mark)).1.toList.all fun c => c == '_' || good c) = true) :
      ∀ c ∈ digits, good c = true := by
    intro c hc
    obtain ⟨hmem, hne⟩ := hdigits c hc
    simpa [hne] using List.all_eq_true.1 hgood c hmem
  obtain hmark | hmark | hmark : (mark = 'x' ∨ mark = 'X') ∨ (mark = 'o' ∨ mark = 'O') ∨ (mark = 'b' ∨ mark = 'B') := by
    simpa [IsBaseMark, or_assoc] using hmark
  · exact .hexadecimal hmark hne (hall Text.isHexDigit (by rcases hmark with rfl | rfl <;> decide))
  · have hoctal := hall (fun c => decide ('0' ≤ c ∧ c ≤ '7')) (by rcases hmark with rfl | rfl <;> decide)
    exact .octal hmark hne (by simpa using hoctal)
  · have hbinary := hall (fun c => decide (c = '0' ∨ c = '1')) (by rcases hmark with rfl | rfl <;> decide)
    exact .binary hmark hne (by simpa using hbinary)

lemma Digitized.of_append (h : Digitized (text ++ more)) : Digitized text := by
  intro sign mark tail htext hsign hmark c hc
  refine h sign mark (tail ++ more) (by simp [htext]) hsign hmark c ?_
  rw [List.takeWhile_append]
  split_ifs
  · exact List.mem_append_left _ ((List.takeWhile_subset _) hc)
  · exact hc

lemma endsDigits_of_mem_digitsOf {base : Option Char} {c : Char} (hc : c ∈ (digitsOf base).1.toList) :
    endsDigits c = false := by
  rw [← Bool.not_eq_true, endsDigits, List.contains_iff_mem]
  intro hend
  unfold digitsOf at hc
  simp only [List.mem_cons, List.not_mem_nil, or_false] at hend
  split at hc
  · split_ifs at hc <;> rcases hend with rfl | rfl | rfl | rfl | rfl | rfl <;> simp at hc
  · rcases hend with rfl | rfl | rfl | rfl | rfl | rfl <;> simp at hc

lemma endsDigits_of_not_isPlain {c : Char} (hc : ¬IsPlain c) : endsDigits c = true := by
  rw [IsPlain, not_and_or, not_not, not_not] at hc
  rcases hc with rfl | rfl <;> decide

/-- The mark of an exponent behind the mark of a base. -/
lemma endsDigits_of_exponentMark {mark c : Char} {letters : String} (hmark : IsBaseMark mark)
    (hletters : (digitsOf (some mark)).2 = some letters) (hc : c ∈ letters.toList) : endsDigits c = true := by
  simp only [IsBaseMark, List.mem_cons, List.not_mem_nil, or_false] at hmark
  have hpower : letters = "pP" := by
    rcases hmark with rfl | rfl | rfl | rfl | rfl | rfl <;> simp [digitsOf] at hletters <;> exact hletters.symm
  have hc' : c = 'p' ∨ c = 'P' := by simpa [hpower] using hc
  rcases hc' with rfl | rfl <;> decide

/-- What stands behind the digits of a number ends them. -/
lemma Scanned.head_behind {number : Scanned} {mark : Char} (hbase : number.base = some mark)
    (hmore : ∀ c ∈ more.head?, ¬IsPlain c) :
    ∀ c ∈ (number.point ++ (number.exponent ++ (number.unit ++ more))).head?, endsDigits c = true := by
  intro c hc
  simp only [List.head?_append, Option.mem_def, Option.or_eq_some_iff] at hc
  rcases hc with hc | ⟨-, hc | ⟨-, hc | ⟨-, hc⟩⟩⟩
  · rcases number.isPoint with h | ⟨fraction, h, -⟩
    · simp [h] at hc
    · obtain rfl : '.' = c := by simpa [h] using hc
      decide
  · rcases number.isPower with h | ⟨letters, power, sign, digits, hmarks, h, hmem, -⟩
    · simp [h] at hc
    · obtain rfl : power = c := by simpa [h] using hc
      exact endsDigits_of_exponentMark (number.isBaseMark mark hbase) (hbase ▸ hmarks) hmem
  · rcases number.isUnit with h | h
    · simp [h] at hc
    · obtain rfl : 'i' = c := by simpa [h] using hc
      decide
  · exact endsDigits_of_not_isPlain (hmore c hc)

lemma Scanned.digitized (number : Scanned) (hmore : more ≠ [] → number.text ≠ [])
    (hhead : ∀ c ∈ more.head?, ¬IsPlain c) : Digitized (number.text ++ more) := by
  intro sign mark tail htext hsign hmark c hc
  have hunsigned : number.unsigned ++ more = '0' :: mark :: tail := by
    rw [← number.dropSign_append hmore, htext, Template.dropSign_append hsign (by simp [IsPlain])]
  cases hbase : number.base with
  | none =>
    -- The mark would stand in a decimal number, or at its end.
    have hplain := @IsBaseMark.plain mark [] hmark (by simp)
    rcases hnumber : number.unsigned with _ | ⟨zero, _ | ⟨letter, rest⟩⟩
    · rw [hnumber, List.nil_append] at hunsigned
      exact absurd (hplain '0' (by simp)) (hhead '0' (by simp [hunsigned]))
    · obtain ⟨-, rfl⟩ : zero = '0' ∧ more = mark :: tail := by simpa [hnumber] using hunsigned
      exact absurd (hplain mark (by simp)) (hhead mark rfl)
    · obtain ⟨-, rfl, -⟩ : zero = '0' ∧ letter = mark ∧ rest ++ more = tail := by simpa [hnumber] using hunsigned
      exact absurd hmark (number.not_isBaseMark hbase letter (by simp [hnumber]))
  | some letter =>
    obtain ⟨rfl, rfl⟩ : letter = mark ∧
        number.whole ++ (number.point ++ (number.exponent ++ (number.unit ++ more))) = tail := by
      simpa [Scanned.unsigned, hbase, baseLead] using hunsigned
    have hwhole : ∀ c ∈ number.whole, (!endsDigits c) = true := fun c hc => by
      rw [endsDigits_of_mem_digitsOf (number.isWhole c hc), Bool.not_false]
    have hstop : (number.point ++ (number.exponent ++ (number.unit ++ more))).head?.any (!endsDigits ·) = false := by
      cases hbehind : (number.point ++ (number.exponent ++ (number.unit ++ more))).head? with
      | none => rfl
      | some c => simp [number.head_behind hbase hhead c hbehind]
    rw [Text.takeWhile_append_stop hwhole hstop] at hc
    exact hbase ▸ number.isWhole c hc

lemma Scanned.digitized_text (number : Scanned) : Digitized number.text := by
  have h := number.digitized (fun h : [] ≠ [] => absurd rfl h) (by simp)
  rwa [List.append_nil] at h

lemma IsRead.digitized (h : IsRead text) : Digitized text := by
  obtain ⟨first, second, rfl, hsecond⟩ := h
  rcases hsecond with rfl | ⟨⟨number, rfl⟩, ⟨plus, hplus, hsign⟩, -⟩
  · simpa using first.digitized_text
  · by_cases hfirst : first.text = []
    · simpa [hfirst] using number.digitized_text
    · exact first.digitized (fun _ => hfirst) fun c hc => Option.mem_unique hplus hc ▸ hsign

/-- Of the parts that are let through, the ones that do not end their digits early are numbers of the language. -/
lemma IsLoose.literal_or_flawed {sign : List Char} (h : IsLoose part) (hsign : IsSign sign)
    (hdigits : Digitized (sign ++ part)) (hbare : ∀ c ∈ part, c ≠ '_') : IsLiteral part ∨ IsFlawed part := by
  cases h with
  | decimal h => exact .inl (.decimal h)
  | @marked mark tail hmark hdigit _ =>
    by_cases hend : ∃ c ∈ tail, endsDigits c = true
    · obtain ⟨c, hmem, hc⟩ := hend
      exact .inr (.marked hmark hmem hc)
    · obtain ⟨digit, hmem, -⟩ := hdigit
      have hall : tail.takeWhile (!endsDigits ·) = tail := by
        refine List.takeWhile_eq_self_iff.2 fun c hc => ?_
        simpa using fun hc' => hend ⟨c, hc, hc'⟩
      have htail := hdigits sign mark tail rfl hsign hmark
      rw [hall] at htail
      exact .inl (isLiteral_of_digits hmark (List.ne_nil_of_mem hmem) fun c hc => ⟨htail c hc, hbare c (by simp [hc])⟩)

end Digits

/-! ## The numbers that are let through -/

section Accepted

variable {text body part : List Char}

lemma IsDecimal.last {c : Char} (h : IsDecimal text) (hc : c ∈ text.getLast?) : c = '.' ∨ c.isDigit = true := by
  obtain ⟨mantissa, exponent, rfl, hmantissa, hexponent⟩ := h
  rcases hexponent with rfl | ⟨mark, sign, digits, rfl, -, -, hne, hdigits⟩
  · rw [List.append_nil] at hc
    exact hmantissa.mem (List.mem_of_mem_getLast? hc)
  · rw [← List.cons_append, ← List.append_assoc, List.getLast?_append_of_ne_nil _ hne] at hc
    exact .inr (hdigits c (List.mem_of_mem_getLast? hc))

/-- A part that is let through with the mark of a complex number at its end is also one without it. -/
lemma IsLoose.of_append_unit (h : IsLoose (part ++ ['i'])) : IsLoose part := by
  generalize htext : part ++ ['i'] = text at h
  cases h with
  | decimal hdecimal =>
    have hlast := hdecimal.last (c := 'i') (by simp [← htext])
    simp at hlast
  | @marked mark tail hmark hdigit hsteady =>
    obtain ⟨digit, hmem, hdigit⟩ := hdigit
    rw [← htext] at hsteady
    obtain ⟨init, last, rfl⟩ := (List.eq_nil_or_concat' tail).resolve_left (List.ne_nil_of_mem hmem)
    have hconcat : part ++ ['i'] = ('0' :: mark :: init) ++ [last] := htext
    obtain ⟨hpart, hlast⟩ := List.append_inj' hconcat rfl
    obtain rfl : 'i' = last := by simpa using hlast
    rw [hpart] at hsteady ⊢
    refine .marked hmark ⟨digit, ?_, hdigit⟩ (List.isChain_append.1 hsteady).1
    rcases List.mem_append.1 hmem with hmem | hmem
    · exact hmem
    · obtain rfl := List.mem_singleton.1 hmem
      simp [Text.isHexDigit] at hdigit

/-- A sign behind a part that is let through is taken for part of it only behind the mark of a base. -/
lemma IsLoose.append_sign {c plus : Char} {other : List Char} (h : IsLoose part) (hlast : c ∈ part.getLast?)
    (hc : c ∈ ['e', 'E', 'p', 'P']) (hother : Steady (plus :: other)) : IsLoose (part ++ plus :: other) := by
  cases h with
  | decimal hdecimal =>
    have hend := hdecimal.last hlast
    simp only [List.mem_cons, List.not_mem_nil, or_false] at hc
    rcases hc with rfl | rfl | rfl | rfl <;> simp at hend
  | @marked mark tail hmark hdigit hsteady =>
    obtain ⟨digit, hmem, hdigit⟩ := hdigit
    refine .marked hmark ⟨digit, by simp [hmem], hdigit⟩ (List.isChain_append.2 ⟨hsteady, hother, ?_⟩)
    intro d hd _ _ _
    obtain rfl := Option.mem_unique hd hlast
    exact hc

lemma IsSign.steady_append_loose {sign : List Char} (hsign : IsSign sign) (h : IsLoose part) :
    Steady (sign ++ part) := by
  refine List.isChain_append.2 ⟨hsign.steady, h.steady, fun _ _ d hd hplus => ?_⟩
  exact absurd hplus (not_or.2 (h.head.2 d hd))

lemma isReal_of_loose {sign : List Char} (hsign : IsSign sign) (h : IsLoose part) : isReal (sign ++ part) = true :=
  (isReal_iff (hsign.steady_append_loose h)).2 ⟨sign, part, rfl, hsign, h⟩

/-- The two parts of a complex number are checked one by one. -/
lemma isValidNumber_of_split {init real imaginary : List Char} (h : bare text = init ++ ['i'])
    (hsplit : splitComplex? init = some (real, imaginary)) :
    isValidNumber text = (isReal real && isReal imaginary) := by
  have hbody : text.filter (· != '_') = init ++ ['i'] := h
  simp only [isValidNumber, hbody, List.getLast?_concat, if_true, List.dropLast_concat, hsplit]

lemma isValidNumber_of_no_unit (h : (bare text).getLast? ≠ some 'i') : isValidNumber text = isReal (bare text) := by
  have hbody : (text.filter (· != '_')).getLast? ≠ some 'i' := h
  simp only [isValidNumber, if_neg hbody]
  rfl

lemma isValidNumber_of_steady_unit {init : List Char} (h : bare text = init ++ ['i']) (hsteady : Steady init) :
    isValidNumber text = isReal init := by
  have hbody : text.filter (· != '_') = init ++ ['i'] := h
  have hsplit : splitComplex? init = none := splitComplex?_eq_none_iff.2 hsteady
  simp only [isValidNumber, hbody, List.getLast?_concat, if_true, List.dropLast_concat, hsplit]

lemma splitComplex?_concat {front other : List Char} {plus c : Char} (hother : Steady (plus :: other))
    (hpart : ¬SignBehind c plus) :
    splitComplex? (front ++ [c] ++ plus :: other) = some (front ++ [c], plus :: other) := by
  simpa using splitComplex?_append hother hpart

/-- A number with parts that the check lets through is let through. -/
lemma isValidNumber_of_isNumber (h : IsNumber IsLoose (bare text)) : isValidNumber text = true := by
  have himaginary {sign part : List Char} (hsign : IsSign sign) (hpart : IsLoose part)
      (hbody : bare text = sign ++ part ++ ['i']) : isValidNumber text = true := by
    rw [isValidNumber_of_steady_unit hbody (hsign.steady_append_loose hpart), isReal_of_loose hsign hpart]
  generalize hbody : bare text = body at h
  cases h with
  | @real sign part hsign hpart =>
    by_cases hlast : (bare text).getLast? = some 'i'
    · obtain ⟨init, last, rfl⟩ := (List.eq_nil_or_concat' part).resolve_left hpart.head.1
      obtain rfl : last = 'i' := by simpa [hbody] using hlast
      exact himaginary hsign hpart.of_append_unit (by rw [hbody, List.append_assoc])
    · rw [isValidNumber_of_no_unit hlast, hbody, isReal_of_loose hsign hpart]
  | imaginary hsign hpart => exact himaginary hsign hpart hbody
  | @complex sign part other plus hsign hpart hplus hother =>
    have hsecond : IsSign [plus] := by
      rcases hplus with rfl | rfl
      · exact .inr (.inl rfl)
      · exact .inr (.inr rfl)
    have hsteady : Steady (plus :: other) := hsecond.steady_append_loose hother
    obtain ⟨init, c, rfl⟩ := (List.eq_nil_or_concat' part).resolve_left hpart.head.1
    by_cases hbehind : SignBehind c plus
    · have hloose := hpart.append_sign (by simp) (hbehind hplus) hsteady
      exact himaginary hsign hloose (by rw [hbody]; simp)
    · have hreal := isReal_of_loose hsign hpart
      rw [← List.append_assoc] at hbody hreal
      rw [isValidNumber_of_split hbody (splitComplex?_concat hsteady hbehind)]
      simp only [hreal, Bool.true_and]
      exact isReal_of_loose hsecond hother

/-- A text that the lexer takes for a number has at most two parts, the second one with a sign. -/
lemma IsRead.parts {init : List Char} (h : IsRead (init ++ ['i'])) :
    ∃ first second, init = first ++ second ∧ (Steady first ∧ Digitized first) ∧ (Steady second ∧ Digitized second) ∧
      ∀ plus ∈ second.head?, ¬IsPlain plus := by
  obtain ⟨first, second, htext, hsecond⟩ := h
  rcases hsecond with rfl | ⟨⟨number, rfl⟩, ⟨plus, hplus, hsign⟩, -⟩
  · have hfirst : Steady (init ++ ['i']) ∧ Digitized (init ++ ['i']) := by
      rw [htext, List.append_nil]
      exact ⟨first.steady, first.digitized_text⟩
    exact ⟨init, [], by simp, ⟨(List.isChain_append.1 hfirst.1).1, hfirst.2.of_append⟩,
      ⟨List.isChain_nil, by simp [Digitized]⟩, by simp⟩
  · obtain ⟨inner, last, hlast⟩ := (List.eq_nil_or_concat' number.text).resolve_left (by
      rintro hnil
      simp [hnil] at hplus)
    have hnumber : Steady (inner ++ [last]) ∧ Digitized (inner ++ [last]) := by
      rw [← hlast]
      exact ⟨number.steady, number.digitized_text⟩
    rw [hlast] at hplus htext
    rw [← List.append_assoc] at htext
    obtain ⟨rfl, hunit⟩ := List.append_inj' htext rfl
    obtain rfl : 'i' = last := by simpa using hunit
    refine ⟨first.text, inner, rfl, ⟨first.steady, first.digitized_text⟩,
      ⟨(List.isChain_append.1 hnumber.1).1, hnumber.2.of_append⟩, fun c hc => ?_⟩
    obtain ⟨tail, rfl⟩ := List.head?_eq_some_iff.1 hc
    obtain rfl : c = plus := by simpa using hplus
    exact hsign

lemma IsRead.steady (h : IsRead body) (hlast : body.getLast? ≠ some 'i') : Steady body := by
  obtain ⟨first, second, rfl, rfl | ⟨-, -, hunit⟩⟩ := h
  · simpa only [List.append_nil] using first.steady
  · exact absurd hunit hlast

/-- A part that is let through and that is a number of the language, or has a flaw. -/
def IsPart (part : List Char) : Prop :=
  IsLoose part ∧ (IsLiteral part ∨ IsFlawed part)

lemma isPart_of_isReal (hsteady : Steady text) (hdigits : Digitized text) (hbare : ∀ c ∈ text, c ≠ '_')
    (h : isReal text = true) : ∃ sign part, text = sign ++ part ∧ IsSign sign ∧ IsPart part := by
  obtain ⟨sign, part, rfl, hsign, hpart⟩ := (isReal_iff hsteady).1 h
  exact ⟨sign, part, rfl, hsign, hpart,
    hpart.literal_or_flawed hsign hdigits fun c hc => hbare c (List.mem_append_right sign hc)⟩

lemma isPart_behind_sign {plus : Char} {other : List Char} (hsteady : Steady (plus :: other))
    (hdigits : Digitized (plus :: other)) (hbare : ∀ c ∈ plus :: other, c ≠ '_') (hplus : ¬IsPlain plus)
    (h : isReal (plus :: other) = true) : (plus = '+' ∨ plus = '-') ∧ IsPart other := by
  obtain ⟨sign, part, htext, hsign, hpart⟩ := isPart_of_isReal hsteady hdigits hbare h
  rcases hsign with rfl | rfl | rfl
  · rw [List.nil_append] at htext
    exact absurd (hpart.1.head.2 plus (by rw [← htext]; rfl)) hplus
  · obtain ⟨rfl, rfl⟩ := List.cons.inj htext
    exact ⟨.inl rfl, hpart⟩
  · obtain ⟨rfl, rfl⟩ := List.cons.inj htext
    exact ⟨.inr rfl, hpart⟩

/-- A number that the lexer takes and the check lets through has parts that are let through. -/
lemma isNumber_of_isValidNumber (hread : IsRead (bare text)) (h : isValidNumber text = true) :
    IsNumber IsPart (bare text) := by
  have hbare : ∀ c ∈ bare text, c ≠ '_' := fun c hc => by simpa using (List.mem_filter.1 hc).2
  by_cases hlast : (bare text).getLast? = some 'i'
  · obtain ⟨init, hbody⟩ := List.getLast?_eq_some_iff.1 hlast
    rw [hbody] at hread hbare ⊢
    rw [List.forall_mem_append] at hbare
    by_cases hsteady : Steady init
    · rw [isValidNumber_of_steady_unit hbody hsteady] at h
      obtain ⟨sign, part, rfl, hsign, hpart⟩ := isPart_of_isReal hsteady hread.digitized.of_append hbare.1 h
      exact .imaginary hsign hpart
    · -- The text is split where the lexer took it for two numbers.
      obtain ⟨first, second, rfl, hfirst, hsecond, hplus⟩ := hread.parts
      rw [List.forall_mem_append] at hbare
      obtain ⟨front, c, rfl⟩ := (List.eq_nil_or_concat' first).resolve_left fun hnil =>
        hsteady (by simpa [hnil] using hsecond.1)
      obtain ⟨plus, other, hcons⟩ := List.exists_cons_of_ne_nil fun hnil : second = [] =>
        hsteady (by simpa [hnil] using hfirst.1)
      subst hcons
      have hbehind : ¬SignBehind c plus := fun hbehind =>
        hsteady (List.isChain_append.2 ⟨hfirst.1, hsecond.1, by simpa using hbehind⟩)
      rw [isValidNumber_of_split hbody (splitComplex?_concat hsecond.1 hbehind), Bool.and_eq_true] at h
      obtain ⟨sign, part, hreal, hsign, hpart⟩ := isPart_of_isReal hfirst.1 hfirst.2 hbare.1.1 h.1
      obtain ⟨hplus, hother⟩ := isPart_behind_sign hsecond.1 hsecond.2 hbare.1.2 (hplus plus rfl) h.2
      rw [hreal]
      exact .complex hsign hpart hplus hother
  · rw [isValidNumber_of_no_unit hlast] at h
    obtain ⟨sign, part, hbody, hsign, hpart⟩ := isPart_of_isReal (hread.steady hlast) hread.digitized hbare h
    rw [hbody]
    exact .real hsign hpart

lemma IsNumber.imp {real other : List Char → Prop} (h : IsNumber real body)
    (himp : ∀ part, real part → other part) : IsNumber other body := by
  cases h with
  | real hsign hpart => exact .real hsign (himp _ hpart)
  | imaginary hsign hpart => exact .imaginary hsign (himp _ hpart)
  | complex hsign hpart hplus hother => exact .complex hsign (himp _ hpart) hplus (himp _ hother)

end Accepted

/-- The numbers in actions that the check lets through are the ones whose real parts are decimal numbers, or have the
mark of a base and behind it a hexadecimal digit. All numbers of the language are among them. A real part that is none
of the language has the mark of a base and, behind it, a point, the mark of an exponent or of a complex number, or a
sign. -/
theorem isValidNumber_characterized {text : List Char} {item : Item} (hitem : item ∈ lex text)
    (hkind : item.kind = .number) :
    (isValidNumber item.text = true ↔ IsNumber IsLoose (bare item.text)) ∧
      (IsNumber IsLiteral (bare item.text) → isValidNumber item.text = true) ∧
      (isValidNumber item.text = true → IsNumber (fun part => IsLiteral part ∨ IsFlawed part) (bare item.text)) := by
  have hread : IsRead (bare item.text) := isRead_bare (isRead_of_mem hitem hkind)
  have hparts : isValidNumber item.text = true → IsNumber IsPart (bare item.text) := isNumber_of_isValidNumber hread
  refine ⟨⟨fun h => (hparts h).imp fun _ => And.left, isValidNumber_of_isNumber⟩, fun h => ?_, fun h => ?_⟩
  · exact isValidNumber_of_isNumber (h.imp fun _ => IsLiteral.loose)
  · exact (hparts h).imp fun _ => And.right

/-- A complex number whose first part is hexadecimal. -/
def numberSample : Item :=
  ⟨.number, "0x_1F+2e-3i".toList, 1⟩

theorem complex_number_is_let_through :
    numberSample ∈ lex "\x7b\x7b0x_1F+2e-3i\x7d\x7d".toList ∧ numberSample.kind = .number ∧
      isValidNumber numberSample.text = true ∧ IsNumber IsLoose (bare numberSample.text) ∧
      IsNumber (fun part => IsLiteral part ∨ IsFlawed part) (bare numberSample.text) := by
  have hmem : numberSample ∈ lex "\x7b\x7b0x_1F+2e-3i\x7d\x7d".toList := by decide +kernel
  have hvalid : isValidNumber numberSample.text = true := by decide +kernel
  obtain ⟨hloose, -, hparts⟩ := isValidNumber_characterized hmem rfl
  exact ⟨hmem, rfl, hvalid, hloose.1 hvalid, hparts hvalid⟩

lemma not_isLiteral_fraction : ¬IsLiteral ['0', 'x', '1', '.', '8'] := by
  intro hpart
  generalize htext : ['0', 'x', '1', '.', '8'] = text at hpart
  cases hpart with
  | decimal h =>
    have hmem := h.mem (c := 'x') (by simp [← htext])
    simp at hmem
  | binary hmark => rcases hmark with rfl | rfl <;> simp at htext
  | octal hmark => rcases hmark with rfl | rfl <;> simp at htext
  | hexadecimal _ _ hdigits =>
    obtain ⟨-, -, rfl⟩ := List.cons.inj htext |>.imp_right List.cons.inj
    simpa [Text.isHexDigit] using hdigits '.'
  | power _ _ hexponent =>
    obtain ⟨letter, sign, digits, rfl, hletter, -⟩ := hexponent
    have hmem : letter ∈ ['0', 'x', '1', '.', '8'] := by simp [htext]
    simp only [List.mem_cons, List.not_mem_nil, or_false] at hletter
    rcases hletter with rfl | rfl <;> simp at hmem

/-- A hexadecimal fraction without an exponent is let through, but it is no number of the language. -/
theorem fraction_without_exponent_is_let_through :
    ∃ item ∈ lex "\x7b\x7b0x1.8\x7d\x7d".toList, item.kind = .number ∧ isValidNumber item.text = true ∧
      ¬IsNumber IsLiteral (bare item.text) := by
  refine ⟨⟨.number, "0x1.8".toList, 1⟩, by decide +kernel, rfl, by decide +kernel, fun h => ?_⟩
  have hlast {init : List Char} (h : ['0', 'x', '1', '.', '8'] = init ++ ['i']) : False := by
    have hend := congrArg List.getLast? h
    rw [List.getLast?_concat] at hend
    simp at hend
  have hbody : bare "0x1.8".toList = ['0', 'x', '1', '.', '8'] := by decide
  generalize hnumber : bare "0x1.8".toList = body at h
  rw [hbody] at hnumber
  cases h with
  | real hsign hreal =>
    rcases hsign with rfl | rfl | rfl
    · exact not_isLiteral_fraction (hnumber ▸ hreal)
    · simp at hnumber
    · simp at hnumber
  | imaginary => exact hlast hnumber
  | complex => exact hlast hnumber

end QueryScope.Template
