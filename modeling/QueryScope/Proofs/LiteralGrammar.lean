import QueryScope.Proofs.CharClasses
import QueryScope.Proofs.QuotedText
import QueryScope.Proofs.ScanSteps
import Mathlib.Data.List.TakeWhile
import Mathlib.Data.Nat.Digits.Defs

/-!
# The grammar of string literals

The texts that are read as string literals, written down as a grammar, and the string that each of them
stands for. The reader of codes also takes a plus sign in the place of their first digit, so what it
accepts is the documented grammar with that addition.
-/

namespace QueryScope

namespace Text

/-- The characters are digits in a radix, of either case, and write the number. -/
def Spells (radix : Nat) (text : List Char) (n : Nat) : Prop :=
  ∃ digits : List Nat, List.Forall₂ (fun c d => d < radix ∧ c.toLower = d.digitChar) text digits ∧
    n = Nat.ofDigits radix digits.reverse

lemma toNat_lt_of_digitValue? {c : Char} {d : Nat} (h : digitValue? c = some d) : c.toNat < 128 := by
  by_contra hc
  have hdigit : c.isDigit = false := by
    rw [Bool.eq_false_iff, Ne, isDigit_iff]
    omega
  have habove (letter : Char) (hletter : letter.toNat < 128) : ¬ c ≤ letter := by
    rw [Char.le_def, UInt32.le_iff_toNat_le]
    change ¬ c.toNat ≤ letter.toNat
    omega
  simp [digitValue?, hdigit, habove] at h

lemma toNat_lt_of_toLower {c : Char} {d : Nat} (hd : d < 16) (h : c.toLower = d.digitChar) :
    c.toNat < 128 := by
  have hdigit : ∀ d < 16, d.digitChar.toNat < 128 := by decide
  unfold Char.toLower at h
  split at h
  · next hupper =>
    have hlast := UInt32.le_iff_toNat_le.1 hupper.2
    change c.toNat ≤ 90 at hlast
    omega
  · rw [h]
    exact hdigit d hd

lemma digitBelow?_eq_some_iff {radix : Nat} (hradix : radix ≤ 16) {c : Char} {d : Nat} :
    digitBelow? radix c = some d ↔ d < radix ∧ c.toLower = d.digitChar := by
  have hascii : ∀ n < 128, ∀ d < 16, digitValue? (Char.ofNat n) = some d ↔
      (Char.ofNat n).toLower = d.digitChar := by
    decide +kernel
  have hvalue (hd : d < radix) : digitValue? c = some d ↔ c.toLower = d.digitChar := by
    by_cases hc : c.toNat < 128
    · simpa using hascii c.toNat hc d (by omega)
    · exact iff_of_false (mt toNat_lt_of_digitValue? hc) (mt (toNat_lt_of_toLower (by omega)) hc)
  rw [digitBelow?, Option.filter_eq_some_iff, decide_eq_true_eq, and_comm]
  exact and_congr_right hvalue

lemma eq_digitChar_of_toLower {c : Char} {d : Nat} (hd : d < 10) (h : c.toLower = d.digitChar) :
    c = d.digitChar := by
  have hascii : ∀ n < 128, ∀ d < 10, (Char.ofNat n).toLower = d.digitChar → Char.ofNat n = d.digitChar := by
    decide +kernel
  have hc : c.toNat < 128 := toNat_lt_of_toLower (by omega) h
  simpa [h] using hascii c.toNat hc d hd

/-- The digits are added up from the left, so the sum so far is moved by the digits to come. -/
lemma foldlM_digits_eq_some_iff {radix : Nat} (hradix : radix ≤ 16) {text : List Char} {sum n : Nat} :
    text.foldlM (fun n c => (digitBelow? radix c).map (radix * n + ·)) sum = some n ↔
      ∃ value, Spells radix text value ∧ n = sum * radix ^ text.length + value := by
  induction text generalizing sum with
  | nil => simp [Spells, eq_comm]
  | cons c text ih =>
    simp only [List.foldlM_cons, Option.bind_eq_bind, Option.bind_eq_some_iff, Option.map_eq_some_iff,
      digitBelow?_eq_some_iff hradix]
    constructor
    · rintro ⟨_, ⟨d, hd, rfl⟩, hrest⟩
      obtain ⟨_, ⟨digits, hdigits, rfl⟩, rfl⟩ := ih.1 hrest
      refine ⟨_, ⟨d :: digits, .cons hd hdigits, rfl⟩, ?_⟩
      rw [Nat.ofDigits_reverse_cons, ← hdigits.length_eq, List.length_cons]
      ring
    · rintro ⟨_, ⟨_, hdigits, rfl⟩, rfl⟩
      obtain ⟨d, digits, hd, hrest, rfl⟩ := List.forall₂_cons_left_iff.1 hdigits
      refine ⟨_, ⟨d, hd, rfl⟩, ih.2 ⟨_, ⟨digits, hrest, rfl⟩, ?_⟩⟩
      rw [Nat.ofDigits_reverse_cons, ← hrest.length_eq, List.length_cons]
      ring

lemma numeral?_eq_some_iff {radix : Nat} (hradix : radix ≤ 16) {text : List Char} {n : Nat} :
    numeral? radix text = some n ↔ text ≠ [] ∧ Spells radix text n := by
  cases text with
  | nil => simp [numeral?]
  | cons c text =>
    simp only [numeral?, foldlM_digits_eq_some_iff hradix, Nat.zero_mul, Nat.zero_add, exists_eq_right',
      ne_eq, reduceCtorEq, not_false_eq_true, true_and]

lemma not_spells_plus {radix n : Nat} (hradix : radix ≤ 16) (digits : List Char) :
    ¬ Spells radix ('+' :: digits) n := by
  rintro ⟨_, hdigits, -⟩
  obtain ⟨d, -, ⟨hd, hsign⟩, -, -⟩ := List.forall₂_cons_left_iff.1 hdigits
  have hdigit : ∀ d < 16, '+'.toLower ≠ d.digitChar := by decide
  exact hdigit d (by omega) hsign

/-- A plus sign is no digit, so a numeral has at most the one in front of it. -/
lemma plusNumeral?_eq_some_iff {radix : Nat} (hradix : radix ≤ 16) {text : List Char} {n : Nat} :
    plusNumeral? radix text = some n ↔
      text ≠ [] ∧ Spells radix text n ∨ ∃ digits, text = '+' :: digits ∧ digits ≠ [] ∧ Spells radix digits n := by
  unfold plusNumeral?
  split
  · next digits =>
    simp [numeral?_eq_some_iff hradix, not_spells_plus hradix]
  · next hplus =>
    have hnone : ∀ digits, text ≠ '+' :: digits := hplus
    simp [numeral?_eq_some_iff hradix, hnone]

lemma charOfCode?_eq_some_iff {n : Nat} {c : Char} : charOfCode? n = some c ↔ n = c.toNat := by
  unfold charOfCode?
  constructor
  · intro h
    split at h
    · next hvalid =>
      rw [← Option.some.inj h, Char.ofNat, dif_pos hvalid]
      rfl
    · cases h
  · rintro rfl
    have hvalid : c.toNat.isValidChar := c.valid
    rw [if_pos hvalid, Char.ofNat_toNat]

end Text

namespace Scan

open Text (Spells)

/-! ## Escapes -/

/-- The letters that stand for a character behind a backslash. -/
def letterEscapes : List (Char × Char) :=
  [('a', '\x07'), ('b', '\x08'), ('f', '\x0c'), ('n', '\n'), ('r', '\r'), ('t', '\t'), ('v', '\x0b'),
    ('\\', '\\'), ('"', '"'), ('\'', '\'')]

/-- The letters in front of a hexadecimal code, and how many digits the code has. -/
def codeWidths : List (Char × Nat) :=
  [('x', 2), ('u', 4), ('U', 8)]

/-- The texts behind a backslash, and the characters they stand for. -/
inductive Escape : List Char → Char → Prop
  | letter {e c : Char} (he : (e, c) ∈ letterEscapes) : Escape [e] c
  | code {e c : Char} {digits : List Char} (he : (e, digits.length) ∈ codeWidths)
      (hcode : Spells 16 digits c.toNat) : Escape (e :: digits) c
  | octal {digits : List Char} {c : Char} (hlength : digits.length = 3) (hcode : Spells 8 digits c.toNat) :
      Escape digits c

/-- The escapes that the reader takes: the first digit of a hexadecimal code may be a plus sign. -/
inductive LooseEscape : List Char → Char → Prop
  | exact {text : List Char} {c : Char} (h : Escape text c) : LooseEscape text c
  | signed {e c : Char} {digits : List Char} (he : (e, digits.length + 1) ∈ codeWidths)
      (hcode : Spells 16 digits c.toNat) : LooseEscape (e :: '+' :: digits) c

lemma letterEscape?_eq_some_iff {e c : Char} : letterEscape? e = some c ↔ (e, c) ∈ letterEscapes := by
  by_cases hself : e = '\\' ∨ e = '"' ∨ e = '\''
  · rcases hself with rfl | rfl | rfl <;> simp [letterEscape?, letterEscapes, eq_comm]
  · unfold letterEscape?
    split_ifs <;> simp_all [letterEscapes, eq_comm]

lemma codeWidth?_eq_some_iff {e : Char} {width : Nat} :
    codeWidth? e = some width ↔ (e, width) ∈ codeWidths := by
  simp only [codeWidths, List.mem_cons, Prod.mk.injEq, List.not_mem_nil, or_false]
  unfold codeWidth?
  split_ifs <;> simp_all [eq_comm]

lemma codeEscape?_eq_some_iff {radix width : Nat} (hradix : radix ≤ 16) {digits : List Char} {c : Char} :
    codeEscape? radix width digits = some c ↔ digits.length = width ∧
      (digits ≠ [] ∧ Spells radix digits c.toNat ∨
        ∃ behind, digits = '+' :: behind ∧ behind ≠ [] ∧ Spells radix behind c.toNat) := by
  unfold codeEscape?
  split
  · next hlength =>
    simp [hlength, Option.bind_eq_some_iff, Text.charOfCode?_eq_some_iff, Text.plusNumeral?_eq_some_iff hradix]
  · next hlength => simp [hlength]

/-- An escape takes digits off the text behind its first character. -/
lemma exists_looseEscape {e c : Char} {text : List Char} {width : Nat} (h : escape? e text = some (c, width)) :
    ∃ digits rest, text = digits ++ rest ∧ digits.length = width ∧ LooseEscape (e :: digits) c := by
  unfold escape? at h
  split at h
  · next decoded hletter =>
    obtain ⟨rfl, rfl⟩ : decoded = c ∧ 0 = width := by simpa using h
    exact ⟨[], text, rfl, rfl, .exact (.letter (letterEscape?_eq_some_iff.1 hletter))⟩
  · split at h
    · next count hcount =>
      obtain ⟨_, hcode, hpair⟩ := Option.map_eq_some_iff.1 h
      obtain ⟨rfl, rfl⟩ := Prod.mk.inj hpair
      obtain ⟨hlength, hdigits⟩ := (codeEscape?_eq_some_iff (by decide)).1 hcode
      refine ⟨text.take count, text.drop count, (List.take_append_drop _ _).symm, hlength, ?_⟩
      have he := codeWidth?_eq_some_iff.1 hcount
      rcases hdigits with ⟨-, hdigits⟩ | ⟨digits, hplus, -, hdigits⟩
      · exact .exact (.code (hlength.symm ▸ he) hdigits)
      · rw [hplus, List.length_cons] at hlength
        rw [hplus]
        exact .signed (hlength.symm ▸ he) hdigits
    · split at h
      · next hoctal =>
        obtain ⟨_, hcode, hpair⟩ := Option.map_eq_some_iff.1 h
        obtain ⟨rfl, rfl⟩ := Prod.mk.inj hpair
        obtain ⟨hlength, hdigits⟩ := (codeEscape?_eq_some_iff (by decide)).1 hcode
        refine ⟨text.take 2, text.drop 2, (List.take_append_drop _ _).symm, by simpa using hlength, ?_⟩
        rcases hdigits with ⟨-, hdigits⟩ | ⟨digits, hplus, -, -⟩
        · exact .exact (.octal hlength hdigits)
        · obtain ⟨rfl, -⟩ := List.cons.inj hplus
          exact absurd hoctal (by decide)
      · cases h

lemma escape?_of_width {e : Char} {width : Nat} (he : (e, width) ∈ codeWidths) (text : List Char) :
    escape? e text = (codeEscape? 16 width (text.take width)).map (·, width) := by
  have hletter : letterEscape? e = none := by
    simp only [codeWidths, List.mem_cons, Prod.mk.injEq, List.not_mem_nil, or_false] at he
    rcases he with ⟨rfl, -⟩ | ⟨rfl, -⟩ | ⟨rfl, -⟩ <;> rfl
  rw [escape?, hletter, codeWidth?_eq_some_iff.2 he]

lemma escape?_octal {d : Nat} (hd : d < 8) (text : List Char) :
    escape? d.digitChar text = (codeEscape? 8 3 (d.digitChar :: text.take 2)).map (·, 2) := by
  interval_cases d <;> rfl

lemma escape?_of_escape {e c : Char} {digits : List Char} (h : Escape (e :: digits) c) (rest : List Char) :
    escape? e (digits ++ rest) = some (c, digits.length) := by
  cases h with
  | letter he => rw [escape?, letterEscape?_eq_some_iff.2 he, List.length_nil]
  | code he hcode =>
    have hne : digits ≠ [] := by
      rintro rfl
      simp [codeWidths] at he
    rw [escape?_of_width he, List.take_left, (codeEscape?_eq_some_iff (by decide)).2 ⟨rfl, .inl ⟨hne, hcode⟩⟩]
    rfl
  | octal hlength hcode =>
    obtain ⟨_, hforall, -⟩ := id hcode
    obtain ⟨d, -, ⟨hd, hlower⟩, -, -⟩ := List.forall₂_cons_left_iff.1 hforall
    obtain rfl := Text.eq_digitChar_of_toLower (by omega) hlower
    have htwo : digits.length = 2 := by simpa using hlength
    rw [escape?_octal hd, ← htwo, List.take_left, htwo,
      (codeEscape?_eq_some_iff (by decide)).2 ⟨hlength, .inl ⟨by simp, hcode⟩⟩]
    rfl

lemma escape?_of_looseEscape {e c : Char} {digits : List Char} (h : LooseEscape (e :: digits) c)
    (rest : List Char) : escape? e (digits ++ rest) = some (c, digits.length) := by
  cases h with
  | exact h => exact escape?_of_escape h rest
  | @signed _ _ digits he hcode =>
    have hne : digits ≠ [] := by
      rintro rfl
      simp [codeWidths] at he
    have hcode' : codeEscape? 16 (digits.length + 1) ('+' :: digits) = some c :=
      (codeEscape?_eq_some_iff (by decide)).2 ⟨rfl, .inr ⟨digits, rfl, hne, hcode⟩⟩
    rw [escape?_of_width he, List.cons_append, List.take_succ_cons, List.take_left, hcode']
    rfl

/-! ## Literals -/

/-- An item between the quotes of a literal, and the character it stands for. -/
inductive Item (escape : List Char → Char → Prop) (quote : Char) : List Char → Char → Prop
  | plain {c : Char} (hquote : c ≠ quote) (hslash : c ≠ '\\') (hline : c ≠ '\n') : Item escape quote [c] c
  | escaped {text : List Char} {c : Char} (h : escape text c) : Item escape quote ('\\' :: text) c

/-- A literal by the escapes that it may hold, and the string it stands for. -/
inductive Literal (escape : List Char → Char → Prop) : List Char → String → Prop
  | raw {body : List Char} (h : '\x60' ∉ body) :
      Literal escape ('\x60' :: body ++ ['\x60']) (String.ofList body)
  | quoted {quote : Char} {items : List (List Char × Char)} (hquote : quote = '"' ∨ quote = '\'')
      (hitems : ∀ item ∈ items, Item escape quote item.1 item.2) :
      Literal escape (quote :: items.flatMap Prod.fst ++ [quote]) (String.ofList (items.map Prod.snd))

lemma literalBody_item {quote c : Char} {text : List Char} (hquote : '\\' ≠ quote)
    (h : Item LooseEscape quote text c) (rest : List Char) :
    literalBody quote (text ++ rest) = (literalBody quote rest).map fun parts => (c :: parts.1, parts.2) := by
  cases h with
  | plain hc hslash hline => exact literalBody_cons hc hline hslash rest
  | @escaped text _ h =>
    cases text with
    | nil =>
      obtain ⟨_ | _ | hlength⟩ := h
      cases hlength
    | cons e digits => exact literalBody_escape hquote rest (escape?_of_looseEscape h rest)

lemma literalBody_items {quote : Char} (hquote : '\\' ≠ quote) {items : List (List Char × Char)}
    (h : ∀ item ∈ items, Item LooseEscape quote item.1 item.2) (rest : List Char) :
    literalBody quote (items.flatMap Prod.fst ++ quote :: rest) = .ok (items.map Prod.snd, rest) := by
  induction items with
  | nil =>
    rw [List.flatMap_nil, List.nil_append, literalBody.eq_def]
    simp
  | cons item items ih =>
    obtain ⟨hitem, hitems⟩ := List.forall_mem_cons.1 h
    rw [List.flatMap_cons, List.append_assoc, literalBody_item hquote hitem, ih hitems]
    rfl

lemma exists_ok_of_bind {ε α β : Type} {r : Except ε α} {f : α → Except ε β} {b : β} (h : (r >>= f) = .ok b) :
    ∃ a, r = .ok a ∧ f a = .ok b := by
  cases r with
  | error e => cases h
  | ok a => exact ⟨a, rfl, h⟩

lemma exists_items {quote : Char} {text body rest : List Char} (h : literalBody quote text = .ok (body, rest)) :
    ∃ items : List (List Char × Char), (∀ item ∈ items, Item LooseEscape quote item.1 item.2) ∧
      text = items.flatMap Prod.fst ++ quote :: rest ∧ body = items.map Prod.snd := by
  fun_induction literalBody quote text generalizing body with
  | case1 => cases h
  | case2 text =>
    obtain ⟨rfl, rfl⟩ : [] = body ∧ text = rest := by simpa using h
    exact ⟨[], by simp, rfl, rfl⟩
  | case3 => cases h
  | case4 => cases h
  | case5 => cases h
  | case6 e tail c width hescape _ _ ih =>
    obtain ⟨⟨behind, _⟩, hrest, hpair⟩ := exists_ok_of_bind h
    obtain ⟨rfl, rfl⟩ := Prod.mk.inj (Except.ok.inj hpair)
    obtain ⟨digits, rest, rfl, rfl, hloose⟩ := exists_looseEscape hescape
    rw [List.drop_left] at hrest ih
    obtain ⟨items, hitems, rfl, rfl⟩ := ih hrest
    refine ⟨('\\' :: e :: digits, c) :: items, List.forall_mem_cons.2 ⟨.escaped hloose, hitems⟩, ?_, rfl⟩
    simp
  | case7 c text hquote hline hslash ih =>
    obtain ⟨⟨behind, _⟩, hrest, hpair⟩ := exists_ok_of_bind h
    obtain ⟨rfl, rfl⟩ := Prod.mk.inj (Except.ok.inj hpair)
    obtain ⟨items, hitems, rfl, rfl⟩ := ih hrest
    exact ⟨([c], c) :: items, List.forall_mem_cons.2 ⟨.plain hquote hslash hline, hitems⟩, rfl, rfl⟩

lemma rawBody_eq_ok_iff {text body rest : List Char} :
    rawBody text = .ok (body, rest) ↔ '\x60' ∉ body ∧ text = body ++ '\x60' :: rest := by
  constructor
  · intro h
    unfold rawBody at h
    split at h
    · cases h
    · next c behind hdrop =>
      obtain ⟨rfl, rfl⟩ := Prod.mk.inj (Except.ok.inj h)
      obtain rfl : c = '\x60' := by
        have hhead := Text.head?_dropWhile (· != '\x60') text
        simpa [hdrop] using hhead
      refine ⟨fun hmem => by simpa using List.mem_takeWhile_imp hmem, ?_⟩
      rw [← hdrop, List.takeWhile_append_dropWhile]
  · rintro ⟨hbody, rfl⟩
    have hlead : ∀ c ∈ body, (c != '\x60') = true := fun c hc => by
      rw [bne_iff_ne]
      exact ne_of_mem_of_not_mem hc hbody
    rw [rawBody, Text.dropWhile_append_stop hlead rfl, Text.takeWhile_append_stop hlead rfl]

lemma stringLiteral_of_literal {text : List Char} {value : String} (h : Literal LooseEscape text value)
    (rest : List Char) : stringLiteral (text ++ rest) = .ok (value, rest) := by
  cases h with
  | @raw body hbody =>
    have hread : rawBody (body ++ '\x60' :: rest) = .ok (body, rest) := rawBody_eq_ok_iff.2 ⟨hbody, rfl⟩
    simp [stringLiteral, hread]
  | @quoted quote items hquote hitems =>
    have hslash : '\\' ≠ quote := by rcases hquote with rfl | rfl <;> decide
    have hread := literalBody_items hslash hitems rest
    rcases hquote with rfl | rfl <;> simp [stringLiteral, hread]

lemma exists_literal {text rest : List Char} {value : String} (h : stringLiteral text = .ok (value, rest)) :
    ∃ literal, text = literal ++ rest ∧ Literal LooseEscape literal value := by
  unfold stringLiteral at h
  split at h
  · next text =>
    split at h
    · next body behind hread =>
      obtain ⟨rfl, rfl⟩ := Prod.mk.inj (Except.ok.inj h)
      obtain ⟨hbody, rfl⟩ := rawBody_eq_ok_iff.1 hread
      exact ⟨_, by simp, .raw hbody⟩
    · cases h
  · next c text _ =>
    split at h
    · next hquote =>
      split at h
      · next body behind hread =>
        obtain ⟨rfl, rfl⟩ := Prod.mk.inj (Except.ok.inj h)
        obtain ⟨items, hitems, rfl, rfl⟩ := exists_items hread
        exact ⟨_, by simp, .quoted hquote hitems⟩
      · cases h
      · cases h
    · cases h
  · cases h

/-! ## Codes without a sign -/

lemma Literal.mono {escape escape' : List Char → Char → Prop} {text : List Char} {value : String}
    (h : Literal escape text value)
    (hescape : ∀ digits c, '\\' :: digits <:+: text → escape digits c → escape' digits c) :
    Literal escape' text value := by
  cases h with
  | raw hbody => exact .raw hbody
  | @quoted quote items hquote hitems =>
    refine .quoted hquote fun item hitem => ?_
    have hwithin : item.1 <:+: quote :: items.flatMap Prod.fst ++ [quote] := by
      obtain ⟨before, behind, rfl⟩ := List.append_of_mem hitem
      exact ⟨quote :: before.flatMap Prod.fst, behind.flatMap Prod.fst ++ [quote], by simp⟩
    have hshape := hitems item hitem
    obtain ⟨text, c⟩ := item
    change Item escape quote text c at hshape
    cases hshape with
    | plain hc hslash hline => exact .plain hc hslash hline
    | escaped h => exact .escaped (hescape _ _ hwithin h)

/-- A string literal is read exactly where the text begins with one, and its value is that of the literal.
Where no code begins with a plus sign, these are the literals of the documented grammar. -/
theorem stringLiteral_grammar (text rest : List Char) (value : String) :
    (stringLiteral text = .ok (value, rest) ↔
      ∃ literal, text = literal ++ rest ∧ Literal LooseEscape literal value) ∧
    ∀ literal, (∀ entry ∈ codeWidths, ¬ ['\\', entry.1, '+'] <:+: literal) →
      (stringLiteral (literal ++ rest) = .ok (value, rest) ↔ Literal Escape literal value) := by
  refine ⟨⟨exists_literal, ?_⟩, fun literal hsign => ⟨fun h => ?_, fun h => ?_⟩⟩
  · rintro ⟨literal, rfl, h⟩
    exact stringLiteral_of_literal h rest
  · obtain ⟨literal', happend, hloose⟩ := exists_literal h
    obtain rfl := List.append_cancel_right happend
    refine hloose.mono fun text c hwithin hescape => ?_
    cases hescape with
    | exact h => exact h
    | @signed e _ digits he _ =>
      have hstart : ['\\', e, '+'] <+: '\\' :: e :: '+' :: digits := List.prefix_append _ digits
      exact absurd (hstart.isInfix.trans hwithin) (hsign _ he)
  · exact stringLiteral_of_literal (h.mono fun _ _ _ hescape => .exact hescape) rest

theorem stringLiteral_grammar_sample :
    (∀ entry ∈ codeWidths, ¬ ['\\', entry.1, '+'] <:+: "'\\x4B\\101\\''".toList) ∧
      stringLiteral ("'\\x4B\\101\\''".toList ++ [',']) = .ok ("KA'", [',']) := by
  have hsign : ∀ entry ∈ codeWidths, ¬ ['\\', entry.1, '+'] <:+: "'\\x4B\\101\\''".toList := by decide
  refine ⟨hsign, ((stringLiteral_grammar [] [','] "KA'").2 _ hsign).2 ?_⟩
  have hhex : Spells 16 ['4', 'B'] 'K'.toNat := ⟨[4, 11], by simp, by decide⟩
  have hoctal : Spells 8 ['1', '0', '1'] 'A'.toNat := ⟨[1, 0, 1], by simp, by decide⟩
  refine @Literal.quoted Escape '\'' [(['\\', 'x', '4', 'B'], 'K'), (['\\', '1', '0', '1'], 'A'),
    (['\\', '\''], '\'')] (.inr rfl) ?_
  refine List.forall_mem_cons.2 ⟨.escaped (.code (by decide) hhex), ?_⟩
  refine List.forall_mem_cons.2 ⟨.escaped (.octal rfl hoctal), ?_⟩
  exact List.forall_mem_cons.2 ⟨.escaped (.letter (by decide)), by simp⟩

lemma not_escape_sign {e c : Char} (digits : List Char) : ¬ Escape (e :: '+' :: digits) c := by
  rintro (_ | ⟨-, hcode⟩ | ⟨-, hcode⟩)
  · exact Text.not_spells_plus (by decide) digits hcode
  · obtain ⟨_, hdigits, -⟩ := hcode
    obtain ⟨-, behind, -, hbehind, -⟩ := List.forall₂_cons_left_iff.1 hdigits
    exact Text.not_spells_plus (by decide) digits ⟨behind, hbehind, rfl⟩

/-- No item of the documented grammar begins with a sign in a code. -/
lemma not_item_sign {quote c : Char} {chars rest behind : List Char} (h : Item Escape quote chars c) :
    '\\' :: 'x' :: '+' :: behind ≠ chars ++ rest := by
  intro htext
  cases h with
  | plain _ hslash _ => exact hslash (List.cons.inj htext).1.symm
  | @escaped text _ h =>
    obtain ⟨-, htext⟩ := List.cons.inj htext
    rcases text with _ | ⟨e, _ | ⟨sign, digits⟩⟩
    · obtain _ | _ | hlength := h
      cases hlength
    · obtain ⟨rfl, -⟩ : 'x' = e ∧ _ := List.cons.inj htext
      obtain hletter | hwidth | hlength := h
      · exact absurd hletter (by simp [letterEscapes])
      · exact absurd hwidth (by decide)
      · cases hlength
    · obtain ⟨-, htext⟩ := List.cons.inj htext
      obtain ⟨rfl, -⟩ : '+' = sign ∧ _ := List.cons.inj htext
      exact not_escape_sign digits h

/-- A code with a sign is read, although no literal of the documented grammar begins the text. -/
theorem signed_code_is_read :
    stringLiteral ['"', '\\', 'x', '+', 'f', '"'] = .ok ("\x0f", []) ∧
      ∀ literal rest value, ['"', '\\', 'x', '+', 'f', '"'] = literal ++ rest → ¬ Literal Escape literal value := by
  constructor
  · have hcode : Spells 16 ['f'] '\x0f'.toNat := ⟨[15], by simp, by decide⟩
    have hliteral : Literal LooseEscape ['"', '\\', 'x', '+', 'f', '"'] "\x0f" := by
      refine @Literal.quoted LooseEscape '"' [(['\\', 'x', '+', 'f'], '\x0f')] (.inl rfl) ?_
      exact List.forall_mem_cons.2 ⟨.escaped (.signed (by decide) hcode), by simp⟩
    simpa using stringLiteral_of_literal hliteral []
  · intro literal rest value htext hliteral
    cases hliteral with
    | raw => simp at htext
    | @quoted quote items hquote hitems =>
      rw [List.append_assoc, List.cons_append] at htext
      obtain ⟨rfl, htext⟩ := List.cons.inj htext
      cases items with
      | nil => simp at htext
      | cons item items =>
        rw [List.flatMap_cons, List.append_assoc] at htext
        exact not_item_sign (hitems item List.mem_cons_self) htext

end Scan

end QueryScope
