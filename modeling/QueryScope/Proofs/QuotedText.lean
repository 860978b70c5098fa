import QueryScope.Scan.Literal
import QueryScope.Text.Quoted
import Mathlib.Tactic

/-!
# Quoted strings are read back

The literal that is written for a string is read as that string, whatever text follows.
-/

namespace QueryScope.Scan

lemma codeEscape?_paddedHex {n : Nat} (h : n < 160) :
    codeEscape? 16 2 (Text.paddedHex 2 n) = some (Char.ofNat n) ∧
      codeEscape? 16 4 (Text.paddedHex 4 n) = some (Char.ofNat n) := by
  revert n
  decide +kernel

lemma length_of_codeEscape? {radix width : Nat} {digits : List Char} {c : Char}
    (h : codeEscape? radix width digits = some c) : digits.length = width := by
  by_contra hne
  simp [codeEscape?, hne] at h

lemma literalBody_cons {quote c : Char} (hquote : c ≠ quote) (hline : c ≠ '\n') (hslash : c ≠ '\\')
    (text : List Char) :
    literalBody quote (c :: text) = (literalBody quote text).map fun parts => (c :: parts.1, parts.2) := by
  rw [literalBody.eq_def]
  simp only [hquote, hline, hslash, if_false]
  cases literalBody quote text <;> rfl

lemma literalBody_escape {quote e c : Char} {digits : List Char} (hquote : '\\' ≠ quote) (text : List Char)
    (h : escape? e (digits ++ text) = some (c, digits.length)) :
    literalBody quote ('\\' :: e :: digits ++ text) =
      (literalBody quote text).map fun parts => (c :: parts.1, parts.2) := by
  have hline : '\\' ≠ '\n' := by decide
  rw [List.cons_append, List.cons_append, literalBody.eq_def]
  simp only [hquote, hline, if_false, if_true, h, List.drop_left]
  cases literalBody quote text <;> rfl

lemma literalBody_letter {e c : Char} (text : List Char) (h : letterEscape? e = some c) :
    literalBody '"' (['\\', e] ++ text) =
      (literalBody '"' text).map fun parts => (c :: parts.1, parts.2) := by
  have hescape : escape? e ([] ++ text) = some (c, ([] : List Char).length) := by simp [escape?, h]
  exact literalBody_escape (by decide) text hescape

lemma escape?_code {e c : Char} {width : Nat} {digits : List Char} (text : List Char)
    (hletter : letterEscape? e = none) (hwidth : codeWidth? e = some width)
    (hdigits : codeEscape? 16 width digits = some c) :
    escape? e (digits ++ text) = some (c, digits.length) := by
  obtain rfl := length_of_codeEscape? hdigits
  simp [escape?, hletter, hwidth, hdigits]

lemma literalBody_quoteChar (c : Char) (text : List Char) :
    literalBody '"' (Text.quoteChar c ++ text) =
      (literalBody '"' text).map fun parts => (c :: parts.1, parts.2) := by
  unfold Text.quoteChar
  by_cases h1 : c = '"'
  · subst h1
    exact literalBody_letter text rfl
  rw [if_neg h1]
  by_cases h2 : c = '\\'
  · subst h2
    exact literalBody_letter text rfl
  rw [if_neg h2]
  by_cases h3 : c = '\x07'
  · subst h3
    exact literalBody_letter text rfl
  rw [if_neg h3]
  by_cases h4 : c = '\x08'
  · subst h4
    exact literalBody_letter text rfl
  rw [if_neg h4]
  by_cases h5 : c = '\x0c'
  · subst h5
    exact literalBody_letter text rfl
  rw [if_neg h5]
  by_cases h6 : c = '\n'
  · subst h6
    exact literalBody_letter text rfl
  rw [if_neg h6]
  by_cases h7 : c = '\r'
  · subst h7
    exact literalBody_letter text rfl
  rw [if_neg h7]
  by_cases h8 : c = '\t'
  · subst h8
    exact literalBody_letter text rfl
  rw [if_neg h8]
  by_cases h9 : c = '\x0b'
  · subst h9
    exact literalBody_letter text rfl
  rw [if_neg h9]
  by_cases hcontrol : Text.isControl c
  · have hn : c.toNat < 160 := by
      simp only [Text.isControl, Bool.or_eq_true, Bool.and_eq_true, decide_eq_true_eq] at hcontrol
      omega
    obtain ⟨hshort, hlong⟩ := codeEscape?_paddedHex hn
    rw [Char.ofNat_toNat] at hshort hlong
    rw [if_pos hcontrol]
    split
    · exact literalBody_escape (by decide) text (escape?_code text rfl rfl hshort)
    · exact literalBody_escape (by decide) text (escape?_code text rfl rfl hlong)
  · rw [if_neg hcontrol]
    exact literalBody_cons h1 h6 h2 text

lemma literalBody_quoted (body rest : List Char) :
    literalBody '"' (body.flatMap Text.quoteChar ++ '"' :: rest) = .ok (body, rest) := by
  induction body with
  | nil =>
    rw [List.flatMap_nil, List.nil_append, literalBody.eq_def]
    rfl
  | cons c body ih =>
    rw [List.flatMap_cons, List.append_assoc, literalBody_quoteChar, ih]
    rfl

lemma stringLiteral_double (text : List Char) :
    stringLiteral ('"' :: text) =
      match literalBody '"' text with
      | .ok (body, rest) => .ok (String.ofList body, rest)
      | .error .unclosed => demand "closing quote" ('"' :: text)
      | .error .badEscape => refuse "invalid escape sequence in string" ('"' :: text) :=
  rfl

lemma stringLiteral_quoteChars (value : String) (rest : List Char) :
    stringLiteral (Text.quoteChars value.toList ++ rest) = .ok (value, rest) := by
  have htext : Text.quoteChars value.toList ++ rest =
      '"' :: (value.toList.flatMap Text.quoteChar ++ '"' :: rest) := by
    simp [Text.quoteChars]
  rw [htext, stringLiteral_double, literalBody_quoted]
  simp

/-- A string is read back from its literal, and whatever follows the closing quote is left. -/
theorem stringLiteral_quote (value : String) (rest : List Char) :
    stringLiteral ((Text.quote value).toList ++ rest) = .ok (value, rest) := by
  rw [Text.quote, String.toList_ofList, stringLiteral_quoteChars]

end QueryScope.Scan
