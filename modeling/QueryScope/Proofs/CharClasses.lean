import QueryScope.Label.Name
import QueryScope.Scan.Lexeme
import Mathlib.Data.Bool.AllAny
import Mathlib.Tactic

/-!
# Classes of characters by code point

Each class of characters that the readers look for is a set of code points, so that questions
between classes are questions between numbers.
-/

namespace QueryScope.Text

lemma toNat_eq_iff {c d : Char} : c = d ↔ c.toNat = d.toNat :=
  Char.toNat_inj.symm

lemma isDigit_iff {c : Char} : c.isDigit = true ↔ 48 ≤ c.toNat ∧ c.toNat ≤ 57 := by
  simp only [Char.isDigit, Bool.and_eq_true, decide_eq_true_eq, UInt32.le_iff_toNat_le, ge_iff_le]
  rfl

lemma isAlpha_iff {c : Char} :
    c.isAlpha = true ↔ 65 ≤ c.toNat ∧ c.toNat ≤ 90 ∨ 97 ≤ c.toNat ∧ c.toNat ≤ 122 := by
  change (decide ('A'.val ≤ c.val ∧ c.val ≤ 'Z'.val) ||
    (decide ('a'.val ≤ c.val) && decide (c.val ≤ 'z'.val))) = true ↔ _
  simp only [Bool.or_eq_true, Bool.and_eq_true, decide_eq_true_eq, UInt32.le_iff_toNat_le]
  rfl

lemma isAlpha_of_isDigit {c : Char} (h : c.isDigit = true) : c.isAlpha = false := by
  rw [isDigit_iff] at h
  rw [Bool.eq_false_iff, Ne, isAlpha_iff]
  omega

lemma isWordChar_iff {c : Char} :
    isWordChar c = true ↔ c.isAlpha = true ∨ c.isDigit = true ∨ c.toNat = 95 := by
  simp [isWordChar, Char.isAlphanum, or_assoc, toNat_eq_iff]

lemma toNat_toLower (c : Char) :
    c.toLower.toNat = if 65 ≤ c.toNat ∧ c.toNat ≤ 90 then c.toNat + 32 else c.toNat := by
  unfold Char.toLower
  have hupper : c.val ≥ 'A'.val ∧ c.val ≤ 'Z'.val ↔ 65 ≤ c.toNat ∧ c.toNat ≤ 90 := by
    simp only [UInt32.le_iff_toNat_le, ge_iff_le]
    rfl
  split_ifs with hlower hcode hcode
  · change (c.val + ('a'.val - 'A'.val)).toNat = c.val.toNat + 32
    have hle : c.val.toNat ≤ 90 := hcode.2
    rw [UInt32.toNat_add]
    have h32 : ('a'.val - 'A'.val).toNat = 32 := rfl
    omega
  · exact absurd (hupper.1 hlower) hcode
  · exact absurd (hupper.2 hcode) hlower
  · rfl

lemma isHexDigit_iff {c : Char} :
    isHexDigit c = true ↔ 48 ≤ c.toNat ∧ c.toNat ≤ 57 ∨ 97 ≤ c.toNat ∧ c.toNat ≤ 102 ∨ 65 ≤ c.toNat ∧ c.toNat ≤ 70 := by
  simp only [isHexDigit, Bool.or_eq_true, Bool.and_eq_true, decide_eq_true_eq, isDigit_iff, Char.le_def,
    UInt32.le_iff_toNat_le, or_assoc]
  rfl

lemma isHexDigit_toLower (c : Char) : isHexDigit c.toLower = isHexDigit c := by
  rw [Bool.eq_iff_iff, isHexDigit_iff, isHexDigit_iff, toNat_toLower]
  split_ifs <;> omega

end QueryScope.Text

namespace QueryScope.Label

open Text

lemma isNameStart_iff {c : Char} : isNameStart c = true ↔ c.isAlpha = true ∨ c.toNat = 95 := by
  simp [isNameStart, toNat_eq_iff]

lemma isMetricNameStart_iff {c : Char} :
    isMetricNameStart c = true ↔ isNameStart c = true ∨ c.toNat = 58 := by
  simp [isMetricNameStart, toNat_eq_iff]

lemma isMetricNameChar_iff {c : Char} :
    isMetricNameChar c = true ↔ isWordChar c = true ∨ c.toNat = 58 := by
  simp [isMetricNameChar, toNat_eq_iff]

/-- Where no metric name goes on, no label name does. -/
lemma any_isWordChar_of_any_isMetricNameChar {o : Option Char} (h : o.any isMetricNameChar = false) :
    o.any isWordChar = false := by
  cases o with
  | none => rfl
  | some c =>
    simp only [Option.any_some] at h ⊢
    rw [Bool.eq_false_iff] at h ⊢
    exact fun hword => h (isMetricNameChar_iff.2 (Or.inl hword))

end QueryScope.Label

namespace QueryScope.Scan

lemma isSpace_iff {c : Char} :
    isSpace c = true ↔ c.toNat = 32 ∨ c.toNat = 9 ∨ c.toNat = 13 ∨ c.toNat = 10 := by
  simp [isSpace, or_assoc, Text.toNat_eq_iff]

end QueryScope.Scan
