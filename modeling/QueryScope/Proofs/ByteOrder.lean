import QueryScope.Text.Lead
import Mathlib.Tactic

/-!
# The order of strings is the order of their bytes

Strings are compared character by character. UTF-8 keeps that order: the bytes of a smaller
character come before those of a larger one at the first byte where the two differ.
-/

namespace QueryScope.Text

/-- The bytes of a string in UTF-8. -/
def bytes (text : String) : List UInt8 :=
  text.toList.flatMap String.utf8EncodeChar

lemma utf8EncodeChar_append_lt {c d : Char} (h : c < d) (r s : List UInt8) :
    String.utf8EncodeChar c ++ r < String.utf8EncodeChar d ++ s := by
  have hlt : c.val.toNat < d.val.toNat := h
  have hd : d.val.toNat < 0x110000 := by
    rcases d.valid with h | h
    · exact Nat.lt_trans h (by decide)
    · exact h.2
  have hdigits (v : Nat) : v / 64 / 64 = v / 4096 ∧ v / 4096 / 64 = v / 262144 := by omega
  have hc2 := hdigits c.val.toNat
  have hd2 := hdigits d.val.toNat
  unfold String.utf8EncodeChar
  simp only
  split_ifs <;>
    simp only [List.cons_append, List.nil_append, List.cons_lt_cons_iff, UInt8.lt_iff_toNat_lt,
      ← UInt8.toNat_inj, UInt8.toNat_ofNat'] <;>
    simp (disch := omega) only [Nat.mod_eq_of_lt] <;>
    omega

lemma flatMap_utf8EncodeChar_lt {a b : List Char} (h : a < b) :
    a.flatMap String.utf8EncodeChar < b.flatMap String.utf8EncodeChar := by
  induction h with
  | @nil d b =>
    rw [List.flatMap_nil, List.flatMap_cons]
    cases hd : String.utf8EncodeChar d with
    | nil => exact absurd hd String.utf8EncodeChar_ne_nil
    | cons byte rest => exact List.nil_lt_cons _ _
  | rel hcd => exact utf8EncodeChar_append_lt hcd _ _
  | cons _ ih =>
    rw [List.flatMap_cons, List.flatMap_cons]
    exact List.append_left_lt ih

/-- A string that comes before another one does so by its bytes. -/
theorem bytes_lt_of_lt {a b : String} (h : a < b) : bytes a < bytes b :=
  flatMap_utf8EncodeChar_lt (String.lt_iff.1 h)

end QueryScope.Text
