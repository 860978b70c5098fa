import Mathlib.Data.List.Infix
import QueryScope.Variable.Codec

/-!
# Replacing a text everywhere

Replacement goes from left to right, so its effect follows from the places where the needle begins. Text
in which it begins nowhere stays, and a character that the needle lacks cuts a replacement in two.
-/

namespace QueryScope.Variable

variable {needle replacement : List Char}

lemma replaceFrom_eq_drop (skip : Nat) (text : List Char) :
    replaceFrom needle replacement skip text = replaceAll needle replacement (text.drop skip) := by
  induction text generalizing skip with
  | nil => cases skip <;> rfl
  | cons c rest ih =>
    cases skip with
    | zero => rfl
    | succ skip => exact ih skip

lemma replaceAll_cons_of_not_begins {c : Char} {rest : List Char} (h : ¬ needle <+: c :: rest) :
    replaceAll needle replacement (c :: rest) = c :: replaceAll needle replacement rest := by
  rw [← List.isPrefixOf_iff_prefix] at h
  rw [replaceAll, replaceFrom, if_neg h, replaceAll]

lemma replaceAll_append_self (hneedle : needle ≠ []) (rest : List Char) :
    replaceAll needle replacement (needle ++ rest) =
      replacement ++ replaceAll needle replacement rest := by
  obtain ⟨c, tail, rfl⟩ := List.exists_cons_of_ne_nil hneedle
  have hbegins : (c :: tail).isPrefixOf (c :: (tail ++ rest)) := by
    rw [List.isPrefixOf_iff_prefix, ← List.cons_append]
    exact List.prefix_append _ _
  rw [replaceAll, List.cons_append, replaceFrom, if_pos hbegins, replaceFrom_eq_drop]
  simp

/-- Text within which the needle begins nowhere is passed over. -/
lemma replaceAll_append_of_not_begins (passed rest : List Char)
    (h : ∀ k < passed.length, ¬ needle <+: passed.drop k ++ rest) :
    replaceAll needle replacement (passed ++ rest) =
      passed ++ replaceAll needle replacement rest := by
  induction passed with
  | nil => rfl
  | cons c passed ih =>
    have hhead : ¬ needle <+: c :: (passed ++ rest) := h 0 (by simp)
    rw [List.cons_append, replaceAll_cons_of_not_begins hhead, ih]
    · rfl
    · intro k hk
      exact h (k + 1) (by simpa using hk)

lemma exists_prefix_drop {text : List Char} (h : needle <:+: text) : ∃ k, needle <+: text.drop k := by
  obtain ⟨left, right, rfl⟩ := h
  exact ⟨left.length, by simp⟩

lemma replaceAll_of_absent {text : List Char} (h : ¬ needle <:+: text) :
    replaceAll needle replacement text = text := by
  have hpassed : replaceAll needle replacement (text ++ []) =
      text ++ replaceAll needle replacement [] := by
    apply replaceAll_append_of_not_begins
    intro k _ hk
    rw [List.append_nil] at hk
    exact h (hk.isInfix.trans (List.drop_suffix k text).isInfix)
  simpa [replaceAll, replaceFrom] using hpassed

/-- A needle that lacks a character never reaches across it. -/
lemma prefix_append_cons_iff {c : Char} (hc : c ∉ needle) (left right : List Char) :
    needle <+: left ++ c :: right ↔ needle <+: left := by
  refine ⟨fun h => ?_, fun h => h.trans (List.prefix_append _ _)⟩
  by_contra hleft
  have hlonger : left.length < needle.length := by
    by_contra hlength
    exact hleft (List.prefix_of_prefix_length_le h (List.prefix_append _ _) (by omega))
  have hbehind : left ++ [c] <+: needle := by
    apply List.prefix_of_prefix_length_le _ h
    · simp only [List.length_append, List.length_singleton]
      omega
    · exact ⟨right, by simp⟩
  exact hc (hbehind.subset (by simp))

lemma replaceAll_append_cons {c : Char} (hneedle : needle ≠ []) (hc : c ∉ needle)
    (left right : List Char) :
    replaceAll needle replacement (left ++ c :: right) =
      replaceAll needle replacement left ++ c :: replaceAll needle replacement right := by
  -- A replacement takes a whole needle off the left part, so the induction is on its length.
  induction hlength : left.length using Nat.strong_induction_on generalizing left with
  | _ length ih =>
    by_cases hbegins : needle <+: left
    · obtain ⟨rest, rfl⟩ := hbegins
      have hshorter : rest.length < length := by
        have := List.length_pos_of_ne_nil hneedle
        simp only [← hlength, List.length_append]
        omega
      rw [List.append_assoc, replaceAll_append_self hneedle, replaceAll_append_self hneedle,
        ih _ hshorter rest rfl, List.append_assoc]
    · have hacross : ¬ needle <+: left ++ c :: right :=
        mt (prefix_append_cons_iff hc left right).1 hbegins
      cases left with
      | nil => exact replaceAll_cons_of_not_begins hacross
      | cons d left =>
        rw [List.cons_append] at hacross ⊢
        rw [replaceAll_cons_of_not_begins hacross,
          replaceAll_cons_of_not_begins hbegins, ih left.length (by simp [← hlength]) left rfl]
        rfl

end QueryScope.Variable
