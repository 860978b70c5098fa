/-!
# What a text begins with
-/

namespace QueryScope.Text

/-- The text behind `lead`, if the text begins with it. -/
def after? : List Char → List Char → Option (List Char)
  | [], text => some text
  | _ :: _, [] => none
  | a :: lead, c :: text => if a = c then after? lead text else none

theorem eq_append_of_after? {lead text rest : List Char} (h : after? lead text = some rest) :
    text = lead ++ rest := by
  induction lead generalizing text with
  | nil => simpa [after?] using h
  | cons a lead ih =>
    cases text with
    | nil => simp [after?] at h
    | cons c text =>
      by_cases hac : a = c
      · simp only [after?, hac, if_true] at h
        simp [hac, ih h]
      · simp [after?, hac] at h

@[simp]
theorem after?_append (lead rest : List Char) : after? lead (lead ++ rest) = some rest := by
  induction lead with
  | nil => rfl
  | cons a lead ih => simpa [after?] using ih

/-- The parts of a text before and behind the first place of a mark. -/
def splitAt? (mark : List Char) : List Char → Option (List Char × List Char)
  | [] => if mark.isEmpty then some ([], []) else none
  | c :: rest =>
    match after? mark (c :: rest) with
    | some behind => some ([], behind)
    | none => (splitAt? mark rest).map fun parts => (c :: parts.1, parts.2)

/-- The text begins with `lead`. -/
def startsWith (lead : String) (text : List Char) : Bool :=
  (after? lead.toList text).isSome

theorem length_dropWhile_le (inClass : Char → Bool) (text : List Char) :
    (text.dropWhile inClass).length ≤ text.length := by
  induction text with
  | nil => simp
  | cons c text ih =>
    rw [List.dropWhile_cons]
    split
    · simp
      omega
    · simp

end QueryScope.Text
