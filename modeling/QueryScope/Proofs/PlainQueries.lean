import QueryScope.Transform
import QueryScope.Proofs.CodecRoundTrip

/-!
# Queries without variables

A text in which no variable is found is scoped as the grammar reads it: it is refused exactly where the
grammar refuses it. Text in a comment is searched for variables too, so a comment can make a query that
the grammar reads fail.
-/

namespace QueryScope

namespace Variable

lemma Encodes.eq_of_nil {text chars : List Char} (h : Encodes [] text chars) : text = chars := by
  obtain ⟨segments, rfl, rfl, hmem⟩ := h
  exact written_eq_original hmem

lemma encode_of_classify_nil {query : String} (h : classify query = .ok []) :
    encode query = .ok ⟨query, []⟩ := by
  have hpieces := (encodes_pieces _ _ _ _ h (by simp [Covers])).eq_of_nil
  rw [flatMap_chars_piecesOf] at hpieces
  rw [classify] at h
  simp only [encode, h]
  change Except.ok (Encoded.mk (String.ofList (encodePieces [] (piecesOf query) [])) []) = _
  rw [hpieces, String.ofList_toList]

lemma decode_nil (text : String) : decode [] text = text := by
  simp [decode, decodeChars, tokenEntries, restoreDurations, durationEntries]

end Variable

/-- A text without variables is scoped just as the grammar reads it. -/
theorem transform_of_no_variable {query : String} (h : Variable.classify query = .ok []) (dialect : Dialect)
    (set : LabelSet) :
    transform dialect query set =
      match Query.parse dialect query with
      | .error e => .error (.grammar e)
      | .ok tree => .ok (tree.inject set).print := by
  unfold transform transformSteps
  rw [Variable.encode_of_classify_nil h]
  cases hparse : Query.parse dialect query with
  | error e => simp [hparse]
  | ok tree => simp [hparse, Variable.decode_nil]

/-- A dollar sign at the end of an expression starts no variable. -/
theorem transform_of_no_variable_sample :
    ∃ out, transform .logql "\x7bjob=~\"web-$\"\x7d |= \"$\"" (NameMap.empty.insert "env" "prod") = .ok out := by
  have hread : (Query.parse .logql "\x7bjob=~\"web-$\"\x7d |= \"$\"").toOption.any (fun _ => true) = true := by
    decide +kernel
  obtain ⟨tree, hparse, -⟩ := exists_ok_of_any hread
  have hnone : Variable.classify "\x7bjob=~\"web-$\"\x7d |= \"$\"" = .ok [] := rfl
  have hout := transform_of_no_variable hnone .logql (NameMap.empty.insert "env" "prod")
  rw [hparse] at hout
  exact ⟨_, hout⟩

/-- A call of a variable in a comment is refused, though the grammar skips the comment. -/
theorem comment_makes_transform_fail :
    (Query.parse .promql "up # $f(x)").toOption.isSome = true ∧
      transform .promql "up # $f(x)" NameMap.empty =
        .error (.position ⟨.functionName, ⟨false, ['f']⟩, 5⟩) :=
  ⟨by decide +kernel, rfl⟩

end QueryScope
