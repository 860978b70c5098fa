import Mathlib.Data.List.Infix
import Mathlib.Data.List.TakeWhile
import QueryScope.Variable.Codec

/-!
# The parts of a query

The parts of a query written one after another are the query. What stands in for a variable is found
in a table with an entry for each variable of the query, and no two entries share a number.
-/

namespace QueryScope.Variable

/-! ## The parts written out -/

lemma chars_append_drop_width {text rest : List Char} {v : Variable} (h : read? text = some (v, rest)) :
    v.chars ++ text.drop v.width = '$' :: text := by
  unfold read? at h
  split at h
  · next inner =>
    have hsplit := @List.takeWhile_append_dropWhile _ (· != '\x7d') inner
    simp only at h
    split at h
    · cases h
    · next c behind hbehind =>
      split at h
      · cases h
      · obtain ⟨rfl, rfl⟩ : ⟨true, _⟩ = v ∧ behind = rest := by simpa using h
        have hc : c = '\x7d' := by
          have := List.head?_dropWhile_not (· != '\x7d') inner
          simpa [hbehind] using this
        subst hc
        rw [hbehind] at hsplit
        generalize List.takeWhile (· != '\x7d') inner = name at hsplit
        subst hsplit
        simp [chars, width]
  · simp only at h
    split at h
    · cases h
    · obtain ⟨rfl, rfl⟩ : ⟨false, _⟩ = v ∧ _ = rest := by simpa using h
      have hsplit := @List.takeWhile_append_dropWhile _ Text.isWordChar text
      generalize List.takeWhile Text.isWordChar text = name at hsplit ⊢
      generalize List.dropWhile Text.isWordChar text = behind at hsplit
      subst hsplit
      simp [chars, width]

lemma flatMap_chars_innerParts (skip : Nat) (text : List Char) :
    (innerParts skip text).flatMap Inner.chars = text.drop skip := by
  induction text generalizing skip with
  | nil => cases skip <;> rfl
  | cons c rest ih =>
    cases skip with
    | succ skip => exact ih skip
    | zero =>
      rw [innerParts]
      split
      · next v after hread =>
        rw [List.flatMap_cons, ih, Inner.chars]
        by_cases hc : c = '$'
        · subst hc
          exact chars_append_drop_width hread
        · simp [hc] at hread
      · rw [List.flatMap_cons, ih]
        rfl

lemma literalInside_append (quote : Char) (escaped : Bool) (text : List Char) :
    (literalInside quote escaped text).1 ++
        (if (literalInside quote escaped text).2 then [quote] else []) ++
        text.drop ((literalInside quote escaped text).1.length +
          if (literalInside quote escaped text).2 then 1 else 0) = text := by
  induction text generalizing escaped with
  | nil => cases escaped <;> rfl
  | cons c rest ih =>
    have hcons (escaped : Bool) : c :: (literalInside quote escaped rest).1 ++
        (if (literalInside quote escaped rest).2 then [quote] else []) ++
        (c :: rest).drop ((c :: (literalInside quote escaped rest).1).length +
          if (literalInside quote escaped rest).2 then 1 else 0) = c :: rest := by
      rw [List.length_cons, Nat.add_right_comm, List.drop_succ_cons, List.cons_append,
        List.cons_append, ih escaped]
    cases escaped with
    | true => exact hcons false
    | false =>
      by_cases hc : c = quote
      · simp [literalInside, hc]
      · simp only [literalInside, if_neg hc]
        exact hcons _

lemma flatMap_chars_pieces (skip : Nat) (text : List Char) :
    (pieces skip text).flatMap Piece.chars = text.drop skip := by
  induction text generalizing skip with
  | nil => cases skip <;> rfl
  | cons c rest ih =>
    cases skip with
    | succ skip => exact ih skip
    | zero =>
      rw [pieces]
      split
      · simp only [List.flatMap_cons, ih, Piece.chars, flatMap_chars_innerParts, List.drop_zero,
          List.cons_append, literalInside_append]
      · split
        · next v after hread =>
          rw [List.flatMap_cons, ih, Piece.chars]
          by_cases hc : c = '$'
          · subst hc
            exact chars_append_drop_width hread
          · simp [hc] at hread
        · rw [List.flatMap_cons, ih]
          rfl

/-- The parts of a query, written out, are the query. -/
lemma flatMap_chars_piecesOf (query : String) :
    (piecesOf query).flatMap Piece.chars = query.toList :=
  flatMap_chars_pieces 0 query.toList

/-! ## The occurrences of one part -/

/-- What is found in a part between the parts `before`, read backwards, and `after`. The part starts at a byte. -/
def Piece.Reports (inGrouping : Bool) (before after : List Piece) (offset : Nat) : Piece → List Occurrence → Prop
  | char _, here => here = []
  | var v, here =>
    ∃ context, codeVerdict inGrouping before after = .context context ∧
      here = [⟨v, offset, offset + byteLength v.chars, context⟩]
  | literal _ body closed, here => here = literalOccurrences (literalContext body closed before) (offset + 1) body

lemma occurrencesFrom_cons {p : Piece} {before parts : List Piece} {offset : Nat} {marks : List Bool}
    {found : List Occurrence} (h : occurrencesFrom before offset (p :: parts) marks = .ok found) :
    ∃ here behind, found = here ++ behind ∧ p.Reports (marks.head?.getD false) before parts offset here ∧
      occurrencesFrom (p :: before) (offset + byteLength p.chars) parts marks.tail = .ok behind := by
  cases p with
  | char c => exact ⟨[], found, rfl, rfl, h⟩
  | literal quote body closed =>
    rw [occurrencesFrom] at h
    cases hrest : occurrencesFrom (.literal quote body closed :: before)
      (offset + byteLength (Piece.literal quote body closed).chars) parts marks.tail with
    | error e => rw [hrest] at h; cases h
    | ok behind =>
      rw [hrest] at h
      obtain rfl := Except.ok.inj h
      exact ⟨_, behind, rfl, rfl, rfl⟩
  | var v =>
    rw [occurrencesFrom] at h
    split at h
    · cases h
    · cases h
    · next context hcontext =>
      cases hrest : occurrencesFrom (.var v :: before) (offset + byteLength (Piece.var v).chars) parts
        marks.tail with
      | error e => rw [hrest] at h; cases h
      | ok behind =>
        rw [hrest] at h
        obtain rfl := Except.ok.inj h
        exact ⟨[_], behind, rfl, ⟨context, hcontext, rfl⟩, rfl⟩

/-! ## The table -/

section Table

variable {found : List Occurrence} {e e' : Entry} {o : Occurrence} {v : Variable}

lemma mem_byRank : o ∈ byRank found ↔ o ∈ found := by
  have hrank : o.context.rank < 5 := by cases o.context <;> simp [Context.rank]
  simp [byRank, hrank]

lemma mem_allocation : v ∈ allocation found ↔ ∃ o ∈ found, o.var = v := by
  simp [allocation, List.mem_eraseDups, mem_byRank]

lemma mem_tableOf :
    e ∈ tableOf found ↔ ∃ index v, (allocation found)[index]? = some v ∧ entryOf found v index = e := by
  simp only [tableOf, List.mem_iff_getElem?, List.getElem?_mapIdx, Option.map_eq_some_iff]

lemma length_tableOf : (tableOf found).length = (allocation found).length :=
  List.length_mapIdx

lemma number_of_mem_tableOf (he : e ∈ tableOf found) :
    firstNumber ≤ e.number ∧ e.number < firstNumber + (tableOf found).length := by
  obtain ⟨index, v, hindex, rfl⟩ := mem_tableOf.1 he
  obtain ⟨hlength, -⟩ := List.getElem?_eq_some_iff.1 hindex
  rw [length_tableOf]
  simp only [entryOf]
  omega

lemma getElem?_tableOf {index : Nat} (h : (tableOf found)[index]? = some e) : e.number = firstNumber + index := by
  rw [tableOf, List.getElem?_mapIdx, Option.map_eq_some_iff] at h
  obtain ⟨v, -, rfl⟩ := h
  rfl

lemma pairwise_number (found : List Occurrence) : (tableOf found).Pairwise fun e e' => e.number < e'.number := by
  rw [List.pairwise_iff_getElem]
  intro i j hi hj hij
  rw [getElem?_tableOf (List.getElem?_eq_getElem hi), getElem?_tableOf (List.getElem?_eq_getElem hj)]
  exact Nat.add_lt_add_left hij firstNumber

lemma eq_of_number_eq (he : e ∈ tableOf found) (he' : e' ∈ tableOf found)
    (h : e.number = e'.number) : e = e' := by
  obtain ⟨index, v, hindex, rfl⟩ := mem_tableOf.1 he
  obtain ⟨index', v', hindex', rfl⟩ := mem_tableOf.1 he'
  obtain rfl : index = index' := Nat.add_left_cancel h
  rw [hindex] at hindex'
  rw [Option.some.inj hindex']

/-- Each variable of a query has an entry. -/
lemma find?_tableOf (ho : o ∈ found) :
    ∃ e ∈ tableOf found, (tableOf found).find? (·.var = o.var) = some e ∧ e.var = o.var := by
  obtain ⟨index, hindex⟩ := List.mem_iff_getElem?.1 (mem_allocation.2 ⟨o, ho, rfl⟩)
  have hsome : ((tableOf found).find? (·.var = o.var)).isSome := by
    rw [List.find?_isSome]
    exact ⟨_, mem_tableOf.2 ⟨index, o.var, hindex, rfl⟩, by simp [entryOf]⟩
  obtain ⟨e, he⟩ := Option.isSome_iff_exists.1 hsome
  exact ⟨e, List.mem_of_find?_eq_some he, he, by simpa using List.find?_some he⟩

/-- An entry is quoted anew where its variable stood as a bare label value. -/
lemma exists_bare_of_labelQuoted (he : e ∈ tableOf found) (h : e.labelQuoted = some false) :
    ∃ o ∈ found, o.var = e.var ∧ o.context = .labelValue false := by
  obtain ⟨index, v, -, rfl⟩ := mem_tableOf.1 he
  obtain ⟨context, hcontext, hquoted⟩ := List.exists_of_findSome?_eq_some h
  simp only [List.mem_map, List.mem_filter, decide_eq_true_eq] at hcontext
  obtain ⟨o, ⟨ho, hvar⟩, rfl⟩ := hcontext
  refine ⟨o, ho, hvar, ?_⟩
  cases hctx : o.context <;> simp_all [Context.labelQuoted?]

/-- A variable that stands only as a bare label value has an entry that is quoted anew. -/
lemma labelQuoted_of_bare (he : e ∈ tableOf found) (ho : o ∈ found) (hvar : o.var = e.var)
    (hbare : ∀ o' ∈ found, o'.var = e.var → o'.context = .labelValue false) :
    e.labelQuoted = some false := by
  obtain ⟨index, v, -, rfl⟩ := mem_tableOf.1 he
  have hsome : (entryOf found v index).labelQuoted.isSome := by
    rw [entryOf, List.findSome?_isSome_iff]
    refine ⟨o.context, ?_, ?_⟩
    · exact List.mem_map_of_mem (List.mem_filter.2 ⟨ho, decide_eq_true hvar⟩)
    · rw [hbare o ho hvar]
      rfl
  obtain ⟨quoted, hquoted⟩ := Option.isSome_iff_exists.1 hsome
  obtain ⟨context, hcontext, hquoted'⟩ := List.exists_of_findSome?_eq_some hquoted
  simp only [List.mem_map, List.mem_filter, decide_eq_true_eq] at hcontext
  obtain ⟨o', ⟨ho', hvar'⟩, rfl⟩ := hcontext
  rw [hbare o' ho' hvar'] at hquoted'
  rw [hquoted, ← hquoted']
  rfl

end Table

end QueryScope.Variable
