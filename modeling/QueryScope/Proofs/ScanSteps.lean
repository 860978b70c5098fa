import QueryScope.Scan.Lexeme
import QueryScope.Scan.Report
import Mathlib.Tactic

/-!
# Steps of scanners

What each combinator of scanners does on a text, in two forms: where a scanner goes on from when its
part succeeds, and what a success of the whole says about its parts.
-/

namespace QueryScope.Text

lemma after?_eq_some_iff {lead text rest : List Char} :
    after? lead text = some rest ↔ text = lead ++ rest :=
  ⟨eq_append_of_after?, fun h => h ▸ after?_append lead rest⟩

lemma after?_of_head {lead text : List Char} (hne : lead ≠ []) (h : text.head? ≠ lead.head?) :
    after? lead text = none := by
  obtain ⟨a, lead, rfl⟩ := List.exists_cons_of_ne_nil hne
  cases text with
  | nil => rfl
  | cons c text =>
    have hc : a ≠ c := fun heq => h (by rw [heq, List.head?_cons, List.head?_cons])
    simp [after?, hc]

section Spans

variable {inClass : Char → Bool} {lead rest : List Char}

lemma takeWhile_append_stop (hlead : ∀ c ∈ lead, inClass c) (hrest : rest.head?.any inClass = false) :
    (lead ++ rest).takeWhile inClass = lead := by
  rw [List.takeWhile_append_of_pos hlead]
  cases rest with
  | nil => simp
  | cons c rest =>
    have hc : inClass c = false := by simpa using hrest
    simp [hc]

lemma dropWhile_append_stop (hlead : ∀ c ∈ lead, inClass c) (hrest : rest.head?.any inClass = false) :
    (lead ++ rest).dropWhile inClass = rest := by
  rw [List.dropWhile_append_of_pos hlead]
  cases rest with
  | nil => simp
  | cons c rest =>
    have hc : inClass c = false := by simpa using hrest
    simp [hc]

lemma head?_dropWhile (inClass : Char → Bool) (text : List Char) :
    (text.dropWhile inClass).head?.any inClass = false := by
  induction text with
  | nil => rfl
  | cons c text ih =>
    by_cases hc : inClass c
    · simpa [hc] using ih
    · simp [hc]

end Spans

end QueryScope.Text

namespace QueryScope

lemma exists_ok_of_any {ε α : Type} {r : Except ε α} {check : α → Bool} (h : r.toOption.any check = true) :
    ∃ a, r = .ok a ∧ check a = true := by
  cases r with
  | error e => simp [Except.toOption] at h
  | ok a => exact ⟨a, rfl, by simpa [Except.toOption] using h⟩

end QueryScope

namespace QueryScope.Scan

section Combinators

variable {α β : Type} {x : Scanner α} {f : α → Scanner β} {input rest : List Char} {a : α}

lemma bind_of_ok (h : x input = .ok (a, rest)) : (x >>= f) input = f a rest := by
  change (StateT.bind x f) input = _
  unfold StateT.bind
  rw [h]
  rfl

lemma bind_of_error {failure : Failure} (h : x input = .error failure) :
    (x >>= f) input = .error failure := by
  change (StateT.bind x f) input = _
  unfold StateT.bind
  rw [h]
  rfl

lemma bind_eq_ok_iff {result : β × List Char} :
    (x >>= f) input = .ok result ↔ ∃ a rest, x input = .ok (a, rest) ∧ f a rest = .ok result := by
  cases h : x input with
  | error failure => simp [bind_of_error h]
  | ok pair =>
    obtain ⟨a, rest⟩ := pair
    simp [bind_of_ok h]

@[simp]
lemma pure_apply (a : α) (input : List Char) : (pure a : Scanner α) input = .ok (a, input) :=
  rfl

lemma pure_eq_ok_iff {b : α} : (pure a : Scanner α) input = .ok (b, rest) ↔ a = b ∧ input = rest := by
  simp

@[simp]
lemma get_apply (input : List Char) : (get : Scanner (List Char)) input = .ok (input, input) :=
  rfl

@[simp]
lemma set_apply (text input : List Char) : (set text : Scanner PUnit) input = .ok (⟨⟩, text) :=
  rfl

@[simp]
lemma peek_apply (input : List Char) : peek input = .ok (input.head?, input) :=
  rfl

@[simp]
lemma blanks_apply (input : List Char) : blanks input = .ok ((), dropBlanks false input) :=
  rfl

/-- A check that refuses the text was passed. -/
lemma guard_eq_ok_iff {c : Prop} [Decidable c] {text : String} {k : Unit → Scanner β}
    {result : β × List Char} :
    (if c then refuse text >>= k else k ()) input = .ok result ↔ ¬c ∧ k () input = .ok result := by
  split_ifs with hc
  · have hrefuse : (refuse text : Scanner Unit) input = .error ⟨true, [.label text], input⟩ := rfl
    simp [bind_of_error hrefuse, hc]
  · simp [hc]

lemma map_of_ok {g : α → β} (h : x input = .ok (a, rest)) : (g <$> x) input = .ok (g a, rest) := by
  rw [map_eq_pure_bind, bind_of_ok h]
  rfl

lemma map_eq_ok_iff {g : α → β} {b : β} :
    (g <$> x) input = .ok (b, rest) ↔ ∃ a, x input = .ok (a, rest) ∧ g a = b := by
  rw [map_eq_pure_bind, bind_eq_ok_iff]
  constructor
  · rintro ⟨a, rest', hx, hb⟩
    simp only [pure_apply, Except.ok.injEq, Prod.mk.injEq] at hb
    obtain ⟨rfl, rfl⟩ := hb
    exact ⟨a, hx, rfl⟩
  · rintro ⟨a, hx, rfl⟩
    exact ⟨a, rest, hx, rfl⟩

lemma opt_of_ok (h : x input = .ok (a, rest)) : opt x input = .ok (some a, rest) := by
  simp [opt, h]

lemma opt_of_error {failure : Failure} (h : x input = .error failure) (hc : failure.committed = false) :
    opt x input = .ok (none, input) := by
  simp [opt, h, hc]

lemma opt_eq_some_iff : opt x input = .ok (some a, rest) ↔ x input = .ok (a, rest) := by
  unfold opt
  cases h : x input with
  | error failure => by_cases hc : failure.committed <;> simp [hc]
  | ok pair => simp [Prod.ext_iff]

lemma opt_eq_none_iff : opt x input = .ok (none, rest) ↔
    rest = input ∧ ∃ failure, x input = .error failure ∧ failure.committed = false := by
  unfold opt
  cases h : x input with
  | error failure => by_cases hc : failure.committed <;> simp [hc, eq_comm (a := rest)]
  | ok pair => simp

lemma committed_of_opt {failure : Failure} (h : opt x input = .error failure) :
    failure.committed = true := by
  unfold opt at h
  cases hx : x input with
  | error cause => by_cases hc : cause.committed <;> simp_all
  | ok pair => simp [hx] at h

@[simp]
lemma commit_eq_ok_iff {result : α × List Char} : commit x input = .ok result ↔ x input = .ok result := by
  unfold commit
  cases h : x input <;> simp

@[simp]
lemma expecting_eq_ok_iff {what : String} {result : α × List Char} :
    expecting what x input = .ok result ↔ x input = .ok result := by
  unfold expecting
  cases h : x input <;> simp

lemma orElse_of_ok {y : Scanner α} (h : x input = .ok (a, rest)) :
    orElse x y input = .ok (a, rest) := by
  simp [orElse, h]

lemma orElse_of_error {y : Scanner α} {failure : Failure} (h : x input = .error failure)
    (hc : failure.committed = false) : orElse x y input = y input := by
  simp [orElse, h, hc]

lemma optBehindBlanks_eq_some_iff :
    optBehindBlanks x input = .ok (some a, rest) ↔ x (dropBlanks false input) = .ok (a, rest) := by
  rw [optBehindBlanks, opt_eq_some_iff, bind_of_ok (blanks_apply input)]

lemma optBehindBlanks_eq_none_iff : optBehindBlanks x input = .ok (none, rest) ↔
    rest = input ∧ ∃ failure, x (dropBlanks false input) = .error failure ∧ failure.committed = false := by
  rw [optBehindBlanks, opt_eq_none_iff, bind_of_ok (blanks_apply input)]

lemma optBehindBlanks_of_ok (h : x (dropBlanks false input) = .ok (a, rest)) :
    optBehindBlanks x input = .ok (some a, rest) :=
  optBehindBlanks_eq_some_iff.2 h

lemma optBehindBlanks_of_error {failure : Failure} (h : x (dropBlanks false input) = .error failure)
    (hc : failure.committed = false) : optBehindBlanks x input = .ok (none, input) :=
  optBehindBlanks_eq_none_iff.2 ⟨rfl, failure, h, hc⟩

end Combinators

section Words

variable {input rest : List Char}

lemma literal_append (text : String) (rest : List Char) :
    literal text (text.toList ++ rest) = .ok ((), rest) := by
  simp [literal]

lemma literal_eq_ok_iff {text : String} {u : Unit} :
    literal text input = .ok (u, rest) ↔ input = text.toList ++ rest := by
  unfold literal
  cases h : Text.after? text.toList input with
  | none =>
    have hne : input ≠ text.toList ++ rest := fun heq => by simp [heq] at h
    simp [hne]
  | some tail =>
    rw [Text.eq_append_of_after? h]
    simp

lemma optLiteral_apply (text : String) (input : List Char) :
    optLiteral text input =
      match Text.after? text.toList input with
      | some rest => .ok (true, rest)
      | none => .ok (false, input) := by
  unfold optLiteral
  cases h : Text.after? text.toList input with
  | none =>
    have hmiss : literal text input = .error ⟨false, [], input⟩ := by simp [literal, h]
    rw [bind_of_ok (opt_of_error hmiss rfl)]
    rfl
  | some rest =>
    have hread : literal text input = .ok ((), rest) := by simp [literal, h]
    rw [bind_of_ok (opt_of_ok hread)]
    rfl

lemma optLiteral_eq_true_iff {text : String} :
    optLiteral text input = .ok (true, rest) ↔ input = text.toList ++ rest := by
  rw [optLiteral_apply, ← Text.after?_eq_some_iff]
  cases h : Text.after? text.toList input <;> simp

lemma optLiteral_eq_false_iff {text : String} :
    optLiteral text input = .ok (false, rest) ↔
      rest = input ∧ Text.after? text.toList input = none := by
  rw [optLiteral_apply]
  cases h : Text.after? text.toList input <;> simp [eq_comm (a := rest)]

lemma literal_of_head {text : String} (hne : text.toList ≠ []) (h : input.head? ≠ text.toList.head?) :
    literal text input = .error ⟨false, [], input⟩ := by
  simp [literal, Text.after?_of_head hne h]

lemma literalOf_of_head {α : Type} {table : List (String × α)}
    (h : ∀ entry ∈ table, entry.1.toList ≠ [] ∧ input.head? ≠ entry.1.toList.head?) :
    literalOf table input = .error ⟨false, [], input⟩ := by
  have hnone : (table.findSome? fun entry =>
      (Text.after? entry.1.toList input).map (entry.2, ·)) = none := by
    rw [List.findSome?_eq_none_iff]
    intro entry hmem
    rw [Text.after?_of_head (h entry hmem).1 (h entry hmem).2, Option.map_none]
  simp [literalOf, hnone]

lemma afterKeyword?_of_head {name : String} (hne : name.toList ≠ []) (h : input.head? ≠ name.toList.head?) :
    afterKeyword? name input = none := by
  simp [afterKeyword?, Text.after?_of_head hne h]

lemma keyword_of_head {name : String} (hne : name.toList ≠ []) (h : input.head? ≠ name.toList.head?) :
    keyword name input = .error ⟨false, [], input⟩ := by
  simp [keyword, afterKeyword?_of_head hne h]

lemma keywordOf_of_none {α : Type} {table : List (String × α)}
    (h : ∀ entry ∈ table, afterKeyword? entry.1 input = none) :
    keywordOf table input = .error ⟨false, [], input⟩ := by
  have hnone : (table.findSome? fun entry => (afterKeyword? entry.1 input).map (entry.2, ·)) = none := by
    rw [List.findSome?_eq_none_iff]
    intro entry hmem
    rw [h entry hmem, Option.map_none]
  simp [keywordOf, hnone]

/-- A mark that the text does not begin with. -/
lemma optLiteral_of_head {text : String} {mark : Char} (htext : text.toList = [mark])
    (h : input.head? ≠ some mark) : optLiteral text input = .ok (false, input) := by
  refine optLiteral_eq_false_iff.2 ⟨rfl, ?_⟩
  cases input with
  | nil => simp [htext, Text.after?]
  | cons c input =>
    have hne : mark ≠ c := fun heq => h (by rw [heq, List.head?_cons])
    simp [htext, Text.after?, hne]

lemma afterKeyword?_eq_some_iff {name : String} :
    afterKeyword? name input = some rest ↔
      input = name.toList ++ rest ∧ rest.head?.any Label.isMetricNameChar = false := by
  unfold afterKeyword?
  rw [Option.filter_eq_some_iff, Text.after?_eq_some_iff]
  simp

lemma keyword_eq_ok_iff {name : String} {u : Unit} :
    keyword name input = .ok (u, rest) ↔ afterKeyword? name input = some rest := by
  unfold keyword
  cases h : afterKeyword? name input <;> simp

lemma optKeyword_apply (name : String) (input : List Char) :
    optKeyword name input =
      match afterKeyword? name input with
      | some rest => .ok (true, rest)
      | none => .ok (false, input) := by
  unfold optKeyword
  cases h : afterKeyword? name input with
  | none =>
    have hmiss : keyword name input = .error ⟨false, [], input⟩ := by simp [keyword, h]
    rw [bind_of_ok (opt_of_error hmiss rfl)]
    rfl
  | some rest =>
    have hread : keyword name input = .ok ((), rest) := by simp [keyword, h]
    rw [bind_of_ok (opt_of_ok hread)]
    rfl

/-- The text starts with neither a blank nor a comment. -/
def Solid (text : List Char) : Prop :=
  dropBlanks false text = text

lemma Solid.eq {text : List Char} (h : Solid text) : dropBlanks false text = text :=
  h

@[simp]
lemma solid_nil : Solid [] :=
  rfl

lemma solid_cons {c : Char} (hc : isSpace c = false) (hcomment : c ≠ '#') (text : List Char) :
    Solid (c :: text) := by
  simp [Solid, dropBlanks, hc, hcomment]

lemma solid_dropBlanks (inComment : Bool) (text : List Char) : Solid (dropBlanks inComment text) := by
  unfold Solid
  induction text generalizing inComment with
  | nil => simp [dropBlanks]
  | cons c text ih =>
    cases inComment with
    | true => exact ih _
    | false =>
      by_cases hc : isSpace c
      · simpa [dropBlanks, hc] using ih false
      · by_cases hcomment : c = '#'
        · subst hcomment
          simpa [dropBlanks, hc] using ih true
        · simp [dropBlanks, hc, hcomment]

@[simp]
lemma dropBlanks_space (text : List Char) : dropBlanks false (' ' :: text) = dropBlanks false text := by
  simp [dropBlanks, isSpace]

lemma length_dropBlanks_le (inComment : Bool) (text : List Char) :
    (dropBlanks inComment text).length ≤ text.length := by
  induction text generalizing inComment with
  | nil => simp [dropBlanks]
  | cons c text ih =>
    have htrue := ih true
    have hfalse := ih false
    cases inComment with
    | true =>
      have hcomment := ih (c != '\n')
      simp only [dropBlanks, List.length_cons]
      omega
    | false =>
      simp only [dropBlanks, List.length_cons]
      split_ifs
      · omega
      · omega
      · simp

lemma word_append {isStart isPart : Char → Bool} {name rest : List Char}
    (hstart : name.head?.any isStart) (hpart : ∀ c ∈ name, isPart c)
    (hrest : rest.head?.any isPart = false) :
    word isStart isPart (name ++ rest) = .ok (String.ofList name, rest) := by
  have hhead : (name ++ rest).head?.any isStart := by
    cases name with
    | nil => simp at hstart
    | cons c name => simpa using hstart
  unfold word
  rw [if_pos hhead, Text.takeWhile_append_stop hpart hrest, Text.dropWhile_append_stop hpart hrest]

lemma word_eq_ok_iff {isStart isPart : Char → Bool} {name : String} :
    word isStart isPart input = .ok (name, rest) ↔
      input.head?.any isStart ∧ name = String.ofList (input.takeWhile isPart) ∧
        rest = input.dropWhile isPart := by
  unfold word
  by_cases h : input.head?.any isStart
  · simp [h, eq_comm]
  · simp [h]

end Words

end QueryScope.Scan
