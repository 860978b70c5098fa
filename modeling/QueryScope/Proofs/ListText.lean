import QueryScope.Matcher.Reader
import QueryScope.Metric.Printer
import QueryScope.Proofs.CharClasses
import QueryScope.Proofs.QuotedText
import QueryScope.Proofs.ScanSteps
import Mathlib.Data.List.TakeWhile

/-!
# Written names, matchers and lists are read back

A name is read to its last character. A list between a pair of brackets is read item by item, whether
or not a blank stands behind each comma.
-/

namespace QueryScope

namespace Label

lemma isWordChar_of_isNameStart {c : Char} (h : isNameStart c = true) : Text.isWordChar c = true := by
  rw [isNameStart_iff] at h
  rw [Text.isWordChar_iff]
  tauto

lemma isMetricNameChar_of_isMetricNameStart {c : Char} (h : isMetricNameStart c = true) :
    isMetricNameChar c = true := by
  rw [isMetricNameStart_iff] at h
  rw [isMetricNameChar_iff]
  exact h.imp isWordChar_of_isNameStart id

lemma isLabelName_iff {name : String} :
    isLabelName name = true ↔
      name.toList.head?.any isNameStart = true ∧ ∀ c ∈ name.toList, Text.isWordChar c = true := by
  unfold isLabelName
  cases name.toList with
  | nil => simp
  | cons c tail =>
    simp only [Bool.and_eq_true, List.all_eq_true, List.head?_cons, Option.any_some, List.mem_cons,
      forall_eq_or_imp]
    exact ⟨fun h => ⟨h.1, isWordChar_of_isNameStart h.1, h.2⟩, fun h => ⟨h.1, h.2.2⟩⟩

lemma isMetricName_iff {name : String} :
    isMetricName name = true ↔
      name.toList.head?.any isMetricNameStart = true ∧
        ∀ c ∈ name.toList, isMetricNameChar c = true := by
  unfold isMetricName
  cases name.toList with
  | nil => simp
  | cons c tail =>
    simp only [Bool.and_eq_true, List.all_eq_true, List.head?_cons, Option.any_some, List.mem_cons,
      forall_eq_or_imp]
    exact ⟨fun h => ⟨h.1, isMetricNameChar_of_isMetricNameStart h.1, h.2⟩, fun h => ⟨h.1, h.2.2⟩⟩

lemma not_isSpace_of_isMetricNameChar {c : Char} (h : isMetricNameChar c = true) :
    Scan.isSpace c = false := by
  rw [isMetricNameChar_iff, Text.isWordChar_iff, Text.isAlpha_iff, Text.isDigit_iff] at h
  rw [Bool.eq_false_iff, Ne, Scan.isSpace_iff]
  omega

lemma ne_of_isMetricNameChar {c d : Char} (h : isMetricNameChar c = true)
    (hd : isMetricNameChar d = false) : c ≠ d := by
  rintro rfl
  simp [h] at hd

end Label

namespace Scan

section Names

variable {input rest : List Char} {name : String}

lemma word_eq_ok_iff_append {isStart isPart : Char → Bool} (hpart : ∀ c, isStart c → isPart c) :
    word isStart isPart input = .ok (name, rest) ↔
      input = name.toList ++ rest ∧ name.toList.head?.any isStart = true ∧
        (∀ c ∈ name.toList, isPart c) ∧ rest.head?.any isPart = false := by
  constructor
  · intro h
    obtain ⟨hstart, rfl, rfl⟩ := word_eq_ok_iff.1 h
    refine ⟨by simp, ?_, ?_, Text.head?_dropWhile isPart input⟩
    · cases input with
      | nil => simp at hstart
      | cons c input =>
        have hc : isStart c = true := by simpa using hstart
        simp [hpart c hc, hc]
    · intro c hc
      exact List.mem_takeWhile_imp (by simpa using hc)
  · rintro ⟨rfl, hstart, hname, hrest⟩
    rw [word_append hstart hname hrest, String.ofList_toList]

/-- Reading a label name takes a valid name to its last character. -/
lemma labelName_eq_ok_iff :
    labelName input = .ok (name, rest) ↔
      input = name.toList ++ rest ∧ Label.isLabelName name = true ∧
        rest.head?.any Text.isWordChar = false := by
  unfold labelName
  rw [word_eq_ok_iff_append fun c => Label.isWordChar_of_isNameStart, Label.isLabelName_iff, and_assoc]

/-- Reading a metric name takes a valid name to its last character. -/
lemma metricName_eq_ok_iff :
    metricName input = .ok (name, rest) ↔
      input = name.toList ++ rest ∧ Label.isMetricName name = true ∧
        rest.head?.any Label.isMetricNameChar = false := by
  unfold metricName
  rw [word_eq_ok_iff_append fun c => Label.isMetricNameChar_of_isMetricNameStart,
    Label.isMetricName_iff, and_assoc]

/-- The text is a word of names, keywords included. -/
def IsWord (word : String) : Prop :=
  ∀ c ∈ word.toList, Label.isMetricNameChar c = true

instance (word : String) : Decidable (IsWord word) :=
  decidable_of_iff (word.toList.all Label.isMetricNameChar = true) List.all_eq_true

variable {word : String} {tail : List Char}

lemma solid_word (hword : IsWord word) (hne : word.toList ≠ []) (tail : List Char) :
    Solid (word.toList ++ tail) := by
  obtain ⟨c, more, hc⟩ := List.exists_cons_of_ne_nil hne
  have hname : Label.isMetricNameChar c = true := hword c (by simp [hc])
  rw [hc]
  exact solid_cons (Label.not_isSpace_of_isMetricNameChar hname)
    (Label.ne_of_isMetricNameChar hname (by decide)) _

lemma isWord_of_isLabelName (h : Label.isLabelName word = true) : IsWord word := fun c hc =>
  Label.isMetricNameChar_iff.2 (.inl ((Label.isLabelName_iff.1 h).2 c hc))

/-- A keyword is found in front of a text exactly where it is the word that the text begins with. -/
lemma afterKeyword?_word {keyword : String} (hkeyword : IsWord keyword) (hword : IsWord word)
    (htail : tail.head?.any Label.isMetricNameChar = false) :
    afterKeyword? keyword (word.toList ++ tail) = if keyword = word then some tail else none := by
  split_ifs with heq
  · subst heq
    exact afterKeyword?_eq_some_iff.2 ⟨rfl, htail⟩
  · rw [Option.eq_none_iff_forall_ne_some]
    intro rest hfound
    obtain ⟨hsplit, hrest⟩ := afterKeyword?_eq_some_iff.1 hfound
    have hlead : word.toList = keyword.toList := by
      rw [← Text.takeWhile_append_stop hword htail, hsplit, Text.takeWhile_append_stop hkeyword hrest]
    exact heq (String.toList_inj.1 hlead.symm)

lemma keywordOf_word {α : Type} {table : List (String × α)} (htable : ∀ entry ∈ table, IsWord entry.1)
    (hword : IsWord word) (htail : tail.head?.any Label.isMetricNameChar = false) :
    keywordOf table (word.toList ++ tail) =
      match table.lookup word with
      | some a => .ok (a, tail)
      | none => .error ⟨false, [], word.toList ++ tail⟩ := by
  have hfind : (table.findSome? fun entry =>
      (afterKeyword? entry.1 (word.toList ++ tail)).map (entry.2, ·)) =
        (table.lookup word).map (·, tail) := by
    induction table with
    | nil => rfl
    | cons entry table ih =>
      have hmore := ih fun e he => htable e (by simp [he])
      obtain ⟨key, a⟩ := entry
      rw [List.findSome?_cons, afterKeyword?_word (htable _ (by simp)) hword htail, List.lookup_cons]
      by_cases hkey : key = word
      · subst hkey
        simp
      · have hne : (word == key) = false := by simpa using Ne.symm hkey
        simp [hkey, hne, hmore]
  unfold keywordOf
  rw [hfind]
  cases table.lookup word <;> rfl

end Names

section Lists

/-- Items are written so that their reader finds them: each begins with a character that is neither a
blank nor the closing character, and is read whole before a comma or the closing character. -/
structure Listed {α : Type} (item : Scanner α) (written : α → List Char) (closing : Char) (a : α) : Prop where
  begins : ∃ c tail, written a = c :: tail ∧ isSpace c = false ∧ c ≠ '#' ∧ c ≠ closing
  reads : ∀ rest, rest.head? = some ',' ∨ rest.head? = some closing →
    item (written a ++ rest) = .ok (a, rest)

variable {α : Type} {item : Scanner α} {written : α → List Char} {closing : Char}

lemma Listed.solid {a : α} (h : Listed item written closing a) (rest : List Char) :
    Solid (written a ++ rest) := by
  obtain ⟨c, tail, hc, hspace, hcomment, -⟩ := h.begins
  rw [hc]
  exact solid_cons hspace hcomment _

lemma Listed.after?_closing {a : α} (h : Listed item written closing a) (rest : List Char) :
    Text.after? [closing] (written a ++ rest) = none := by
  obtain ⟨c, tail, hc, -, -, hclosing⟩ := h.begins
  simp [hc, Text.after?, hclosing.symm]

lemma solid_join (separator : List Char) {items : List α}
    (hitems : ∀ a ∈ items, Listed item written closing a) (hsolid : ∀ rest, Solid (closing :: rest))
    (rest : List Char) : Solid (List.intercalate separator (items.map written) ++ closing :: rest) := by
  match items with
  | [] => simpa using hsolid rest
  | [a] => simpa using (hitems a (by simp)).solid (closing :: rest)
  | a :: b :: items => simpa [List.intercalate_cons_cons] using (hitems a (by simp)).solid _

lemma itemsUntil_join {close closeNote : String} {gap : List Char} (hclose : close.toList = [closing])
    (hsolid : ∀ rest, Solid (closing :: rest)) (hcomma : closing ≠ ',')
    (hgap : ∀ text, dropBlanks false (gap ++ text) = dropBlanks false text) (rest : List Char)
    (items : List α) (hitems : ∀ a ∈ items, Listed item written closing a) (bound : Nat)
    (hbound : items.length < bound) (input : List Char)
    (hinput : dropBlanks false input =
      List.intercalate (',' :: gap) (items.map written) ++ closing :: rest) :
    itemsUntil item close closeNote bound input = .ok (items, rest) := by
  induction items generalizing bound input with
  | nil =>
    obtain ⟨bound, rfl⟩ : ∃ k, bound = k + 1 := ⟨bound - 1, by simp at hbound; omega⟩
    have hend : optLiteral close (closing :: rest) = .ok (true, rest) :=
      optLiteral_eq_true_iff.2 (by simp [hclose])
    rw [itemsUntil, bind_of_ok (blanks_apply input), hinput]
    simp only [List.map_nil, List.intercalate_nil, List.nil_append]
    rw [bind_of_ok hend]
    rfl
  | cons a items ih =>
    obtain ⟨bound, rfl⟩ : ∃ k, bound = k + 1 := ⟨bound - 1, by simp at hbound; omega⟩
    have ha := hitems a (by simp)
    have hmore : ∀ b ∈ items, Listed item written closing b := fun b hb => hitems b (by simp [hb])
    have hopen (tail : List Char) :
        optLiteral close (written a ++ tail) = .ok (false, written a ++ tail) :=
      optLiteral_eq_false_iff.2 ⟨rfl, hclose ▸ ha.after?_closing tail⟩
    rw [itemsUntil, bind_of_ok (blanks_apply input), hinput]
    cases items with
    | nil =>
      have hcommaless : optLiteral "," (closing :: rest) = .ok (false, closing :: rest) :=
        optLiteral_eq_false_iff.2 ⟨rfl, by simp [Text.after?, hcomma.symm]⟩
      have hend : expecting closeNote (commit (literal close)) (closing :: rest) = .ok ((), rest) := by
        rw [expecting_eq_ok_iff, commit_eq_ok_iff, literal_eq_ok_iff, hclose]
        rfl
      simp only [List.map_cons, List.map_nil, List.intercalate_singleton]
      rw [bind_of_ok (hopen _)]
      simp only [Bool.false_eq_true, if_false]
      rw [bind_of_ok (ha.reads _ (Or.inr rfl)), bind_of_ok (blanks_apply _), hsolid rest,
        bind_of_ok hcommaless]
      simp only [Bool.false_eq_true, if_false]
      rw [bind_of_ok hend]
      rfl
    | cons b items =>
      -- The comma and the gap are taken, and the rest of the list is read in the same way.
      set tail := List.intercalate (',' :: gap) ((b :: items).map written) ++ closing :: rest with htail
      have hinput' : dropBlanks false (gap ++ tail) = tail := by
        rw [hgap]
        exact solid_join (',' :: gap) hmore hsolid rest
      have hread := ih hmore bound (by simpa using hbound) (gap ++ tail) hinput'
      have hsplit : List.intercalate (',' :: gap) ((a :: b :: items).map written) ++ closing :: rest =
          written a ++ ',' :: (gap ++ tail) := by
        simp [htail, List.intercalate_cons_cons]
      have hnext : optLiteral "," (',' :: (gap ++ tail)) = .ok (true, gap ++ tail) :=
        optLiteral_eq_true_iff.2 rfl
      rw [hsplit, bind_of_ok (hopen _)]
      simp only [Bool.false_eq_true, if_false]
      rw [bind_of_ok (ha.reads _ (Or.inl rfl)), bind_of_ok (blanks_apply _),
        solid_cons (by decide) (by decide), bind_of_ok hnext]
      simp only [if_true]
      rw [bind_of_ok hread]
      rfl

lemma length_le_length_intercalate (separator : List Char) {texts : List (List Char)}
    (h : ∀ text ∈ texts, text ≠ []) : texts.length ≤ (List.intercalate separator texts).length := by
  induction texts with
  | nil => simp
  | cons text texts ih =>
    have hfirst := List.length_pos_of_ne_nil (h text List.mem_cons_self)
    have hmore := ih fun t ht => h t (List.mem_cons_of_mem _ ht)
    cases texts with
    | nil =>
      rw [List.intercalate_singleton]
      exact hfirst
    | cons next texts =>
      simp only [List.intercalate_cons_cons, List.length_append, List.length_cons] at hmore ⊢
      omega

lemma length_le_length_flatMap {β : Type} {f : β → List Char} {items : List β} (h : ∀ b ∈ items, f b ≠ []) :
    items.length ≤ (items.flatMap f).length := by
  rw [List.length_flatMap, ← List.length_map fun b => (f b).length]
  refine List.length_le_sum_of_one_le _ fun n hn => ?_
  obtain ⟨b, hb, rfl⟩ := List.mem_map.1 hn
  exact List.length_pos_of_ne_nil (h b hb)

lemma length_le_of_mem_intercalate (separator : List Char) {texts : List (List Char)} {text : List Char}
    (h : text ∈ texts) : text.length ≤ (List.intercalate separator texts).length := by
  induction texts with
  | nil => simp at h
  | cons first texts ih =>
    cases texts with
    | nil => simp_all
    | cons next texts =>
      simp only [List.intercalate_cons_cons, List.length_append]
      rcases List.mem_cons.1 h with rfl | hmore
      · omega
      · have hle := ih hmore
        omega

/-- A list between brackets is read back whatever blanks stand behind its commas. -/
lemma listUntil_join {close closeNote : String} {gap : List Char} (hclose : close.toList = [closing])
    (hsolid : ∀ rest, Solid (closing :: rest)) (hcomma : closing ≠ ',')
    (hgap : ∀ text, dropBlanks false (gap ++ text) = dropBlanks false text) (rest : List Char)
    (items : List α) (hitems : ∀ a ∈ items, Listed item written closing a) :
    listUntil item close closeNote
        (List.intercalate (',' :: gap) (items.map written) ++ closing :: rest) = .ok (items, rest) := by
  have hne : ∀ text ∈ items.map written, text ≠ [] := by
    intro text htext
    obtain ⟨a, ha, rfl⟩ := List.mem_map.1 htext
    obtain ⟨c, tail, hc, -⟩ := (hitems a ha).begins
    simp [hc]
  have hlength := length_le_length_intercalate (',' :: gap) hne
  rw [List.length_map] at hlength
  refine itemsUntil_join hclose hsolid hcomma hgap rest items hitems _ ?_ _
    (solid_join (',' :: gap) hitems hsolid rest)
  rw [List.length_append]
  omega

end Lists

end Scan

namespace Label

/-- A name begins with a character that neither separates words nor ends a list. -/
lemma exists_cons_of_isLabelName {name : String} (h : isLabelName name = true) :
    ∃ c tail, name.toList = c :: tail ∧ isNameStart c = true := by
  have hstart := (isLabelName_iff.1 h).1
  cases hname : name.toList with
  | nil => simp [hname] at hstart
  | cons c tail => exact ⟨c, tail, rfl, by simpa [hname] using hstart⟩

lemma exists_cons_of_isMetricName {name : String} (h : isMetricName name = true) :
    ∃ c tail, name.toList = c :: tail ∧ isMetricNameStart c = true := by
  have hstart := (isMetricName_iff.1 h).1
  cases hname : name.toList with
  | nil => simp [hname] at hstart
  | cons c tail => exact ⟨c, tail, rfl, by simpa [hname] using hstart⟩

lemma isMetricNameChar_of_isNameStart {c : Char} (h : isNameStart c = true) :
    isMetricNameChar c = true :=
  isMetricNameChar_of_isMetricNameStart (isMetricNameStart_iff.2 (Or.inl h))

end Label

namespace Scan

/-- A list of valid label names is read back whatever blanks stand behind its commas. -/
lemma labelList_join {labels : List String} (hlabels : ∀ l ∈ labels, Label.isLabelName l = true)
    {gap : List Char} (hgap : ∀ text, dropBlanks false (gap ++ text) = dropBlanks false text)
    (rest : List Char) :
    labelList ('(' :: (List.intercalate (',' :: gap) (labels.map String.toList) ++ ')' :: rest)) =
      .ok (labels, rest) := by
  have hlisted : ∀ l ∈ labels,
      Listed (expecting "label name" (commit labelName)) String.toList ')' l := by
    intro l hl
    have hvalid := hlabels l hl
    refine ⟨?_, fun tail htail => ?_⟩
    · obtain ⟨c, tail, hc, hstart⟩ := Label.exists_cons_of_isLabelName hvalid
      have hname := Label.isMetricNameChar_of_isNameStart hstart
      exact ⟨c, tail, hc, Label.not_isSpace_of_isMetricNameChar hname,
        Label.ne_of_isMetricNameChar hname (by decide), Label.ne_of_isMetricNameChar hname (by decide)⟩
    · have hstop : tail.head?.any Text.isWordChar = false := by
        rcases htail with h | h <;> rw [h] <;> decide
      rw [expecting_eq_ok_iff, commit_eq_ok_iff]
      exact labelName_eq_ok_iff.2 ⟨rfl, hvalid, hstop⟩
  have hread : listUntil (expecting "label name" (commit labelName)) ")" "',' or ')'"
      (List.intercalate (',' :: gap) (labels.map String.toList) ++ ')' :: rest) = .ok (labels, rest) :=
    listUntil_join (by rfl) (solid_cons (by decide) (by decide)) (by decide) hgap rest labels hlisted
  exact (bind_of_ok (literal_append "(" _)).trans hread

lemma labelList_chars {labels : List String} (hlabels : ∀ l ∈ labels, Label.isLabelName l = true)
    (rest : List Char) : labelList (labelListChars labels ++ rest) = .ok (labels, rest) := by
  have hgap : ∀ text, dropBlanks false ([' '] ++ text) = dropBlanks false text := dropBlanks_space
  have hread := labelList_join hlabels hgap rest
  simpa [labelListChars, joinChars] using hread

end Scan

lemma joinChars_cons (separator : String) (piece : List Char) (pieces : List (List Char)) :
    joinChars separator (piece :: pieces) = piece ++ pieces.flatMap (separator.toList ++ ·) := by
  induction pieces generalizing piece with
  | nil => simp [joinChars]
  | cons next pieces ih =>
    have hnext := ih next
    rw [joinChars] at hnext
    rw [joinChars, List.intercalate_cons_cons, hnext, List.flatMap_cons]
    simp

namespace Scan

section CommaLists

variable {α : Type} {item : Scanner α} {written : α → List Char} {rest : List Char}

/-- Each item is read in front of a comma, and the last one in front of `rest`. -/
structure ReadsItems (item : Scanner α) (written : α → List Char) (rest : List Char) (items : List α) :
    Prop where
  solid : ∀ a ∈ items, ∀ tail, Solid (written a ++ tail)
  comma : ∀ a ∈ items, ∀ tail, item (written a ++ ',' :: tail) = .ok (a, ',' :: tail)
  last : ∀ a ∈ items.getLast?, item (written a ++ rest) = .ok (a, rest)

lemma ReadsItems.first {a : α} {items : List α} (h : ReadsItems item written rest (a :: items)) :
    item (written a ++ (items.flatMap (fun b => ',' :: written b) ++ rest)) =
      .ok (a, items.flatMap (fun b => ',' :: written b) ++ rest) := by
  cases items with
  | nil => exact h.last a rfl
  | cons b items => exact h.comma a List.mem_cons_self _

lemma ReadsItems.more {a : α} {items : List α} (h : ReadsItems item written rest (a :: items)) :
    ReadsItems item written rest items := by
  refine ⟨fun b hb => h.solid b (List.mem_cons_of_mem a hb),
    fun b hb => h.comma b (List.mem_cons_of_mem a hb), fun b hb => h.last b ?_⟩
  rw [Option.mem_def] at hb ⊢
  rw [List.getLast?_cons, hb]
  rfl

lemma itemsBehindCommas_join {items : List α} (h : ReadsItems item written rest items)
    (hrest : (dropBlanks false rest).head? ≠ some ',') {bound : Nat} (hbound : items.length < bound) :
    itemsBehindCommas item bound (items.flatMap (fun a => ',' :: written a) ++ rest) = .ok (items, rest) := by
  induction items generalizing bound with
  | nil =>
    obtain ⟨bound, rfl⟩ : ∃ k, bound = k + 1 := ⟨bound - 1, by simp at hbound; omega⟩
    have hstop : literal "," (dropBlanks false rest) = .error ⟨false, [], dropBlanks false rest⟩ :=
      literal_of_head (by decide) hrest
    rw [List.flatMap_nil, List.nil_append, itemsBehindCommas, bind_of_ok (optBehindBlanks_of_error hstop rfl)]
    rfl
  | cons a items ih =>
    obtain ⟨bound, rfl⟩ : ∃ k, bound = k + 1 := ⟨bound - 1, by simp at hbound; omega⟩
    have hmore : itemsBehindCommas item bound (items.flatMap (fun b => ',' :: written b) ++ rest) =
        .ok (items, rest) := ih h.more (by simpa using hbound)
    have hread : literal "," (dropBlanks false (',' :: (written a ++
        (items.flatMap (fun b => ',' :: written b) ++ rest)))) =
        .ok ((), written a ++ (items.flatMap (fun b => ',' :: written b) ++ rest)) := by
      rw [solid_cons (by decide) (by decide)]
      exact literal_append "," _
    rw [List.flatMap_cons, List.cons_append, List.cons_append, List.append_assoc, itemsBehindCommas,
      bind_of_ok (optBehindBlanks_of_ok hread)]
    dsimp only
    rw [bind_of_ok (blanks_apply _), (h.solid a List.mem_cons_self _).eq, bind_of_ok h.first, bind_of_ok hmore]
    rfl

/-- A list with commas and no brackets is read back. -/
lemma commaList_join {items : List α} (hne : items ≠ []) (h : ReadsItems item written rest items)
    (hrest : (dropBlanks false rest).head? ≠ some ',') :
    commaList item (joinChars "," (items.map written) ++ rest) = .ok (items, rest) := by
  obtain ⟨a, items, rfl⟩ := List.exists_cons_of_ne_nil hne
  have hjoin : joinChars "," ((a :: items).map written) ++ rest =
      written a ++ (items.flatMap (fun b => ',' :: written b) ++ rest) := by
    rw [List.map_cons, joinChars_cons, List.flatMap_map, List.append_assoc]
    rfl
  have hlength : items.length ≤ (items.flatMap fun b => ',' :: written b).length :=
    length_le_length_flatMap (by simp)
  have hbound : items.length < (items.flatMap (fun b => ',' :: written b) ++ rest).length + 1 := by
    rw [List.length_append]
    omega
  rw [hjoin, commaList, bind_of_ok h.first, bind_of_ok (get_apply _),
    bind_of_ok (itemsBehindCommas_join h.more hrest hbound)]
  rfl

end CommaLists

end Scan

namespace Matcher

open Scan

/-- A matcher that can be written: its name is a label name, and a value compared as a regular
expression is one. -/
def Valid (m : Matcher) : Prop :=
  Label.isLabelName m.name = true ∧ (m.comparison.isPattern = true → Pattern.isValid m.value = true)

lemma scanComparison_symbol (op : Comparison) (tail : List Char) :
    scanComparison (op.symbol.toList ++ '"' :: tail) = .ok (op, '"' :: tail) := by
  cases op <;> simp [scanComparison, literalOf, comparisons, Comparison.symbol, Text.after?]

lemma scan_chars {m : Matcher} (h : m.Valid) (rest : List Char) : scan (m.chars ++ rest) = .ok (m, rest) := by
  obtain ⟨name, op, value⟩ := m
  obtain ⟨hname, hpattern⟩ := h
  obtain ⟨quoted, hquoted⟩ : ∃ quoted, Text.quoteChars value.toList ++ rest = '"' :: quoted :=
    ⟨_, rfl⟩
  have hvalue := stringLiteral_quoteChars value rest
  have hchars : (⟨name, op, value⟩ : Matcher).chars ++ rest =
      name.toList ++ (op.symbol.toList ++ '"' :: quoted) := by
    rw [← hquoted]
    simp [Matcher.chars]
  have hstop : (op.symbol.toList ++ '"' :: quoted).head?.any Text.isWordChar = false := by
    cases op <;> rfl
  have hsolid : Solid (op.symbol.toList ++ '"' :: quoted) := by
    cases op <;> exact solid_cons (by decide) (by decide) _
  have hop : expecting "matcher operator (=, !=, =~, !~)" (commit scanComparison)
      (op.symbol.toList ++ '"' :: quoted) = .ok (op, '"' :: quoted) := by
    rw [expecting_eq_ok_iff, commit_eq_ok_iff, scanComparison_symbol]
  have hread : expecting "quoted label value" (commit stringLiteral) ('"' :: quoted) =
      .ok (value, rest) := by
    rw [expecting_eq_ok_iff, commit_eq_ok_iff, ← hquoted, hvalue]
  have hguard : (op.isPattern && !Pattern.isValid value) = false := by
    cases hop : op.isPattern with
    | false => rfl
    | true => simp [show Pattern.isValid value = true from hpattern hop]
  rw [hchars, scan, bind_of_ok (labelName_eq_ok_iff.2 ⟨rfl, hname, hstop⟩), bind_of_ok (blanks_apply _),
    hsolid, bind_of_ok hop, bind_of_ok (blanks_apply _), solid_cons (by decide) (by decide),
    bind_of_ok (get_apply _), bind_of_ok hread]
  simp [hguard]

/-- A block of matchers is read back. -/
lemma block_join {matchers : List Matcher} (h : ∀ m ∈ matchers, m.Valid) {gap : List Char}
    (hgap : ∀ text, dropBlanks false (gap ++ text) = dropBlanks false text) (rest : List Char) :
    block ('\x7b' :: (List.intercalate (',' :: gap) (matchers.map Matcher.chars) ++ '\x7d' :: rest)) =
      .ok (matchers, rest) := by
  have hlisted : ∀ m ∈ matchers,
      Listed (expecting "label matcher" (commit scan)) Matcher.chars '\x7d' m := by
    intro m hm
    refine ⟨?_, fun tail _ => ?_⟩
    · obtain ⟨c, tail, hc, hstart⟩ := Label.exists_cons_of_isLabelName (h m hm).1
      have hname := Label.isMetricNameChar_of_isNameStart hstart
      exact ⟨c, _, by rw [Matcher.chars, hc]; rfl, Label.not_isSpace_of_isMetricNameChar hname,
        Label.ne_of_isMetricNameChar hname (by decide), Label.ne_of_isMetricNameChar hname (by decide)⟩
    · rw [expecting_eq_ok_iff, commit_eq_ok_iff, scan_chars (h m hm)]
  have hopen : literal "\x7b" ('\x7b' :: (List.intercalate (',' :: gap) (matchers.map Matcher.chars) ++
      '\x7d' :: rest)) = .ok ((), List.intercalate (',' :: gap) (matchers.map Matcher.chars) ++ '\x7d' :: rest) :=
    literal_append "\x7b" _
  rw [block, bind_of_ok hopen]
  exact listUntil_join (by rfl) (solid_cons (by decide) (by decide)) (by decide) hgap rest matchers hlisted

lemma block_chars {matchers : List Matcher} (h : ∀ m ∈ matchers, m.Valid) (rest : List Char) :
    block ('\x7b' :: joinChars "," (matchers.map Matcher.chars) ++ '\x7d' :: rest) =
      .ok (matchers, rest) := by
  have hgap : ∀ text, dropBlanks false ([] ++ text) = dropBlanks false text := fun _ => rfl
  exact block_join h hgap rest

end Matcher

end QueryScope
