import QueryScope.Transform
import QueryScope.Proofs.InjectionNodes
import QueryScope.Proofs.PrintedSelectors
import QueryScope.Proofs.StandIns

/-!
# Injected matchers in the scoped query

Braces, commas and blanks are in no stand-in, so decoding a printed query decodes the texts between them
one by one. A matcher that was injected stands between two of them: it is changed only if a stand-in
of the query occurs within it.
-/

namespace QueryScope

namespace Variable

/-! ## Decoding piece by piece -/

/-- Characters around the matchers of a printed selector. -/
def separators : List Char :=
  ['\x7b', '\x7d', ',', ' ']

/-- The characters of stand-ins, in all their printed forms. -/
def isStandInChar (c : Char) : Bool :=
  c.isAlphanum || c == '_' || c == '.' || c == '"'

lemma isStandInChar_separator {c : Char} (hc : c ∈ separators) : isStandInChar c = false := by
  have hplain : separators.all (fun c => !isStandInChar c) = true := rfl
  simpa using List.all_eq_true.1 hplain c hc

lemma notMem_of_isStandInChar {c : Char} {text : List Char} (hc : isStandInChar c = false)
    (htext : text.all isStandInChar = true) : c ∉ text := by
  intro hmem
  rw [List.all_eq_true.1 htext c hmem] at hc
  cases hc

lemma all_isStandInChar_decimalDigits (n : Nat) : (Number.decimalDigits n).all isStandInChar = true := by
  rw [List.all_eq_true]
  intro c hc
  simp [isStandInChar, Char.isAlphanum, Number.isDigit_of_mem_decimalDigits hc]

lemma Entry.all_isStandInChar_durationChars (e : Entry) : e.durationChars.all isStandInChar = true := by
  rw [List.all_eq_true]
  intro c hc
  simp [isStandInChar, Duration.isAlphanum_of_mem_chars hc]

lemma Entry.all_isStandInChar_token (e : Entry) : e.token.all isStandInChar = true := by
  have hlead : "__var".toList.all isStandInChar = true := rfl
  have htail : "__".toList.all isStandInChar = true := rfl
  unfold token
  split
  · simp only [List.all_append, hlead, htail, all_isStandInChar_decimalDigits, Bool.and_self]
  · exact all_isStandInChar_decimalDigits _

lemma Entry.token_ne_nil (e : Entry) : e.token ≠ [] := by
  unfold token
  split <;> simp [Number.decimalDigits_ne_nil]

/-- The step takes the texts around a character one by one. -/
def SplitsAt (c : Char) (step : List Char → List Char) : Prop :=
  step [] = [] ∧ ∀ left right, step (left ++ c :: right) = step left ++ c :: step right

lemma SplitsAt.id {c : Char} : SplitsAt c fun text => text :=
  ⟨rfl, fun _ _ => rfl⟩

lemma SplitsAt.comp {c : Char} {f g : List Char → List Char} (hf : SplitsAt c f) (hg : SplitsAt c g) :
    SplitsAt c fun text => g (f text) :=
  ⟨by simp only [hf.1, hg.1], fun left right => by simp only [hf.2, hg.2]⟩

lemma SplitsAt.foldl {α : Type} {c : Char} {step : List Char → α → List Char} (entries : List α)
    (h : ∀ e ∈ entries, SplitsAt c fun text => step text e) :
    SplitsAt c fun text => entries.foldl step text := by
  induction entries with
  | nil => exact .id
  | cons e entries ih =>
    exact (h e List.mem_cons_self).comp (ih fun e' he' => h e' (List.mem_cons_of_mem _ he'))

lemma splitsAt_replaceAll {c : Char} {needle : List Char} (hneedle : needle ≠ []) (hc : c ∉ needle)
    (replacement : List Char) : SplitsAt c fun text => replaceAll needle replacement text :=
  ⟨rfl, replaceAll_append_cons hneedle hc⟩

lemma splitsAt_restoreEntry {c : Char} (hc : isStandInChar c = false) (e : Entry) :
    SplitsAt c fun text => restoreEntry text e := by
  have htoken := e.all_isStandInChar_token
  have hinstant : SplitsAt c fun text =>
      if e.inTimestamp then replaceAll (e.token ++ ".000".toList) e.var.chars text else text := by
    split
    · apply splitsAt_replaceAll
      · simp [e.token_ne_nil]
      · have hzeros : ".000".toList.all isStandInChar = true := rfl
        exact notMem_of_isStandInChar hc (by rw [List.all_append, htoken, hzeros]; rfl)
    · exact .id
  have hquoted : SplitsAt c fun text =>
      if e.labelQuoted = some false then replaceAll ('"' :: e.token ++ ['"']) e.var.chars text else text := by
    split
    · apply splitsAt_replaceAll
      · simp
      · exact notMem_of_isStandInChar hc (by rw [List.all_append, List.all_cons, htoken]; rfl)
    · exact .id
  exact (hinstant.comp hquoted).comp
    (splitsAt_replaceAll e.token_ne_nil (notMem_of_isStandInChar hc htoken) _)

lemma splitsAt_decodeChars {c : Char} (hc : isStandInChar c = false) (table : Table) :
    SplitsAt c (decodeChars table) := by
  have hdurations : SplitsAt c (restoreDurations table) := by
    apply SplitsAt.foldl
    intro e _
    exact splitsAt_replaceAll e.durationChars_ne_nil
      (notMem_of_isStandInChar hc e.all_isStandInChar_durationChars) _
  exact hdurations.comp (SplitsAt.foldl _ fun e _ => splitsAt_restoreEntry hc e)

/-- No stand-in of a table is in a text, neither as it is nor printed as a duration. -/
def Spares (table : Table) (text : List Char) : Prop :=
  (∀ e ∈ table, ¬ e.token <:+: text) ∧ ∀ e ∈ durationEntries table, ¬ e.durationChars <:+: text

instance (table : Table) (text : List Char) : Decidable (Spares table text) :=
  inferInstanceAs (Decidable (_ ∧ _))

lemma foldl_eq_self {α : Type} {step : List Char → α → List Char} {text : List Char} (entries : List α)
    (h : ∀ e ∈ entries, step text e = text) : entries.foldl step text = text := by
  induction entries with
  | nil => rfl
  | cons e entries ih =>
    rw [List.foldl_cons, h e List.mem_cons_self]
    exact ih fun e' he' => h e' (List.mem_cons_of_mem _ he')

lemma Spares.decodeChars {table : Table} {text : List Char} (h : Spares table text) :
    decodeChars table text = text := by
  have hdurations : restoreDurations table text = text :=
    foldl_eq_self _ fun e he => replaceAll_of_absent (h.2 e he)
  rw [Variable.decodeChars, hdurations]
  apply foldl_eq_self
  intro e he
  have htoken := h.1 e (List.mem_mergeSort.1 he)
  have hinstant : ¬ e.token ++ ".000".toList <:+: text := fun hwithin =>
    htoken ((List.prefix_append _ _).isInfix.trans hwithin)
  have hquoted : ¬ '"' :: e.token ++ ['"'] <:+: text := fun hwithin =>
    htoken (List.IsInfix.trans ⟨['"'], ['"'], rfl⟩ hwithin)
  simp only [restoreEntry, replaceAll_of_absent hinstant, replaceAll_of_absent hquoted,
    replaceAll_of_absent htoken, ite_self]

/-- Text between two separators that holds no stand-in is decoded to itself. -/
lemma decodeChars_between {table : Table} {text : List Char} (h : Spares table text) {c d : Char}
    (hc : c ∈ separators) (hd : d ∈ separators) (left right : List Char) :
    decodeChars table (left ++ [c] ++ text ++ d :: right) =
      decodeChars table (left ++ [c]) ++ text ++ decodeChars table (d :: right) := by
  obtain ⟨hnil, hleft⟩ := splitsAt_decodeChars (isStandInChar_separator hc) table
  obtain ⟨-, hright⟩ := splitsAt_decodeChars (isStandInChar_separator hd) table
  have hlast : decodeChars table (left ++ [c]) = decodeChars table left ++ [c] := by
    rw [hleft left [], hnil]
  have hfirst : decodeChars table (d :: right) = d :: decodeChars table right := by
    simpa [hnil] using hright [] right
  calc decodeChars table (left ++ [c] ++ text ++ d :: right)
      = decodeChars table (left ++ c :: (text ++ d :: right)) := by simp
    _ = decodeChars table left ++ c :: (text ++ d :: decodeChars table right) := by
        rw [hleft, hright, h.decodeChars]
    _ = decodeChars table (left ++ [c]) ++ text ++ decodeChars table (d :: right) := by
        rw [hlast, hfirst]
        simp

end Variable

/-! ## The matchers in print -/

open Variable

/-- The separators of a list, at both ends, are characters that decoding passes over. -/
def Divides (separator : String) : Prop :=
  (∃ c ∈ separators, ∃ rest, separator.toList = c :: rest) ∧
    ∃ c ∈ separators, ∃ start, separator.toList = start ++ [c]

lemma divides_comma : Divides "," :=
  ⟨⟨',', by decide, [], rfl⟩, ⟨',', by decide, [], rfl⟩⟩

lemma divides_commaBlank : Divides ", " :=
  ⟨⟨',', by decide, [' '], rfl⟩, ⟨' ', by decide, [','], rfl⟩⟩

/-- Each text of a list in brackets stands between separators. -/
lemma exists_between_separators {texts : List (List Char)} {text : List Char} (h : text ∈ texts)
    {separator : String} (hseparator : Divides separator) {opening closing : Char}
    (hopening : opening ∈ separators) (hclosing : closing ∈ separators) :
    ∃ left c d right, opening :: joinChars separator texts ++ [closing] = left ++ [c] ++ text ++ d :: right ∧
      c ∈ separators ∧ d ∈ separators := by
  obtain ⟨before, after, rfl⟩ := List.append_of_mem h
  obtain ⟨⟨first, hfirst, rest, hrest⟩, last, hlast, start, hstart⟩ := hseparator
  clear h
  induction before generalizing opening with
  | nil =>
    rw [List.nil_append, joinChars_cons]
    cases after with
    | nil => exact ⟨[], opening, closing, [], by simp, hopening, hclosing⟩
    | cons next after => exact ⟨[], opening, first, _, by simp [hrest]; rfl, hopening, hfirst⟩
  | cons head before ih =>
    obtain ⟨left, c, d, right, heq, hc, hd⟩ := ih hlast
    have hnext : ∃ next texts, before ++ text :: after = next :: texts :=
      List.exists_cons_of_ne_nil (by simp)
    obtain ⟨next, texts, htexts⟩ := hnext
    refine ⟨opening :: head ++ start ++ left, c, d, right, ?_, hc, hd⟩
    rw [htexts] at heq
    have hjoin : joinChars separator (head :: before ++ text :: after) =
        head ++ start ++ last :: joinChars separator (next :: texts) := by
      rw [List.cons_append, htexts, joinChars, List.intercalate_cons_cons, hstart, joinChars, hstart]
      simp
    calc opening :: joinChars separator (head :: before ++ text :: after) ++ [closing]
        = opening :: head ++ start ++ (last :: joinChars separator (next :: texts) ++ [closing]) := by
          rw [hjoin]
          simp
      _ = opening :: head ++ start ++ left ++ [c] ++ text ++ d :: right := by
          rw [heq]
          simp

/-- A matcher of a printed selector stands between separators. -/
lemma Chunk.exists_chars_eq {chunk : Chunk} {matchers : List Matcher} (hchunk : chunk.matchers? = some matchers)
    {m : Matcher} (hm : m ∈ matchers) :
    ∃ left c d right, chunk.chars = left ++ [c] ++ m.chars ++ d :: right ∧ c ∈ separators ∧ d ∈ separators := by
  cases chunk with
  | plain text => cases hchunk
  | series named ms =>
    obtain rfl := Option.some.inj hchunk
    have hne : ms.isEmpty = false := by
      cases ms with
      | nil => cases hm
      | cons _ _ => rfl
    have hmem : m.chars ∈ (Metric.printOrder ms).map Matcher.chars :=
      List.mem_map_of_mem (List.mem_mergeSort.2 hm)
    simp only [chars, hne, Bool.and_false]
    exact exists_between_separators hmem divides_comma (by decide) (by decide)
  | stream ms =>
    obtain rfl := Option.some.inj hchunk
    exact exists_between_separators (List.mem_map_of_mem hm) divides_commaBlank (by decide) (by decide)

/-- The place of one block among all parts of a printed query. -/
lemma exists_block {chunks : List Chunk} {index : Nat} {matchers : List Matcher}
    (h : (chunks.filterMap Chunk.matchers?)[index]? = some matchers) :
    ∃ before block after, chunks = before ++ block :: after ∧ block.matchers? = some matchers ∧
      (before.filterMap Chunk.matchers?).length = index := by
  induction chunks generalizing index with
  | nil => simp at h
  | cons chunk chunks ih =>
    cases hchunk : chunk.matchers? with
    | none =>
      rw [List.filterMap_cons_none hchunk] at h
      obtain ⟨before, block, after, rfl, hblock, hlength⟩ := ih h
      exact ⟨chunk :: before, block, after, rfl, hblock, by rw [List.filterMap_cons_none hchunk, hlength]⟩
    | some ms =>
      rw [List.filterMap_cons_some hchunk] at h
      cases index with
      | zero => exact ⟨[], chunk, chunks, rfl, hchunk.trans (by simpa using h), rfl⟩
      | succ index =>
        obtain ⟨before, block, after, rfl, hblock, hlength⟩ := ih h
        exact ⟨chunk :: before, block, after, rfl, hblock, by rw [List.filterMap_cons_some hchunk, List.length_cons, hlength]⟩

/-! ## The scoped query -/

lemma transform_eq_ok_iff {dialect : Dialect} {query out : String} {set : LabelSet} :
    transform dialect query set = .ok out ↔
      ∃ encoded tree, encode query = .ok encoded ∧ Query.parse dialect encoded.text = .ok tree ∧
        out = decode encoded.table (tree.inject set).print := by
  unfold transform transformSteps
  cases hencode : encode query with
  | error e => simp
  | ok encoded =>
    cases hparse : Query.parse dialect encoded.text with
    | error e => simp [hparse]
    | ok tree => simp [hparse, eq_comm]

/-- A matcher that was injected into a selector stands in the scoped query as it was printed, between
the decoded texts before and behind it, unless a stand-in of the query occurs in it. -/
theorem transform_keeps_injected {dialect : Dialect} {query out : String} {set : LabelSet}
    (h : transform dialect query set = .ok out) :
    ∃ encoded tree, encode query = .ok encoded ∧ Query.parse dialect encoded.text = .ok tree ∧
      ∀ index matchers, tree.matcherLists[index]? = some matchers →
        ∀ name value, set.get? name = some value → (∀ m ∈ matchers, m.name ≠ name) →
          Spares encoded.table (Matcher.chars ⟨name, .equal, value⟩) →
          ∃ before block after left right, (tree.inject set).layout = before ++ block :: after ∧
            (before.filterMap Chunk.matchers?).length = index ∧
            block.chars = left ++ Matcher.chars ⟨name, .equal, value⟩ ++ right ∧
            (tree.inject set).print.toList =
              textOf before ++ left ++ Matcher.chars ⟨name, .equal, value⟩ ++ right ++ textOf after ∧
            out.toList = decodeChars encoded.table (textOf before ++ left) ++
              Matcher.chars ⟨name, .equal, value⟩ ++ decodeChars encoded.table (right ++ textOf after) := by
  obtain ⟨encoded, tree, hencode, hparse, rfl⟩ := transform_eq_ok_iff.1 h
  refine ⟨encoded, tree, hencode, hparse, ?_⟩
  intro index matchers hindex name value hvalue hmissing hspares
  have hlayout : (tree.inject set).layout = tree.layout.map (Chunk.update set.extend) :=
    tree.layout_mapMatchers set.extend
  have hprint := (tree.inject set).textOf_layout
  rw [← tree.layout_filterMap] at hindex
  obtain ⟨before, block, after, hsplit, hblock, hlength⟩ := exists_block hindex
  have hadded : (⟨name, .equal, value⟩ : Matcher) ∈ set.extend matchers :=
    List.mem_append_right _ (((set.missingFrom_adds matchers).exact _).2 ⟨rfl, hvalue, hmissing⟩)
  have hblock' : (block.update set.extend).matchers? = some (set.extend matchers) := by
    rw [Chunk.matchers?_update, hblock]
    rfl
  obtain ⟨left, c, d, right, hchars, hc, hd⟩ := Chunk.exists_chars_eq hblock' hadded
  have htext : (tree.inject set).print.toList =
      textOf (before.map (Chunk.update set.extend)) ++ (left ++ [c]) ++ Matcher.chars ⟨name, .equal, value⟩ ++
        (d :: right) ++ textOf (after.map (Chunk.update set.extend)) := by
    rw [← hprint, hlayout, hsplit, List.map_append, List.map_cons, textOf_append, textOf_cons, hchars]
    simp
  refine ⟨before.map (Chunk.update set.extend), block.update set.extend,
    after.map (Chunk.update set.extend), left ++ [c], d :: right, ?_, ?_, hchars, htext, ?_⟩
  · rw [hlayout, hsplit, List.map_append, List.map_cons]
  · rw [Chunk.filterMap_map_update, List.length_map, hlength]
  · have hdecode := decodeChars_between hspares hc hd
      (textOf (before.map (Chunk.update set.extend)) ++ left)
      (right ++ textOf (after.map (Chunk.update set.extend)))
    rw [decode, String.toList_ofList, htext]
    simpa [List.append_assoc] using hdecode

/-- A label injected beside variables in a label value and in a range. -/
theorem transform_keeps_injected_sample :
    ∃ out left right,
      transform .promql "rate(up\x7bjob=\"$x\"\x7d[$d])" (NameMap.empty.insert "env" "prod") = .ok out ∧
        out.toList = left ++ "env=\"prod\"".toList ++ right := by
  have hread : (encode "rate(up\x7bjob=\"$x\"\x7d[$d])").toOption.any (fun encoded =>
      (Query.parse .promql encoded.text).toOption.any fun tree =>
        decide (tree.matcherLists = [[⟨"job", .equal, "99990001"⟩]] ∧
          Spares encoded.table (Matcher.chars ⟨"env", .equal, "prod"⟩))) = true := by decide +kernel
  obtain ⟨encoded, hencode, htree⟩ := exists_ok_of_any hread
  obtain ⟨tree, hparse, hchecks⟩ := exists_ok_of_any htree
  obtain ⟨hlists, hspares⟩ := of_decide_eq_true hchecks
  obtain ⟨out, hout⟩ : ∃ out, transform .promql "rate(up\x7bjob=\"$x\"\x7d[$d])"
      (NameMap.empty.insert "env" "prod") = .ok out :=
    ⟨_, transform_eq_ok_iff.2 ⟨encoded, tree, hencode, hparse, rfl⟩⟩
  obtain ⟨encoded', tree', hencode', hparse', hkeeps⟩ := transform_keeps_injected hout
  obtain rfl : encoded = encoded' := Except.ok.inj (hencode.symm.trans hencode')
  obtain rfl : tree = tree' := Except.ok.inj (hparse.symm.trans hparse')
  obtain ⟨_, _, _, left, right, -, -, -, -, htext⟩ :=
    hkeeps 0 [⟨"job", .equal, "99990001"⟩] (by rw [hlists]; rfl) "env" "prod" rfl (by decide) hspares
  exact ⟨out, _, _, hout, htext⟩

/-- A label whose value is the number of a stand-in does not stay: the variable of the stand-in takes
its place. -/
theorem injected_number_becomes_variable :
    (transform .logql "\x7bjob=\"$x\"\x7d" (NameMap.empty.insert "env" "99990000")).toOption =
      some "\x7bjob=\"$x\", env=\"$x\"\x7d" := by
  decide +kernel

end QueryScope
