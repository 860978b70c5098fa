import QueryScope.Proofs.StandInTable
import Mathlib.Data.List.SplitBy
import Mathlib.Data.Prod.Lex
import Mathlib.Data.String.Basic

/-!
# Printed durations are restored

The stand-ins that were printed as durations are replaced one after another, the longest text first, though one of
these texts may begin with another. A text falls into maximal runs of letters and digits, and a printed duration
never reaches across the end of a run. So where each run is one printed duration or holds none, the replacements
together put each variable back into its own runs.
-/

namespace QueryScope.Variable

/-! ## Replacement in blocks -/

/-- A character that is neither a letter nor a digit stands on one of the two sides between the blocks. -/
def Apart (a b : List Char) : Prop :=
  (∃ c ∈ a.getLast?, c.isAlphanum = false) ∨ ∃ c ∈ b.head?, c.isAlphanum = false

section Blocks

variable {needle replacement : List Char}

lemma replaceAll_append_of_apart (hne : needle ≠ []) (hneedle : ∀ c ∈ needle, c.isAlphanum = true)
    {a b : List Char} (h : Apart a b) (rest : List Char) :
    replaceAll needle replacement (a ++ (b ++ rest)) =
      replaceAll needle replacement a ++ replaceAll needle replacement (b ++ rest) := by
  have houtside {c : Char} (hc : c.isAlphanum = false) : c ∉ needle := fun hmem => by
    simp [hneedle c hmem] at hc
  have hnil : replaceAll needle replacement [] = [] := rfl
  rcases h with ⟨c, hlast, hc⟩ | ⟨c, hhead, hc⟩
  · obtain ⟨left, rfl⟩ := List.getLast?_eq_some_iff.1 hlast
    rw [List.append_assoc, List.singleton_append, replaceAll_append_cons hne (houtside hc),
      replaceAll_append_cons hne (houtside hc) left [], hnil, List.append_assoc, List.singleton_append]
  · obtain ⟨right, rfl⟩ := List.head?_eq_some_iff.1 hhead
    have hright : replaceAll needle replacement (c :: (right ++ rest)) =
        c :: replaceAll needle replacement (right ++ rest) :=
      replaceAll_append_cons hne (houtside hc) [] (right ++ rest)
    rw [List.cons_append, replaceAll_append_cons hne (houtside hc), hright]

lemma replaceAll_flatten (hne : needle ≠ []) (hneedle : ∀ c ∈ needle, c.isAlphanum = true)
    {blocks : List (List Char)} (h : blocks.IsChain Apart) :
    replaceAll needle replacement blocks.flatten = (blocks.map (replaceAll needle replacement)).flatten := by
  induction h with
  | nil => rfl
  | singleton a => simp
  | cons_cons hab hrest ih =>
    rw [List.flatten_cons, List.flatten_cons, replaceAll_append_of_apart hne hneedle hab, ← List.flatten_cons, ih]
    rfl

end Blocks

/-! ## Runs of letters and digits -/

/-- The maximal runs of ASCII letters and digits of a text, and the characters between them one by one. -/
def runs (text : List Char) : List (List Char) :=
  text.splitBy fun a b => a.isAlphanum && b.isAlphanum

lemma isChain_runs (text : List Char) : (runs text).IsChain Apart := by
  apply (List.isChain_getLast_head_splitBy _ text).imp
  rintro a b ⟨ha, hb, hbreak⟩
  rcases Bool.and_eq_false_iff.1 hbreak with hlast | hhead
  · exact .inl ⟨_, List.getLast_mem_getLast? ha, hlast⟩
  · exact .inr ⟨_, List.head_mem_head? hb, hhead⟩

/-- The variable of an entry in the place of a block that is its printed duration. -/
def Entry.swap (e : Entry) (block : List Char) : List Char :=
  if block = e.durationChars then e.var.chars else block

section Pending

variable {e : Entry} {entries : List Entry} {blocks : List (List Char)} {block : List Char}

/-- Each block is the printed duration of an entry that is still to be restored, or holds none of these. -/
structure Pending (entries : List Entry) (blocks : List (List Char)) : Prop where
  apart : blocks.IsChain Apart
  whole : ∀ block ∈ blocks, (∃ e ∈ entries, block = e.durationChars) ∨ ∀ e ∈ entries, ¬ e.durationChars <:+: block

lemma Apart.swap {a b : List Char} (h : Apart a b) (e : Entry) : Apart (e.swap a) (e.swap b) := by
  have hkeep {block : List Char} {c : Char} (hmem : c ∈ block) (hc : c.isAlphanum = false) : e.swap block = block := by
    apply if_neg
    rintro rfl
    simp [Duration.isAlphanum_of_mem_chars hmem] at hc
  rcases h with ⟨c, hlast, hc⟩ | ⟨c, hhead, hc⟩
  · rw [Apart, hkeep (List.mem_of_mem_getLast? hlast) hc]
    exact .inl ⟨c, hlast, hc⟩
  · rw [Apart, hkeep (List.mem_of_mem_head? hhead) hc]
    exact .inr ⟨c, hhead, hc⟩

/-- A printed duration begins with a digit, so a text without digits holds none. -/
lemma Entry.not_durationChars_infix {text : List Char} (htext : text.any Char.isDigit = false) (e : Entry) :
    ¬ e.durationChars <:+: text := by
  intro hwithin
  obtain ⟨c, tail, hchars, hc⟩ := Duration.exists_cons_chars ⟨e.number * 1000⟩
  have hmem : c ∈ text := hwithin.subset (by rw [Entry.durationChars, hchars]; exact List.mem_cons_self)
  simp only [List.any_eq_false] at htext
  exact htext c hmem hc

lemma Pending.replaceAll_block (h : Pending (e :: entries) blocks)
    (hlonger : ∀ e' ∈ entries, e'.durationChars.length ≤ e.durationChars.length) (hblock : block ∈ blocks) :
    replaceAll e.durationChars e.var.chars block = e.swap block := by
  unfold Entry.swap
  split
  · next heq =>
    have hself := @replaceAll_append_self e.durationChars e.var.chars e.durationChars_ne_nil []
    rw [List.append_nil] at hself
    rw [heq, hself]
    exact List.append_nil _
  · next hne =>
    apply replaceAll_of_absent
    intro hwithin
    rcases h.whole block hblock with ⟨e', he', rfl⟩ | habsent
    · rcases List.mem_cons.1 he' with rfl | he'
      · exact hne rfl
      · exact hne (hwithin.eq_of_length_le (hlonger e' he')).symm
    · exact habsent e List.mem_cons_self hwithin

/-- One replacement restores the runs of its entry and leaves the other ones as they are. -/
lemma Pending.step (h : Pending (e :: entries) blocks) (hvar : e.var.chars.any Char.isDigit = false) :
    Pending entries (blocks.map e.swap) where
  apart := by
    rw [List.isChain_map]
    exact h.apart.imp fun a b hab => hab.swap e
  whole := by
    intro block hblock
    obtain ⟨block, hmem, rfl⟩ := List.mem_map.1 hblock
    unfold Entry.swap
    split
    · exact .inr fun e' _ => e'.not_durationChars_infix hvar
    · next hne =>
      rcases h.whole block hmem with ⟨e', he', rfl⟩ | habsent
      · rcases List.mem_cons.1 he' with rfl | he'
        · exact absurd rfl hne
        · exact .inl ⟨e', he', rfl⟩
      · exact .inr fun e' he' => habsent e' (List.mem_cons_of_mem e he')

/-- The replacements one after another do in each block what they do in it alone. -/
lemma Pending.foldl_replaceAll (h : Pending entries blocks)
    (hlonger : entries.Pairwise fun a b => b.durationChars.length ≤ a.durationChars.length)
    (hvar : ∀ e ∈ entries, e.var.chars.any Char.isDigit = false) :
    entries.foldl (fun text e => replaceAll e.durationChars e.var.chars text) blocks.flatten =
      blocks.flatMap fun block => entries.foldl (fun block e => e.swap block) block := by
  induction entries generalizing blocks with
  | nil => simp
  | cons e entries ih =>
    obtain ⟨hfirst, hrest⟩ := List.pairwise_cons.1 hlonger
    have hstep : replaceAll e.durationChars e.var.chars blocks.flatten = (blocks.map e.swap).flatten := by
      rw [replaceAll_flatten e.durationChars_ne_nil (fun c hc => Duration.isAlphanum_of_mem_chars hc) h.apart]
      congr 1
      exact List.map_congr_left fun block hblock => h.replaceAll_block hfirst hblock
    rw [List.foldl_cons, hstep, ih (h.step (hvar e List.mem_cons_self)) hrest
      fun e' he' => hvar e' (List.mem_cons_of_mem e he'), List.flatMap_map]
    rfl

end Pending

/-! ## The table of a query -/

section Table

variable {found : List Occurrence} {e e' : Entry}

lemma longerFirst_iff {a b : List Char} :
    longerFirst a b = true ↔
      toLex (OrderDual.toDual a.length, String.ofList a) ≤ toLex (OrderDual.toDual b.length, String.ofList b) := by
  simp [longerFirst, Prod.Lex.toLex_le_toLex]

lemma pairwise_durationEntries (table : Table) :
    (durationEntries table).Pairwise fun a b => b.durationChars.length ≤ a.durationChars.length := by
  have htrans (a b c : Entry) (hab : longerFirst a.durationChars b.durationChars = true)
      (hbc : longerFirst b.durationChars c.durationChars = true) :
      longerFirst a.durationChars c.durationChars = true :=
    longerFirst_iff.2 ((longerFirst_iff.1 hab).trans (longerFirst_iff.1 hbc))
  have htotal (a b : Entry) :
      (longerFirst a.durationChars b.durationChars || longerFirst b.durationChars a.durationChars) = true := by
    rw [Bool.or_eq_true, longerFirst_iff, longerFirst_iff]
    exact le_total _ _
  have hsorted : (durationEntries table).Pairwise fun a b => longerFirst a.durationChars b.durationChars = true :=
    List.pairwise_mergeSort htrans htotal _
  apply hsorted.imp
  intro a b hab
  simp only [longerFirst, Bool.or_eq_true, Bool.and_eq_true, decide_eq_true_eq] at hab
  omega

lemma mem_durationEntries {table : Table} :
    e ∈ durationEntries table ↔ e ∈ table ∧ e.inDuration = true ∧ e.inName = false := by
  simp [durationEntries]

lemma eq_of_durationChars_eq (he : e ∈ tableOf found) (he' : e' ∈ tableOf found) (hearly : e.Early)
    (hearly' : e'.Early) (h : e'.durationChars = e.durationChars) : e' = e := by
  have hfits {e : Entry} (he : e.Early) : (⟨e.number * 1000⟩ : Duration).millis < Duration.limit := by
    have := he.2
    simp only [firstNumber, Duration.limit, Nat.pow_eq] at this ⊢
    omega
  have htext : (⟨e'.number * 1000⟩ : Duration).text = (⟨e.number * 1000⟩ : Duration).text :=
    congrArg String.ofList h
  have hmillis := congrArg Duration.millis (Duration.eq_of_text_eq (hfits hearly) (hfits hearly') htext)
  apply eq_of_number_eq he' he
  simpa using hmillis

lemma foldl_swap_of_ne {entries : List Entry} {block : List Char} (h : ∀ e ∈ entries, block ≠ e.durationChars) :
    entries.foldl (fun block e => e.swap block) block = block := by
  induction entries with
  | nil => rfl
  | cons e entries ih =>
    obtain ⟨hne, hrest⟩ := List.forall_mem_cons.1 h
    rw [List.foldl_cons, Entry.swap, if_neg hne, ih hrest]

/-- A block that is the printed duration of one entry alone ends up as the variable of that entry. -/
lemma foldl_swap_self {entries : List Entry} (he : e ∈ entries)
    (hunique : ∀ e' ∈ entries, e'.durationChars = e.durationChars → e' = e) :
    entries.foldl (fun block e => e.swap block) e.durationChars = e.var.chars := by
  induction entries with
  | nil => cases he
  | cons first entries ih =>
    rw [List.foldl_cons, Entry.swap]
    split
    · next heq =>
      obtain rfl := hunique first List.mem_cons_self heq.symm
      apply foldl_swap_of_ne
      intro e' _ hchars
      obtain ⟨name, hname⟩ := exists_chars_eq_cons first.var
      obtain ⟨c, tail, hdigits, hc⟩ := Duration.exists_cons_chars ⟨e'.number * 1000⟩
      rw [hname, Entry.durationChars, hdigits] at hchars
      obtain ⟨rfl, -⟩ := List.cons.inj hchars
      cases hc
    · next hne =>
      have hmem : e ∈ entries := (List.mem_cons.1 he).resolve_left fun heq => hne (heq ▸ rfl)
      exact ih hmem fun e' he' => hunique e' (List.mem_cons_of_mem first he')

end Table

/-- The run with the variable of the entry whose printed duration it is; other runs stay. -/
def restoreRun (table : Table) (run : List Char) : List Char :=
  ((table.find? fun e => e.inDuration && !e.inName && e.durationChars = run).map (·.var.chars)).getD run

/-- No two entries were printed as one duration. -/
def PrintedApart (table : Table) : Prop :=
  ∀ e ∈ durationEntries table, ∀ e' ∈ durationEntries table, e'.durationChars = e.durationChars → e' = e

section Runs

variable {table : Table} {found : List Occurrence} {run : List Char}

lemma printedApart_tableOf (hearly : ∀ e ∈ tableOf found, e.Early) : PrintedApart (tableOf found) := by
  intro e he e' he'
  have he := (mem_durationEntries.1 he).1
  have he' := (mem_durationEntries.1 he').1
  exact eq_of_durationChars_eq he he' (hearly e he) (hearly e' he')

lemma restoreRun_of_ne (h : ∀ e ∈ durationEntries table, run ≠ e.durationChars) : restoreRun table run = run := by
  have hnone : table.find? (fun e => e.inDuration && !e.inName && e.durationChars = run) = none := by
    rw [List.find?_eq_none]
    intro e he hfound
    simp only [Bool.and_eq_true, Bool.not_eq_true', decide_eq_true_eq] at hfound
    exact h e (mem_durationEntries.2 ⟨he, hfound.1⟩) hfound.2.symm
  rw [restoreRun, hnone, Option.map_none, Option.getD_none]

lemma PrintedApart.restoreRun_self (h : PrintedApart table) {e : Entry} (he : e ∈ durationEntries table) :
    restoreRun table e.durationChars = e.var.chars := by
  obtain ⟨hmem, hduration, hname⟩ := mem_durationEntries.1 he
  cases hfind : table.find? fun e' => e'.inDuration && !e'.inName && e'.durationChars = e.durationChars with
  | none =>
    have hnot := List.find?_eq_none.1 hfind e hmem
    simp [hduration, hname] at hnot
  | some e' =>
    have hfound := List.find?_some hfind
    simp only [Bool.and_eq_true, Bool.not_eq_true', decide_eq_true_eq] at hfound
    have he' : e' ∈ durationEntries table := mem_durationEntries.2 ⟨List.mem_of_find?_eq_some hfind, hfound.1⟩
    rw [restoreRun, hfind, h e he e' he' hfound.2, Option.map_some, Option.getD_some]

lemma PrintedApart.foldl_swap (h : PrintedApart table) (run : List Char) :
    (durationEntries table).foldl (fun block e => e.swap block) run = restoreRun table run := by
  by_cases hprinted : ∃ e ∈ durationEntries table, run = e.durationChars
  · obtain ⟨e, he, rfl⟩ := hprinted
    rw [foldl_swap_self he (h e he), h.restoreRun_self he]
  · simp only [not_exists, not_and] at hprinted
    rw [foldl_swap_of_ne hprinted, restoreRun_of_ne hprinted]

/-- Printed durations of early stand-ins hold one of three marks, so runs without these hold no printed duration. -/
lemma pending_runs {text : List Char} (hearly : ∀ e ∈ table, e.Early)
    (hruns : ∀ run ∈ runs text,
      (∃ e ∈ table, e.inDuration = true ∧ e.inName = false ∧ run = e.durationChars) ∨
        ∀ mark ∈ ["d7h", "d8h", "d9h"], ¬ mark.toList <:+: run) :
    Pending (durationEntries table) (runs text) := by
  refine ⟨isChain_runs text, fun run hrun => ?_⟩
  rcases hruns run hrun with ⟨e, he, hduration, hname, rfl⟩ | hmarks
  · exact .inl ⟨e, mem_durationEntries.2 ⟨he, hduration, hname⟩, rfl⟩
  · refine .inr fun e he hwithin => ?_
    obtain ⟨left, x, right, hchars, hx⟩ := (hearly e (mem_durationEntries.1 he).1).durationChars
    have hmark : ['d', x, 'h'] <:+: run := List.IsInfix.trans ⟨left, right, hchars.symm⟩ hwithin
    simp only [List.mem_cons, List.not_mem_nil, or_false] at hx
    rcases hx with rfl | rfl | rfl
    · exact hmarks "d7h" (by simp) hmark
    · exact hmarks "d8h" (by simp) hmark
    · exact hmarks "d9h" (by simp) hmark

end Runs

/-- Where each run of letters and digits is the printed duration of an entry or holds no such text, the duration pass
puts the variable of its own entry in the place of each printed duration and changes nothing else. -/
theorem restoreDurations_eq_restoreRun {query : String} {encoded : Encoded} {text : List Char}
    (hencode : encode query = .ok encoded) (hcount : encoded.table.length < 9000)
    (hvar : ∀ e ∈ encoded.table, e.var.chars.any Char.isDigit = false)
    (hruns : ∀ run ∈ runs text,
      (∃ e ∈ encoded.table, e.inDuration = true ∧ e.inName = false ∧ run = e.durationChars) ∨
        ∀ mark ∈ ["d7h", "d8h", "d9h"], ¬ mark.toList <:+: run) :
    restoreDurations encoded.table text = (runs text).flatMap (restoreRun encoded.table) ∧
      ∀ e ∈ encoded.table, e.inDuration = true → e.inName = false →
        restoreRun encoded.table e.durationChars = e.var.chars := by
  obtain ⟨found, -, rfl⟩ := exists_classify hencode
  have hearly : ∀ e ∈ tableOf found, e.Early := fun e he =>
    ⟨(number_of_mem_tableOf he).1, (number_of_mem_tableOf he).2.trans (Nat.add_lt_add_left hcount _)⟩
  have hprinted := printedApart_tableOf hearly
  constructor
  · have hfold := (pending_runs hearly hruns).foldl_replaceAll (pairwise_durationEntries _)
      fun e he => hvar e (mem_durationEntries.1 he).1
    rw [runs, List.flatten_splitBy, ← runs] at hfold
    rw [restoreDurations, hfold]
    exact List.flatMap_congr fun run _ => hprinted.foldl_swap run
  · intro e he hduration hname
    exact hprinted.restoreRun_self (mem_durationEntries.2 ⟨he, hduration, hname⟩)

/-- Of the two printed durations one begins with the other, and the third duration belongs to no entry. -/
def printedSample : List Char := "x[1157d7h1s] / y[1157d7h] offset 1157d6h".toList

theorem restoreDurations_eq_restoreRun_sample :
    ∃ encoded, encode "x[$a] / y[$\x7bb:raw\x7d]" = .ok encoded ∧ encoded.table.length = 2 ∧
      restoreDurations encoded.table printedSample = "x[$\x7bb:raw\x7d] / y[$a] offset 1157d6h".toList := by
  have hread : (encode "x[$a] / y[$\x7bb:raw\x7d]").toOption.any (fun encoded => decide (encoded.table.length = 2 ∧
      (∀ e ∈ encoded.table, e.var.chars.any Char.isDigit = false) ∧
      (∀ run ∈ runs printedSample,
        (∃ e ∈ encoded.table, e.inDuration = true ∧ e.inName = false ∧ run = e.durationChars) ∨
          ∀ mark ∈ ["d7h", "d8h", "d9h"], ¬ mark.toList <:+: run) ∧
      (runs printedSample).flatMap (restoreRun encoded.table) =
        "x[$\x7bb:raw\x7d] / y[$a] offset 1157d6h".toList)) = true := by decide +kernel
  obtain ⟨encoded, hencode, hcheck⟩ := exists_ok_of_any hread
  obtain ⟨hcount, hvar, hruns, hrestored⟩ := of_decide_eq_true hcheck
  have hpass := restoreDurations_eq_restoreRun hencode (by omega) hvar hruns
  exact ⟨encoded, hencode, hcount, hpass.1.trans hrestored⟩

end QueryScope.Variable
