import QueryScope.Proofs.StandIns

/-!
# Decoding an encoded query

An encoded query is its own text with stand-ins in the places of its variables, and decoding puts the
variables back one by one. Where no text of the query looks like a stand-in, the query comes back.
-/

namespace QueryScope.Variable

/-! ## Encoded texts -/

/-- The first text is the second with stand-ins of a table in the places of variables. -/
def Encodes (table : Table) (text chars : List Char) : Prop :=
  ∃ segments, text = written [] segments ∧ chars = original segments ∧
    ∀ e, .standIn e ∈ segments → e ∈ table

section Encodes

variable {table : Table} {found : List Occurrence}

lemma Encodes.nil : Encodes table [] [] :=
  ⟨[], rfl, rfl, by simp⟩

lemma Encodes.char (c : Char) : Encodes table [c] [c] :=
  ⟨[.char c], rfl, rfl, by simp⟩

lemma Encodes.entry {e : Entry} (he : e ∈ table) : Encodes table e.form e.var.chars :=
  ⟨[.standIn e], by simp [written, Segment.chars], by simp [original], by simpa using he⟩

lemma Encodes.append {text text' chars chars' : List Char} (h : Encodes table text chars)
    (h' : Encodes table text' chars') : Encodes table (text ++ text') (chars ++ chars') := by
  obtain ⟨segments, rfl, rfl, hmem⟩ := h
  obtain ⟨segments', rfl, rfl, hmem'⟩ := h'
  refine ⟨segments ++ segments', by simp [written], by simp [original], ?_⟩
  intro e he
  exact (List.mem_append.1 he).elim (hmem e) (hmem' e)

/-- The table holds an entry for each of the occurrences, quoted anew exactly where they are bare. -/
def Covers (table : Table) (found : List Occurrence) : Prop :=
  ∀ o ∈ found, ∃ e ∈ table, table.find? (·.var = o.var) = some e ∧ e.var = o.var ∧
    (e.labelQuoted = some false ↔ o.context = .labelValue false)

lemma Covers.of_append_right {found' : List Occurrence} (h : Covers table (found ++ found')) :
    Covers table found' := fun o ho => h o (List.mem_append_right _ ho)

lemma Covers.of_append_left {found' : List Occurrence} (h : Covers table (found ++ found')) :
    Covers table found := fun o ho => h o (List.mem_append_left _ ho)

lemma Covers.encodes_head {o : Occurrence} (h : Covers table (o :: found)) :
    Encodes table
      (if o.context = .labelValue false then '"' :: tokenOf table o.var ++ ['"'] else tokenOf table o.var)
      o.var.chars := by
  obtain ⟨e, he, hfind, hvar, hquoted⟩ := h o List.mem_cons_self
  have hentry : Encodes table e.form e.var.chars := .entry he
  simpa only [tokenOf, hfind, Option.map_some, Option.getD_some, Entry.form, hquoted, hvar] using hentry

lemma encodes_literal {context : Context} (hcontext : context ≠ .labelValue false) (offset : Nat)
    (body : List Inner) (h : Covers table (literalOccurrences context offset body)) :
    Encodes table (body.flatMap (encodeInner table)) (body.flatMap Inner.chars) := by
  induction body generalizing offset with
  | nil => exact .nil
  | cons part body ih =>
    cases part with
    | char c => exact (Encodes.char c).append (ih _ h)
    | var v =>
      have hhead := h.encodes_head
      rw [if_neg hcontext] at hhead
      exact hhead.append (ih _ fun o ho => h o (List.mem_cons_of_mem _ ho))

/-- The occurrences of a literal are used up by it. -/
lemma encodePieces_literal (quote : Char) (body : List Inner) (closed : Bool) (rest : List Piece)
    (context : Context) (offset : Nat) :
    encodePieces table (.literal quote body closed :: rest)
        (literalOccurrences context offset body ++ found) =
      [quote] ++ body.flatMap (encodeInner table) ++ (if closed then [quote] else []) ++
        encodePieces table rest found := by
  rw [encodePieces]
  congr 2
  induction body generalizing offset with
  | nil => rfl
  | cons part body ih => cases part <;> simp [literalOccurrences, ih]

lemma encodePieces_var {v : Variable} (rest : List Piece) (o : Occurrence) :
    encodePieces table (.var v :: rest) (o :: found) =
      (if o.context = .labelValue false then '"' :: tokenOf table v ++ ['"'] else tokenOf table v) ++
        encodePieces table rest found := by
  obtain ⟨w, start, stop, context⟩ := o
  cases context with
  | labelValue quoted => cases quoted <;> rfl
  | _ => rfl

lemma literalContext_ne (body : List Inner) (closed : Bool) (before : List Piece) :
    literalContext body closed before ≠ .labelValue false := by
  unfold literalContext
  split
  · split <;> simp
  · simp

lemma encodes_pieces (parts before : List Piece) (offset : Nat) (marks : List Bool)
    (hfound : occurrencesFrom before offset parts marks = .ok found) (h : Covers table found) :
    Encodes table (encodePieces table parts found) (parts.flatMap Piece.chars) := by
  induction parts generalizing before offset marks found with
  | nil => exact .nil
  | cons p parts ih =>
    obtain ⟨here, behind, rfl, hhere, hrest⟩ := occurrencesFrom_cons hfound
    have hbehind := ih _ _ _ hrest h.of_append_right
    cases p with
    | char c =>
      obtain rfl := hhere
      exact (Encodes.char c).append hbehind
    | literal quote body closed =>
      obtain rfl := hhere
      have hbody := encodes_literal (literalContext_ne body closed before) _ body h.of_append_left
      have hclose : Encodes table (if closed then [quote] else []) (if closed then [quote] else []) := by
        cases closed
        · exact .nil
        · exact .char quote
      rw [encodePieces_literal]
      exact (((Encodes.char quote).append hbody).append hclose).append hbehind
    | var v =>
      obtain ⟨context, -, rfl⟩ := hhere
      have hvariable := h.encodes_head.append hbehind
      rw [← encodePieces_var] at hvariable
      exact hvariable

end Encodes

/-! ## The whole query -/

/-- A variable that stands as a bare label value stands nowhere else. -/
def BareApart (found : List Occurrence) : Prop :=
  ∀ o ∈ found, o.context = .labelValue false → ∀ o' ∈ found, o'.var = o.var → o'.context = .labelValue false

section RoundTrip

variable {found : List Occurrence} {e : Entry}

lemma BareApart.labelQuoted_iff (hbare : BareApart found) (he : e ∈ tableOf found) {o : Occurrence}
    (ho : o ∈ found) (hvar : e.var = o.var) :
    e.labelQuoted = some false ↔ o.context = .labelValue false := by
  constructor
  · intro hquoted
    obtain ⟨o', ho', hvar', hcontext⟩ := exists_bare_of_labelQuoted he hquoted
    exact hbare o' ho' hcontext o ho (by rw [← hvar, hvar'])
  · intro hcontext
    exact labelQuoted_of_bare he ho hvar.symm fun o' ho' hvar' =>
      hbare o ho hcontext o' ho' (by rw [hvar', hvar])

lemma BareApart.covers (hbare : BareApart found) : Covers (tableOf found) found := by
  intro o ho
  obtain ⟨e, he, hfind, hvar⟩ := find?_tableOf ho
  exact ⟨e, he, hfind, hvar, hbare.labelQuoted_iff he ho hvar⟩

lemma BareApart.labelQuoted_of_inTimestamp (hbare : BareApart found) (he : e ∈ tableOf found)
    (hinstant : e.inTimestamp) : e.labelQuoted ≠ some false := by
  intro hquoted
  obtain ⟨index, v, -, rfl⟩ := mem_tableOf.1 he
  simp only [entryOf, List.contains_iff_mem, List.mem_map, List.mem_filter] at hinstant
  obtain ⟨o, ⟨ho, hvar⟩, hcontext⟩ := hinstant
  have hlabel := (hbare.labelQuoted_iff he ho (of_decide_eq_true hvar).symm).1 hquoted
  rw [hcontext] at hlabel
  cases hlabel

/-- The early stand-ins, printed as durations, are 1157 days and 7 to 9 hours long. -/
lemma Entry.Early.durationChars (he : e.Early) :
    ∃ left x right, e.durationChars = left ++ ['d', x, 'h'] ++ right ∧ x ∈ ['7', '8', '9'] := by
  obtain ⟨hfirst, hlast⟩ := he
  rw [firstNumber] at hfirst hlast
  have hyear : e.number * 1000 % Duration.Measure.year.millis ≠ 0 := by
    simp only [Duration.Measure.millis]
    omega
  have hweek : e.number * 1000 % Duration.Measure.week.millis ≠ 0 := by
    simp only [Duration.Measure.millis]
    omega
  have hdays : e.number * 1000 / Duration.Measure.day.millis = 1157 := by
    simp only [Duration.Measure.millis]
    omega
  obtain ⟨hours, hhours, hrange⟩ : ∃ hours, e.number * 1000 % Duration.Measure.day.millis /
      Duration.Measure.hour.millis = hours ∧ (hours = 7 ∨ hours = 8 ∨ hours = 9) := by
    refine ⟨_, rfl, ?_⟩
    simp only [Duration.Measure.millis]
    omega
  have hlimit : e.number * 1000 % Duration.limit = e.number * 1000 := by
    apply Nat.mod_eq_of_lt
    simp only [Duration.limit, Nat.pow_eq]
    omega
  have hchars : e.durationChars = Number.decimalDigits 1157 ++ ['d'] ++ (Number.decimalDigits hours ++ ['h'] ++
      Duration.writeUnits [.minute, .second, .millisecond]
        (e.number * 1000 % Duration.Measure.day.millis % Duration.Measure.hour.millis)) := by
    have hne : e.number * 1000 ≠ 0 := by omega
    have hne' : hours ≠ 0 := by omega
    simp only [Entry.durationChars, Duration.chars, hlimit, hne, if_false, Duration.Measure.all]
    rw [Duration.writeUnits, if_pos ⟨rfl, hyear⟩, Duration.writeUnits, if_pos ⟨rfl, hweek⟩,
      Duration.writeUnits, if_neg (by simp [Duration.Measure.whenExact]), hdays, if_neg (by decide),
      Duration.writeUnits, if_neg (by simp [Duration.Measure.whenExact]), hhours, if_neg hne']
    rfl
  generalize Duration.writeUnits [.minute, .second, .millisecond] _ = behind at hchars
  have hdigit : Number.decimalDigits hours = [hours.digitChar] := Nat.toDigits_of_lt_base (by omega)
  refine ⟨Number.decimalDigits 1157, hours.digitChar, behind, ?_, ?_⟩
  · rw [hchars, hdigit]
    simp
  · rcases hrange with rfl | rfl | rfl <;> decide

lemma written_eq_original {segments : List Segment} {back : List Entry}
    (h : ∀ e, .standIn e ∈ segments → e ∈ back) : written back segments = original segments := by
  induction segments with
  | nil => rfl
  | cons s segments ih =>
    rw [written_cons, original_cons, ih fun e he => h e (List.mem_cons_of_mem _ he)]
    congr 1
    cases s with
    | char c => rfl
    | standIn e => simp [Segment.chars, original, h e List.mem_cons_self]

/-- Putting back the entries of a table one by one puts all of them back. -/
lemma Distinct.foldl_restoreEntry {segments : List Segment} (h : Distinct segments)
    (hmem : ∀ e, .standIn e ∈ segments → e ∈ tableOf found) (hearly : ∀ e ∈ tableOf found, e.Early)
    (hbare : BareApart found) (hpoint : ¬ ".000".toList <:+: original segments) (entries back : List Entry)
    (hentries : ∀ e ∈ entries, e ∈ tableOf found) :
    entries.foldl restoreEntry (written back segments) = written (entries.reverse ++ back) segments := by
  induction entries generalizing back with
  | nil => rfl
  | cons e entries ih =>
    have he := hentries e List.mem_cons_self
    have hstep : restoreEntry (written back segments) e = written (e :: back) segments :=
      h.restoreEntry_written (hearly e he) (fun e' he' => eq_of_number_eq (hmem e' he') he)
        (hbare.labelQuoted_of_inTimestamp he) hpoint
    rw [List.foldl_cons, hstep, ih (e :: back) fun e' he' => hentries e' (List.mem_cons_of_mem _ he')]
    simp

/-- No early stand-in looks like a printed duration. -/
lemma restoreDurations_of_early {segments : List Segment} (hsegments : ∀ e, .standIn e ∈ segments → e.Early)
    (hearly : ∀ e ∈ tableOf found, e.Early)
    (hhours : ∀ x ∈ ['7', '8', '9'], ¬ ['d', x, 'h'] <:+: original segments) :
    restoreDurations (tableOf found) (written [] segments) = written [] segments := by
  have hkeep : ∀ e ∈ durationEntries (tableOf found),
      replaceAll e.durationChars e.var.chars (written [] segments) = written [] segments := by
    intro e he
    have he' : e ∈ tableOf found := by
      rw [durationEntries, List.mem_mergeSort, List.mem_filter] at he
      exact he.1
    apply replaceAll_of_absent
    obtain ⟨left, x, right, hchars, hx⟩ := (hearly e he').durationChars
    intro hwithin
    apply hhours x hx
    apply infix_original hsegments
    exact List.IsInfix.trans ⟨left, right, hchars.symm⟩ hwithin
  rw [restoreDurations]
  generalize durationEntries (tableOf found) = entries at hkeep
  induction entries with
  | nil => rfl
  | cons e entries ih =>
    rw [List.foldl_cons, hkeep e List.mem_cons_self]
    exact ih fun e' he' => hkeep e' (List.mem_cons_of_mem _ he')

lemma restoreDurations_written {segments : List Segment} (hmem : ∀ e, .standIn e ∈ segments → e ∈ tableOf found)
    (hearly : ∀ e ∈ tableOf found, e.Early)
    (hhours : ∀ x ∈ ['7', '8', '9'], ¬ ['d', x, 'h'] <:+: original segments) :
    restoreDurations (tableOf found) (written [] segments) = written [] segments :=
  restoreDurations_of_early (fun e he => hearly e (hmem e he)) hearly hhours

/-- A query with fewer than 9000 variables, without nines and without texts that stand-ins are printed
as, comes back from its encoded form if its bare label values are variables of their own. -/
theorem decode_encode {query : String} {encoded : Encoded} (hencode : encode query = .ok encoded)
    (hcount : encoded.table.length < 9000) (hnine : '9' ∉ query.toList)
    (htexts : ∀ text ∈ [".000", "d7h", "d8h", "d9h"], ¬ text.toList <:+: query.toList)
    (hbare : ∀ found, classify query = .ok found → BareApart found) :
    decode encoded.table encoded.text = query := by
  cases hfound : occurrences (piecesOf query) with
  | error e => simp only [encode, hfound] at hencode; cases hencode
  | ok found =>
    obtain rfl : ⟨String.ofList (encodePieces (tableOf found) (piecesOf query) found), tableOf found⟩ =
        encoded := by
      simp only [encode, hfound] at hencode
      exact Except.ok.inj hencode
    have hbare := hbare found hfound
    obtain ⟨segments, htext, hchars, hmem⟩ := encodes_pieces _ _ _ _ hfound hbare.covers
    rw [flatMap_chars_piecesOf] at hchars
    rw [hchars] at hnine htexts
    have hearly : ∀ e ∈ tableOf found, e.Early := fun e he =>
      ⟨(number_of_mem_tableOf he).1, (number_of_mem_tableOf he).2.trans (Nat.add_lt_add_left hcount _)⟩
    have hdistinct : Distinct segments :=
      ⟨fun e he => hearly e (hmem e he), fun e e' he he' => eq_of_number_eq (hmem e he) (hmem e' he'), hnine⟩
    have hhours : ∀ x ∈ ['7', '8', '9'], ¬ ['d', x, 'h'] <:+: original segments := by
      intro x hx
      rcases (by simpa using hx : x = '7' ∨ x = '8' ∨ x = '9') with rfl | rfl | rfl
      · exact htexts "d7h" (by simp)
      · exact htexts "d8h" (by simp)
      · exact htexts "d9h" (by simp)
    have hentries : ∀ e ∈ tokenEntries (tableOf found), e ∈ tableOf found := fun e he =>
      List.mem_mergeSort.1 he
    apply String.toList_injective
    simp only [decode, decodeChars, String.toList_ofList]
    rw [htext, restoreDurations_written hmem hearly hhours,
      hdistinct.foldl_restoreEntry hmem hearly hbare (htexts ".000" (by simp)) _ _ hentries,
      written_eq_original, hchars]
    intro e he
    simpa [tokenEntries] using hmem e he

/-- Four variables: in a metric name, as a bare and as a quoted label value, and as an offset. -/
theorem decode_encode_sample :
    ∃ encoded, encode "up_$\x7ba\x7d\x7bb=$c, d=\"$e\"\x7d offset $f" = .ok encoded ∧ encoded.table.length = 4 ∧
      decode encoded.table encoded.text = "up_$\x7ba\x7d\x7bb=$c, d=\"$e\"\x7d offset $f" := by
  refine ⟨_, rfl, rfl, decode_encode rfl (by decide) (by decide) (by decide) ?_⟩
  intro found hfound
  obtain rfl := Except.ok.inj hfound
  simp only [BareApart]
  decide

end RoundTrip

end QueryScope.Variable
