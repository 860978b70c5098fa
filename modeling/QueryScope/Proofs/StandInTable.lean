import QueryScope.Proofs.VariableSpans

/-!
# The table of stand-ins

The table grows by one use of a variable after another, those in the most constrained places first. A variable
without an entry gets the next number, and the place of that use gives the stand-in its shape; a variable with an
entry keeps it and adds the place to it. So there is one entry for each text, the entries stand in the order of the
uses that lead them, and each of them tells all places where its variable is used.
-/

namespace QueryScope.Variable

/-! ## One use after another -/

/-- The entry of a variable that is met for the first time; the place decides the shape of the stand-in. -/
def Entry.fresh (v : Variable) (number : Nat) (context : Context) : Entry where
  var := v
  number := number
  inName := context = .metricName
  inDuration := false
  inTimestamp := false
  labelQuoted := none

/-- The entry with one more use of its variable. -/
def Entry.note (e : Entry) (context : Context) : Entry :=
  { e with
    inDuration := e.inDuration || context = .duration
    inTimestamp := e.inTimestamp || context = .timestamp
    labelQuoted := e.labelQuoted.or context.labelQuoted? }

/-- The table with one more use of a variable. -/
def Table.note (table : Table) (o : Occurrence) : Table :=
  if o.var ∈ table.map Entry.var then table.map fun e => if e.var = o.var then e.note o.context else e
  else table ++ [(Entry.fresh o.var (firstNumber + table.length) o.context).note o.context]

/-- The entries for uses that are noted in this order. -/
def entriesOf (uses : List Occurrence) : Table :=
  (uses.map Occurrence.var).eraseDups.mapIdx fun index v => entryOf uses v index

lemma eraseDups_concat (vs : List Variable) (v : Variable) :
    (vs ++ [v]).eraseDups = if v ∈ vs then vs.eraseDups else vs.eraseDups ++ [v] := by
  rw [List.eraseDups_append]
  split_ifs with h
  · have hnil : [v].removeAll vs = [] := by simp [List.removeAll, h]
    rw [hnil, List.eraseDups_nil, List.append_nil]
  · have hone : [v].removeAll vs = [v] := by simp [List.removeAll, h]
    rw [hone]
    rfl

lemma nodup_eraseDups (vs : List Variable) : vs.eraseDups.Nodup := by
  induction vs using List.reverseRecOn with
  | nil => exact .nil
  | append_singleton vs v ih =>
    rw [eraseDups_concat]
    split_ifs with h
    · exact ih
    · rw [List.nodup_append]
      refine ⟨ih, List.nodup_singleton v, fun w hw w' hw' heq => h ?_⟩
      rw [← List.mem_singleton.1 hw', ← heq]
      exact List.mem_eraseDups.1 hw

section Note

variable {uses : List Occurrence} {o : Occurrence} {v : Variable} {index : Nat}

lemma contains_concat (contexts : List Context) (last context : Context) :
    (contexts ++ [last]).contains context = (contexts.contains context || decide (last = context)) := by
  rw [Bool.eq_iff_iff, Bool.or_eq_true, List.contains_iff_mem, List.contains_iff_mem, List.mem_append,
    List.mem_singleton, decide_eq_true_iff, @eq_comm _ context last]

lemma contexts_concat (uses : List Occurrence) (h : o.var = v) :
    ((uses ++ [o]).filter (·.var = v)).map Occurrence.context =
      (uses.filter (·.var = v)).map Occurrence.context ++ [o.context] := by
  simp [h]

lemma entryOf_concat_of_ne (h : o.var ≠ v) : entryOf (uses ++ [o]) v index = entryOf uses v index := by
  simp [entryOf, h]

lemma entryOf_concat_of_mem (h : o.var = v) (hmem : v ∈ uses.map Occurrence.var)
    (hname : o.context = .metricName → ∀ o' ∈ uses, o'.context = .metricName) :
    entryOf (uses ++ [o]) v index = (entryOf uses v index).note o.context := by
  obtain ⟨o', ho', hvar⟩ := List.mem_map.1 hmem
  -- The stand-in keeps its shape: if this use is in a metric name, then so are all uses before it.
  have hshape : (((uses.filter (·.var = v)).map Occurrence.context).contains .metricName ||
      decide (o.context = .metricName)) =
      ((uses.filter (·.var = v)).map Occurrence.context).contains .metricName := by
    rw [Bool.or_eq_left_iff_imp, decide_eq_true_iff]
    intro hcontext
    rw [List.contains_iff_mem]
    exact List.mem_map.2 ⟨o', List.mem_filter.2 ⟨ho', decide_eq_true hvar⟩, hname hcontext o' ho'⟩
  simp only [entryOf, Entry.note, contexts_concat uses h, contains_concat, hshape, List.findSome?_append,
    List.findSome?_singleton]

lemma entryOf_concat_of_notMem (h : o.var = v) (hnot : v ∉ uses.map Occurrence.var) :
    entryOf (uses ++ [o]) v index = (Entry.fresh v (firstNumber + index) o.context).note o.context := by
  have hnone : uses.filter (·.var = v) = [] := by
    rw [List.filter_eq_nil_iff]
    intro o' ho' heq
    exact hnot (List.mem_map.2 ⟨o', ho', of_decide_eq_true heq⟩)
  simp only [entryOf, Entry.fresh, Entry.note, contexts_concat uses h, hnone, List.map_nil, contains_concat]
  simp

lemma map_var_entriesOf (uses : List Occurrence) :
    (entriesOf uses).map Entry.var = (uses.map Occurrence.var).eraseDups := by
  apply List.ext_getElem?
  intro index
  rw [entriesOf, List.getElem?_map, List.getElem?_mapIdx, Option.map_map]
  exact Option.map_id'

/-- One step: a use that is noted in the table of the uses before it. -/
lemma note_entriesOf (hname : o.context = .metricName → ∀ o' ∈ uses, o'.context = .metricName) :
    Table.note (entriesOf uses) o = entriesOf (uses ++ [o]) := by
  have hseen : o.var ∈ (entriesOf uses).map Entry.var ↔ o.var ∈ uses.map Occurrence.var := by
    rw [map_var_entriesOf, List.mem_eraseDups]
  by_cases hmem : o.var ∈ uses.map Occurrence.var
  · have hvars : ((uses ++ [o]).map Occurrence.var).eraseDups = (uses.map Occurrence.var).eraseDups := by
      rw [List.map_append, List.map_singleton, eraseDups_concat, if_pos hmem]
    rw [Table.note, if_pos (hseen.2 hmem), entriesOf, entriesOf, hvars]
    apply List.ext_getElem?
    intro index
    rw [List.getElem?_map, List.getElem?_mapIdx, List.getElem?_mapIdx, Option.map_map]
    congr 1
    funext v
    by_cases hv : o.var = v
    · exact (if_pos hv.symm).trans (entryOf_concat_of_mem hv (hv ▸ hmem) hname).symm
    · exact (if_neg fun h => hv h.symm).trans (entryOf_concat_of_ne hv).symm
  · have hvars : ((uses ++ [o]).map Occurrence.var).eraseDups = (uses.map Occurrence.var).eraseDups ++ [o.var] := by
      rw [List.map_append, List.map_singleton, eraseDups_concat, if_neg hmem]
    have hold : (uses.map Occurrence.var).eraseDups.mapIdx (fun index v => entryOf (uses ++ [o]) v index) =
        entriesOf uses := by
      rw [entriesOf, List.mapIdx_eq_mapIdx_iff]
      intro index hindex
      refine entryOf_concat_of_ne fun heq => hmem ?_
      rw [heq, ← List.mem_eraseDups]
      exact List.getElem_mem hindex
    rw [Table.note, if_neg fun h => hmem (hseen.1 h)]
    conv_rhs => rw [entriesOf, hvars, List.mapIdx_append, hold, List.mapIdx_singleton, Nat.zero_add]
    rw [entryOf_concat_of_notMem rfl hmem, entriesOf, List.length_mapIdx]

/-- A whole run, by induction on the uses from the last one on. -/
lemma foldl_note (h : uses.Pairwise fun o o' => o'.context = .metricName → o.context = .metricName) :
    uses.foldl Table.note [] = entriesOf uses := by
  induction uses using List.reverseRecOn with
  | nil => rfl
  | append_singleton uses o ih =>
    obtain ⟨huses, -, hlast⟩ := List.pairwise_append.1 h
    have hname : o.context = .metricName → ∀ o' ∈ uses, o'.context = .metricName := fun hcontext o' ho' =>
      hlast o' ho' o List.mem_cons_self hcontext
    rw [List.foldl_append, List.foldl_cons, List.foldl_nil, ih huses, note_entriesOf hname]

end Note

/-! ## Uses by their places -/

/-- The use comes first in the table: its place is more constrained, or it is the earlier one in such a place. -/
def Occurrence.Precedes (o o' : Occurrence) : Prop :=
  o.context.rank < o'.context.rank ∨ o.context.rank = o'.context.rank ∧ o.start < o'.start

/-- The first use of a text in the most constrained of its places. -/
structure Leads (found : List Occurrence) (text : String) (o : Occurrence) : Prop where
  mem : o ∈ found
  text_eq : o.var.text = text
  precedes : ∀ o' ∈ found, o'.var.text = text → o' = o ∨ o.Precedes o'

/-- Uses in places of one strength stand in their order. -/
def Ordered (uses : List Occurrence) : Prop :=
  uses.Pairwise fun o o' => o.context.rank = o'.context.rank → o.start < o'.start

/-- The text is used in such a place. -/
def UsedAs (found : List Occurrence) (text : String) (context : Context) : Prop :=
  ∃ o ∈ found, o.var.text = text ∧ o.context = context

section Rank

variable {found uses : List Occurrence} {o : Occurrence} {v : Variable}

lemma pairwise_byRank (h : found.Pairwise fun o o' => o.start < o'.start) :
    (byRank found).Pairwise Occurrence.Precedes := by
  rw [byRank, List.pairwise_flatMap]
  constructor
  · intro rank _
    rw [List.pairwise_filter]
    refine h.imp fun hstart hrank hrank' => .inr ⟨?_, hstart⟩
    rw [of_decide_eq_true hrank, of_decide_eq_true hrank']
  · refine List.pairwise_lt_range.imp fun hlt o ho o' ho' => .inl ?_
    rw [of_decide_eq_true (List.mem_filter.1 ho).2, of_decide_eq_true (List.mem_filter.1 ho').2]
    exact hlt

lemma ordered_of_start (h : found.Pairwise fun o o' => o.start < o'.start) : Ordered found := by
  refine List.Pairwise.imp ?_ h
  exact fun hlt _ => hlt

lemma ordered_byRank (h : found.Pairwise fun o o' => o.start < o'.start) : Ordered (byRank found) :=
  List.Pairwise.imp (fun hprecedes heq => (hprecedes.resolve_left heq.not_lt).2) (pairwise_byRank h)

lemma eq_metricName_of_rank_le {context : Context} (h : context.rank ≤ Context.metricName.rank) :
    context = .metricName := by
  cases context <;> simp [Context.rank] at h ⊢

lemma labelQuoted?_eq_some_iff {context : Context} {quoted : Bool} :
    context.labelQuoted? = some quoted ↔ context = .labelValue quoted := by
  cases context <;> simp [Context.labelQuoted?]

/-- The quoting that is found is that of the first label value. -/
lemma findSome?_labelQuoted?_iff (h : Ordered uses) {quoted : Bool} :
    (uses.map Occurrence.context).findSome? Context.labelQuoted? = some quoted ↔
      ∃ o ∈ uses, o.context = .labelValue quoted ∧
        ∀ o' ∈ uses, ∀ quoted', o'.context = .labelValue quoted' → o.start ≤ o'.start := by
  have hrank {o o' : Occurrence} {q q' : Bool} (ho : o.context = .labelValue q) (ho' : o'.context = .labelValue q') :
      o.context.rank = o'.context.rank := by
    rw [ho, ho']
    rfl
  rw [List.findSome?_map, List.findSome?_eq_some_iff]
  constructor
  · rintro ⟨before, o, behind, rfl, hquoted, hnone⟩
    have hcontext := labelQuoted?_eq_some_iff.1 hquoted
    refine ⟨o, by simp, hcontext, fun o' ho' quoted' hcontext' => ?_⟩
    rcases List.mem_append.1 ho' with hbefore | hbehind
    · have := hnone o' hbefore
      rw [Function.comp_apply, labelQuoted?_eq_some_iff.2 hcontext'] at this
      cases this
    · rcases List.mem_cons.1 hbehind with rfl | hmem
      · exact le_rfl
      · have hlt := (List.pairwise_cons.1 (List.pairwise_append.1 h).2.1).1 o' hmem
        exact (hlt (hrank hcontext hcontext')).le
  · rintro ⟨o, ho, hcontext, hfirst⟩
    obtain ⟨before, behind, rfl⟩ := List.append_of_mem ho
    refine ⟨before, o, behind, rfl, labelQuoted?_eq_some_iff.2 hcontext, fun o' ho' => ?_⟩
    rw [Function.comp_apply, Option.eq_none_iff_forall_ne_some]
    intro quoted' hquoted'
    have hcontext' := labelQuoted?_eq_some_iff.1 hquoted'
    have hlt := (List.pairwise_append.1 h).2.2 o' ho' o List.mem_cons_self (hrank hcontext' hcontext)
    have hle := hfirst o' (List.mem_append_left _ ho') quoted' hcontext'
    omega

lemma labelQuoted_entryOf_iff (h : Ordered uses) {index : Nat} {quoted : Bool} :
    (entryOf uses v index).labelQuoted = some quoted ↔
      ∃ o ∈ uses, o.var = v ∧ o.context = .labelValue quoted ∧
        ∀ o' ∈ uses, o'.var = v → ∀ quoted', o'.context = .labelValue quoted' → o.start ≤ o'.start := by
  rw [entryOf, findSome?_labelQuoted?_iff (List.Pairwise.filter _ h)]
  simp only [List.mem_filter, decide_eq_true_eq, and_assoc, and_imp]

lemma tableOf_eq_entriesOf (h : found.Pairwise fun o o' => o.start < o'.start) :
    tableOf found = entriesOf (byRank found) := by
  have hcontains (v : Variable) (context : Context) :
      ((found.filter (·.var = v)).map Occurrence.context).contains context =
        (((byRank found).filter (·.var = v)).map Occurrence.context).contains context := by
    rw [Bool.eq_iff_iff, List.contains_iff_mem, List.contains_iff_mem]
    simp only [List.mem_map, List.mem_filter, mem_byRank]
  have hquoted (v : Variable) (index : Nat) :
      (entryOf found v index).labelQuoted = (entryOf (byRank found) v index).labelQuoted := by
    apply Option.ext
    intro quoted
    rw [labelQuoted_entryOf_iff (ordered_of_start h), labelQuoted_entryOf_iff (ordered_byRank h)]
    simp only [mem_byRank]
  have hentry (index : Nat) (v : Variable) : entryOf found v index = entryOf (byRank found) v index := by
    have hquoted' := hquoted v index
    simp only [entryOf] at hquoted' ⊢
    simp only [hcontains, hquoted']
  simp only [tableOf, entriesOf, allocation, hentry]

/-- The table is what a run over the uses, the most constrained places first, leaves. -/
lemma tableOf_eq_foldl (h : found.Pairwise fun o o' => o.start < o'.start) :
    tableOf found = (byRank found).foldl Table.note [] := by
  rw [tableOf_eq_entriesOf h, foldl_note]
  refine (pairwise_byRank h).imp fun hprecedes hname => eq_metricName_of_rank_le ?_
  rw [← hname]
  rcases hprecedes with hlt | ⟨heq, -⟩
  · exact hlt.le
  · exact heq.le

/-- By induction on the uses from the last one on: a use leads its variable if no use before it has the variable. -/
lemma exists_leads (h : uses.Pairwise Occurrence.Precedes) :
    ∃ leads : List Occurrence, leads.Sublist uses ∧ leads.map Occurrence.var = (uses.map Occurrence.var).eraseDups ∧
      ∀ o ∈ leads, ∀ o' ∈ uses, o'.var = o.var → o' = o ∨ o.Precedes o' := by
  induction uses using List.reverseRecOn with
  | nil => exact ⟨[], .slnil, rfl, nofun⟩
  | append_singleton uses last ih =>
    obtain ⟨huses, -, hlast⟩ := List.pairwise_append.1 h
    obtain ⟨leads, hsub, hvars, hleads⟩ := ih huses
    rw [List.map_append, List.map_singleton, eraseDups_concat]
    split_ifs with hmem
    · refine ⟨leads, hsub.trans (List.sublist_append_left _ _), hvars, fun o ho o' ho' hvar => ?_⟩
      rcases List.mem_append.1 ho' with hold | hnew
      · exact hleads o ho o' hold hvar
      · exact .inr (hlast o (hsub.subset ho) o' hnew)
    · refine ⟨leads ++ [last], hsub.append (.refl _), by rw [List.map_append, hvars, List.map_singleton], ?_⟩
      intro o ho o' ho' hvar
      rcases List.mem_append.1 ho with hold | hnew
      · rcases List.mem_append.1 ho' with hold' | hnew'
        · exact hleads o hold o' hold' hvar
        · exact .inr (hlast o (hsub.subset hold) o' hnew')
      · obtain rfl := List.mem_singleton.1 hnew
        rcases List.mem_append.1 ho' with hold' | hnew'
        · exact absurd (List.mem_map.2 ⟨o', hold', hvar⟩) hmem
        · exact .inl (List.mem_singleton.1 hnew')

end Rank

/-! ## The table of a query -/

/-- The entries of a table for the variables that are found in a query. -/
structure Allocates (found : List Occurrence) (table : Table) : Prop where
  /-- there is one entry for each text -/
  nodup_texts : (table.map fun e => e.var.text).Nodup
  mem_texts (text : String) : text ∈ table.map (fun e => e.var.text) ↔ ∃ o ∈ found, o.var.text = text
  number (index : Nat) : ∀ e ∈ table[index]?, e.number = firstNumber + index
  /-- the stand-in of a text that is used in a metric name is a word -/
  token_name : ∀ e ∈ table, UsedAs found e.var.text .metricName →
    e.token = "__var".toList ++ Number.decimalDigits e.number ++ "__".toList
  token_number : ∀ e ∈ table, ¬UsedAs found e.var.text .metricName → e.token = Number.decimalDigits e.number
  nodup_tokens : (table.map Entry.token).Nodup
  /-- the entries stand in the order of the uses that lead them -/
  order : ∃ leads : List Occurrence, leads.Pairwise Occurrence.Precedes ∧
    List.Forall₂ (fun e o => Leads found e.var.text o) table leads
  inDuration : ∀ e ∈ table, e.inDuration = true ↔ UsedAs found e.var.text .duration
  inTimestamp : ∀ e ∈ table, e.inTimestamp = true ↔ UsedAs found e.var.text .timestamp
  /-- the quoting is that of the first use as a label value -/
  labelQuoted : ∀ e ∈ table, ∀ quoted, e.labelQuoted = some quoted ↔
    ∃ o ∈ found, o.var.text = e.var.text ∧ o.context = .labelValue quoted ∧
      ∀ o' ∈ found, o'.var.text = e.var.text → ∀ quoted', o'.context = .labelValue quoted' → o.start ≤ o'.start

lemma text_eq_iff {v w : Variable} : v.text = w.text ↔ v.chars = w.chars := by
  rw [text, text, String.ofList_inj]

/-- A name without braces does not begin with one. -/
lemma Spelled.chars_ne_of_braced {v w : Variable} {behind : List Char} (hw : w.Spelled behind)
    (hbraced : v.braced = true) (hplain : w.braced = false) : v.chars ≠ w.chars := by
  intro heq
  have hword := hw.2
  simp only [hplain, Bool.false_eq_true, if_false] at hword
  simp only [chars, hbraced, hplain, if_true, Bool.false_eq_true, if_false, List.cons_append, List.cons.injEq,
    true_and] at heq
  rw [← heq] at hword
  exact absurd (hword.1 '\x7b' List.mem_cons_self) (by decide)

/-- Variables that are written in full have texts of their own. -/
lemma Spelled.eq_of_text_eq {v w : Variable} {behind behind' : List Char} (hv : v.Spelled behind)
    (hw : w.Spelled behind') (h : v.text = w.text) : v = w := by
  have hchars := text_eq_iff.1 h
  have hbraced : v.braced = w.braced := by
    cases hvb : v.braced with
    | true =>
      cases hwb : w.braced with
      | true => rfl
      | false => exact absurd hchars (hw.chars_ne_of_braced hvb hwb)
    | false =>
      cases hwb : w.braced with
      | true => exact absurd hchars.symm (hv.chars_ne_of_braced hwb hvb)
      | false => rfl
  obtain ⟨braced, name⟩ := v
  obtain ⟨braced', name'⟩ := w
  obtain rfl : braced = braced' := hbraced
  cases braced <;> simpa [chars] using hchars

/-- The number of an entry can be read off its stand-in. -/
lemma Entry.number_eq_of_token_eq {e e' : Entry} (h : e.token = e'.token) : e.number = e'.number := by
  have hdigits {m n : Nat} (heq : Number.decimalDigits m = Number.decimalDigits n) : m = n := by
    rw [← Number.natOfDigits_decimalDigits m, heq, Number.natOfDigits_decimalDigits]
  have hword (m n : Nat) : "__var".toList ++ Number.decimalDigits m ++ "__".toList ≠ Number.decimalDigits n := by
    intro heq
    have hmem : '_' ∈ Number.decimalDigits n := by simp [← heq]
    exact absurd (Number.isDigit_of_mem_decimalDigits hmem) (by decide)
  unfold Entry.token at h
  split_ifs at h
  · exact hdigits (List.append_cancel_left (List.append_cancel_right h))
  · exact absurd h (hword _ _)
  · exact absurd h.symm (hword _ _)
  · exact hdigits h

section Query

variable {query : String} {found : List Occurrence} {e : Entry}

lemma pairwise_start (h : classify query = .ok found) : found.Pairwise fun o o' => o.start < o'.start := by
  refine (splices_of_classify h).pairwise.imp_of_mem ?_
  intro o o' ho _ hle
  obtain ⟨front, behind, -, -, hstop, -⟩ := spelledAt_of_classify h ho
  have hpos := byteLength_chars_pos o.var
  omega

lemma eq_of_text_eq (h : classify query = .ok found) {o o' : Occurrence} (ho : o ∈ found) (ho' : o' ∈ found)
    (htext : o.var.text = o'.var.text) : o.var = o'.var := by
  obtain ⟨-, behind, -, -, -, hspelled⟩ := spelledAt_of_classify h ho
  obtain ⟨-, behind', -, -, -, hspelled'⟩ := spelledAt_of_classify h ho'
  exact hspelled.eq_of_text_eq hspelled' htext

lemma text_eq_text_iff (h : classify query = .ok found) (he : e ∈ tableOf found) {o : Occurrence} (ho : o ∈ found) :
    o.var.text = e.var.text ↔ o.var = e.var := by
  obtain ⟨index, v, hindex, rfl⟩ := mem_tableOf.1 he
  obtain ⟨o', ho', rfl⟩ := mem_allocation.1 (List.mem_of_getElem? hindex)
  exact ⟨eq_of_text_eq h ho ho', congrArg text⟩

lemma usedAs_iff (h : classify query = .ok found) (he : e ∈ tableOf found) {context : Context} :
    UsedAs found e.var.text context ↔
      ((found.filter (·.var = e.var)).map Occurrence.context).contains context = true := by
  rw [List.contains_iff_mem, List.mem_map]
  simp only [List.mem_filter, decide_eq_true_eq, and_assoc]
  constructor
  · rintro ⟨o, ho, htext, hcontext⟩
    exact ⟨o, ho, (text_eq_text_iff h he ho).1 htext, hcontext⟩
  · rintro ⟨o, ho, hvar, hcontext⟩
    exact ⟨o, ho, (text_eq_text_iff h he ho).2 hvar, hcontext⟩

lemma nodup_tokens (found : List Occurrence) : ((tableOf found).map Entry.token).Nodup := by
  rw [List.Nodup, List.pairwise_map]
  exact (pairwise_number found).imp fun hlt htoken => hlt.ne (Entry.number_eq_of_token_eq htoken)

lemma map_var_tableOf (h : classify query = .ok found) : (tableOf found).map Entry.var = allocation found := by
  rw [tableOf_eq_entriesOf (pairwise_start h), map_var_entriesOf, allocation]

lemma labelQuoted_iff (h : classify query = .ok found) (he : e ∈ tableOf found) {quoted : Bool} :
    e.labelQuoted = some quoted ↔
      ∃ o ∈ found, o.var.text = e.var.text ∧ o.context = .labelValue quoted ∧
        ∀ o' ∈ found, o'.var.text = e.var.text → ∀ quoted', o'.context = .labelValue quoted' → o.start ≤ o'.start := by
  have hentry : e.labelQuoted = some quoted ↔
      ∃ o ∈ found, o.var = e.var ∧ o.context = .labelValue quoted ∧
        ∀ o' ∈ found, o'.var = e.var → ∀ quoted', o'.context = .labelValue quoted' → o.start ≤ o'.start := by
    obtain ⟨index, v, -, rfl⟩ := mem_tableOf.1 he
    exact labelQuoted_entryOf_iff (ordered_of_start (pairwise_start h))
  rw [hentry]
  constructor
  · rintro ⟨o, ho, hvar, hcontext, hfirst⟩
    refine ⟨o, ho, (text_eq_text_iff h he ho).2 hvar, hcontext, fun o' ho' htext => ?_⟩
    exact hfirst o' ho' ((text_eq_text_iff h he ho').1 htext)
  · rintro ⟨o, ho, htext, hcontext, hfirst⟩
    refine ⟨o, ho, (text_eq_text_iff h he ho).1 htext, hcontext, fun o' ho' hvar => ?_⟩
    exact hfirst o' ho' ((text_eq_text_iff h he ho').2 hvar)

/-- The entries of the table and the uses that lead them, one by one. -/
lemma exists_leads_tableOf (h : classify query = .ok found) :
    ∃ leads : List Occurrence, leads.Pairwise Occurrence.Precedes ∧
      List.Forall₂ (fun e o => Leads found e.var.text o) (tableOf found) leads := by
  have hranked := pairwise_byRank (pairwise_start h)
  obtain ⟨leads, hsub, hvars, hfirst⟩ := exists_leads hranked
  refine ⟨leads, hranked.sublist hsub, ?_⟩
  have hleads : ∀ o ∈ leads, Leads found o.var.text o := by
    intro o ho
    have hmem := mem_byRank.1 (hsub.subset ho)
    refine ⟨hmem, rfl, fun o' ho' htext => hfirst o ho o' (mem_byRank.2 ho') ?_⟩
    exact eq_of_text_eq h ho' hmem htext
  have hsame : List.Forall₂ (fun v o => Leads found v.text o) (leads.map Occurrence.var) leads := by
    rw [List.forall₂_map_left_iff, List.forall₂_same]
    exact hleads
  rw [hvars, ← allocation, ← map_var_tableOf h, List.forall₂_map_left_iff] at hsame
  exact hsame

lemma allocates_tableOf (h : classify query = .ok found) : Allocates found (tableOf found) := by
  have hvars := map_var_tableOf h
  have htexts : (tableOf found).map (fun e => e.var.text) = (allocation found).map text := by
    rw [← hvars, List.map_map]
    rfl
  have hname : ∀ e ∈ tableOf found, UsedAs found e.var.text .metricName ↔ e.inName = true := by
    intro e he
    rw [usedAs_iff h he]
    obtain ⟨index, v, -, rfl⟩ := mem_tableOf.1 he
    rfl
  constructor
  case nodup_texts =>
    rw [htexts]
    refine (nodup_eraseDups _).map_on fun v hv w hw htext => ?_
    obtain ⟨o, ho, rfl⟩ := mem_allocation.1 hv
    obtain ⟨o', ho', rfl⟩ := mem_allocation.1 hw
    exact eq_of_text_eq h ho ho' htext
  case mem_texts =>
    intro text
    rw [htexts, List.mem_map]
    constructor
    · rintro ⟨v, hv, rfl⟩
      obtain ⟨o, ho, rfl⟩ := mem_allocation.1 hv
      exact ⟨o, ho, rfl⟩
    · rintro ⟨o, ho, rfl⟩
      exact ⟨o.var, mem_allocation.2 ⟨o, ho, rfl⟩, rfl⟩
  case number => exact fun index e he => getElem?_tableOf he
  case token_name => exact fun e he hused => if_pos ((hname e he).1 hused)
  case token_number => exact fun e he hunused => if_neg fun hname' => hunused ((hname e he).2 hname')
  case nodup_tokens => exact nodup_tokens found
  case order => exact exists_leads_tableOf h
  case inDuration =>
    intro e he
    rw [usedAs_iff h he]
    obtain ⟨index, v, -, rfl⟩ := mem_tableOf.1 he
    rfl
  case inTimestamp =>
    intro e he
    rw [usedAs_iff h he]
    obtain ⟨index, v, -, rfl⟩ := mem_tableOf.1 he
    rfl
  case labelQuoted => exact fun e he quoted => labelQuoted_iff h he

lemma exists_classify {encoded : Encoded} (h : encode query = .ok encoded) :
    ∃ found, classify query = .ok found ∧
      ⟨String.ofList (encodePieces (tableOf found) (piecesOf query) found), tableOf found⟩ = encoded := by
  cases hclassify : classify query with
  | error e =>
    have hfound : occurrences (piecesOf query) = .error e := hclassify
    rw [encode, hfound] at h
    cases h
  | ok found =>
    rw [encode_of_classify hclassify] at h
    exact ⟨found, rfl, Except.ok.inj h⟩

/-- The entry of a variable is found by the text of the variable. -/
lemma get?_tableOf (h : classify query = .ok found) {o : Occurrence} (ho : o ∈ found) :
    (tableOf found).get? o.var.text = (tableOf found).find? (·.var = o.var) := by
  refine List.find?_congr fun e he => ?_
  rw [decide_eq_decide, eq_comm, text_eq_text_iff h he ho, eq_comm]

lemma standInOf_eq {table : Table} {o : Occurrence} (h : table.find? (·.var = o.var) = some e) :
    standInOf table o = if o.context = .labelValue false then '"' :: e.token ++ ['"'] else e.token := by
  have htoken : tokenOf table o.var = e.token := by
    rw [tokenOf, h]
    rfl
  rw [standInOf, htoken]

end Query

/-- The table of an encoded query has one entry for each text of a variable, with the numbers in sequence. The
stand-ins are the numbers, or words with the numbers in them for the texts that are used in metric names, and no two
are the same. The entries come by the most constrained place of their text, and for one place by its first use there;
they tell whether the text is used as a duration or as a timestamp, and how its first use as a label value is quoted.
Such a table is what the uses leave if they are noted one after another. Each use in the query has the stand-in of
its own text in its place. -/
theorem table_lists_texts_by_place {query : String} {encoded : Encoded} (h : encode query = .ok encoded) :
    ∃ found, classify query = .ok found ∧ Allocates found encoded.table ∧
      encoded.table = (byRank found).foldl Table.note [] ∧
      splice? (standInOf encoded.table) 0 query.toList found = some encoded.text.toList ∧
      ∀ o ∈ found, ∃ e, encoded.table.get? o.var.text = some e ∧ e.var = o.var ∧
        standInOf encoded.table o = if o.context = .labelValue false then '"' :: e.token ++ ['"'] else e.token := by
  obtain ⟨found, hclassify, rfl⟩ := exists_classify h
  have hrun := tableOf_eq_foldl (pairwise_start hclassify)
  refine ⟨found, hclassify, allocates_tableOf hclassify, hrun, ?_, fun o ho => ?_⟩
  · rw [String.toList_ofList]
    exact (splices_of_classify hclassify).splice?_eq
  · obtain ⟨e, -, hfind, hvar⟩ := find?_tableOf ho
    exact ⟨e, (get?_tableOf hclassify ho).trans hfind, hvar, standInOf_eq hfind⟩

/-- The places are told in the order of the text, not in that of the table: an instant is first met as a number, an
offset as a bare label value, and a part of a metric name comes again in quotes. -/
def tableSample : String :=
  "$t + rate(up_$a\x7bb=$c, d=\"$a\"\x7d[$g] offset $c) @ $t"

theorem table_lists_texts_by_place_sample :
    ∃ found encoded, encode tableSample = .ok encoded ∧ classify tableSample = .ok found ∧
      encoded.table.map (fun e => (e.var.name, e.token, e.labelQuoted)) =
        [(['a'], "__var99990000__".toList, some true), (['g'], "99990001".toList, none),
          (['c'], "99990002".toList, some false), (['t'], "99990003".toList, none)] ∧
      Allocates found encoded.table := by
  have hencode : encode tableSample = .ok _ := rfl
  obtain ⟨found, hclassify, hallocates, -⟩ := table_lists_texts_by_place hencode
  exact ⟨found, _, hencode, hclassify, by decide, hallocates⟩

end QueryScope.Variable
