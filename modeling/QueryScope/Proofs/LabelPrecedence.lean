import QueryScope.Command.Run
import QueryScope.Proofs.InjectionNodes

/-!
# Which value a label gets

A label may have a value in the query, in the arguments of a run and in the settings. A selector keeps
what it says itself. Where it says nothing about a label, the last argument for the label counts, and
where there is none, the settings do.
-/

namespace QueryScope

/-! ## Values of names in a map -/

namespace NameMap

variable {α : Type}

lemma lookup_cons_eq_ite (entries : List (String × α)) (entry : String × α) (name : String) :
    (entry :: entries).lookup name = if name = entry.1 then some entry.2 else entries.lookup name := by
  obtain ⟨n, v⟩ := entry
  by_cases h : name = n
  · simp [h]
  · have hne : (name == n) = false := by simpa using h
    simp [List.lookup_cons, hne, h]

lemma get?_insert (map : NameMap α) (name other : String) (value : α) :
    (map.insert name value).get? other = if other = name then some value else map.get? other := by
  simp only [get?, insert]
  induction map.entries with
  | nil => rw [insertEntry, lookup_cons_eq_ite]
  | cons head rest ih =>
    obtain ⟨n, v⟩ := head
    rw [insertEntry]
    by_cases hlt : name < n
    · rw [if_pos hlt, lookup_cons_eq_ite]
    · rw [if_neg hlt]
      by_cases hn : name = n
      · subst hn
        rw [if_pos rfl, lookup_cons_eq_ite, lookup_cons_eq_ite]
        by_cases heq : other = name <;> simp [heq]
      · rw [if_neg hn, lookup_cons_eq_ite, lookup_cons_eq_ite, ih]
        by_cases heq : other = n
        · have hne : other ≠ name := fun h => hn (h.symm.trans heq)
          rw [if_pos heq, if_neg hne, if_pos heq]
        · rw [if_neg heq, if_neg heq]

lemma get?_insertAll (map : NameMap α) (entries : List (String × α)) (name : String) :
    (map.insertAll entries).get? name = (entries.reverse.lookup name).or (map.get? name) := by
  induction entries generalizing map with
  | nil => rfl
  | cons head rest ih =>
    have hrest : map.insertAll (head :: rest) = (map.insert head.1 head.2).insertAll rest := rfl
    rw [hrest, ih, get?_insert, List.reverse_cons, List.lookup_append, Option.or_assoc, lookup_cons_eq_ite]
    by_cases heq : name = head.1 <;> simp [heq]

/-- In a map no name comes twice, so its entries may be searched from either end. -/
lemma lookup_reverse_entries (map : NameMap α) (name : String) :
    map.entries.reverse.lookup name = map.get? name := by
  obtain ⟨entries, hsorted⟩ := map
  simp only [get?]
  induction entries with
  | nil => rfl
  | cons head rest ih =>
    obtain ⟨hhead, hrest⟩ := List.pairwise_cons.1 hsorted
    rw [List.reverse_cons, List.lookup_append, ih hrest, lookup_cons_eq_ite, lookup_cons_eq_ite]
    by_cases heq : name = head.1
    · have hnone : rest.lookup name = none := by
        rw [List.lookup_eq_none_iff]
        intro entry hentry
        have hne : name ≠ entry.1 := by
          rintro rfl
          exact String.lt_irrefl _ (heq ▸ hhead entry hentry)
        simpa using hne
      simp [hnone, if_pos heq]
    · simp [if_neg heq]

/-- Of two maps put together the one that is put in last counts. -/
lemma get?_insertAll_entries (map other : NameMap α) (name : String) :
    (map.insertAll other.entries).get? name = (other.get? name).or (map.get? name) := by
  rw [get?_insertAll, lookup_reverse_entries]

end NameMap

/-! ## Arguments -/

namespace LabelSet

/-- The argument that writes a label. -/
def writtenEntry (entry : String × String) : String :=
  entry.1 ++ "=" ++ entry.2

lemma toList_writtenEntry (entry : String × String) :
    (writtenEntry entry).toList = entry.1.toList ++ '=' :: entry.2.toList := by
  simp [writtenEntry]

lemma argument?_writtenEntry {entry : String × String} (hname : '=' ∉ entry.1.toList)
    (hvalue : '=' ∉ entry.2.toList) : argument? (writtenEntry entry) = some entry := by
  have hsplit : (writtenEntry entry).toList.splitOn '=' = [entry.1.toList, entry.2.toList] := by
    rw [toList_writtenEntry, List.splitOn_append_cons_self_of_not_mem hname, List.splitOn_eq_singleton hvalue]
  simp [argument?, hsplit]

lemma exists_writtenEntry {argument : String} (h : argument.toList.count '=' = 1) :
    ∃ entry, argument = writtenEntry entry ∧ '=' ∉ entry.1.toList ∧ '=' ∉ entry.2.toList := by
  have hmem : '=' ∈ argument.toList := List.count_pos_iff.1 (by omega)
  obtain ⟨name, value, htext, hname⟩ := List.eq_append_cons_of_mem hmem
  have hvalue : '=' ∉ value := by
    rw [htext, List.count_append, List.count_cons_self] at h
    exact List.count_eq_zero.1 (by omega)
  refine ⟨(String.ofList name, String.ofList value), ?_, by simpa using hname, by simpa using hvalue⟩
  apply String.toList_inj.1
  rw [toList_writtenEntry, htext]
  simp

lemma argument?_eq_none {argument : String} (h : argument.toList.count '=' ≠ 1) : argument? argument = none := by
  unfold argument?
  split
  case h_1 name value hsplit =>
    exfalso
    by_cases hmem : '=' ∈ argument.toList
    · obtain ⟨first, rest, htext, hfirst⟩ := List.eq_append_cons_of_mem hmem
      rw [htext, List.splitOn_append_cons_self_of_not_mem hfirst, List.cons.injEq] at hsplit
      by_cases hmore : '=' ∈ rest
      · obtain ⟨second, others, hrest, hsecond⟩ := List.eq_append_cons_of_mem hmore
        rw [hrest, List.splitOn_append_cons_self_of_not_mem hsecond, List.cons.injEq] at hsplit
        exact List.splitOn_ne_nil _ _ hsplit.2.2
      · apply h
        rw [htext, List.count_append, List.count_cons_self, List.count_eq_zero.2 hfirst,
          List.count_eq_zero.2 hmore]
    · rw [List.splitOn_eq_singleton hmem] at hsplit
      simp at hsplit
  case h_2 => rfl

/-- An argument with one equals sign is written in one way. -/
lemma eq_of_writtenEntry_eq {first second : String × String} (hname : '=' ∉ first.1.toList)
    (hvalue : '=' ∉ first.2.toList) (h : writtenEntry first = writtenEntry second) : first = second := by
  have hcount : (writtenEntry second).toList.count '=' = 1 := by
    rw [← h, toList_writtenEntry, List.count_append, List.count_cons_self, List.count_eq_zero.2 hname,
      List.count_eq_zero.2 hvalue]
  rw [toList_writtenEntry, List.count_append, List.count_cons_self] at hcount
  have hsecond : argument? (writtenEntry second) = some second :=
    argument?_writtenEntry (List.count_eq_zero.1 (by omega)) (List.count_eq_zero.1 (by omega))
  rw [← h, argument?_writtenEntry hname hvalue] at hsecond
  exact Option.some.inj hsecond

lemma mapM_argument?_eq_none {arguments : List String} (h : ∃ a ∈ arguments, argument? a = none) :
    arguments.mapM argument? = none := by
  induction arguments with
  | nil => simp at h
  | cons first rest ih =>
    rw [List.mapM_cons]
    cases hfirst : argument? first with
    | none => rfl
    | some entry =>
      have hrest : ∃ a ∈ rest, argument? a = none := by simpa [hfirst] using h
      simp [ih hrest]

/-- Arguments with one equals sign each write a list of labels. -/
lemma exists_entries {arguments : List String} (h : ∀ a ∈ arguments, a.toList.count '=' = 1) :
    ∃ entries : List (String × String), arguments = entries.map writtenEntry ∧
      arguments.mapM argument? = some entries ∧
      ∀ entry ∈ entries, '=' ∉ entry.1.toList ∧ '=' ∉ entry.2.toList := by
  induction arguments with
  | nil => exact ⟨[], rfl, rfl, by simp⟩
  | cons first rest ih =>
    obtain ⟨entry, rfl, hname, hvalue⟩ := exists_writtenEntry (h first (by simp))
    obtain ⟨entries, hrest, hmap, hfree⟩ := ih fun a ha => h a (by simp [ha])
    refine ⟨entry :: entries, by rw [List.map_cons, ← hrest], ?_, ?_⟩
    · rw [List.mapM_cons, argument?_writtenEntry hname hvalue, hmap]
      rfl
    · intro e he
      rcases List.mem_cons.1 he with rfl | he
      · exact ⟨hname, hvalue⟩
      · exact hfree e he

end LabelSet

/-! ## Settings under arguments -/

/-- The value that a label is to have where a query says nothing about it: that of the last argument for
it, or else that of the settings. -/
inductive Settings.Wants (settings : Settings) (arguments : List String) (name value : String) : Prop
  | given (before after : List String) (hwritten : arguments = before ++ (name ++ "=" ++ value) :: after)
      (hlast : ∀ argument ∈ after, ∀ other, argument ≠ name ++ "=" ++ other)
  | preset (hvalue : settings.matchers.get? name = some value)
      (hfree : ∀ argument ∈ arguments, ∀ other, argument ≠ name ++ "=" ++ other)

namespace LabelSet

variable {entries : List (String × String)}
  (hfree : ∀ entry ∈ entries, '=' ∉ entry.1.toList ∧ '=' ∉ entry.2.toList)

include hfree

lemma forall_ne_writtenEntry_iff (name : String) :
    (∀ argument ∈ entries.map writtenEntry, ∀ other, argument ≠ name ++ "=" ++ other) ↔
      ∀ entry ∈ entries, name ≠ entry.1 := by
  constructor
  · rintro h entry hentry rfl
    exact h (writtenEntry entry) (List.mem_map_of_mem hentry) entry.2 rfl
  · intro h argument hargument other heq
    obtain ⟨entry, hentry, rfl⟩ := List.mem_map.1 hargument
    have hsame : entry = (name, other) :=
      eq_of_writtenEntry_eq (hfree entry hentry).1 (hfree entry hentry).2 heq
    exact h entry hentry (hsame ▸ rfl)

lemma lookup_reverse_eq_none_iff (name : String) :
    entries.reverse.lookup name = none ↔
      ∀ argument ∈ entries.map writtenEntry, ∀ other, argument ≠ name ++ "=" ++ other := by
  rw [forall_ne_writtenEntry_iff hfree, List.lookup_eq_none_iff]
  simp

lemma lookup_reverse_eq_some_iff (name value : String) :
    entries.reverse.lookup name = some value ↔
      ∃ before after, entries.map writtenEntry = before ++ (name ++ "=" ++ value) :: after ∧
        ∀ argument ∈ after, ∀ other, argument ≠ name ++ "=" ++ other := by
  rw [List.lookup_eq_some_iff]
  constructor
  · rintro ⟨later, earlier, hentries, hlater⟩
    have hsplit : entries = earlier.reverse ++ (name, value) :: later.reverse := by
      rw [← List.reverse_reverse entries, hentries]
      simp
    refine ⟨earlier.reverse.map writtenEntry, later.reverse.map writtenEntry, ?_, ?_⟩
    · rw [hsplit, List.map_append, List.map_cons]
      rfl
    · refine (forall_ne_writtenEntry_iff (fun entry hentry => hfree entry ?_) name).2 fun entry hentry => ?_
      · rw [hsplit]
        exact List.mem_append_right _ (List.mem_cons_of_mem _ hentry)
      · simpa using hlater entry (List.mem_reverse.1 hentry)
  · rintro ⟨before, after, hsplit, hafter⟩
    obtain ⟨earlier, tail, rfl, rfl, htail⟩ := List.map_eq_append_iff.1 hsplit
    obtain ⟨entry, later, rfl, hentry, rfl⟩ := List.map_eq_cons_iff.1 htail
    have hmem : entry ∈ earlier ++ entry :: later := by simp
    obtain rfl : entry = (name, value) :=
      eq_of_writtenEntry_eq (hfree entry hmem).1 (hfree entry hmem).2 hentry
    refine ⟨later.reverse, earlier.reverse, by simp, fun e he => ?_⟩
    have hlater := (forall_ne_writtenEntry_iff
      (fun entry hentry => hfree entry (List.mem_append_right _ (List.mem_cons_of_mem _ hentry))) name).1 hafter
    simpa using hlater e (List.mem_reverse.1 he)

/-- The labels that are injected have the values that settings and arguments want. -/
lemma get?_mergedMatchers_iff (settings : Settings) (name value : String) :
    (settings.mergedMatchers (.ofList entries)).get? name = some value ↔
      settings.Wants (entries.map writtenEntry) name value := by
  have hgiven : (NameMap.ofList entries).get? name = entries.reverse.lookup name := by
    rw [NameMap.ofList, NameMap.get?_insertAll]
    exact Option.or_none
  rw [Settings.mergedMatchers, NameMap.get?_insertAll_entries, hgiven, Option.or_eq_some_iff,
    lookup_reverse_eq_some_iff hfree, lookup_reverse_eq_none_iff hfree]
  constructor
  · rintro (⟨before, after, hwritten, hlast⟩ | ⟨hnone, hvalue⟩)
    · exact .given before after hwritten hlast
    · exact .preset hvalue hnone
  · rintro (⟨before, after, hwritten, hlast⟩ | ⟨hvalue, hnone⟩)
    · exact .inl ⟨before, after, hwritten, hlast⟩
    · exact .inr ⟨hnone, hvalue⟩

end LabelSet

/-! ## Queries -/

/-- The node `new` is the node `old` as far as one label goes: a selector keeps its matchers. None is added
for a label that it has already, or that has no wanted value; otherwise the one that is added demands the
wanted value. -/
def Node.Gains (name : String) (wanted : String → Prop) (old new : Node) : Prop :=
  match old.matchers? with
  | none => new = old
  | some matchers => ∃ added, new = old.withMatchers (matchers ++ added) ∧
      ((∃ m ∈ matchers, m.name = name) ∨ (∀ value, ¬wanted value) → added.filter (·.name = name) = []) ∧
      ∀ value, (∀ m ∈ matchers, m.name ≠ name) → wanted value →
        added.filter (·.name = name) = [⟨name, .equal, value⟩]

namespace LabelSet

/-- What an injection adds for one label. -/
lemma filter_missingFrom (set : LabelSet) (matchers : List Matcher) (name : String) :
    (set.missingFrom matchers).filter (·.name = name) =
      if ∃ m ∈ matchers, m.name = name then []
      else ((set.get? name).map fun value => ⟨name, .equal, value⟩).toList := by
  have hadds := set.missingFrom_adds matchers
  split_ifs with hold
  · rw [List.filter_eq_nil_iff]
    intro m hm hname
    obtain ⟨o, ho, honame⟩ := hold
    exact ((hadds.exact m).1 hm).2.2 o ho (honame.trans (of_decide_eq_true hname).symm)
  · cases hvalue : set.get? name with
    | none =>
      rw [Option.map_none, Option.toList_none, List.filter_eq_nil_iff]
      intro m hm hname
      have hsome := ((hadds.exact m).1 hm).2.1
      rw [of_decide_eq_true hname, hvalue] at hsome
      simp at hsome
    | some value =>
      have hfilter (m : Matcher) : m ∈ (set.missingFrom matchers).filter (·.name = name) ↔
          m = ⟨name, .equal, value⟩ := by
        rw [List.mem_filter, hadds.exact]
        constructor
        · rintro ⟨⟨hequal, hget, -⟩, hname⟩
          obtain ⟨n, c, v⟩ := m
          obtain rfl : n = name := of_decide_eq_true hname
          obtain rfl : value = v := Option.some.inj (hvalue.symm.trans hget)
          exact congrArg (Matcher.mk n · value) hequal
        · rintro rfl
          exact ⟨⟨rfl, hvalue, fun o ho hname => hold ⟨o, ho, hname⟩⟩, by simp⟩
      have hperm : ((set.missingFrom matchers).filter (·.name = name)).Perm [⟨name, .equal, value⟩] :=
        (List.perm_ext_iff_of_nodup (hadds.nodup.filter _) (List.nodup_singleton _)).2 fun m =>
          (hfilter m).trans List.mem_singleton.symm
      exact List.perm_singleton.1 hperm

end LabelSet

lemma Node.gains_update {set : LabelSet} {name : String} {wanted : String → Prop}
    (h : ∀ value, set.get? name = some value ↔ wanted value) (node : Node) :
    node.Gains name wanted (node.update set.extend) := by
  unfold Gains update
  cases node.matchers? with
  | none => rfl
  | some matchers =>
    have hfilter := set.filter_missingFrom matchers name
    refine ⟨set.missingFrom matchers, rfl, ?_, ?_⟩
    · rintro (hold | hunwanted)
      · rw [hfilter, if_pos hold]
      · have hnone : set.get? name = none :=
          Option.eq_none_iff_forall_ne_some.2 fun value hvalue => hunwanted value ((h value).1 hvalue)
        rw [hfilter, hnone]
        exact ite_self _
    · intro value hfree hwanted
      have hold : ¬∃ m ∈ matchers, m.name = name := by
        rintro ⟨m, hm, hname⟩
        exact hfree m hm hname
      rw [hfilter, if_neg hold, (h value).2 hwanted]
      rfl

end QueryScope
