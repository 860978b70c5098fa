import QueryScope.Rule.Check
import Mathlib.Data.Finset.Card
import Mathlib.Tactic

/-!
# What is reported of rules

A file without violations is one whose groups have names of their own and whose rules are correct, each by
itself. The report of a file goes through its groups and through the rules of each group in order, and
what it says of a rule is what the check of that rule says.
-/

namespace QueryScope.Rule

/-! ## One rule -/

/-- A rule that can be evaluated. -/
structure Correct (dialect : Dialect) (rule : Rule) : Prop where
  kind : rule.record ≠ "" ∧ rule.alert = "" ∨ rule.record = "" ∧ rule.alert ≠ ""
  expr : Text.isAllBlank rule.expr = false ∧ ∃ query, Query.parse dialect rule.expr = .ok query
  labels : ∀ entry ∈ rule.labels.entries, Label.isLabelName entry.1 = true ∧ entry.1 ≠ Label.metricLabel
  annotations : ∀ entry ∈ rule.annotations.entries, Label.isLabelName entry.1 = true
  recording : rule.record ≠ "" → rule.annotations.entries = [] ∧ (∀ d ∈ rule.delay, d.millis = 0) ∧
    (∀ d ∈ rule.keepFiring, d.millis = 0) ∧ Label.isMetricName rule.record = true
  alerting : rule.alert ≠ "" → ∀ entry ∈ rule.labels.entries ++ rule.annotations.entries,
    Template.checkAlert rule.alert entry.2 = .ok ()

section Checks

variable {rule : Rule}

@[simp]
lemma violationIf_eq_nil_iff {condition : Bool} {violation : Violation} :
    violationIf condition violation = [] ↔ condition = false := by
  cases condition <;> simp [violationIf]

lemma isPositive_eq_false_iff {d : Option Duration} : isPositive d = false ↔ ∀ x ∈ d, x.millis = 0 := by
  cases d <;> simp [isPositive]

lemma checkKind_eq_nil_iff :
    checkKind rule = [] ↔ rule.record ≠ "" ∧ rule.alert = "" ∨ rule.record = "" ∧ rule.alert ≠ "" := by
  simp only [checkKind, ne_eq, ← String.isEmpty_iff]
  cases rule.record.isEmpty <;> cases rule.alert.isEmpty <;> simp

lemma kind?_eq_record_iff : rule.kind? = some .record ↔ rule.record ≠ "" ∧ rule.alert = "" := by
  simp only [kind?, ne_eq, ← String.isEmpty_iff]
  cases rule.record.isEmpty <;> cases rule.alert.isEmpty <;> simp

lemma kind?_eq_alert_iff : rule.kind? = some .alert ↔ rule.record = "" ∧ rule.alert ≠ "" := by
  simp only [kind?, ne_eq, ← String.isEmpty_iff]
  cases rule.record.isEmpty <;> cases rule.alert.isEmpty <;> simp

lemma checkExpr_eq_nil_iff {dialect : Dialect} :
    checkExpr dialect rule = [] ↔
      Text.isAllBlank rule.expr = false ∧ ∃ query, Query.parse dialect rule.expr = .ok query := by
  unfold checkExpr
  by_cases hblank : Text.isAllBlank rule.expr = true
  · simp [hblank]
  · rw [if_neg hblank]
    cases Query.parse dialect rule.expr <;> simp [hblank]

lemma checkRecording_eq_nil_iff :
    checkRecording rule = [] ↔ rule.annotations.entries = [] ∧ (∀ d ∈ rule.delay, d.millis = 0) ∧
      (∀ d ∈ rule.keepFiring, d.millis = 0) ∧ Label.isMetricName rule.record = true := by
  simp [checkRecording, isPositive_eq_false_iff, NameMap.isEmpty]

lemma checkLabels_eq_nil_iff :
    checkLabels rule = [] ↔
      ∀ entry ∈ rule.labels.entries, Label.isLabelName entry.1 = true ∧ entry.1 ≠ Label.metricLabel := by
  simp [checkLabels]

lemma checkAnnotations_eq_nil_iff :
    checkAnnotations rule = [] ↔ ∀ entry ∈ rule.annotations.entries, Label.isLabelName entry.1 = true := by
  simp [checkAnnotations]

lemma checkTemplates_eq_nil_iff {alert field : String} {values : NameMap String} :
    checkTemplates alert field values = [] ↔
      ∀ entry ∈ values.entries, Template.checkAlert alert entry.2 = .ok () := by
  unfold checkTemplates
  rw [List.flatMap_eq_nil_iff]
  refine forall₂_congr fun entry _ => ?_
  cases Template.checkAlert alert entry.2 <;> simp

end Checks

/-- The check of a rule finds nothing exactly if the rule is correct. -/
lemma check_eq_nil_iff {dialect : Dialect} {rule : Rule} : rule.check dialect = [] ↔ rule.Correct dialect := by
  have hchecks : rule.check dialect = [] ↔ checkKind rule = [] ∧ checkExpr dialect rule = [] ∧
      (rule.kind? = some .record → checkRecording rule = []) ∧ checkLabels rule = [] ∧ checkAnnotations rule = [] ∧
      (rule.kind? = some .alert → checkTemplates rule.alert "label" rule.labels = [] ∧
        checkTemplates rule.alert "annotation" rule.annotations = []) := by
    simp only [check, List.append_eq_nil_iff, ite_eq_right_iff, and_assoc]
  rw [hchecks, checkKind_eq_nil_iff, checkExpr_eq_nil_iff, checkRecording_eq_nil_iff, checkLabels_eq_nil_iff,
    checkAnnotations_eq_nil_iff, checkTemplates_eq_nil_iff, checkTemplates_eq_nil_iff, kind?_eq_record_iff,
    kind?_eq_alert_iff]
  constructor
  · rintro ⟨hkind, hexpr, hrecording, hlabels, hannotations, htemplates⟩
    refine ⟨hkind, hexpr, hlabels, hannotations, fun hrecord => ?_, fun halert entry hentry => ?_⟩
    · apply hrecording
      rcases hkind with hkind | hkind
      · exact hkind
      · exact absurd hkind.1 hrecord
    · have halerting : rule.record = "" ∧ rule.alert ≠ "" := by
        rcases hkind with hkind | hkind
        · exact absurd hkind.2 halert
        · exact hkind
      rcases List.mem_append.1 hentry with hentry | hentry
      · exact (htemplates halerting).1 entry hentry
      · exact (htemplates halerting).2 entry hentry
  · intro h
    refine ⟨h.kind, h.expr, fun hrecord => h.recording hrecord.1, h.labels, h.annotations, fun halert => ?_⟩
    constructor
    · intro entry hentry
      exact h.alerting halert.2 entry (List.mem_append_left _ hentry)
    · intro entry hentry
      exact h.alerting halert.2 entry (List.mem_append_right _ hentry)

/-! ## Files without violations -/

lemma checkRules_eq_nil_iff {dialect : Dialect} {group : RuleGroup} :
    checkRules dialect group = [] ↔ ∀ rule ∈ group.rules, rule.Correct dialect := by
  simp only [checkRules, List.flatten_eq_nil_iff, List.mem_mapIdx]
  constructor
  · intro h rule hrule
    obtain ⟨i, hi, rfl⟩ := List.getElem_of_mem hrule
    exact check_eq_nil_iff.1 (List.map_eq_nil_iff.1 (h _ ⟨i, hi, rfl⟩))
  · rintro h _ ⟨i, hi, rfl⟩
    rw [List.map_eq_nil_iff, check_eq_nil_iff]
    exact h _ (List.getElem_mem hi)

lemma checkGroup_eq_nil_iff {dialect : Dialect} {before : List String} {group : RuleGroup} :
    checkGroup dialect before group = [] ↔
      group.name ≠ "" ∧ group.name ∉ before ∧ ∀ rule ∈ group.rules, rule.Correct dialect := by
  simp [checkGroup, checkRules_eq_nil_iff]

lemma checkGroupsBehind_eq_nil_iff {dialect : Dialect} {before : List String} {groups : List RuleGroup} :
    checkGroupsBehind dialect before groups = [] ↔
      (∀ group ∈ groups, group.name ≠ "") ∧ (groups.map RuleGroup.name).Nodup ∧
        (∀ group ∈ groups, group.name ∉ before) ∧ ∀ group ∈ groups, ∀ rule ∈ group.rules, rule.Correct dialect := by
  -- The name of a group joins those before it, so a later group repeats it exactly if it is not apart from them.
  induction groups generalizing before with
  | nil => simp [checkGroupsBehind]
  | cons group groups ih =>
    rw [checkGroupsBehind, List.append_eq_nil_iff, checkGroup_eq_nil_iff, ih]
    simp only [List.forall_mem_cons, List.map_cons, List.nodup_cons, List.mem_map, List.mem_append, List.mem_singleton]
    constructor
    · rintro ⟨⟨hname, hnew, hrules⟩, hnames, hnodup, hapart, hcorrect⟩
      refine ⟨⟨hname, hnames⟩, ⟨?_, hnodup⟩, ⟨hnew, ?_⟩, hrules, hcorrect⟩
      · rintro ⟨other, hother, hsame⟩
        exact hapart other hother (.inr hsame)
      · intro other hother hold
        exact hapart other hother (.inl hold)
    · rintro ⟨⟨hname, hnames⟩, ⟨hfirst, hnodup⟩, ⟨hnew, hapart⟩, hrules, hcorrect⟩
      refine ⟨⟨hname, hnew, hrules⟩, hnames, hnodup, ?_, hcorrect⟩
      rintro other hother (hold | hsame)
      · exact hapart other hother hold
      · exact hfirst ⟨other, hother, hsame⟩

/-! ## Repeated names -/

/-- The violation is that a name of a group is repeated. -/
def Violation.isDuplicateGroup : Violation → Bool
  | duplicateGroup _ => true
  | _ => false

lemma forall_mem_violationIf {P : Violation → Prop} {condition : Bool} {violation : Violation} :
    (∀ v ∈ violationIf condition violation, P v) ↔ (condition = true → P violation) := by
  cases condition <;> simp [violationIf]

lemma isDuplicateGroup_of_mem_check {dialect : Dialect} {rule : Rule} :
    ∀ v ∈ rule.check dialect, v.isDuplicateGroup = false := by
  have hkind : ∀ v ∈ checkKind rule, v.isDuplicateGroup = false := by
    unfold checkKind
    split <;> simp [Violation.isDuplicateGroup]
  have hexpr : ∀ v ∈ checkExpr dialect rule, v.isDuplicateGroup = false := by
    unfold checkExpr
    split_ifs
    · simp [Violation.isDuplicateGroup]
    · split <;> simp [Violation.isDuplicateGroup]
  have hrecording : ∀ v ∈ checkRecording rule, v.isDuplicateGroup = false := by
    simp [checkRecording, List.forall_mem_append, forall_mem_violationIf, Violation.isDuplicateGroup, -List.mem_append]
  have hlabels : ∀ v ∈ checkLabels rule, v.isDuplicateGroup = false := by
    simp only [checkLabels, List.forall_mem_flatMap, forall_mem_violationIf]
    intros
    rfl
  have hannotations : ∀ v ∈ checkAnnotations rule, v.isDuplicateGroup = false := by
    simp only [checkAnnotations, List.forall_mem_flatMap, forall_mem_violationIf]
    intros
    rfl
  have htemplates (field : String) (values : NameMap String) :
      ∀ v ∈ checkTemplates rule.alert field values, v.isDuplicateGroup = false := by
    simp only [checkTemplates, List.forall_mem_flatMap]
    intro entry _
    split <;> simp [Violation.isDuplicateGroup]
  simp only [check, List.forall_mem_append]
  refine ⟨⟨⟨⟨⟨hkind, hexpr⟩, ?_⟩, hlabels⟩, hannotations⟩, ?_⟩
  · split_ifs
    · exact hrecording
    · simp
  · split_ifs
    · exact List.forall_mem_append.2 ⟨htemplates _ _, htemplates _ _⟩
    · simp

lemma countP_checkRules (dialect : Dialect) (group : RuleGroup) :
    (checkRules dialect group).countP (·.violation.isDuplicateGroup) = 0 := by
  rw [List.countP_eq_zero]
  intro finding hfinding
  obtain ⟨findings, hfindings, hmem⟩ := List.mem_flatten.1 hfinding
  obtain ⟨i, hi, rfl⟩ := List.mem_mapIdx.1 hfindings
  obtain ⟨violation, hviolation, rfl⟩ := List.mem_map.1 hmem
  simp [isDuplicateGroup_of_mem_check violation hviolation]

lemma countP_checkGroup (dialect : Dialect) (before : List String) (group : RuleGroup) :
    (checkGroup dialect before group).countP (·.violation.isDuplicateGroup) =
      if group.name ∈ before then 1 else 0 := by
  have hempty : (violationIf group.name.isEmpty (.emptyGroupName before.length)).countP
      Violation.isDuplicateGroup = 0 := by
    cases group.name.isEmpty <;> rfl
  rw [checkGroup, List.countP_append, countP_checkRules, List.countP_map, List.countP_append]
  change List.countP Violation.isDuplicateGroup _ + List.countP Violation.isDuplicateGroup _ + 0 = _
  rw [hempty]
  by_cases hname : group.name ∈ before <;> simp [violationIf, hname, Violation.isDuplicateGroup]

lemma countP_checkGroupsBehind (dialect : Dialect) (before : List String) (groups : List RuleGroup) :
    (checkGroupsBehind dialect before groups).countP (·.violation.isDuplicateGroup) +
        (before ++ groups.map RuleGroup.name).toFinset.card = groups.length + before.toFinset.card := by
  -- Each group adds one to the left side: its name is new, or it is found to repeat one.
  induction groups generalizing before with
  | nil => simp [checkGroupsBehind]
  | cons group groups ih =>
    have hrest := ih (before ++ [group.name])
    have hnames : (before ++ [group.name]).toFinset = insert group.name before.toFinset := by
      ext name
      simp
    rw [List.append_assoc, List.singleton_append, ← List.map_cons, hnames] at hrest
    rw [checkGroupsBehind, List.countP_append, countP_checkGroup, List.length_cons]
    by_cases hname : group.name ∈ before
    · rw [Finset.insert_eq_of_mem (List.mem_toFinset.2 hname)] at hrest
      rw [if_pos hname]
      omega
    · rw [Finset.card_insert_of_notMem (by simpa using hname)] at hrest
      rw [if_neg hname]
      omega

/-! ## Places of findings -/

section Numbered

variable {α : Type}

/-- The items of a list of blocks, each with the position of its block. -/
def numbered (start : ℕ) : List (List α) → List (ℕ × α)
  | [] => []
  | block :: blocks => block.map (start, ·) ++ numbered (start + 1) blocks

lemma map_snd_numbered (start : ℕ) (blocks : List (List α)) :
    (numbered start blocks).map Prod.snd = blocks.flatten := by
  induction blocks generalizing start with
  | nil => rfl
  | cons block blocks ih => simp [numbered, ih]

lemma exists_block_of_mem_numbered {start : ℕ} {blocks : List (List α)} {p : ℕ × α}
    (h : p ∈ numbered start blocks) : ∃ i block, p.1 = start + i ∧ blocks[i]? = some block ∧ p.2 ∈ block := by
  induction blocks generalizing start with
  | nil => cases h
  | cons block blocks ih =>
    rcases List.mem_append.1 h with hfirst | hlater
    · obtain ⟨a, ha, rfl⟩ := List.mem_map.1 hfirst
      exact ⟨0, block, rfl, rfl, ha⟩
    · obtain ⟨i, later, hposition, hlater, hmem⟩ := ih hlater
      exact ⟨i + 1, later, by omega, hlater, hmem⟩

lemma le_of_mem_numbered {start : ℕ} {blocks : List (List α)} {p : ℕ × α} (h : p ∈ numbered start blocks) :
    start ≤ p.1 := by
  obtain ⟨i, block, hposition, -⟩ := exists_block_of_mem_numbered h
  omega

lemma pairwise_numbered {R : α → α → Prop} {start : ℕ} {blocks : List (List α)}
    (h : ∀ block ∈ blocks, block.Pairwise R) :
    (numbered start blocks).Pairwise fun p q => p.1 < q.1 ∨ p.1 = q.1 ∧ R p.2 q.2 := by
  induction blocks generalizing start with
  | nil => exact .nil
  | cons block blocks ih =>
    obtain ⟨hblock, hblocks⟩ := List.forall_mem_cons.1 h
    refine List.pairwise_append.2 ⟨?_, ih hblocks, fun p hp q hq => ?_⟩
    · exact List.pairwise_map.2 (hblock.imp fun hR => .inr ⟨rfl, hR⟩)
    · obtain ⟨a, -, rfl⟩ := List.mem_map.1 hp
      left
      exact le_of_mem_numbered hq

lemma filter_numbered (start : ℕ) {i : ℕ} {blocks : List (List α)} {block : List α}
    (h : blocks[i]? = some block) :
    (numbered start blocks).filter (·.1 = start + i) = block.map (start + i, ·) := by
  induction blocks generalizing start i with
  | nil => simp at h
  | cons first blocks ih =>
    rw [numbered, List.filter_append]
    cases i with
    | zero =>
      obtain rfl : first = block := by simpa using h
      have hlater : (numbered (start + 1) blocks).filter (·.1 = start + 0) = [] := by
        rw [List.filter_eq_nil_iff]
        intro p hp
        have hle := le_of_mem_numbered hp
        simp only [decide_eq_true_eq]
        omega
      rw [hlater, List.append_nil, List.filter_eq_self.2]
      · rfl
      · simp
    | succ i =>
      have hfirst : (first.map (start, ·)).filter (·.1 = start + (i + 1)) = [] := by
        rw [List.filter_eq_nil_iff]
        simp
      have hlater := ih (start + 1) (by simpa using h)
      rw [Nat.add_assoc, Nat.add_comm 1 i] at hlater
      rw [hfirst, List.nil_append, hlater]

end Numbered

/-- A finding with the positions of its group and its rule. Rules are counted from one; zero stands for the
group itself. -/
structure Placed where
  group : ℕ
  rule : ℕ
  finding : Finding

/-- The finding names the group and the rule at its place. -/
def Placed.Named (groups : List RuleGroup) (p : Placed) : Prop :=
  ∃ group, groups[p.group]? = some group ∧ p.finding.group = group.name ∧
    match p.rule with
    | 0 => p.finding.rule = none
    | i + 1 => ∃ rule, group.rules[i]? = some rule ∧ p.finding.rule = some ⟨i + 1, rule.name⟩

/-- The findings of a report have places: they come in the order of the places, name what stands there, and those
at the place of a rule are the violations of that rule. -/
structure Attribution (dialect : Dialect) (groups : List RuleGroup) (placed : List Placed) : Prop where
  complete : placed.map Placed.finding = checkGroups dialect groups
  ordered : placed.Pairwise fun p q => p.group < q.group ∨ p.group = q.group ∧ p.rule ≤ q.rule
  named : ∀ p ∈ placed, p.Named groups
  own : ∀ g group i rule, groups[g]? = some group → group.rules[i]? = some rule →
    (placed.filter fun p => p.group = g ∧ p.rule = i + 1).map (·.finding.violation) = rule.check dialect

section Places

variable (dialect : Dialect)

/-- The findings on the name of a group. -/
def nameFindings (before : List String) (group : RuleGroup) : List Finding :=
  (violationIf group.name.isEmpty (.emptyGroupName before.length) ++
    violationIf (before.contains group.name) (.duplicateGroup group.name)).map
      fun violation => ⟨group.name, none, violation⟩

/-- The findings on a rule of a group. -/
def ruleFindings (group : RuleGroup) (i : ℕ) (rule : Rule) : List Finding :=
  (rule.check dialect).map fun violation => ⟨group.name, some ⟨i + 1, rule.name⟩, violation⟩

/-- The findings on a group, with the positions of their rules. -/
def placedIn (before : List String) (group : RuleGroup) : List (ℕ × Finding) :=
  numbered 0 (nameFindings before group :: group.rules.mapIdx (ruleFindings dialect group))

lemma map_snd_placedIn (before : List String) (group : RuleGroup) :
    (placedIn dialect before group).map Prod.snd = checkGroup dialect before group := by
  rw [placedIn, map_snd_numbered]
  rfl

/-- The findings on the groups, group by group. -/
def placedBehind (before : List String) : List RuleGroup → List (List (ℕ × Finding))
  | [] => []
  | group :: groups => placedIn dialect before group :: placedBehind (before ++ [group.name]) groups

lemma flatten_placedBehind (before : List String) (groups : List RuleGroup) :
    (placedBehind dialect before groups).flatten.map Prod.snd = checkGroupsBehind dialect before groups := by
  induction groups generalizing before with
  | nil => rfl
  | cons group groups ih =>
    rw [placedBehind, List.flatten_cons, List.map_append, map_snd_placedIn, ih, checkGroupsBehind]

lemma getElem?_placedBehind (before : List String) (groups : List RuleGroup) (g : ℕ) :
    (placedBehind dialect before groups)[g]? =
      groups[g]?.map (placedIn dialect (before ++ (groups.take g).map RuleGroup.name)) := by
  induction groups generalizing before g with
  | nil => simp [placedBehind]
  | cons group groups ih =>
    cases g with
    | zero => simp [placedBehind]
    | succ g => simp [placedBehind, ih]

lemma pairwise_placedIn (before : List String) (group : RuleGroup) :
    (placedIn dialect before group).Pairwise fun p q => p.1 ≤ q.1 := by
  have hblocks : ∀ block ∈ nameFindings before group :: group.rules.mapIdx (ruleFindings dialect group),
      block.Pairwise fun _ _ => True := by
    intro block _
    exact List.pairwise_of_forall fun _ _ => trivial
  refine (pairwise_numbered hblocks).imp fun hplace => ?_
  omega

lemma named_placedIn {before : List String} {groups : List RuleGroup} {g : ℕ} {group : RuleGroup}
    (hgroup : groups[g]? = some group) {p : ℕ × Finding} (h : p ∈ placedIn dialect before group) :
    Placed.Named groups ⟨g, p.1, p.2⟩ := by
  obtain ⟨i, block, hposition, hblock, hmem⟩ := exists_block_of_mem_numbered h
  obtain ⟨position, finding⟩ := p
  obtain rfl : position = i := by simpa using hposition
  cases position with
  | zero =>
    obtain rfl : nameFindings before group = block := by simpa using hblock
    obtain ⟨violation, -, rfl⟩ := List.mem_map.1 hmem
    exact ⟨group, hgroup, rfl, rfl⟩
  | succ i =>
    rw [List.getElem?_cons_succ, List.getElem?_mapIdx] at hblock
    obtain ⟨rule, hrule, rfl⟩ := Option.map_eq_some_iff.1 hblock
    obtain ⟨violation, -, rfl⟩ := List.mem_map.1 hmem
    exact ⟨group, hgroup, rfl, rule, hrule, rfl⟩

lemma filter_placedIn (before : List String) {group : RuleGroup} {i : ℕ} {rule : Rule}
    (h : group.rules[i]? = some rule) :
    ((placedIn dialect before group).filter (·.1 = i + 1)).map (·.2.violation) = rule.check dialect := by
  have hblock : (nameFindings before group :: group.rules.mapIdx (ruleFindings dialect group))[i + 1]? =
      some (ruleFindings dialect group i rule) := by
    rw [List.getElem?_cons_succ, List.getElem?_mapIdx, h]
    rfl
  have hfilter := filter_numbered 0 hblock
  rw [Nat.zero_add] at hfilter
  rw [placedIn, hfilter, List.map_map, ruleFindings, List.map_map]
  exact List.map_id _

/-- The findings on the groups of a file with their places. -/
def placements (groups : List RuleGroup) : List Placed :=
  (numbered 0 (placedBehind dialect [] groups)).map fun p => ⟨p.1, p.2.1, p.2.2⟩

variable {dialect} {groups : List RuleGroup}

lemma exists_placedIn {g : ℕ} {block : List (ℕ × Finding)} (h : (placedBehind dialect [] groups)[g]? = some block) :
    ∃ before group, groups[g]? = some group ∧ placedIn dialect before group = block := by
  rw [getElem?_placedBehind] at h
  obtain ⟨group, hgroup, hplaced⟩ := Option.map_eq_some_iff.1 h
  exact ⟨_, group, hgroup, hplaced⟩

lemma pairwise_placements : (placements dialect groups).Pairwise fun p q =>
    p.group < q.group ∨ p.group = q.group ∧ p.rule ≤ q.rule := by
  have hblocks : ∀ block ∈ placedBehind dialect [] groups, block.Pairwise fun p q => p.1 ≤ q.1 := by
    intro block hmem
    obtain ⟨g, hg⟩ := List.mem_iff_getElem?.1 hmem
    obtain ⟨before, group, -, rfl⟩ := exists_placedIn hg
    exact pairwise_placedIn dialect before group
  exact List.pairwise_map.2 (pairwise_numbered hblocks)

lemma named_placements : ∀ p ∈ placements dialect groups, p.Named groups := by
  intro p hp
  obtain ⟨q, hq, rfl⟩ := List.mem_map.1 hp
  obtain ⟨g, block, hposition, hg, hmem⟩ := exists_block_of_mem_numbered hq
  obtain ⟨before, group, hgroup, rfl⟩ := exists_placedIn hg
  rw [Nat.zero_add] at hposition
  rw [hposition]
  exact named_placedIn dialect hgroup hmem

lemma filter_placements {g i : ℕ} {group : RuleGroup} {rule : Rule} (hgroup : groups[g]? = some group)
    (hrule : group.rules[i]? = some rule) :
    ((placements dialect groups).filter fun p => p.group = g ∧ p.rule = i + 1).map (·.finding.violation) =
      rule.check dialect := by
  have hblock := getElem?_placedBehind dialect [] groups g
  rw [hgroup] at hblock
  have hgroupOnly := filter_numbered 0 hblock
  -- The place of a rule is found by the position of its group first, then by its own.
  have hsteps : (numbered 0 (placedBehind dialect [] groups)).filter
      ((fun p : Placed => decide (p.group = g ∧ p.rule = i + 1)) ∘ fun p => ⟨p.1, p.2.1, p.2.2⟩) =
      ((numbered 0 (placedBehind dialect [] groups)).filter (·.1 = 0 + g)).filter (·.2.1 = i + 1) := by
    rw [List.filter_filter]
    congr 1
    funext p
    simp [Bool.and_comm]
  rw [placements, List.filter_map, List.map_map, hsteps, hgroupOnly, List.filter_map, List.map_map]
  exact filter_placedIn dialect _ hrule

lemma attribution_placements : Attribution dialect groups (placements dialect groups) where
  complete := by
    rw [placements, List.map_map, checkGroups, ← flatten_placedBehind, ← map_snd_numbered 0, List.map_map]
    rfl
  ordered := pairwise_placements
  named := named_placements
  own := fun _ _ _ _ hgroup hrule => filter_placements hgroup hrule

end Places

/-- The check of a file finds nothing exactly if its groups have names of their own and all its rules are
correct. Its findings come group by group and rule by rule, those on a rule are the violations of that rule
alone, and a repeated name is found once for each group that repeats it. -/
theorem checkGroups_exact (dialect : Dialect) (groups : List RuleGroup) :
    (checkGroups dialect groups = [] ↔
      (∀ group ∈ groups, group.name ≠ "") ∧ (groups.map RuleGroup.name).Nodup ∧
        ∀ group ∈ groups, ∀ rule ∈ group.rules, rule.Correct dialect) ∧
    (∃ placed, Attribution dialect groups placed) ∧
    (checkGroups dialect groups).countP (·.violation.isDuplicateGroup) +
      (groups.map RuleGroup.name).toFinset.card = groups.length := by
  refine ⟨?_, ⟨_, attribution_placements⟩, ?_⟩
  · rw [checkGroups, checkGroupsBehind_eq_nil_iff]
    simp
  · simpa [checkGroups] using countP_checkGroupsBehind dialect [] groups

end QueryScope.Rule
