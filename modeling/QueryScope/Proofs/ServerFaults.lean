import QueryScope.Server.Check
import Mathlib.Tactic

/-!
# Faults of server configurations

A configuration stands under a list of conditions: those on the settings for all jobs, on the patterns of paths,
and on the jobs in turn. It is accepted exactly if it is valid, which is to say that all of them hold. Otherwise
the fault is that of the first one that does not.
-/

namespace QueryScope.Server

/-! ## Valid configurations -/

/-- A job that can be run with the settings for all jobs, its name apart. -/
structure Job.Valid (g : Global) (job : Job) : Prop where
  timeout : (job.effectiveTimeout g).millis ≤ (job.effectiveInterval g).millis
  scheme : ∀ scheme ∈ job.scheme, scheme = "http" ∨ scheme = "https"
  metricsPath : ∀ path ∈ job.metricsPath, ['/'] <+: path.toList
  labels : ∀ listed ∈ job.staticTargets, ∀ entry ∈ listed.labels.entries, Label.isLabelName entry.1 = true
  targets : ∀ listed ∈ job.staticTargets, ∀ host ∈ listed.targets, '/' ∉ host.toList

/-- A configuration that a server can run. -/
structure Config.Valid (config : Config) : Prop where
  timeout : config.globalSettings.effectiveTimeout.millis ≤ config.globalSettings.effectiveInterval.millis
  labels : ∀ entry ∈ config.globalSettings.externalLabels.entries, Label.isLabelName entry.1 = true
  ruleFiles : ∀ pattern ∈ config.ruleFiles, ∃ steps, Glob.parse pattern = .ok steps
  scrapeConfigFiles : ∀ pattern ∈ config.scrapeConfigFiles, ∃ steps, Glob.parse pattern = .ok steps
  named : ∀ job ∈ config.jobs, job.name ≠ ""
  distinct : (config.jobs.map Job.name).Nodup
  jobs : ∀ job ∈ config.jobs, job.Valid config.globalSettings

/-! ## Conditions in order -/

/-- A condition that a configuration has to meet. -/
inductive Condition where
  | globalTimeout
  | externalLabel (name : String)
  | pattern (pattern : String)
  | named (job : Job)
  /-- the name is not one of those before -/
  | new (before : List String) (job : Job)
  | timeout (job : Job)
  | scheme (job : Job)
  | metricsPath (job : Job)
  | staticLabel (job : Job) (name : String)
  | target (job : Job) (host : String)

namespace Condition

/-- What a condition says, given the settings for all jobs. -/
def Holds (g : Global) : Condition → Prop
  | globalTimeout => g.effectiveTimeout.millis ≤ g.effectiveInterval.millis
  | externalLabel name => Label.isLabelName name = true
  | pattern text => ∃ steps, Glob.parse text = .ok steps
  | named job => job.name ≠ ""
  | new before job => job.name ∉ before
  | timeout job => (job.effectiveTimeout g).millis ≤ (job.effectiveInterval g).millis
  | scheme job => ∀ scheme ∈ job.scheme, scheme = "http" ∨ scheme = "https"
  | metricsPath job => ∀ path ∈ job.metricsPath, ['/'] <+: path.toList
  | staticLabel _ name => Label.isLabelName name = true
  | target _ host => '/' ∉ host.toList

/-- The fault that is reported of a condition that does not hold. -/
def Reports : Condition → Fault → Prop
  | globalTimeout, fault => fault = .globalTimeout
  | externalLabel name, fault => fault = .externalLabel name
  | pattern text, fault => ∃ e, Glob.parse text = .error e ∧ fault = .filePattern text e
  | named _, fault => fault = .emptyJobName
  | new _ job, fault => fault = .duplicateJob job.name
  | timeout job, fault => fault = .jobTimeout job.name
  | scheme job, fault => ∃ scheme ∈ job.scheme, fault = .scheme scheme job.name
  | metricsPath job, fault => ∃ path ∈ job.metricsPath, fault = .metricsPath path job.name
  | staticLabel job name, fault => fault = .staticLabel name job.name
  | target job host, fault => fault = .target host job.name

end Condition

/-- The conditions on listed targets: on the names of their labels, then on the targets. -/
def StaticTargets.conditions (job : Job) (listed : StaticTargets) : List Condition :=
  listed.labels.entries.map (fun entry => .staticLabel job entry.1) ++ listed.targets.map (.target job)

/-- The conditions on a job behind jobs with the given names. -/
def Job.conditions (before : List String) (job : Job) : List Condition :=
  [.named job, .new before job, .timeout job, .scheme job, .metricsPath job] ++
    job.staticTargets.flatMap (·.conditions job)

/-- The conditions on jobs behind jobs with the given names, one job after another. -/
def jobsConditions (before : List String) : List Job → List Condition
  | [] => []
  | job :: rest => job.conditions before ++ jobsConditions (job.name :: before) rest

/-- The conditions on a configuration in the order in which they are looked at. -/
def Config.conditions (config : Config) : List Condition :=
  .globalTimeout :: config.globalSettings.externalLabels.entries.map (fun entry => .externalLabel entry.1) ++
    (config.ruleFiles ++ config.scrapeConfigFiles).map .pattern ++ jobsConditions [] config.jobs

/-! ## Validity by conditions -/

section Valid

variable {g : Global} {before : List String}

lemma forall_mem_staticConditions_iff {job : Job} {listed : StaticTargets} :
    (∀ condition ∈ listed.conditions job, condition.Holds g) ↔
      (∀ entry ∈ listed.labels.entries, Label.isLabelName entry.1 = true) ∧
        ∀ host ∈ listed.targets, '/' ∉ host.toList := by
  simp only [StaticTargets.conditions, List.forall_mem_append, List.forall_mem_map, Condition.Holds]

lemma forall_mem_jobConditions_iff {job : Job} :
    (∀ condition ∈ job.conditions before, condition.Holds g) ↔
      job.name ≠ "" ∧ job.name ∉ before ∧ job.Valid g := by
  simp only [Job.conditions, List.forall_mem_append, List.forall_mem_cons, List.forall_mem_flatMap,
    forall_mem_staticConditions_iff]
  constructor
  · rintro ⟨⟨hnamed, hnew, htimeout, hscheme, hpath, -⟩, hstatic⟩
    exact ⟨hnamed, hnew, htimeout, hscheme, hpath, fun listed h => (hstatic listed h).1,
      fun listed h => (hstatic listed h).2⟩
  · rintro ⟨hnamed, hnew, hvalid⟩
    exact ⟨⟨hnamed, hnew, hvalid.timeout, hvalid.scheme, hvalid.metricsPath, by simp⟩,
      fun listed h => ⟨hvalid.labels listed h, hvalid.targets listed h⟩⟩

/-- A name that is new each time makes all names distinct. -/
lemma forall_mem_jobsConditions_iff {jobs : List Job} :
    (∀ condition ∈ jobsConditions before jobs, condition.Holds g) ↔
      (∀ job ∈ jobs, job.name ≠ "") ∧ (jobs.map Job.name).Nodup ∧ (∀ job ∈ jobs, job.name ∉ before) ∧
        ∀ job ∈ jobs, job.Valid g := by
  induction jobs generalizing before with
  | nil => simp [jobsConditions]
  | cons job jobs ih =>
    rw [jobsConditions, List.forall_mem_append, forall_mem_jobConditions_iff, ih]
    rw [List.forall_mem_cons, List.forall_mem_cons, List.forall_mem_cons, List.map_cons, List.nodup_cons]
    simp only [List.mem_map, List.mem_cons, not_or, not_exists, not_and]
    constructor
    · rintro ⟨⟨hnamed, hnew, hvalid⟩, hnameds, hnodup, hnews, hvalids⟩
      exact ⟨⟨hnamed, hnameds⟩, ⟨fun other hother => (hnews other hother).1, hnodup⟩,
        ⟨hnew, fun other hother => (hnews other hother).2⟩, hvalid, hvalids⟩
    · rintro ⟨⟨hnamed, hnameds⟩, ⟨hdistinct, hnodup⟩, ⟨hnew, hnews⟩, hvalid, hvalids⟩
      exact ⟨⟨hnamed, hnew, hvalid⟩, hnameds, hnodup,
        fun other hother => ⟨hdistinct other hother, hnews other hother⟩, hvalids⟩

lemma Config.valid_iff {config : Config} :
    config.Valid ↔ ∀ condition ∈ config.conditions, condition.Holds config.globalSettings := by
  simp only [Config.conditions, List.forall_mem_append, List.forall_mem_cons, List.forall_mem_map,
    forall_mem_jobsConditions_iff]
  constructor
  · intro h
    exact ⟨⟨⟨h.timeout, h.labels⟩, h.ruleFiles, h.scrapeConfigFiles⟩, h.named, h.distinct, by simp, h.jobs⟩
  · rintro ⟨⟨⟨htimeout, hlabels⟩, hrules, hscrapes⟩, hnamed, hdistinct, -, hjobs⟩
    exact ⟨htimeout, hlabels, hrules, hscrapes, hnamed, hdistinct, hjobs⟩

end Valid

/-! ## The first fault -/

namespace Condition

/-- The fault of a condition, if it does not hold. -/
def fault? (g : Global) : Condition → Option Fault
  | globalTimeout => faultIf (g.effectiveInterval.millis < g.effectiveTimeout.millis) .globalTimeout
  | externalLabel name => faultIf (!Label.isLabelName name) (.externalLabel name)
  | pattern text => patternFault? text
  | named job => faultIf job.name.isEmpty .emptyJobName
  | new before job => faultIf (before.contains job.name) (.duplicateJob job.name)
  | timeout job => faultIf ((job.effectiveInterval g).millis < (job.effectiveTimeout g).millis) (.jobTimeout job.name)
  | scheme job => (job.scheme.filter fun s => s ≠ "http" && s ≠ "https").map (.scheme · job.name)
  | metricsPath job => (job.metricsPath.filter (!·.startsWith "/")).map (.metricsPath · job.name)
  | staticLabel job name => faultIf (!Label.isLabelName name) (.staticLabel name job.name)
  | target job host => faultIf (host.contains '/') (.target host job.name)

lemma faultIf_eq_some_iff {condition : Bool} {fault found : Fault} :
    faultIf condition fault = some found ↔ condition = true ∧ found = fault := by
  cases condition <;> simp [faultIf, eq_comm]

lemma map_filter_eq_some_iff {found : Option String} {bad : String → Bool} {report : String → Fault} {fault : Fault} :
    (found.filter bad).map report = some fault ↔ ∃ text ∈ found, bad text = true ∧ fault = report text := by
  simp only [Option.map_eq_some_iff, Option.filter_eq_some_iff, Option.mem_def, and_assoc, @eq_comm _ fault]

lemma fault?_eq_some_iff {g : Global} {condition : Condition} {fault : Fault} :
    condition.fault? g = some fault ↔ ¬condition.Holds g ∧ condition.Reports fault := by
  cases condition with
  | globalTimeout => simp [fault?, Holds, Reports, faultIf_eq_some_iff]
  | externalLabel name => simp [fault?, Holds, Reports, faultIf_eq_some_iff]
  | pattern text =>
    simp only [fault?, Holds, Reports, patternFault?]
    cases Glob.parse text <;> simp [eq_comm]
  | named job => simp [fault?, Holds, Reports, faultIf_eq_some_iff]
  | new before job => simp [fault?, Holds, Reports, faultIf_eq_some_iff]
  | timeout job => simp [fault?, Holds, Reports, faultIf_eq_some_iff]
  | scheme job =>
    rw [fault?, map_filter_eq_some_iff]
    cases hscheme : job.scheme <;> simp [Holds, Reports, hscheme]
  | metricsPath job =>
    rw [fault?, map_filter_eq_some_iff]
    cases hpath : job.metricsPath <;> simp [Holds, Reports, hpath]
  | staticLabel job name => simp [fault?, Holds, Reports, faultIf_eq_some_iff]
  | target job host => simp [fault?, Holds, Reports, faultIf_eq_some_iff]

lemma exists_reports {g : Global} {condition : Condition} (h : ¬condition.Holds g) :
    ∃ fault, condition.Reports fault := by
  cases condition with
  | pattern text =>
    cases hparse : Glob.parse text with
    | ok steps => exact absurd ⟨steps, hparse⟩ h
    | error e => exact ⟨_, e, hparse, rfl⟩
  | scheme job =>
    obtain ⟨scheme, hscheme, -⟩ := not_forall₂.1 h
    exact ⟨_, scheme, hscheme, rfl⟩
  | metricsPath job =>
    obtain ⟨path, hpath, -⟩ := not_forall₂.1 h
    exact ⟨_, path, hpath, rfl⟩
  | _ => exact ⟨_, rfl⟩

lemma fault?_eq_none_iff {g : Global} {condition : Condition} : condition.fault? g = none ↔ condition.Holds g := by
  rw [Option.eq_none_iff_forall_ne_some]
  simp only [ne_eq, fault?_eq_some_iff, not_and]
  constructor
  · intro h
    by_contra hholds
    obtain ⟨fault, hreports⟩ := exists_reports hholds
    exact h fault hholds hreports
  · exact fun hholds fault hnot => absurd hholds hnot

end Condition

section First

variable {g : Global}

lemma orElse_eq_or (first second : Option Fault) : (first <|> second) = first.or second := by
  cases first <;> rfl

lemma findSome?_cons_eq_or (condition : Condition) (conditions : List Condition) :
    (condition :: conditions).findSome? (Condition.fault? g) =
      (condition.fault? g).or (conditions.findSome? (Condition.fault? g)) := by
  rw [List.findSome?_cons]
  cases condition.fault? g <;> rfl

lemma map_badLabel? (labels : NameMap String) (report : String → Fault) :
    (badLabel? labels).map report =
      labels.entries.findSome? fun entry => faultIf (!Label.isLabelName entry.1) (report entry.1) := by
  rw [badLabel?, Option.map_map]
  induction labels.entries with
  | nil => rfl
  | cons entry entries ih => cases hname : Label.isLabelName entry.1 <;> simp [hname, faultIf, ih]

lemma map_find?_target (job : Job) (hosts : List String) :
    (hosts.find? (·.contains '/')).map (.target · job.name) =
      hosts.findSome? fun host => faultIf (host.contains '/') (.target host job.name) := by
  induction hosts with
  | nil => rfl
  | cons host hosts ih =>
    rw [List.find?_cons, List.findSome?_cons, ← ih]
    cases host.contains '/' <;> rfl

lemma staticFault?_eq (job : Job) (listed : StaticTargets) :
    listed.fault? job.name = (listed.conditions job).findSome? (Condition.fault? g) := by
  rw [StaticTargets.fault?, map_badLabel?, map_find?_target, StaticTargets.conditions, List.findSome?_append,
    List.findSome?_map, List.findSome?_map]
  exact orElse_eq_or _ _

lemma findSome?_staticTargets (job : Job) (all : List StaticTargets) :
    all.findSome? (·.fault? job.name) = (all.flatMap (·.conditions job)).findSome? (Condition.fault? g) := by
  induction all with
  | nil => rfl
  | cons listed all ih =>
    rw [List.flatMap_cons, List.findSome?_append, ← ih, ← staticFault?_eq, List.findSome?_cons]
    cases listed.fault? job.name <;> rfl

/-- The fault of a job and of its name. -/
lemma jobFault?_eq (before : List String) (job : Job) (rest : Option Fault) :
    (faultIf job.name.isEmpty .emptyJobName <|> faultIf (before.contains job.name) (.duplicateJob job.name) <|>
      job.fault? g <|> rest) = ((job.conditions before).findSome? (Condition.fault? g)).or rest := by
  simp only [orElse_eq_or, Job.conditions, List.findSome?_append, findSome?_cons_eq_or, List.findSome?_nil,
    Option.or_none, ← findSome?_staticTargets, Job.fault?, Condition.fault?, Option.or_assoc]

lemma jobsFault?_eq (before : List String) (jobs : List Job) :
    jobsFault? g before jobs = (jobsConditions before jobs).findSome? (Condition.fault? g) := by
  induction jobs generalizing before with
  | nil => rfl
  | cons job jobs ih => rw [jobsFault?, jobFault?_eq, ih, jobsConditions, List.findSome?_append]

lemma Config.fault?_eq (config : Config) :
    config.fault? = config.conditions.findSome? (Condition.fault? config.globalSettings) := by
  simp only [Config.fault?, Global.fault?, orElse_eq_or, map_badLabel?, jobsFault?_eq, Config.conditions,
    List.findSome?_append, findSome?_cons_eq_or, List.findSome?_map, Option.or_assoc]
  rfl

end First

/-- A configuration is accepted exactly if it is valid. Otherwise the fault is that of the first condition that does
not hold. -/
theorem Config.reports_first_fault (config : Config) :
    (config.fault? = none ↔ config.Valid) ∧
      ∀ fault, config.fault? = some fault ↔
        ∃ passed condition left, config.conditions = passed ++ condition :: left ∧
          (∀ earlier ∈ passed, earlier.Holds config.globalSettings) ∧ ¬condition.Holds config.globalSettings ∧
          condition.Reports fault := by
  constructor
  · simp only [Config.fault?_eq, List.findSome?_eq_none_iff, Condition.fault?_eq_none_iff, Config.valid_iff]
  · intro fault
    rw [Config.fault?_eq, List.findSome?_eq_some_iff]
    simp only [Condition.fault?_eq_some_iff, Condition.fault?_eq_none_iff]
    constructor
    · rintro ⟨passed, condition, left, hall, hfault, hpassed⟩
      exact ⟨passed, condition, left, hall, hpassed, hfault⟩
    · rintro ⟨passed, condition, left, hall, hpassed, hfault⟩
      exact ⟨passed, condition, left, hall, hfault, hpassed⟩

end QueryScope.Server
