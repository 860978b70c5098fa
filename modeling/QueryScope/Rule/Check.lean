import QueryScope.Dialect
import QueryScope.Rule.Basic
import QueryScope.Template.Check

/-!
# Checking rules

Every violation in every rule of every group is found, in the order of the groups and the rules.
-/

namespace QueryScope.Rule

/-- What is wrong with a group or a rule. -/
inductive Violation where
  | emptyGroupName (index : Nat)
  | duplicateGroup (name : String)
  | bothKinds
  | noKind
  | missingExpr
  | expression (e : Scan.SyntaxError)
  | recordingField (field : String)
  | recordName (name : String)
  | labelName (name : String)
  | annotationName (name : String)
  | template (field key : String) (e : Template.TemplateError)
deriving DecidableEq

/-- The violation in one line. -/
def Violation.message : Violation → String
  | emptyGroupName index => "group " ++ toString index ++ ": Groupname must not be empty"
  | duplicateGroup name => "groupname: \"" ++ name ++ "\" is repeated in the same file"
  | bothKinds => "only one of 'record' and 'alert' must be set"
  | noKind => "one of 'record' or 'alert' must be set"
  | missingExpr => "field 'expr' must be set in rule"
  | expression e => "could not parse expression: " ++ e.message
  | recordingField field => "invalid field '" ++ field ++ "' in recording rule"
  | recordName name => "invalid recording rule name: " ++ name
  | labelName name => "invalid label name: " ++ name
  | annotationName name => "invalid annotation name: " ++ name
  | template field key e => field ++ " " ++ Text.escaped key ++ ": " ++ e.message

/-- A rule in its group: its place, counted from one, and its name. -/
structure Reference where
  index : Nat
  name : String
deriving DecidableEq

/-- A violation and where it was found. -/
structure Finding where
  group : String
  rule : Option Reference
  violation : Violation
deriving DecidableEq

/-- The finding in one line. -/
def Finding.message (f : Finding) : String :=
  match f.rule with
  | some rule =>
    "group " ++ Text.escaped f.group ++ ", rule " ++ toString rule.index ++ ", " ++
      Text.escaped rule.name ++ ": " ++ f.violation.message
  | none => f.violation.message

/-- One violation if a condition holds. -/
def violationIf (condition : Bool) (violation : Violation) : List Violation :=
  if condition then [violation] else []

/-- A duration that is given and not zero. -/
def isPositive (d : Option Duration) : Bool :=
  d.any (·.millis != 0)

/-- A rule has exactly one of the two names. -/
def checkKind (rule : Rule) : List Violation :=
  match rule.record.isEmpty, rule.alert.isEmpty with
  | false, false => [.bothKinds]
  | true, true => [.noKind]
  | _, _ => []

/-- A rule has a query that can be read. -/
def checkExpr (dialect : Dialect) (rule : Rule) : List Violation :=
  if Text.isAllBlank rule.expr then [.missingExpr]
  else
    match Query.parse dialect rule.expr with
    | .ok _ => []
    | .error e => [.expression e]

/-- A recording rule has no fields of alerts and the name of a metric. -/
def checkRecording (rule : Rule) : List Violation :=
  violationIf (!rule.annotations.isEmpty) (.recordingField "annotations") ++
    violationIf (isPositive rule.delay) (.recordingField "for") ++
    violationIf (isPositive rule.keepFiring) (.recordingField "keep_firing_for") ++
    violationIf (!Label.isMetricName rule.record) (.recordName rule.record)

/-- Labels have valid names, and none is the label of metric names. -/
def checkLabels (rule : Rule) : List Violation :=
  rule.labels.entries.flatMap fun entry =>
    violationIf (!Label.isLabelName entry.1 || entry.1 = Label.metricLabel) (.labelName entry.1)

/-- Annotations have valid names. -/
def checkAnnotations (rule : Rule) : List Violation :=
  rule.annotations.entries.flatMap fun entry =>
    violationIf (!Label.isLabelName entry.1) (.annotationName entry.1)

/-- The values of a field of an alert are templates. -/
def checkTemplates (alert field : String) (values : NameMap String) : List Violation :=
  values.entries.flatMap fun entry =>
    match Template.checkAlert alert entry.2 with
    | .ok () => []
    | .error e => [.template field entry.1 e]

/-- The violations of one rule. -/
def check (dialect : Dialect) (rule : Rule) : List Violation :=
  checkKind rule ++ checkExpr dialect rule ++
    (if rule.kind? = some .record then checkRecording rule else []) ++
    checkLabels rule ++ checkAnnotations rule ++
    if rule.kind? = some .alert then
      checkTemplates rule.alert "label" rule.labels ++
        checkTemplates rule.alert "annotation" rule.annotations
    else []

/-- The violations of the rules of a group. -/
def checkRules (dialect : Dialect) (group : RuleGroup) : List Finding :=
  (group.rules.mapIdx fun i rule =>
    (rule.check dialect).map fun violation =>
      (⟨group.name, some ⟨i + 1, rule.name⟩, violation⟩ : Finding)).flatten

/-- The violations of a group behind groups with the given names. -/
def checkGroup (dialect : Dialect) (before : List String) (group : RuleGroup) : List Finding :=
  (violationIf group.name.isEmpty (.emptyGroupName before.length) ++
    violationIf (before.contains group.name) (.duplicateGroup group.name)).map
      (fun violation => ⟨group.name, none, violation⟩) ++
    checkRules dialect group

/-- The violations of the groups behind groups with the given names. -/
def checkGroupsBehind (dialect : Dialect) (before : List String) : List RuleGroup → List Finding
  | [] => []
  | group :: rest =>
    checkGroup dialect before group ++ checkGroupsBehind dialect (before ++ [group.name]) rest

/-- The violations of the groups of a file. -/
def checkGroups (dialect : Dialect) (groups : List RuleGroup) : List Finding :=
  checkGroupsBehind dialect [] groups

end QueryScope.Rule
