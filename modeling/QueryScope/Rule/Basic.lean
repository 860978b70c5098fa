import QueryScope.Duration
import QueryScope.NameMap

/-!
# Rules

A rule file holds groups of rules. A rule records the value of a query under a new name, or raises
an alert while a query has a value.
-/

namespace QueryScope

/-- A rule as it is written. -/
structure Rule where
  record : String := ""
  alert : String := ""
  expr : String := ""
  /-- how long the query must have a value before the alert is raised -/
  delay : Option Duration := none
  /-- how long the alert stays raised without a value -/
  keepFiring : Option Duration := none
  labels : NameMap String := .empty
  annotations : NameMap String := .empty

/-- What a rule does. -/
inductive Rule.Kind where
  | record
  | alert
deriving DecidableEq

/-- A group of rules that are evaluated together. -/
structure RuleGroup where
  name : String := ""
  interval : Option Duration := none
  queryOffset : Option Duration := none
  limit : Int := 0
  rules : List Rule := []

namespace Rule

/-- What a rule does, if it has exactly one of the two names. -/
def kind? (rule : Rule) : Option Kind :=
  match rule.record.isEmpty, rule.alert.isEmpty with
  | false, true => some .record
  | true, false => some .alert
  | _, _ => none

/-- The name of a rule. -/
def name (rule : Rule) : String :=
  if rule.record.isEmpty then rule.alert else rule.record

end Rule

end QueryScope
