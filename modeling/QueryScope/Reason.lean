/-!
# Reasons of failure

Every failure of the tool falls under a reason with a number of its own.
-/

namespace QueryScope

/-- Why the tool failed. -/
inductive Reason where
  | structuralPosition
  | grammarParse
  | ruleDecode
  | ruleInvalid
  | config
deriving DecidableEq

namespace Reason

/-- The reason in words. -/
def phrase : Reason → String
  | structuralPosition => "unsupported variable position"
  | grammarParse => "query parse error"
  | ruleDecode => "rule file decode error"
  | ruleInvalid => "rule validation error"
  | config => "configuration error"

/-- The number of a reason. -/
def code : Reason → Nat
  | structuralPosition => 1001
  | grammarParse => 1002
  | ruleDecode => 1101
  | ruleInvalid => 1102
  | config => 1201

/-- A failure with its reason and what is known about it. -/
def report (reason : Reason) (details : String) : String :=
  "[" ++ toString reason.code ++ "] " ++ reason.phrase ++ "\n  -> Details: " ++ details

end Reason

end QueryScope
