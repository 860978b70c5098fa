/-!
# Events

What the tool reports about its work: how important it is, which part of the tool reports it, and
about which concern.
-/

namespace QueryScope.Trace

/-- How important an event is. -/
inductive Level where
  | error
  | warn
  | info
  | debug
  | trace
deriving DecidableEq

/-- The place of a level, the most important first. -/
def Level.rank : Level → Nat
  | error => 1
  | warn => 2
  | info => 3
  | debug => 4
  | trace => 5

/-- The name of a level. -/
def Level.name : Level → String
  | error => "ERROR"
  | warn => "WARN"
  | info => "INFO"
  | debug => "DEBUG"
  | trace => "TRACE"

/-- The value of a field of an event. -/
inductive FieldValue where
  /-- a text that is quoted where it stands among other fields -/
  | quoted (text : String)
  /-- a text that stands for itself -/
  | shown (text : String)
  | count (n : Nat)
deriving DecidableEq

/-- An event. -/
structure Event where
  level : Level
  /-- the part of the tool that reports it -/
  origin : String
  /-- what it is about -/
  concern : String
  message : String
  fields : List (String × FieldValue) := []
deriving DecidableEq

/-- The names of all fields of an event, its message and its concern among them. -/
def Event.fieldNames (e : Event) : List String :=
  "message" :: "domain" :: e.fields.map (·.1)

end QueryScope.Trace
