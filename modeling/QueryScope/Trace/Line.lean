import QueryScope.Text.Escaped
import QueryScope.Text.Quoted
import QueryScope.Trace.Event

/-!
# Lines for events

An event is written on a line with the time, for people or as an object.
-/

namespace QueryScope.Trace

/-- Text in a colour or style of terminals. -/
def styled (color : Bool) (style text : String) : String :=
  if color then "\x1b[" ++ style ++ "m" ++ text ++ "\x1b[0m" else text

/-- The colour of a level. -/
def Level.style : Level → String
  | .error => "31"
  | .warn => "33"
  | .info => "32"
  | .debug => "34"
  | .trace => "35"

/-- The name of a level with blanks before it, so that all are of one width. -/
def Level.aligned (level : Level) : String :=
  "".pushn ' ' (5 - level.name.length) ++ level.name

/-- A field in a line for people. -/
def plainField (field : String × FieldValue) : String :=
  field.1 ++ "=" ++
    match field.2 with
    | .quoted text => Text.escaped text
    | .shown text => text
    | .count n => toString n

/-- The line for people. -/
def plainLine (color : Bool) (time : String) (e : Event) : String :=
  let fields := " ".intercalate (e.fields.map plainField)
  styled color "2" time ++ " " ++ styled color e.level.style e.level.aligned ++ " " ++
    styled color "1;36" ("[" ++ e.concern ++ "]") ++ " " ++ e.message ++
    (if fields.isEmpty then "" else " " ++ styled color "3" fields) ++ "\n"

/-- The escape of a character in an object. -/
def objectChar (c : Char) : List Char :=
  if c == '"' then ['\\', '"']
  else if c == '\\' then ['\\', '\\']
  else if c == '\n' then ['\\', 'n']
  else if c == '\r' then ['\\', 'r']
  else if c == '\t' then ['\\', 't']
  else if c == '\x08' then ['\\', 'b']
  else if c == '\x0c' then ['\\', 'f']
  else if c < ' ' then ['\\', 'u'] ++ Text.paddedHex 4 c.toNat
  else [c]

/-- A text in an object. -/
def objectText (text : String) : String :=
  String.ofList ('"' :: text.toList.flatMap objectChar ++ ['"'])

/-- A field in an object. -/
def objectField (field : String × FieldValue) : String :=
  objectText field.1 ++ ":" ++
    match field.2 with
    | .quoted text => objectText text
    | .shown text => objectText text
    | .count n => toString n

/-- The fields between braces. -/
def object (fields : List String) : String :=
  "\x7b" ++ ",".intercalate fields ++ "\x7d"

/-- The line as an object. -/
def objectLine (time : String) (e : Event) : String :=
  let fields := [("message", FieldValue.shown e.message), ("domain", .shown e.concern)] ++ e.fields
  object [objectField ("timestamp", .shown time), objectField ("level", .shown e.level.name),
    objectText "fields" ++ ":" ++ object (fields.map objectField)] ++ "\n"

end QueryScope.Trace
