import QueryScope.Injection
import QueryScope.Label.Name
import QueryScope.Text.Blank
import QueryScope.Text.Escaped
import QueryScope.Toml.Reader

/-!
# Settings of the tool

A settings file gives the dialect of queries, labels to inject, and what is reported where.
-/

namespace QueryScope

/-- The form of reported events. -/
inductive LogFormat where
  | plain
  | json
deriving DecidableEq

/-- What is reported where. -/
structure LogSettings where
  /-- which events are reported in general -/
  level : String := "warn"
  /-- which events of single parts of the tool are reported -/
  modules : NameMap String := .empty
  /-- a file that gets all events -/
  file : Option String := none
  format : LogFormat := .plain

/-- The settings of the tool. -/
structure Settings where
  dialect : Dialect := .promql
  matchers : LabelSet := .empty
  logging : LogSettings := {}

/-- Why settings are refused. -/
inductive SettingsFault where
  | malformed
  | matcherName (name : String)
  | emptyLevel
deriving DecidableEq

/-- The fault in one line. -/
def SettingsFault.message : SettingsFault → String
  | malformed => "not a settings file"
  | matcherName name => "matchers: " ++ Text.escaped name ++ " is not a valid label name"
  | emptyLevel => "logging.level must not be empty"

/-- The directives of the filter for reported events: the general one, then those for parts of the
tool in the order of their names. -/
def LogSettings.directives (s : LogSettings) : String :=
  ",".intercalate (s.level :: s.modules.entries.map fun entry => entry.1 ++ "=" ++ entry.2)

namespace Settings

/-- A value that is a text. -/
def text? : Toml.Value → Option String
  | .text s => some s
  | _ => none

/-- One of several named values, which may also be written as a table with nothing but an empty value
under the name. -/
def choice? {α : Type} (choices : List (String × α)) : Toml.Value → Option α
  | .text s => choices.lookup s
  | .table _ [(s, .list _ [])] => choices.lookup s
  | .table _ [(s, .table _ [])] => choices.lookup s
  | _ => none

/-- A table of texts. -/
def texts? : Toml.Value → Option (NameMap String)
  | .table _ entries => (entries.mapM fun entry => (text? entry.2).map (entry.1, ·)).map .ofList
  | _ => none

/-- Where a setting for events goes. -/
def logField? (name : String) (value : Toml.Value) (s : LogSettings) : Option LogSettings :=
  match name with
  | "level" => (text? value).map fun v => { s with level := v }
  | "modules" => (texts? value).map fun v => { s with modules := v }
  | "file" => (text? value).map fun v => { s with file := some v }
  | "format" =>
    (choice? [("plain", .plain), ("json", .json)] value).map fun v => { s with format := v }
  | _ => none

/-- The names of the settings for events, in order. -/
def logFields : List String :=
  ["level", "modules", "file", "format"]

/-- What is reported where. The settings may also be listed in order, without their names. -/
def logging? : Toml.Value → Option LogSettings
  | .table _ entries => entries.foldlM (fun s entry => logField? entry.1 entry.2 s) {}
  | .list _ items => (logFields.zip items).foldlM (fun s entry => logField? entry.1 entry.2 s) {}
  | _ => none

/-- Where a setting goes. -/
def field? (name : String) (value : Toml.Value) (s : Settings) : Option Settings :=
  match name with
  | "format" =>
    (choice? [("promql", .promql), ("logql", .logql)] value).map fun v => { s with dialect := v }
  | "matchers" => (texts? value).map fun v => { s with matchers := v }
  | "logging" => (logging? value).map fun v => { s with logging := v }
  | _ => none

/-- What is wrong with settings that can be read. -/
def fault? (s : Settings) : Option SettingsFault :=
  match s.matchers.entries.find? fun entry => !Label.isLabelName entry.1 with
  | some entry => some (.matcherName entry.1)
  | none => if Text.isAllBlank s.logging.level then some .emptyLevel else none

/-- The settings that a text writes. -/
def read (text : String) : Except SettingsFault Settings :=
  match (Toml.parse? text).bind fun table =>
      table.foldlM (fun s entry => field? entry.1 entry.2 s) ({} : Settings) with
  | none => .error .malformed
  | some settings =>
    match settings.fault? with
    | some fault => .error fault
    | none => .ok settings

/-- The labels to inject: those given, and of the settings those that are not given. -/
def mergedMatchers (s : Settings) (given : LabelSet) : LabelSet :=
  s.matchers.insertAll given.entries

end Settings

/-- The dialect that a flag names, whatever its case. Every other flag means metric queries. -/
def Dialect.ofFlag (flag : String) : Dialect :=
  if (Text.trimmed flag).map Char.toLower = "logql" then .logql else .promql

/-- The flag names a dialect. -/
def Dialect.isFlag (flag : String) : Bool :=
  ["promql", "logql"].contains ((Text.trimmed flag).map Char.toLower)

end QueryScope
