import QueryScope.Command.Help
import QueryScope.Command.Report
import QueryScope.Label.Argument
import QueryScope.Rule.File
import QueryScope.Rule.Paths
import QueryScope.Server.Check
import QueryScope.Transform

/-!
# Running commands

A run ends with an exit code, what it prints, what it says, and what it adds to its log file.
-/

namespace QueryScope.Command

open Trace

/-- What a task comes to. -/
structure Session where
  exitCode : Nat := 0
  output : String := ""
  notes : List Note := []

/-- How a failure is told, with its cause if it has one. -/
def failureLine (message : String) (cause : Option String) : String :=
  "Error: " ++ message ++
    (match cause with
    | some text => "\n\nCaused by:\n    " ++ text
    | none => "") ++ "\n"

/-- A task that failed. -/
def failed (notes : List Note) (message : String) (cause : Option String) : Session :=
  { exitCode := 1, notes := notes ++ [.line (failureLine message cause)] }

/-- The event for a step of scoping a query. -/
def stepEvent (step : TransformStep) : Event :=
  let event (level : Level) (message : String) (fields : List (String × FieldValue)) : Event :=
    ⟨level, "cos_core::transform", "xform", message, fields⟩
  match step with
  | .misplaced e => event .debug "variable in unsupported position" [("error", .shown e.message)]
  | .encoded count text =>
    event .trace "encoded template variables" [("placeholders", .count count), ("text", .shown text)]
  | .unreadable e => event .debug "query does not parse" [("error", .shown e.message)]
  | .injected count => event .debug "matchers injected" [("added", .count count)]

/-- The event for a query that cannot be scoped. -/
def transformFailed (query : String) (fault : TransformFault) : Event :=
  ⟨.debug, "cos_tool::cmd_transform", "xform", "transform failed",
    [("code", .count fault.reason.code), ("original", .shown query),
      ("error", .shown (fault.reason.report fault.message))]⟩

/-- The steps of scoping a query by the labels of the settings and of arguments, which count more. -/
def scope (settings : Settings) (dialect : Dialect) (query : String) (labels : List String) :
    Except ArgumentFault Transformation :=
  (LabelSet.ofArguments labels).map fun given =>
    transformSteps dialect query (settings.mergedMatchers given)

/-- Scopes a query and prints it. -/
def runTransform (settings : Settings) (dialect : Dialect) (query : String)
    (labels : List String) : Session :=
  match scope settings dialect query labels with
  | .error fault => failed [] fault.message none
  | .ok t =>
    let notes := t.steps.map fun step => .event (stepEvent step)
    match t.result with
    | .ok text => { output := text, notes := notes }
    | .error fault => failed (notes ++ [.event (transformFailed query fault)]) fault.message none

/-- What is said about a file of rules. -/
def ruleFileNotes (path : String) :
    Except Rule.FileFault (List RuleGroup) → List Note
  | .ok groups =>
    [.event ⟨.info, "cos_core::rules", "rules", "rule file valid",
        [("file", .quoted path), ("groups", .count groups.length)]⟩,
      .event ⟨.debug, "cos_tool::cmd_validate", "rules", "ok",
        [("file", .shown path), ("groups", .count groups.length)]⟩]
  | .error fault =>
    let event : Event :=
      match fault with
      | .undecodable => ⟨.debug, "cos_core::rules", "rules", "rule file does not decode",
          [("file", .quoted path), ("error", .shown ("; ".intercalate fault.details))]⟩
      | .invalid findings _ => ⟨.debug, "cos_core::rules", "rules", "rule file invalid",
          [("file", .quoted path), ("errors", .count findings.length)]⟩
    .event event :: fault.details.map fun text => .line ("error: " ++ path ++ ": " ++ text ++ "\n")

variable {m : Type → Type} [Monad m]

/-- What is said about files of rules, and how many are refused; or the path of a file that cannot be
read, and why. -/
def checkRuleFiles (source : File.Source m) (dialect : Dialect) :
    List String → m (List Note × Except (String × File.Fault) Nat)
  | [] => return ([], .ok 0)
  | path :: rest => do
    match ← source.read path with
    | .error fault => return ([], .error (path, fault))
    | .ok content =>
      let result := Rule.checkFile dialect content
      let (notes, refused) ← checkRuleFiles source dialect rest
      return (ruleFileNotes path result ++ notes,
        refused.map fun n => if result.toBool then n else n + 1)

/-- Checks files of rules and says what is wrong with them. -/
def runValidate (source : File.Source m) (dialect : Dialect) (arguments : List String) :
    m Session := do
  match ← Rule.paths source arguments with
  | .error fault => return failed [] fault.message none
  | .ok paths =>
    match ← checkRuleFiles source dialect paths with
    | (notes, .error (path, fault)) => return failed notes ("reading " ++ path) (some fault.message)
    | (notes, .ok 0) => return { notes := notes ++ [.line "No issues found.\n"] }
    | (notes, .ok refused) =>
      return { exitCode := 1, notes := notes ++ [.line ("\n" ++ toString refused ++ " of " ++
        toString paths.length ++ " file(s) invalid\n")] }

/-- Checks the configuration of a server. -/
def runValidateConfig (source : File.Source m) (dialect : Dialect) (path : String) :
    m Session := do
  match ← Server.checkFile source dialect path with
  | .ok config =>
    return { notes := [.event ⟨.debug, "cos_core::checker", "conf", "configuration valid",
      [("file", .shown path), ("jobs", .count config.jobs.length)]⟩] }
  | .error refusal =>
    return failed [.event ⟨.debug, "cos_tool::cmd_validate_config", "conf", "configuration rejected",
      [("code", .count refusal.reason.code), ("file", .shown path)]⟩] refusal.message none

/-- Does a task. -/
def runTask (source : File.Source m) (settings : Settings) (dialect : Dialect) :
    Task → m Session
  | .transform query labels => return runTransform settings dialect query labels
  | .validate files => runValidate source dialect files
  | .validateConfig file => runValidateConfig source dialect file

/-- The dialect of a run: that of a flag, or else that of the settings. -/
def runDialect (format : Option String) (settings : Settings) : Dialect :=
  match format with
  | some flag => .ofFlag flag
  | none => settings.dialect

/-- What is said at the start of a run. -/
def startNotes (format : Option String) (dialect : Dialect) : List Note :=
  let name := match dialect with
    | .promql => "PromQl"
    | .logql => "LogQl"
  ((format.filter (!Dialect.isFlag ·)).toList.map fun flag =>
    .event ⟨.warn, "cos_core::checker", "sys", "unknown query format, using promql",
      [("format", .quoted flag)]⟩) ++
    [.event ⟨.debug, "cos_tool", "sys", "cos-tool started", [("dialect", .shown name)]⟩]

/-- What a run comes to. -/
structure Outcome where
  exitCode : Nat
  output : String := ""
  errors : String := ""
  /-- the path of a log file, and what is added to it -/
  log : Option (String × String) := none

/-- A run that failed before anything was reported. -/
def refusal (message : String) : Outcome :=
  { exitCode := 1, errors := failureLine message none }

/-- The settings in a file, and the directory that relative paths in them start from. -/
def loadSettings (source : File.Source m) :
    Option String → m (Except String (Settings × String))
  | none => return .ok ({}, "")
  | some path => do
    match ← source.readText path with
    | .error fault => return .error ("failed to read " ++ path ++ ": " ++ fault.message)
    | .ok text =>
      match Settings.read text with
      | .error fault => return .error fault.message
      | .ok settings => return .ok (settings, (File.parentParts? path).elim "" File.ofParts)

/-- Runs what was asked for. -/
def runInvocation (source : File.Source m) (environment : Environment) (time : String)
    (invocation : Invocation) : m Outcome := do
  match ← loadSettings source invocation.config with
  | .error message => return refusal message
  | .ok (settings, base) =>
    match ← prepare source environment settings.logging base with
    | .error fault => return refusal fault.message
    | .ok (reporting, remarks) =>
      let dialect := runDialect invocation.format settings
      let session ← runTask source settings dialect invocation.task
      let notes := remarks ++ startNotes invocation.format dialect ++ session.notes
      return ⟨session.exitCode, session.output, reporting.text time notes,
        reporting.log? time notes⟩

/-- What is said about arguments that cannot be read. -/
def usage : Outcome :=
  { exitCode := 2, errors := "error: the arguments are not understood\n\n" ++
      "Usage: cos-tool [OPTIONS] <COMMAND>\n\nFor more information, try '--help'.\n" }

/-- Runs the tool with the given arguments. -/
def run (source : File.Source m) (environment : Environment) (time : String)
    (arguments : List String) : m Outcome := do
  match parse? arguments with
  | none => return usage
  | some (.help topic) => return { exitCode := 0, output := help topic }
  | some (.run invocation) => runInvocation source environment time invocation

end QueryScope.Command
