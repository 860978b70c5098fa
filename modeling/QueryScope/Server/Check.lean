import QueryScope.Dialect
import QueryScope.File.Source
import QueryScope.Glob.Pattern
import QueryScope.Label.Name
import QueryScope.Reason
import QueryScope.Server.Decode
import QueryScope.Text.Escaped

/-!
# Checking server configurations

The first fault counts: that of the settings for all jobs, then of the paths of files, then of the
jobs in turn.
-/

namespace QueryScope.Server

/-- What is wrong with a configuration. -/
inductive Fault where
  | globalTimeout
  | externalLabel (name : String)
  | filePattern (pattern : String) (e : Glob.PatternError)
  | emptyJobName
  | duplicateJob (job : String)
  | jobTimeout (job : String)
  | scheme (found job : String)
  | metricsPath (path job : String)
  | staticLabel (name job : String)
  | target (host job : String)
deriving DecidableEq

/-- The fault in one line. -/
def Fault.message : Fault → String
  | globalTimeout => "global scrape timeout greater than scrape interval"
  | externalLabel name => Text.escaped name ++ " is not a valid label name"
  | filePattern pattern e => "invalid file path " ++ Text.escaped pattern ++ ": " ++ e.message
  | emptyJobName => "job_name is empty"
  | duplicateJob job => "found multiple scrape configs with job name " ++ Text.escaped job
  | jobTimeout job =>
    "scrape timeout greater than scrape interval for scrape config with job name " ++ Text.escaped job
  | scheme found job =>
    "scheme " ++ Text.escaped found ++ " not supported for scrape config with job name " ++
      Text.escaped job
  | metricsPath path job =>
    "metrics_path " ++ Text.escaped path ++ " must start with '/' for scrape config with job name " ++
      Text.escaped job
  | staticLabel name job =>
    Text.escaped name ++ " is not a valid label name in scrape config with job name " ++
      Text.escaped job
  | target host job =>
    Text.escaped host ++ " is not a valid hostname in scrape config with job name " ++
      Text.escaped job

/-- The fault, if a condition holds. -/
def faultIf (condition : Bool) (fault : Fault) : Option Fault :=
  if condition then some fault else none

/-- The first name of a map that no label may have. -/
def badLabel? (labels : NameMap String) : Option String :=
  (labels.entries.find? fun entry => !Label.isLabelName entry.1).map (·.1)

/-- The fault of the settings for all jobs. -/
def Global.fault? (g : Global) : Option Fault :=
  faultIf (g.effectiveInterval.millis < g.effectiveTimeout.millis) .globalTimeout <|>
    (badLabel? g.externalLabels).map .externalLabel

/-- The fault of a pattern of paths. -/
def patternFault? (pattern : String) : Option Fault :=
  match Glob.parse pattern with
  | .ok _ => none
  | .error e => some (.filePattern pattern e)

/-- The fault of listed targets. -/
def StaticTargets.fault? (job : String) (s : StaticTargets) : Option Fault :=
  (badLabel? s.labels).map (.staticLabel · job) <|>
    (s.targets.find? (·.contains '/')).map (.target · job)

/-- The fault of a job on its own. -/
def Job.fault? (g : Global) (job : Job) : Option Fault :=
  faultIf ((job.effectiveInterval g).millis < (job.effectiveTimeout g).millis) (.jobTimeout job.name) <|>
    (job.scheme.filter fun s => s ≠ "http" && s ≠ "https").map (.scheme · job.name) <|>
    (job.metricsPath.filter (!·.startsWith "/")).map (.metricsPath · job.name) <|>
    job.staticTargets.findSome? (·.fault? job.name)

/-- The first fault of jobs behind jobs with the given names. -/
def jobsFault? (g : Global) (before : List String) : List Job → Option Fault
  | [] => none
  | job :: rest =>
    faultIf job.name.isEmpty .emptyJobName <|>
      faultIf (before.contains job.name) (.duplicateJob job.name) <|>
      job.fault? g <|> jobsFault? g (job.name :: before) rest

/-- The first fault of a configuration. -/
def Config.fault? (config : Config) : Option Fault :=
  config.globalSettings.fault? <|>
    (config.ruleFiles ++ config.scrapeConfigFiles).findSome? patternFault? <|>
    jobsFault? config.globalSettings [] config.jobs

/-- Why the configuration of a server is refused. -/
inductive Refusal where
  | unsupported
  | unreadable (path : String) (fault : File.Fault)
  | undecodable (path : String)
  | invalid (path : String) (fault : Fault)

/-- The refusal in one line. -/
def Refusal.message : Refusal → String
  | unsupported => "Loki not supported for validate-config"
  | unreadable path fault => "reading " ++ path ++ ": " ++ fault.message
  | undecodable path => "parsing YAML file " ++ path ++ ": not a server configuration"
  | invalid path fault => path ++ ": " ++ fault.message

/-- The reason of all refusals. -/
def Refusal.reason (_ : Refusal) : Reason :=
  .config

/-- Reads and checks the configuration in a file. Only servers of metrics have one. -/
def checkFile {m : Type → Type} [Monad m] (source : File.Source m) (dialect : Dialect)
    (path : String) : m (Except Refusal Config) := do
  match dialect with
  | .logql => return .error .unsupported
  | .promql =>
    match ← source.readText path with
    | .error fault => return .error (.unreadable path fault)
    | .ok text =>
      match Config.decode? text with
      | none => return .error (.undecodable path)
      | some config =>
        match config.fault? with
        | some fault => return .error (.invalid path fault)
        | none => return .ok config

end QueryScope.Server
