import QueryScope.Duration
import QueryScope.NameMap

/-!
# Server configurations

The settings of a metrics server that are checked or shown: how often and how long its targets are
asked, which labels its data gets, where its rules are, and its jobs.
-/

namespace QueryScope.Server

/-- The settings for all jobs. -/
structure Global where
  scrapeInterval : Option Duration := none
  scrapeTimeout : Option Duration := none
  evaluationInterval : Option Duration := none
  externalLabels : NameMap String := .empty

/-- Targets that are listed in the configuration itself. -/
structure StaticTargets where
  targets : List String := []
  labels : NameMap String := .empty

/-- A job: targets that are asked in the same way. -/
structure Job where
  name : String := ""
  scrapeInterval : Option Duration := none
  scrapeTimeout : Option Duration := none
  scheme : Option String := none
  metricsPath : Option String := none
  params : NameMap (List String) := .empty
  honorLabels : Option Bool := none
  sampleLimit : Option Nat := none
  staticTargets : List StaticTargets := []

/-- A server configuration. -/
structure Config where
  globalSettings : Global := {}
  ruleFiles : List String := []
  scrapeConfigFiles : List String := []
  jobs : List Job := []

/-- How often targets are asked where nothing is said. -/
def presetInterval : Duration := ⟨60000⟩

/-- How long an answer may take where nothing is said. -/
def presetTimeout : Duration := ⟨10000⟩

/-- How often targets are asked. -/
def Global.effectiveInterval (g : Global) : Duration :=
  g.scrapeInterval.getD presetInterval

/-- How long an answer may take. -/
def Global.effectiveTimeout (g : Global) : Duration :=
  g.scrapeTimeout.getD presetTimeout

/-- How often the targets of a job are asked. -/
def Job.effectiveInterval (g : Global) (job : Job) : Duration :=
  job.scrapeInterval.getD g.effectiveInterval

/-- How long an answer to a job may take. Without a setting of its own, it is no longer than the time
between two questions. -/
def Job.effectiveTimeout (g : Global) (job : Job) : Duration :=
  job.scrapeTimeout.getD ⟨min g.effectiveTimeout.millis (job.effectiveInterval g).millis⟩

end QueryScope.Server
