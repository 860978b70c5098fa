import QueryScope.Server.Config
import QueryScope.Text.Blank
import QueryScope.Yaml.Decoder

/-!
# Reading server configurations

All settings must be known and have the right form. Those that a configuration does not keep are only
read.
-/

namespace QueryScope.Server

open Yaml (Decoder)
open Yaml.Decoder (field)

/-- A setting that is read and not kept. -/
def ignored {α β : Type} (decoder : Decoder β) : Decoder (α → α) :=
  field decoder fun _ record => record

/-- The settings that jobs share with the settings for all jobs and that are not kept. -/
def sharedField? {α : Type} : String → Option (Decoder (α → α))
  | "body_size_limit" => some (ignored (.optional .text))
  | "target_limit" => some (ignored (.optional .natural))
  | "label_limit" => some (ignored (.optional .natural))
  | "label_name_length_limit" => some (ignored (.optional .natural))
  | "label_value_length_limit" => some (ignored (.optional .natural))
  | "keep_dropped_targets" => some (ignored (.optional .natural))
  | "scrape_protocols" => some (ignored (.optional (.list .text)))
  | _ => none

/-- The settings for all jobs. -/
def globalField? : String → Option (Decoder (Global → Global))
  | "scrape_interval" => some (field (.optional .duration) fun v g => { g with scrapeInterval := v })
  | "scrape_timeout" => some (field (.optional .duration) fun v g => { g with scrapeTimeout := v })
  | "evaluation_interval" =>
    some (field (.optional .duration) fun v g => { g with evaluationInterval := v })
  | "external_labels" => some (field (.nameMap .text) fun v g => { g with externalLabels := v })
  | "rule_query_offset" => some (ignored (.optional .duration))
  | "query_log_file" => some (ignored (.optional .text))
  | "scrape_failure_log_file" => some (ignored (.optional .text))
  | "sample_limit" => some (ignored (.optional .natural))
  | name => sharedField? name

/-- The settings of listed targets. -/
def staticField? : String → Option (Decoder (StaticTargets → StaticTargets))
  | "targets" => some (field (.list .text) fun v s => { s with targets := v })
  | "labels" => some (field (.nameMap .text) fun v s => { s with labels := v })
  | _ => none

/-- The ways of finding targets that a job may have. -/
def discoveries : List String :=
  ["file", "http", "dns", "kubernetes", "consul", "ec2", "gce", "azure", "openstack", "docker",
    "dockerswarm", "nomad", "digitalocean", "hetzner", "linode"]

/-- The settings of a job that take any value. -/
def openJobField? {α : Type} (name : String) : Option (Decoder (α → α)) :=
  if ["relabel_configs", "metric_relabel_configs"].contains name ||
      discoveries.any (fun d => name = d ++ "_sd_configs") then
    some (ignored (.list .value))
  else if ["basic_auth", "authorization", "oauth2", "tls_config"].contains name then
    some (ignored (.optional .value))
  else sharedField? name

/-- The settings of a job. -/
def jobField? : String → Option (Decoder (Job → Job))
  | "job_name" => some (field .text fun v j => { j with name := v })
  | "scrape_interval" => some (field (.optional .duration) fun v j => { j with scrapeInterval := v })
  | "scrape_timeout" => some (field (.optional .duration) fun v j => { j with scrapeTimeout := v })
  | "scheme" => some (field (.optional .text) fun v j => { j with scheme := v })
  | "metrics_path" => some (field (.optional .text) fun v j => { j with metricsPath := v })
  | "params" => some (field (.nameMap (.list .text)) fun v j => { j with params := v })
  | "honor_labels" => some (field (.optional .bool) fun v j => { j with honorLabels := v })
  | "sample_limit" => some (field (.optional .natural) fun v j => { j with sampleLimit := v })
  | "static_configs" =>
    some (field (.list (.record {} staticField? [])) fun v j => { j with staticTargets := v })
  | "honor_timestamps" => some (ignored (.optional .bool))
  | "track_timestamps_staleness" => some (ignored (.optional .bool))
  | "follow_redirects" => some (ignored (.optional .bool))
  | "enable_http2" => some (ignored (.optional .bool))
  | "enable_compression" => some (ignored (.optional .bool))
  | "proxy_url" => some (ignored (.optional .text))
  | "no_proxy" => some (ignored (.optional .text))
  | name => openJobField? name

/-- The settings of a server. -/
def configField? : String → Option (Decoder (Config → Config))
  | "global" => some (field (.record {} globalField? []) fun v c => { c with globalSettings := v })
  | "rule_files" => some (field (.list .text) fun v c => { c with ruleFiles := v })
  | "scrape_config_files" => some (field (.list .text) fun v c => { c with scrapeConfigFiles := v })
  | "scrape_configs" =>
    some (field (.list (.record {} jobField? ["job_name"])) fun v c => { c with jobs := v })
  | "remote_write" => some (ignored (.list .value))
  | "remote_read" => some (ignored (.list .value))
  | "alerting" => some (ignored (.optional .value))
  | "storage" => some (ignored (.optional .value))
  | "tracing" => some (ignored (.optional .value))
  | _ => none

/-- The configuration that a text writes. A blank text writes one without settings. -/
def Config.decode? (text : String) : Option Config :=
  if Text.isAllBlank text then some {} else Yaml.decodeText? (.record {} configField? []) text

end QueryScope.Server
