import QueryScope.Command.Arguments

/-!
# Help

What the tool says about itself and its commands.
-/

namespace QueryScope.Command

/-- An entry of a section: what can be written, and what it means. -/
abbrev HelpEntry := String × String

/-- A section with the meanings in one column. -/
def helpSection (title : String) (entries : List HelpEntry) : String :=
  let width := (entries.map (·.1.length)).foldl max 0
  title ++ ":\n" ++ String.join (entries.map fun entry =>
    "  " ++ entry.1 ++ "".pushn ' ' (width - entry.1.length + 2) ++ entry.2 ++ "\n")

/-- The options of all commands, around those of one. -/
def optionEntries (own : List HelpEntry) : List HelpEntry :=
  [("-f, --format <FORMAT>", "Query dialect, \x60promql\x60 or \x60logql\x60 [default: promql]")] ++ own ++
    [("    --config <CONFIG>", "Path to a cos-tool.toml config file"), ("-h, --help", "Print help")]

/-- What a command does. -/
def Name.about : Name → String
  | .transform => "Inject label matchers into every selector of an expression"
  | .validate => "Validate alerting and recording rule files"
  | .validateConfig => "Validate a Prometheus configuration file"

/-- The help on a command: its name, its argument, what that is, and its own options. -/
def commandHelp (name : Name) (word argument meaning : String) (own : List HelpEntry) : String :=
  name.about ++ "\n\nUsage: cos-tool " ++ word ++ " [OPTIONS] " ++ argument ++ "\n\n" ++
    helpSection "Arguments" [(argument, meaning)] ++ "\n" ++ helpSection "Options" (optionEntries own)

/-- The help on a topic. -/
def help : Topic → String
  | none =>
    "Validates Prometheus and Loki expressions, adds Juju topology to label matchers\n\n" ++
      "Usage: cos-tool [OPTIONS] <COMMAND>\n\n" ++
      helpSection "Commands" [("transform", Name.transform.about ++ " [aliases: t]"),
        ("validate", Name.validate.about ++ " [aliases: v, lint, l]"),
        ("validate-config", Name.validateConfig.about),
        ("help", "Print this message or the help of the given subcommand(s)")] ++ "\n" ++
      helpSection "Options" (optionEntries [])
  | some .transform =>
    commandHelp .transform "transform" "<EXPR>" "The expression to transform"
      [("    --label-matcher <LABEL_MATCHERS>", "Label matcher to inject, in KEY=VALUE format")]
  | some .validate =>
    commandHelp .validate "validate" "<FILES>..."
      "Rule files or glob patterns (e.g. \"rules/*.yaml\")" []
  | some .validateConfig =>
    commandHelp .validateConfig "validate-config" "<FILE>" "Path to the configuration file" []

end QueryScope.Command
