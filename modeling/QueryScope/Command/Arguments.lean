import QueryScope.Text.Lead

/-!
# Arguments of the command line

Options may stand before and behind the name of the command, and a value behind the name counts more.
The query of a command may begin with a hyphen, unless it is an option that the command knows.
-/

namespace QueryScope.Command

/-- What the tool is asked to do. -/
inductive Task where
  | transform (query : String) (labels : List String)
  | validate (files : List String)
  | validateConfig (file : String)
deriving DecidableEq

/-- What the tool is asked to do, and the options for all commands. -/
structure Invocation where
  format : Option String
  config : Option String
  task : Task
deriving DecidableEq

/-- The names of commands. -/
inductive Name where
  | transform
  | validate
  | validateConfig
deriving DecidableEq

/-- What help is about: the tool, or one of its commands. -/
abbrev Topic := Option Name

/-- The result of reading arguments. -/
inductive Request where
  | run (invocation : Invocation)
  | help (topic : Topic)
deriving DecidableEq

/-- The names that a command can be called by. -/
def names : List (String × Name) :=
  [("transform", .transform), ("t", .transform), ("validate", .validate), ("v", .validate),
    ("lint", .validate), ("l", .validate), ("validate-config", .validateConfig)]

/-- An option with a value. -/
inductive Opt where
  | format
  | config
  | label
deriving DecidableEq

/-- What has been read of the arguments of the tool or of a command. -/
structure Found where
  format : Option String := none
  config : Option String := none
  labels : List String := []
  /-- arguments that are no options -/
  plain : List String := []

/-- What reading comes to: nothing that can be done, help, or the arguments found, with the command
and the arguments behind it if there is one. -/
inductive Result where
  | refused
  | help
  | done (found : Found)
  | command (found : Found) (name : String) (rest : List String)

namespace Found

/-- The query is still to come, and may begin with a hyphen. -/
def awaitsQuery (topic : Topic) (found : Found) : Bool :=
  topic = some .transform && found.plain.isEmpty

/-- Adds the value of an option. Only labels may be given more than once, and a path is not empty. -/
def addOption? (found : Found) (option : Opt) (value : String) : Option Found :=
  match option with
  | .format => if found.format.isSome then none else some { found with format := some value }
  | .config =>
    if found.config.isSome || value.isEmpty then none else some { found with config := some value }
  | .label => some { found with labels := found.labels ++ [value] }

/-- Adds an argument that is no option. -/
def addPlain? (topic : Topic) (found : Found) (value : String) : Option Found :=
  let added := { found with plain := found.plain ++ [value] }
  match topic with
  | none => none
  | some .validate => some added
  | some .transform => if found.plain.isEmpty then some added else none
  | some .validateConfig => if found.plain.isEmpty && !value.isEmpty then some added else none

end Found

/-- The option with a long name. -/
def longOption? (topic : Topic) : String → Option Opt
  | "format" => some .format
  | "config" => some .config
  | "label-matcher" => if topic = some .transform then some .label else none
  | _ => none

/-- The name and the value of an argument behind two hyphens. -/
def splitLong (text : List Char) : String × Option String :=
  let name := String.ofList (text.takeWhile (· != '='))
  match text.dropWhile (· != '=') with
  | [] => (name, none)
  | _ :: value => (name, some (String.ofList value))

/-- What an argument is, before the values of options are told apart. -/
inductive Kind where
  | refused
  | help
  | option (option : Opt) (value : Option String)
  | plain

/-- What an argument behind two hyphens is. -/
def longKind (topic : Topic) (found : Found) (text : List Char) : Kind :=
  let (name, value) := splitLong text
  if name.isEmpty then .refused
  else
    match longOption? topic name with
    | some option => .option option value
    | none =>
      if name = "help" then if value.isSome then .refused else .help
      else if found.awaitsQuery topic then .plain
      else .refused

/-- What an argument behind one hyphen is. -/
def shortKind (topic : Topic) (found : Found) (letters : List Char) : Kind :=
  if found.awaitsQuery topic && letters.any (fun c => c != 'f' && c != 'h') then .plain
  else
    match letters with
    | 'h' :: _ => .help
    | ['f'] => .option .format none
    | 'f' :: '=' :: value => .option .format (some (String.ofList value))
    | 'f' :: value => .option .format (some (String.ofList value))
    | _ => .refused

/-- What an argument is. A hyphen alone is no option. -/
def kind (topic : Topic) (found : Found) (argument : String) : Kind :=
  match argument.toList with
  | '-' :: '-' :: text => longKind topic found text
  | '-' :: c :: letters => shortKind topic found (c :: letters)
  | _ => .plain

/-- Reads arguments behind those found. `pending` is an option whose value is still to come, and
`escaped` says that no more options follow. -/
def readFrom (topic : Topic) (found : Found) (pending : Option Opt) (escaped : Bool) :
    List String → Result
  | [] => if pending.isSome then .refused else .done found
  | argument :: rest =>
    if escaped then
      match pending, found.addPlain? topic argument with
      | none, some added => readFrom topic added none true rest
      | _, _ => .refused
    else if topic.isNone && pending.isNone &&
        (argument = "help" || (names.lookup argument).isSome) then .command found argument rest
    else if argument = "--" then readFrom topic found pending true rest
    else
      match kind topic found argument, pending with
      | .refused, _ => .refused
      | .help, none => .help
      | .help, some _ => .refused
      | .option _ _, some _ => .refused
      | .option option none, none => readFrom topic found (some option) false rest
      | .option option (some value), none =>
        match found.addOption? option value with
        | some added => readFrom topic added none false rest
        | none => .refused
      | .plain, some option =>
        match found.addOption? option argument with
        | some added => readFrom topic added none false rest
        | none => .refused
      | .plain, none =>
        match found.addPlain? topic argument with
        | some added => readFrom topic added none false rest
        | none => .refused

/-- The task of a command with the arguments found. -/
def task? (name : Name) (found : Found) : Option Task :=
  match name, found.plain with
  | .transform, [query] => some (.transform query found.labels)
  | .validate, file :: files => some (.validate (file :: files))
  | .validateConfig, [file] => some (.validateConfig file)
  | _, _ => none

/-- What help is asked about by the names behind its own. -/
def helpTopic? : List String → Option Topic
  | [] => some none
  | ["help"] => some none
  | [name] => (names.lookup name).map some
  | _ => none

/-- What the arguments ask for, if they can be read. -/
def parse? (arguments : List String) : Option Request :=
  match readFrom none {} none false arguments with
  | .help => some (.help none)
  | .command outer word rest =>
    if word = "help" then (helpTopic? rest).map .help
    else
      match names.lookup word with
      | none => none
      | some name =>
        match readFrom (some name) {} none false rest with
        | .help => some (.help (some name))
        | .done inner =>
          (task? name inner).map fun task =>
            .run ⟨inner.format <|> outer.format, inner.config <|> outer.config, task⟩
        | _ => none
  | _ => none

end QueryScope.Command
