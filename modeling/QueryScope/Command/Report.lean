import QueryScope.File.Path
import QueryScope.File.Source
import QueryScope.Settings
import QueryScope.Trace.Filter
import QueryScope.Trace.Line

/-!
# Reports

What the tool says while it works: lines of its own and events. Events that pass the filter stand
among the lines; a log file gets all of them.
-/

namespace QueryScope.Command

open Trace

/-- Something that the tool says. -/
inductive Note where
  | line (text : String)
  | event (e : Event)

/-- The surroundings of a run: a filter that counts more than the one in the settings, and whether
colours are unwanted. -/
structure Environment where
  filter : Option String := none
  noColor : Option String := none

/-- How notes are written. -/
structure Reporting where
  directives : List Directive
  format : LogFormat
  color : Bool
  logFile : Option String

/-- The line for an event. -/
def eventLine (format : LogFormat) (color : Bool) (time : String) (e : Event) : String :=
  match format with
  | .plain => plainLine color time e
  | .json => objectLine time e

namespace Reporting

/-- What is written for a note. -/
def noteText (r : Reporting) (time : String) : Note → String
  | .line text => text
  | .event e => if isReported r.directives e then eventLine r.format r.color time e else ""

/-- What is written for notes. -/
def text (r : Reporting) (time : String) (notes : List Note) : String :=
  String.join (notes.map (r.noteText time))

/-- The path of the log file, and what is added to it. -/
def log? (r : Reporting) (time : String) (notes : List Note) : Option (String × String) :=
  r.logFile.map fun path =>
    (path, String.join (notes.map fun
      | .line _ => ""
      | .event e => eventLine r.format false time e))

end Reporting

/-- Why notes cannot be written. -/
inductive ReportingFault where
  | filter (directives : String) (fault : FilterFault)
  | noParent
  | noFileName
  | directory (fault : File.Fault)

/-- The fault in one line. -/
def ReportingFault.message : ReportingFault → String
  | filter directives fault => "invalid log filter '" ++ directives ++ "': " ++ fault.message
  | noParent => "log file path has no parent directory"
  | noFileName => "log file path has no file name"
  | directory fault => fault.message

/-- The filter of a run, and remarks on what was left out of it. -/
def runFilter (environment : Environment) (settings : LogSettings) :
    Except ReportingFault (List Directive × List String) :=
  match environment.filter with
  | some filter => .ok (parseFilterLossy filter)
  | none =>
    match parseFilter settings.directives with
    | .ok directives => .ok (directives, [])
    | .error fault => .error (.filter settings.directives fault)

/-- The path of the log file. A relative path starts from the directory of the settings. -/
def logPath (base : String) (file : String) : String :=
  File.join base file

variable {m : Type → Type} [Monad m]

/-- Makes the directory of the log file. -/
def prepareLog (source : File.Source m) (path : String) : m (Except ReportingFault Unit) := do
  match File.parentParts? path, File.fileName? path with
  | none, _ => return .error .noParent
  | some _, none => return .error .noFileName
  | some parts, some _ =>
    match ← source.makeDirectory (File.ofParts parts) with
    | .ok () => return .ok ()
    | .error fault => return .error (.directory fault)

/-- How the notes of a run are written, and remarks on the filter. -/
def prepare (source : File.Source m) (environment : Environment) (settings : LogSettings)
    (base : String) : m (Except ReportingFault (Reporting × List Note)) := do
  match runFilter environment settings with
  | .error fault => return .error fault
  | .ok (directives, remarks) =>
    let path := settings.file.map (logPath base)
    let ready ← match path with
      | some path => prepareLog source path
      | none => pure (.ok ())
    match ready with
    | .error fault => return .error fault
    | .ok () =>
      let color := environment.noColor.all (·.isEmpty)
      return .ok (⟨directives, settings.format, color, path⟩, remarks.map .line)

end QueryScope.Command
