import QueryScope.Command.Run
import Std.Time.DateTime

/-!
# The command line

The files, the clock and the surroundings of the system for a run.
-/

open QueryScope

namespace QueryScope.Main

/-- A fault of the system. -/
def fileFault : IO.Error → File.Fault
  | .noFileOrDirectory _ _ _ => .missing
  | .alreadyExists _ _ _ => .alreadyPresent
  | .inappropriateType _ 20 _ => .notDirectory
  | .inappropriateType _ 21 _ => .isDirectory
  | .illegalOperation 21 _ => .isDirectory
  | e => .other (toString e)

/-- The result of an action, or its fault. -/
def attempt {α : Type} (action : IO α) : IO (Except File.Fault α) := do
  try
    return .ok (← action)
  catch e =>
    return .error (fileFault e)

/-- The names in a directory. -/
def entryNames (directory : String) : IO (List String) := do
  let entries ← (IO.FS.DirEntry.mk directory "").root.readDir
  return entries.toList.map (·.fileName)

/-- There is a file or a directory. -/
def isPresent (path : String) : IO Bool := do
  match ← attempt (IO.FS.Handle.mk path .read) with
  | .ok _ => return true
  | .error fault => return fault ≠ .missing && fault ≠ .notDirectory

/-- The files of the system. -/
def systemFiles : File.Source IO where
  read path := attempt (IO.FS.readBinFile path)
  isPresent := isPresent
  isDirectory path := return (← attempt (entryNames path)).toBool
  entries path := return (← attempt (entryNames path)).toOption.getD []
  makeDirectory path := if path.isEmpty then return .ok () else attempt (IO.FS.createDirAll path)

/-- A number with zeros before it. -/
def padded (width n : Nat) : String :=
  "".pushn '0' (width - (toString n).length) ++ toString n

/-- The year, the month and the day that lie the given number of days behind the start of 1970. The
days are counted in eras of 400 years that begin in March. -/
def civilDate (days : Nat) : Nat × Nat × Nat :=
  let shifted := days + 719468
  let era := shifted / 146097
  let day := shifted % 146097
  let year := (day - day / 1460 + day / 36524 - day / 146096) / 365
  let ofYear := day - (365 * year + year / 4 - year / 100)
  let month := (5 * ofYear + 2) / 153
  let civilMonth := if month < 10 then month + 3 else month - 9
  (year + era * 400 + (if civilMonth ≤ 2 then 1 else 0), civilMonth,
    ofYear - (153 * month + 2) / 5 + 1)

/-- A time of day in the calendar, given in microseconds behind the start of 1970. -/
def timeText (micros : Nat) : String :=
  let seconds := micros / 1000000
  let (year, month, day) := civilDate (seconds / 86400)
  let rest := seconds % 86400
  padded 4 year ++ "-" ++ padded 2 month ++ "-" ++ padded 2 day ++ "T" ++ padded 2 (rest / 3600) ++ ":" ++
    padded 2 (rest / 60 % 60) ++ ":" ++ padded 2 (rest % 60) ++ "." ++ padded 6 (micros % 1000000) ++ "Z"

/-- The present time. -/
def currentTime : IO String := do
  let nanos := (← Std.Time.Timestamp.now).toNanosecondsSinceUnixEpoch
  return timeText (nanos.val.toNat / 1000)

/-- Adds text to a file. -/
def append (path text : String) : IO Unit := do
  let handle ← IO.FS.Handle.mk path .append
  handle.putStr text
  handle.flush

end QueryScope.Main

open QueryScope.Main in
/-- Runs the tool and hands on what it says. -/
def main (arguments : List String) : IO UInt32 := do
  let environment : Command.Environment :=
    ⟨← IO.getEnv "RUST_LOG", ← IO.getEnv "NO_COLOR"⟩
  let outcome ← Command.run systemFiles environment (← currentTime) arguments
  match outcome.log with
  | some (path, text) => append path text
  | none => pure ()
  let stdout ← IO.getStdout
  stdout.putStr outcome.output
  stdout.flush
  let stderr ← IO.getStderr
  stderr.putStr outcome.errors
  stderr.flush
  return outcome.exitCode.toUInt32
