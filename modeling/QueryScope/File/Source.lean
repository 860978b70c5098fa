/-!
# Files

What is asked of files, whoever answers: the system, or a collection of files in memory.
-/

namespace QueryScope.File

/-- Why a file cannot be read or written. -/
inductive Fault where
  | missing
  | alreadyPresent
  | notDirectory
  | isDirectory
  | notText
  | other (text : String)
deriving DecidableEq

/-- The fault in words. -/
def Fault.message : Fault → String
  | missing => "No such file or directory (os error 2)"
  | alreadyPresent => "File exists (os error 17)"
  | notDirectory => "Not a directory (os error 20)"
  | isDirectory => "Is a directory (os error 21)"
  | notText => "stream did not contain valid UTF-8"
  | other text => text

/-- What is asked of files. -/
structure Source (m : Type → Type) where
  /-- the bytes of a file -/
  read : String → m (Except Fault ByteArray)
  /-- there is a file or a directory with this path -/
  isPresent : String → m Bool
  /-- there is a directory with this path -/
  isDirectory : String → m Bool
  /-- the names of the entries of a directory -/
  entries : String → m (List String)
  /-- makes a directory, and those on the way to it, where there are none -/
  makeDirectory : String → m (Except Fault Unit)

/-- The text of a file. -/
def Source.readText {m : Type → Type} [Monad m] (source : Source m) (path : String) :
    m (Except Fault String) := do
  match ← source.read path with
  | .error fault => return .error fault
  | .ok bytes =>
    match String.fromUTF8? bytes with
    | some text => return .ok text
    | none => return .error .notText

end QueryScope.File
