import QueryScope.Reason
import QueryScope.Rule.Check
import QueryScope.Yaml.Decoder

/-!
# Rule files

A rule file is a document with a list of groups. A file of blank lines, comments and document marks
has no groups, whatever its bytes are otherwise.
-/

namespace QueryScope.Rule

open Yaml (Decoder)
open Yaml.Decoder (field)

/-- The fields of a rule. -/
def field? : String → Option (Decoder (Rule → Rule))
  | "record" => some (field .valueText fun v r => { r with record := v })
  | "alert" => some (field .valueText fun v r => { r with alert := v })
  | "expr" => some (field .valueText fun v r => { r with expr := v })
  | "for" => some (field (.optional .duration) fun v r => { r with delay := v })
  | "keep_firing_for" => some (field (.optional .duration) fun v r => { r with keepFiring := v })
  | "labels" => some (field .valueTextMap fun v r => { r with labels := v })
  | "annotations" => some (field .valueTextMap fun v r => { r with annotations := v })
  | _ => none

/-- A rule. -/
def decoder : Decoder Rule :=
  .record {} field? []

/-- The fields of a group. -/
def groupField? : String → Option (Decoder (RuleGroup → RuleGroup))
  | "name" => some (field .valueText fun v g => { g with name := v })
  | "interval" => some (field (.optional .duration) fun v g => { g with interval := v })
  | "query_offset" => some (field (.optional .duration) fun v g => { g with queryOffset := v })
  | "limit" => some (field .integer fun v g => { g with limit := v })
  | "rules" => some (field (.list decoder) fun v g => { g with rules := v })
  | _ => none

/-- A group of rules. -/
def groupDecoder : Decoder RuleGroup :=
  .record {} groupField? []

/-- The fields of a rule file. -/
def fileField? : String → Option (Decoder (List RuleGroup → List RuleGroup))
  | "groups" => some (field (.list groupDecoder) fun v _ => v)
  | _ => none

/-- The groups of a rule file. -/
def fileDecoder : Decoder (List RuleGroup) :=
  .record [] fileField? []

/-- A byte that is a blank. -/
def isBlankByte (b : UInt8) : Bool :=
  b == 0x20 || b == 0x09 || b == 0x0a || b == 0x0c || b == 0x0d

/-- The bytes without blanks at both ends. -/
def trimBytes (line : List UInt8) : List UInt8 :=
  ((line.dropWhile isBlankByte).reverse.dropWhile isBlankByte).reverse

/-- A line without content: blank, a comment, or the start of a document. -/
def isIdleLine (line : List UInt8) : Bool :=
  match trimBytes line with
  | [] => true
  | 0x23 :: _ => true
  | trimmed => trimmed == [0x2d, 0x2d, 0x2d]

/-- The groups that the bytes of a file write. -/
def decodeFile? (content : ByteArray) : Option (List RuleGroup) :=
  if (content.toList.splitOn 0x0a).all isIdleLine then some []
  else (String.fromUTF8? content).bind (Yaml.decodeText? fileDecoder)

/-- Why a rule file is refused. -/
inductive FileFault where
  | undecodable
  | invalid (findings : List Finding) (groups : List RuleGroup)

/-- The reason of a refusal. -/
def FileFault.reason : FileFault → Reason
  | undecodable => .ruleDecode
  | invalid _ _ => .ruleInvalid

/-- The findings in a refused file, one line each. -/
def FileFault.details : FileFault → List String
  | undecodable => ["not a rule file"]
  | invalid findings _ => findings.map Finding.message

/-- The refusal of a file in words, with all findings. -/
def FileFault.message (name : String) (fault : FileFault) : String :=
  "error validating " ++ name ++ ": " ++ "; ".intercalate fault.details

/-- The groups of a rule file that has no violations. -/
def checkFile (dialect : Dialect) (content : ByteArray) : Except FileFault (List RuleGroup) :=
  match decodeFile? content with
  | none => .error .undecodable
  | some groups =>
    match checkGroups dialect groups with
    | [] => .ok groups
    | findings => .error (.invalid findings groups)

end QueryScope.Rule
