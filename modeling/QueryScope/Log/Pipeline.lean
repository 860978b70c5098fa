import QueryScope.Log.Filter

/-!
# Reading streams and pipelines
-/

namespace QueryScope.Log

open Scan

/-- The line comparisons by their written forms. -/
def lineComparisons : List (String × LineComparison) :=
  [("|=", .contains), ("!=", .notContains), ("|~", .matching), ("!~", .notMatching), ("|>", .pattern),
    ("!>", .notPattern)]

/-- A quoted string that must stand here. -/
def requiredString (what : String) : Scanner String :=
  expecting what (commit stringLiteral)

/-- A quoted string behind blanks. -/
def stringArgument : Scanner String := do
  blanks
  requiredString "quoted string"

/-- What a line is compared with. -/
def lineValue : Scanner LineValue := do
  if ← optKeyword "ip" then
    blanks
    expecting "ip(\"...\")" <| commit do
      literal "("
      blanks
      let range ← stringLiteral
      blanks
      literal ")"
      return .address range
  else return .text (← requiredString "quoted string")

/-- The value is no regular expression though it is compared as one. -/
def isBadPattern (comparison : LineComparison) : LineValue → Bool
  | .text value => comparison.isPattern && !Pattern.isValid value
  | .address _ => false

/-- Further values of a line filter. The bound is more than their number. -/
def alternatives : (bound : Nat) → Scanner (List String)
  | 0 => return []
  | bound + 1 => do
    match ← optBehindBlanks (keyword "or") with
    | none => return []
    | some () =>
      blanks
      let first ← requiredString "quoted string after 'or'"
      return first :: (← alternatives bound)

/-- A line filter behind its comparison. -/
def lineFilter (comparison : LineComparison) : Scanner LineFilter := do
  blanks
  let before ← get
  let value ← lineValue
  if isBadPattern comparison value then
    set before
    refuse "invalid regular expression in line filter"
  return ⟨comparison, value, ← alternatives ((← get).length + 1)⟩

/-- A label taken from a line. -/
def extraction : Scanner Extraction := do
  let name ← labelName
  match ← optBehindBlanks (literal "=") with
  | none => return ⟨name, none⟩
  | some () =>
    blanks
    return ⟨name, some (← requiredString "quoted extraction expression")⟩

/-- The labels taken from a line, if a list of them follows. -/
def extractions : Scanner (List Extraction) := do
  let before ← get
  blanks
  let here ← get
  if !here.head?.any Label.isNameStart || (afterKeyword? "or" here).isSome ||
      (afterKeyword? "offset" here).isSome then
    set before
    return []
  else commaList (expecting "label" (commit extraction))

/-- The switches of a `logfmt` stage. The bound is more than their number. -/
def switches : (bound : Nat) → (strict keepEmpty : Bool) → Scanner (Bool × Bool)
  | 0, strict, keepEmpty => return (strict, keepEmpty)
  | bound + 1, strict, keepEmpty => do
    match ← optBehindBlanks (literalOf [("--strict", true), ("--keep-empty", false)]) with
    | some true => switches bound true keepEmpty
    | some false => switches bound strict true
    | none => return (strict, keepEmpty)

/-- A new value for a label. -/
def labelFormat : Scanner LabelFormat := do
  let target ← labelName
  blanks
  expecting "'='" (commit (literal "="))
  blanks
  match ← opt stringLiteral with
  | some template => return .template target template
  | none => return .rename target (← expecting "label name or template" (commit labelName))

/-- A label that is dropped or kept. -/
def labelReference : Scanner LabelReference := do
  let before ← get
  let name ← labelName
  let behindName ← get
  blanks
  if (← peek).any fun c => c == '=' || c == '!' then
    set before
    return .matcher (← Matcher.scan)
  else
    set behindName
    return .name name

/-- The items of a stage, at least one. -/
def stageList {α : Type} (item : Scanner α) : Scanner (List α) := do
  blanks
  commaList (expecting "label" (commit item))

/-- The kinds of stages that start with a keyword. -/
inductive StageKeyword where
  | json
  | logfmt
  | regexp
  | pattern
  | unpack
  | decolorize
  | lineFormat
  | labelFormat
  | drop
  | keep

/-- The keywords of stages. -/
def stageKeywords : List (String × StageKeyword) :=
  [("json", .json), ("logfmt", .logfmt), ("regexp", .regexp), ("pattern", .pattern),
    ("unpack", .unpack), ("decolorize", .decolorize), ("line_format", .lineFormat),
    ("label_format", .labelFormat), ("drop", .drop), ("keep", .keep)]

/-- A stage behind its keyword. -/
def stageBehind : StageKeyword → Scanner Stage
  | .json => return .json (← extractions)
  | .logfmt => do
    let (strict, keepEmpty) ← switches ((← get).length + 1) false false
    return .logfmt strict keepEmpty (← extractions)
  | .regexp => do
    let expression ← stringArgument
    if !Pattern.isValid expression then refuse "invalid regular expression in regexp stage"
    return .regexp expression
  | .pattern => return .pattern (← stringArgument)
  | .unpack => return .unpack
  | .decolorize => return .decolorize
  | .lineFormat => return .lineFormat (← stringArgument)
  | .labelFormat => return .labelFormat (← stageList labelFormat)
  | .drop => return .drop (← stageList labelReference)
  | .keep => return .keep (← stageList labelReference)

/-- A stage behind its bar. -/
def stage : Scanner Stage := do
  match ← opt (keywordOf stageKeywords) with
  | some kind => stageBehind kind
  | none => return .labelFilter (← labelFilter)

/-- The stages up to an unwrapped label, a range or whatever else is no stage. The bound is more than
their number. -/
def stages : (bound : Nat) → Scanner (List Stage)
  | 0 => return []
  | bound + 1 => do
    let before ← get
    blanks
    match ← opt (literalOf lineComparisons) with
    | some comparison =>
      let filter ← lineFilter comparison
      return .lineFilter filter :: (← stages bound)
    | none =>
      if ← optLiteral "|" then
        blanks
        if (afterKeyword? "unwrap" (← get)).isSome then
          set before
          return []
        else
          let first ← expecting "pipeline stage" (commit stage)
          return first :: (← stages bound)
      else
        set before
        return []

/-- A pipeline. -/
def pipeline : Scanner (List Stage) :=
  fun input => stages (input.length + 1) input

/-- The matchers of a selector of streams. -/
def selector : Scanner (List Matcher) := do
  let matchers ← Matcher.block
  if matchers.all Matcher.matchesEmpty then
    refuse "queries require at least one regexp or equality matcher that does not have an empty-compatible value"
  return matchers

/-- A selector with its pipeline, in less than `depth` parentheses. -/
def streamIn : (depth : Nat) → Scanner Stream
  | 0 => miss
  | depth + 1 => do
    if ← optLiteral "(" then
      blanks
      let inner ← streamIn depth
      blanks
      expecting "')'" (commit (literal ")"))
      return inner
    else
      let matchers ← selector
      return ⟨matchers, ← pipeline⟩

/-- A selector with its pipeline. -/
def stream : Scanner Stream :=
  fun input => streamIn (input.length + 1) input

end QueryScope.Log
