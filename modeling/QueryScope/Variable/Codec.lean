import QueryScope.Duration
import QueryScope.Variable.Context

/-!
# Stand-ins for variables

A query with variables is encoded by putting a stand-in that both grammars accept in the place of each
variable, and decoded by putting the variables back into the printed query. Stand-ins are numbers in
sequence; a variable inside a metric name gets a word with a number in it.
-/

namespace QueryScope.Variable

/-- The number of the first stand-in. -/
def firstNumber : Nat :=
  99990000

/-- The stand-in of one variable and the places where the variable is used. -/
structure Entry where
  var : Variable
  number : Nat
  /-- used in a metric name -/
  inName : Bool
  inDuration : Bool
  inTimestamp : Bool
  /-- the quoting of its first use as a label value -/
  labelQuoted : Option Bool
deriving DecidableEq

/-- The text that stands in for the variable. -/
def Entry.token (e : Entry) : List Char :=
  if e.inName then "__var".toList ++ Number.decimalDigits e.number ++ "__".toList
  else Number.decimalDigits e.number

/-- The stand-ins of a query in their order. -/
abbrev Table := List Entry

/-- The entry of a variable with a given text. -/
def Table.get? (table : Table) (text : String) : Option Entry :=
  table.find? fun e => e.var.text = text

/-- How strongly a place constrains a stand-in; the strongest comes first. -/
def Context.rank : Context → Nat
  | metricName => 0
  | duration => 1
  | timestamp => 2
  | labelValue _ => 3
  | generic => 4

/-- The quoting of a label value. -/
def Context.labelQuoted? : Context → Option Bool
  | labelValue quoted => some quoted
  | _ => none

/-- The occurrences by the strength of their places, and in their order within one strength. -/
def byRank (found : List Occurrence) : List Occurrence :=
  (List.range 5).flatMap fun rank => found.filter (·.context.rank = rank)

/-- The variables of a query, each once: first those in the most constrained places. -/
def allocation (found : List Occurrence) : List Variable :=
  ((byRank found).map Occurrence.var).eraseDups

/-- The entry of a variable that comes at a place in the sequence. -/
def entryOf (found : List Occurrence) (v : Variable) (index : Nat) : Entry :=
  let uses := (found.filter (·.var = v)).map Occurrence.context
  { var := v
    number := firstNumber + index
    inName := uses.contains .metricName
    inDuration := uses.contains .duration
    inTimestamp := uses.contains .timestamp
    labelQuoted := uses.findSome? Context.labelQuoted? }

/-- The stand-ins for the variables of a query. -/
def tableOf (found : List Occurrence) : Table :=
  (allocation found).mapIdx fun index v => entryOf found v index

/-- The text that stands in for a variable. -/
def tokenOf (table : Table) (v : Variable) : List Char :=
  ((table.find? (·.var = v)).map Entry.token).getD v.chars

/-- A part of a literal with stand-ins. -/
def encodeInner (table : Table) : Inner → List Char
  | .char c => [c]
  | .var v => tokenOf table v

/-- The parts of a query with stand-ins; a bare label value gets quotes. The occurrences are those of the
parts. -/
def encodePieces (table : Table) : List Piece → List Occurrence → List Char
  | [], _ => []
  | .char c :: rest, found => c :: encodePieces table rest found
  | .var v :: rest, found =>
    let token := tokenOf table v
    (match found with
      | ⟨_, _, _, .labelValue false⟩ :: _ => '"' :: token ++ ['"']
      | _ => token) ++ encodePieces table rest found.tail
  | .literal quote body closed :: rest, found =>
    let used := body.countP fun part =>
      match part with
      | .var _ => true
      | .char _ => false
    quote :: body.flatMap (encodeInner table) ++ (if closed then [quote] else []) ++
      encodePieces table rest (found.drop used)

/-- A query with stand-ins, and what they stand for. -/
structure Encoded where
  text : String
  table : Table

/-- The query with a stand-in for each variable. -/
def encode (query : String) : Except PositionError Encoded := do
  let parts := piecesOf query
  let found ← occurrences parts
  let table := tableOf found
  return ⟨String.ofList (encodePieces table parts found), table⟩

/-- The text with each place of a needle replaced, from left to right; `skip` characters belong to the
place before. -/
def replaceFrom (needle replacement : List Char) : (skip : Nat) → List Char → List Char
  | _, [] => []
  | skip + 1, _ :: rest => replaceFrom needle replacement skip rest
  | 0, c :: rest =>
    if needle.isPrefixOf (c :: rest) then
      replacement ++ replaceFrom needle replacement (needle.length - 1) rest
    else c :: replaceFrom needle replacement 0 rest

/-- The text with each place of a needle replaced. -/
def replaceAll (needle replacement text : List Char) : List Char :=
  replaceFrom needle replacement 0 text

/-- Longer texts come first, and texts of one length in their order. -/
def longerFirst (a b : List Char) : Bool :=
  b.length < a.length || (a.length = b.length && String.ofList a ≤ String.ofList b)

/-- How the stand-in of an entry is printed as a duration. -/
def Entry.durationChars (e : Entry) : List Char :=
  Duration.chars ⟨e.number * 1000⟩

/-- The entries whose stand-ins may have been printed as durations, the longest text first. -/
def durationEntries (table : Table) : List Entry :=
  (table.filter fun e => e.inDuration && !e.inName).mergeSort fun a b =>
    longerFirst a.durationChars b.durationChars

/-- The text with the stand-ins that were printed as durations put back. -/
def restoreDurations (table : Table) (text : List Char) : List Char :=
  (durationEntries table).foldl (fun text e => replaceAll e.durationChars e.var.chars text) text

/-- The text with the stand-in of one entry put back: as a timestamp, with the quotes that were added
to it, and as it is. -/
def restoreEntry (text : List Char) (e : Entry) : List Char :=
  let text := if e.inTimestamp then replaceAll (e.token ++ ".000".toList) e.var.chars text else text
  let text :=
    if e.labelQuoted = some false then replaceAll ('"' :: e.token ++ ['"']) e.var.chars text else text
  replaceAll e.token e.var.chars text

/-- The entries, the longest stand-in first. -/
def tokenEntries (table : Table) : List Entry :=
  table.mergeSort fun a b => longerFirst a.token b.token

/-- The text with all variables put back in the place of their stand-ins. -/
def decodeChars (table : Table) (text : List Char) : List Char :=
  (tokenEntries table).foldl restoreEntry (restoreDurations table text)

/-- The text with all variables put back in the place of their stand-ins. -/
def decode (table : Table) (text : String) : String :=
  String.ofList (decodeChars table text.toList)

end QueryScope.Variable
