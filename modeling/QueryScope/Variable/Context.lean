import QueryScope.Text.Blank
import QueryScope.Variable.Basic

/-!
# Where a variable stands

The place of a variable in a query decides what may stand in for it. Only the parts around the
variable are looked at, never its own name.
-/

namespace QueryScope.Variable

/-- The place of a variable. -/
inductive Context where
  /-- inside a metric name with a selector behind it -/
  | metricName
  /-- a range, a step or an offset -/
  | duration
  /-- an instant of evaluation -/
  | timestamp
  /-- the value of a label matcher, within quotes of its own or bare -/
  | labelValue (quoted : Bool)
  /-- anywhere else -/
  | generic
deriving DecidableEq

/-- A place where no stand-in is possible. -/
inductive Misplacement where
  | functionName
  | grouping
  | leadingMetricName
deriving DecidableEq

/-- A variable, with the byte where it starts, in a place where no stand-in is possible. -/
structure PositionError where
  misplacement : Misplacement
  var : Variable
  offset : Nat
deriving DecidableEq

/-- The places where no stand-in is possible, in words. -/
def Misplacement.phrase : Misplacement → String
  | functionName => "variables in function name positions are not supported"
  | grouping => "variables in grouping (by/without) positions are not supported"
  | leadingMetricName => "variables at the start of a metric name are not supported"

/-- The error in one line. -/
def PositionError.message (e : PositionError) : String :=
  "variable " ++ e.var.text ++ " at offset " ++ toString e.offset ++ ": " ++ e.misplacement.phrase

/-! ## Parts around a variable -/

/-- A code character of a word. -/
def Piece.isWordChar : Piece → Bool
  | char c => Text.isWordChar c
  | _ => false

/-- A variable in code. -/
def Piece.isVariable : Piece → Bool
  | var _ => true
  | _ => false

/-- A part that a word run goes through. -/
def Piece.isGlue (p : Piece) : Bool :=
  p.isWordChar || p.isVariable

/-- A blank in code. -/
def Piece.isBlank : Piece → Bool
  | char c => Text.isPlainBlank c
  | _ => false

/-- This code character. -/
def Piece.is (c : Char) (p : Piece) : Bool :=
  p = .char c

/-- The parts without the blanks they start with. -/
def dropBlankPieces (parts : List Piece) : List Piece :=
  parts.dropWhile Piece.isBlank

/-- The parts read backwards end in the name and the operator of a label matcher. -/
def endsWithMatcher (before : List Piece) : Bool :=
  let behindName (rest : List Piece) : Bool := (dropBlankPieces rest).head?.any Piece.isWordChar
  match dropBlankPieces before with
  | .char '~' :: .char '=' :: rest | .char '~' :: .char '!' :: rest => behindName rest
  | .char '=' :: .char '!' :: rest => behindName rest
  | .char '=' :: .char '=' :: _ | .char '=' :: .char '<' :: _ | .char '=' :: .char '>' :: _
  | .char '=' :: .char '|' :: _ => false
  | .char '=' :: rest => behindName rest
  | _ => false

/-- The parts read backwards end in this word, blanks apart. -/
def endsWithWord (word : String) (before : List Piece) : Bool :=
  (dropBlankPieces before).takeWhile Piece.isWordChar = word.toList.reverse.map Piece.char

/-! ## Grouping clauses -/

/-- How many parts a keyword and the opening parenthesis behind it take, if the parts begin with
them and a closing parenthesis comes later. -/
def clauseHeader? (keyword : String) (parts : List Piece) : Option Nat :=
  let word := keyword.toList.map Piece.char
  let behind := parts.drop word.length
  let blank := behind.takeWhile Piece.isBlank
  if parts.take word.length = word && !behind.head?.any Piece.isWordChar then
    match behind.drop blank.length with
    | .char '(' :: rest => if rest.any (Piece.is ')') then some (word.length + blank.length + 1) else none
    | _ => none
  else none

/-- How far the search for grouping clauses has come. -/
inductive ClauseState where
  /-- outside all clauses; `glued` tells whether a word goes on here -/
  | outside (glued : Bool)
  /-- this many parts before the inside of a clause -/
  | header (left : Nat)
  | inside

/-- For each part, whether it stands in the parentheses of a grouping clause. -/
def grouped : ClauseState → List Piece → List Bool
  | _, [] => []
  | .inside, p :: rest =>
    if p.is ')' then false :: grouped (.outside false) rest else true :: grouped .inside rest
  | .header left, _ :: rest =>
    false :: grouped (if left ≤ 1 then .inside else .header (left - 1)) rest
  | .outside glued, p :: rest =>
    let header := (clauseHeader? "by" (p :: rest)).or (clauseHeader? "without" (p :: rest))
    match if glued then none else header with
    | some parts => false :: grouped (.header (parts - 1)) rest
    | none => false :: grouped (.outside p.isGlue) rest

/-! ## The place of one variable -/

/-- A verdict on a place: a context, a refusal of the variable itself, or a refusal of the variable that
starts its word. -/
inductive Verdict where
  | context (context : Context)
  | refused (misplacement : Misplacement)
  | refusedLead
deriving DecidableEq

/-- The place of a variable in code between the parts `before`, read backwards, and `after`. -/
def codeVerdict (inGrouping : Bool) (before after : List Piece) : Verdict :=
  let left := before.takeWhile Piece.isGlue
  let right := after.takeWhile Piece.isGlue
  let behindRun := after.dropWhile Piece.isGlue
  let next := (dropBlankPieces behindRun).head?
  let prev := (dropBlankPieces before).head?
  let glued := left.any Piece.isWordChar || right.any Piece.isWordChar
  let opensSelector := behindRun.head?.any (Piece.is '\x7b')
  let opensRange := behindRun.head?.any (Piece.is '[')
  let leads := left.getLast?.all Piece.isVariable
  let inRange :=
    (prev.any (Piece.is '[') && next.any fun p => p.is ']' || p.is ':') ||
      (prev.any (Piece.is ':') && next.any (Piece.is ']'))
  let terminated := after.head?.all fun p =>
    p.is ',' || p.is '\x7d' || p.is ']' || p.is ')' || p.isBlank
  if inGrouping then .refused .grouping
  else if next.any (Piece.is '(') then .refused .functionName
  else if leads && (glued || opensSelector || opensRange) then .refusedLead
  else if glued then .context (if opensSelector then .metricName else .generic)
  else if inRange || endsWithWord "offset" before then .context .duration
  else if prev.any (Piece.is '@') then .context .timestamp
  else if terminated && endsWithMatcher before then .context (.labelValue false)
  else .context .generic

/-- The place of a variable in a literal with the parts `before` it, read backwards. -/
def literalContext (body : List Inner) (closed : Bool) (before : List Piece) : Context :=
  match body with
  | [.var _] => if closed && endsWithMatcher before then .labelValue true else .generic
  | _ => .generic

/-- One variable of a query, with the bytes it takes and its place. -/
structure Occurrence where
  var : Variable
  start : Nat
  stop : Nat
  context : Context
deriving DecidableEq

/-- The variables of a literal of which the inside starts at a byte. -/
def literalOccurrences (context : Context) : (offset : Nat) → List Inner → List Occurrence
  | _, [] => []
  | offset, .char c :: rest => literalOccurrences context (offset + c.utf8Size) rest
  | offset, .var v :: rest =>
    let stop := offset + byteLength v.chars
    ⟨v, offset, stop, context⟩ :: literalOccurrences context stop rest

/-- The variable that starts the word run of `v`, and the byte where it starts. -/
def leadOf (v : Variable) (offset : Nat) (before : List Piece) : Variable × Nat :=
  let left := before.takeWhile Piece.isGlue
  match left.getLast? with
  | some (.var lead) => (lead, offset - byteLength (left.flatMap Piece.chars))
  | _ => (v, offset)

/-- The variables behind the parts `before`, which end at byte `offset`. -/
def occurrencesFrom (before : List Piece) (offset : Nat) :
    List Piece → List Bool → Except PositionError (List Occurrence)
  | [], _ => .ok []
  | p :: rest, marks => do
    let stop := offset + byteLength p.chars
    match p with
    | .char _ => occurrencesFrom (p :: before) stop rest marks.tail
    | .literal _ body closed =>
      let found := literalOccurrences (literalContext body closed before) (offset + 1) body
      return found ++ (← occurrencesFrom (p :: before) stop rest marks.tail)
    | .var v =>
      match codeVerdict (marks.head?.getD false) before rest with
      | .refused misplacement => .error ⟨misplacement, v, offset⟩
      | .refusedLead =>
        let (lead, start) := leadOf v offset before
        .error ⟨.leadingMetricName, lead, start⟩
      | .context context =>
        return ⟨v, offset, stop, context⟩ :: (← occurrencesFrom (p :: before) stop rest marks.tail)

/-- The variables of a query in their order. -/
def occurrences (parts : List Piece) : Except PositionError (List Occurrence) :=
  occurrencesFrom [] 0 parts (grouped (.outside false) parts)

/-- The variables of a query text in their order. -/
def classify (query : String) : Except PositionError (List Occurrence) :=
  occurrences (piecesOf query)

end QueryScope.Variable
