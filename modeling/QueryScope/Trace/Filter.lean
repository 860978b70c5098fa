import QueryScope.Text.Blank
import QueryScope.Text.Digits
import QueryScope.Text.Letter
import QueryScope.Trace.Event

/-!
# Filters of events

A filter is a list of directives with commas between them. A directive gives the least important level
that is reported: in general, for the parts of the tool whose names begin with a text, or for events
with a field. Of the directives for an event the most specific one counts, and of two that say the
same the later.
-/

namespace QueryScope.Trace

/-- The rank of everything. -/
def fullRank : Nat :=
  Level.trace.rank

/-- A directive: which events it is about, and the rank of the least important level that is reported
of them. -/
structure Directive where
  /-- what the name of the part begins with -/
  part : Option String := none
  /-- the field that the events have -/
  field : Option String := none
  /-- it is about spans of time, in which no event is reported -/
  inSpan : Bool := false
  rank : Nat := fullRank
deriving DecidableEq

/-- What is wrong with a directive. -/
inductive FilterFault where
  | directive
  | level
deriving DecidableEq

/-- The fault in words. -/
def FilterFault.message : FilterFault → String
  | directive => "invalid filter directive"
  | level => "error parsing level filter: expected one of \"off\", \"error\", \"warn\", \"info\", " ++
      "\"debug\", \"trace\", or a number 0-5"

/-- The rank of the least important level that is reported, by name in any case or by number. -/
def levelRank? (text : List Char) : Option Nat :=
  match (Text.plusNumeral? 10 text).filter (· ≤ 5) with
  | some rank => some rank
  | none =>
    ["off", "error", "warn", "info", "debug", "trace"].idxOf?
      (String.ofList (text.map Char.toLower))

/-- The rank that is written behind an equals sign. Where nothing is written, it is that of
everything. -/
def givenRank (text : List Char) : Except FilterFault Nat :=
  if text.isEmpty then .ok fullRank
  else
    match levelRank? text with
    | some rank => .ok rank
    | none => .error .level

/-- What stands between the brackets of a directive, by the numbers of characters: those of the name
of a span, and those of a field in braces. -/
structure Brackets where
  span : Nat
  field : Option Nat := none

/-- Reads brackets behind the opening one, up to the text behind them. -/
def Brackets.read? (text : List Char) : Option (Brackets × List Char) :=
  let span := (text.takeWhile fun c => c != ']' && c != '\x7b').length
  match text.drop span with
  | ']' :: behind => some ({ span }, behind)
  | '\x7b' :: rest =>
    let field := (rest.takeWhile (· != '\x7d')).length
    match rest.drop field with
    | '\x7d' :: ']' :: behind => if field = 0 then none else some ({ span, field }, behind)
    | _ => none
  | _ => none

/-- The directive of brackets, given the text behind the opening one. The name of a span or a value of
the field make it about spans. -/
def Brackets.directive (brackets : Brackets) (text : List Char) : Directive :=
  match brackets.field with
  | none => { inSpan := true }
  | some length =>
    let field := (text.drop (brackets.span + 1)).take length
    { field := String.ofList (field.takeWhile (· != '='))
      inSpan := 0 < brackets.span || field.contains '=' }

/-- A character that a directive may begin with. -/
def startsDirective (c : Char) : Bool :=
  c == '-' || c == ':' || c == '_' || c == '[' || Text.isLetterOrNumeral c

/-- The directive that a text writes. A word that is no level is the name of a part. Places in the
text are counted without the blanks before it. -/
def parseDirective (text : List Char) : Except FilterFault Directive :=
  let trimmed := Text.trim text
  let width := (trimmed.takeWhile fun c => c != '=' && c != '[').length
  let part := if width = 0 then none else some (String.ofList (text.take width))
  let ranked (directive : Directive) (level : List Char) : Except FilterFault Directive :=
    (givenRank (text.drop (trimmed.length - level.length))).map ({ directive with rank := · })
  if !trimmed.head?.any startsDirective then .error .directive
  else
    match trimmed.drop width with
    | [] =>
      match levelRank? text with
      | some rank => .ok { rank }
      | none => .ok { part := String.ofList text }
    | '=' :: level => ranked { part } level
    | _ :: rest =>
      match Brackets.read? rest with
      | none => .error .directive
      | some (brackets, behind) =>
        let directive := { brackets.directive (text.drop (width + 1)) with part }
        match behind with
        | [] => .ok directive
        | '=' :: level => ranked directive level
        | _ => .error .directive

/-- The texts between the commas of a filter. -/
def directiveTexts (filter : String) : List (List Char) :=
  (filter.toList.splitOn ',').filter (!·.isEmpty)

/-- The directives of a filter, all of which must be valid. -/
def parseFilter (filter : String) : Except FilterFault (List Directive) :=
  (directiveTexts filter).mapM parseDirective

/-- The valid directives of a filter, and a remark on each of the others. -/
def parseFilterLossy (filter : String) : List Directive × List String :=
  let results := (directiveTexts filter).map fun text => (text, parseDirective text)
  (results.filterMap (·.2.toOption), results.filterMap fun (text, result) =>
    match result with
    | .ok _ => none
    | .error fault =>
      some ("ignoring \x60" ++ String.ofList text ++ "\x60: " ++ fault.message ++ "\n"))

/-- The directive is about the event. -/
def Directive.covers (directive : Directive) (e : Event) : Bool :=
  !directive.inSpan && directive.part.all (e.origin.startsWith ·) &&
    directive.field.all (e.fieldNames.contains ·)

/-- The other directive is at least as specific: it says more about the name of the part, or as much
and more about fields. Of two fields the one whose name is later in the order of texts counts. -/
def Directive.isWithin (directive other : Directive) : Bool :=
  let reach (d : Directive) : Nat := (d.part.map (·.length + 1)).getD 0
  if reach directive = reach other then
    match directive.field, other.field with
    | some a, some b => a ≤ b
    | some _, none => false
    | none, _ => true
  else reach directive < reach other

/-- The directive that counts for an event. -/
def governing? (directives : List Directive) (e : Event) : Option Directive :=
  (directives.filter (·.covers e)).foldl
    (fun best next => if best.all (·.isWithin next) then some next else best) none

/-- The rank of the least important level that is reported of events like this one. A filter without
directives reports errors. -/
def filterRank (directives : List Directive) (e : Event) : Nat :=
  if directives.isEmpty then Level.error.rank
  else ((governing? directives e).map (·.rank)).getD 0

/-- The filter reports the event. -/
def isReported (directives : List Directive) (e : Event) : Bool :=
  e.level.rank ≤ filterRank directives e

end QueryScope.Trace
