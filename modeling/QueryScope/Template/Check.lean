import QueryScope.Template.Lexer
import QueryScope.Template.Literal

/-!
# Checking templates

A template is checked without being run: its actions must be well formed, its control structures
closed, its variables declared and its functions known. The state of a check holds the items that are
left and the control structures that are open.
-/

namespace QueryScope.Template

/-- What is wrong with a template, and on which line. -/
structure TemplateError where
  name : String
  line : Nat
  complaint : String
deriving DecidableEq

/-- The error in one line. -/
def TemplateError.message (e : TemplateError) : String :=
  "template: " ++ e.name ++ ":" ++ toString e.line ++ ": " ++ e.complaint

/-- The functions that the language itself has. -/
def builtinFunctions : List String :=
  ["and", "call", "eq", "ge", "gt", "html", "index", "js", "le", "len", "lt", "ne", "not", "or", "print",
    "printf", "println", "slice", "urlquery"]

/-- The functions for alerts. -/
def alertFunctions : List String :=
  ["args", "externalURL", "first", "graphLink", "humanize", "humanize1024", "humanizeDuration",
    "humanizePercentage", "humanizeTimestamp", "label", "match", "now", "parseDuration", "pathPrefix",
    "query", "reReplaceAll", "safeHtml", "sortByLabel", "strvalue", "stripDomain", "stripPort",
    "tableLink", "title", "toDuration", "toLower", "toTime", "toUpper", "value"]

/-- A function that a template may call. -/
def isFunction (name : String) : Bool :=
  builtinFunctions.contains name || alertFunctions.contains name

/-- The control structures with an optional second body. -/
inductive Control where
  | ifBranch
  | withScope
  | rangeLoop
deriving DecidableEq

/-- The word of a control structure. -/
def Control.word : Control → String
  | ifBranch => "if"
  | withScope => "with"
  | rangeLoop => "range"

/-- The structures with a name, whose body sees no variable from outside. -/
inductive Named where
  | define
  | block
deriving DecidableEq

/-- How a message calls a named structure. -/
def Named.clause : Named → String
  | define => "define clause"
  | block => "block clause"

/-- A structure that is not closed yet, with what is to be restored behind it. -/
inductive Frame where
  | named (kind : Named) (vars : List String) (loops : Nat)
  /-- the first body of a control structure -/
  | main (kind : Control) (vars : List String)
  /-- the body behind `else` -/
  | other (vars : List String)
deriving DecidableEq

/-- How far a check has come. -/
structure State where
  items : List Item
  /-- the line of the last item that has been looked at -/
  reached : Nat
  /-- the variables that may be used -/
  vars : List String
  /-- how many loops may be left here -/
  loops : Nat
  /-- the line where the action started, or zero -/
  actionLine : Nat
  /-- the open structures, the innermost first -/
  frames : List Frame

/-- A step of a check: the name of the template is known, and a mistake ends it. -/
abbrev Check := ReaderT String (StateT State (Except TemplateError))

/-! ## Items -/

/-- A complaint on the last line that has been looked at. -/
def complain {α : Type} (complaint : String) : Check α := do
  throw ⟨← read, (← get).reached, complaint⟩

/-- The next item; behind the last one comes the end. -/
def next : Check Item := do
  let state ← get
  match state.items with
  | [] => return ⟨.eof, [], state.reached⟩
  | item :: items =>
    set { state with items, reached := max state.reached item.line }
    return item

/-- Puts an item back. -/
def unread (item : Item) : Check Unit :=
  modify fun state => { state with items := item :: state.items }

/-- Looks at the next item. -/
def peek : Check Item := do
  let item ← next
  unread item
  return item

/-- Skips blanks. -/
def skipSpaces : Check Unit := do
  let state ← get
  let spaces := state.items.takeWhile (·.kind = .space)
  let reached := spaces.foldl (fun line item => max line item.line) state.reached
  set { state with items := state.items.drop spaces.length, reached }

/-- The next item that is not blank. -/
def nextWord : Check Item := do
  skipSpaces
  next

/-- Looks at the next item that is not blank. -/
def peekWord : Check Item := do
  skipSpaces
  peek

/-- What a mistake says about the action in which it was found. -/
def actionNote (name : String) (actionLine : Nat) (item : Item) : String :=
  if actionLine = 0 ∨ actionLine = item.line then ""
  else
    let place := " started at " ++ name ++ ":" ++ toString actionLine
    if " action".toList.isSuffixOf item.text then place else " in action" ++ place

/-- A complaint about an item that should not stand here. -/
def unexpected {α : Type} (item : Item) (context : String) : Check α := do
  if item.kind = .mistake then
    complain (String.ofList item.text ++ actionNote (← read) (← get).actionLine item)
  else complain ("unexpected " ++ item.describe ++ " in " ++ context)

/-- The next item that is not blank, which must be the end of an action. -/
def expectClosing (context : String) : Check Unit := do
  let item ← nextWord
  if item.kind ≠ .closing then unexpected item context

/-! ## Operands -/

/-- What an operand is. -/
inductive Operand where
  | bool
  | chain
  | dot
  | field
  | identifier
  | nil
  | number
  | pipe
  | string
  | var
deriving DecidableEq

/-- The operand is a plain value, which takes no field and starts no later stage of a pipeline. -/
def Operand.isPlain : Operand → Bool
  | bool | dot | nil | number | string => true
  | _ => false

/-- Checks a quoted string; a string between backticks is always right. -/
def checkString (item : Item) : Check Unit := do
  if item.kind = .string && !isValidString item.text then complain "invalid syntax"

/-- Checks a character constant. -/
def checkConstant (item : Item) : Check Unit := do
  match constantFault? item.text with
  | none => return ()
  | some .invalid => complain "invalid syntax"
  | some .malformed => complain ("malformed character constant: " ++ String.ofList item.text)

/-- The operand that an item is by itself. An item that is none is put back. -/
def simpleTerm (item : Item) : Check (Option Operand) := do
  match item.kind with
  | .identifier =>
    if !isFunction (String.ofList item.text) then
      complain ("function " ++ Text.escaped (String.ofList item.text) ++ " not defined")
    return some .identifier
  | .dot => return some .dot
  | .nil => return some .nil
  | .var =>
    if !(← get).vars.contains (String.ofList item.text) then
      complain ("undefined variable " ++ Text.escaped (String.ofList item.text))
    return some .var
  | .field => return some .field
  | .bool => return some .bool
  | .charConstant =>
    checkConstant item
    return some .number
  | .number =>
    if !isValidNumber item.text then
      complain ("illegal number syntax: " ++ Text.escaped (String.ofList item.text))
    return some .number
  | .string | .rawString =>
    checkString item
    return some .string
  | _ =>
    unread item
    return none

/-- Skips the fields behind an operand. -/
def skipFields : Check Unit := do
  let state ← get
  let fields := state.items.takeWhile (·.kind = .field)
  let reached := fields.foldl (fun line item => max line item.line) state.reached
  set { state with items := state.items.drop fields.length, reached }
  discard peek

/-- A term with the fields behind it. -/
def withFields (item : Item) (term : Operand) : Check Operand := do
  if (← peek).kind ≠ .field then return term
  if term.isPlain then
    complain ("unexpected . after term " ++ Text.escaped (String.ofList item.text))
  skipFields
  return if term = .field ∨ term = .var then term else .chain

/-- An operand, given the check of a pipeline in parentheses. -/
def operand (inner : Check Unit) : Check (Option Operand) := do
  let item ← nextWord
  let term ← if item.kind = .leftParen then do
      inner
      pure (some .pipe)
    else simpleTerm item
  match term with
  | none => return none
  | some term => some <$> withFields item term

/-! ## Pipelines -/

/-- The operands of a command up to a bar or the end of the pipeline, of which `first` is the first. The
bound is more than their number. -/
def command (inner : Check Unit) : (bound : Nat) → (first : Option Operand) → Check Operand
  | 0, _ => complain "empty command"
  | bound + 1, first => do
    discard peekWord
    let found ← operand inner
    let first := first.or found
    let item ← next
    match item.kind with
    | .space => command inner bound first
    | .closing | .rightParen | .pipe =>
      if item.kind ≠ .pipe then unread item
      match first with
      | some operand => return operand
      | none => complain "empty command"
    | _ => unexpected item "operand"

/-- An item that a command may start with. -/
def startsCommand : Kind → Bool
  | .bool | .charConstant | .dot | .field | .identifier | .number | .nil | .rawString | .string | .var
  | .leftParen => true
  | _ => false

/-- The first stage of a pipeline but the first that is no call, counted from one. -/
def plainStage? (commands : List Operand) : Option Nat :=
  ((commands.drop 1).findIdx? Operand.isPlain).map (· + 2)

/-- Checks the stages of a pipeline: there is one, and the later ones are calls. -/
def checkStages (context : String) (commands : List Operand) : Check Unit := do
  if commands.isEmpty then complain ("missing value for " ++ context)
  match plainStage? commands with
  | some stage => complain ("non executable command in pipeline stage " ++ toString stage)
  | none => return ()

/-- The commands of a pipeline up to its end. The bound is more than their number. -/
def commands (inner : Check Unit) (context : String) (ending : Kind) : (bound : Nat) → Check (List Operand)
  | 0 => return []
  | bound + 1 => do
    let item ← nextWord
    if item.kind = ending then return []
    else if startsCommand item.kind then
      unread item
      let first ← command inner ((← get).items.length + 1) none
      return first :: (← commands inner context ending bound)
    else unexpected item context

/-- Declares a variable. -/
def declareVar (item : Item) : Check Unit :=
  modify fun state => { state with vars := String.ofList item.text :: state.vars }

/-- The declarations at the start of a pipeline: `$x :=`, `$x =`, or two variables in a loop. The bound
is the number of variables that may still come. -/
def declarations (context : String) : (bound : Nat) → Check Unit
  | 0 => return ()
  | bound + 1 => do
    let item ← peekWord
    if item.kind ≠ .var then return ()
    let state ← get
    discard next
    let sign ← peekWord
    if sign.kind = .assign ∨ sign.kind = .declare then
      discard nextWord
      declareVar item
    else if sign.kind = .char ∧ sign.text = [','] then
      discard nextWord
      declareVar item
      if context = "range" ∧ bound ≠ 0 then
        match (← peekWord).kind with
        | .var | .closing | .rightParen => declarations context bound
        | _ => complain "range can only initialize variables"
      else complain ("too many declarations in " ++ context)
    else modify fun reached => { reached with items := state.items }

/-- A pipeline, given the check of a pipeline in parentheses. -/
def pipelineWith (inner : Check Unit) (context : String) (ending : Kind) : Check Unit := do
  declarations context 2
  let found ← commands inner context ending ((← get).items.length + 1)
  checkStages context found

/-- A pipeline in parentheses, with parentheses nested less than `depth` deep. -/
def parenthesized : (depth : Nat) → Check Unit
  | 0 => return ()
  | depth + 1 => pipelineWith (parenthesized depth) "parenthesized pipeline" .rightParen

/-- A pipeline up to the end of its action. -/
def pipeline (context : String) : Check Unit := do
  pipelineWith (parenthesized (← get).items.length) context .closing

/-! ## Actions and structures -/

/-- What an action does to the structure around it. -/
inductive Flow where
  | stays
  | closes
  | alternates

/-- Opens a structure. -/
def push (frame : Frame) : Check Unit :=
  modify fun state => { state with frames := frame :: state.frames }

/-- The name of a structure or of a template that is called. -/
def clauseName (context : String) : Check Unit := do
  let name ← nextWord
  if name.kind ≠ .string ∧ name.kind ≠ .rawString then unexpected name context
  checkString name

/-- Opens a named structure, whose body starts with the variable `$` only. -/
def openNamed (kind : Named) : Check Unit := do
  let state ← get
  set { state with vars := ["$"], loops := 0, frames := .named kind state.vars state.loops :: state.frames }

/-- Opens the body of a control structure that restores `vars` at its end. -/
def openMain (kind : Control) (vars : List String) : Check Unit := do
  pipeline kind.word
  modify fun state =>
    { state with
      loops := if kind = .rangeLoop then state.loops + 1 else state.loops
      frames := .main kind vars :: state.frames }

/-- A way out of a loop, which there must be. -/
def loopControl (word : String) : Check Unit := do
  let item ← nextWord
  if item.kind ≠ .closing then unexpected item word
  if (← get).loops = 0 then complain (word ++ " outside \x7b\x7brange\x7d\x7d")

/-- A call of another template. -/
def templateCall : Check Unit := do
  clauseName "template clause"
  let item ← nextWord
  if item.kind ≠ .closing then
    unread item
    pipeline "template clause"

/-- An action behind its braces. -/
def action : Check Flow := do
  let item ← nextWord
  match item.kind with
  | .keyword .block =>
    clauseName "block clause"
    pipeline "block clause"
    openNamed .block
    return .stays
  | .keyword .breakLoop =>
    loopControl "\x7b\x7bbreak\x7d\x7d"
    return .stays
  | .keyword .continueLoop =>
    loopControl "\x7b\x7bcontinue\x7d\x7d"
    return .stays
  | .keyword .elseBranch =>
    let word ← peekWord
    if word.kind ≠ .keyword .ifBranch ∧ word.kind ≠ .keyword .withScope then expectClosing "else"
    return .alternates
  | .keyword .endMark =>
    expectClosing "end"
    return .closes
  | .keyword .ifBranch =>
    openMain .ifBranch (← get).vars
    return .stays
  | .keyword .rangeLoop =>
    openMain .rangeLoop (← get).vars
    return .stays
  | .keyword .withScope =>
    openMain .withScope (← get).vars
    return .stays
  | .keyword .template =>
    templateCall
    return .stays
  | _ =>
    unread item
    pipeline "command"
    return .stays

/-- The loops that may be left behind the first body of a control structure. -/
def loopsBehind (kind : Control) (loops : Nat) : Nat :=
  if kind = .rangeLoop then loops - 1 else loops

/-- Closes the innermost structure. -/
def close : Check Unit := do
  let state ← get
  match state.frames with
  | [] => complain "unexpected \x7b\x7bend\x7d\x7d"
  | .named _ vars loops :: frames => set { state with vars, loops, frames }
  | .main kind vars :: frames => set { state with vars, loops := loopsBehind kind state.loops, frames }
  | .other vars :: frames => set { state with vars, frames }

/-- Goes from the first body of a control structure to the second, or to a further condition of the same
kind. -/
def alternate : Check Unit := do
  let state ← get
  match state.frames with
  | [] => complain "unexpected \x7b\x7belse\x7d\x7d"
  | .named kind _ _ :: _ => complain ("unexpected \x7b\x7belse\x7d\x7d in " ++ kind.clause)
  | .other _ :: _ => complain "expected end; found \x7b\x7belse\x7d\x7d"
  | .main kind vars :: frames =>
    set { state with loops := loopsBehind kind state.loops, frames }
    let item ← peek
    if item.kind = .keyword .ifBranch ∧ kind = .ifBranch ∨
        item.kind = .keyword .withScope ∧ kind = .withScope then
      discard next
      openMain kind vars
    else push (.other vars)

/-- A text, or an action with what it does to the structures. A structure that an action opens keeps the
line of the action until the next action. -/
def textOrAction : Check Unit := do
  let item ← nextWord
  match item.kind with
  | .text => return ()
  | .opening =>
    modify fun state => { state with actionLine := item.line }
    let depth := (← get).frames.length
    match ← action with
    | .stays =>
      if (← get).frames.length = depth then modify fun state => { state with actionLine := 0 }
    | .closes =>
      modify fun state => { state with actionLine := 0 }
      close
    | .alternates =>
      modify fun state => { state with actionLine := 0 }
      alternate
  | _ => unexpected item "input"

/-- A definition comes next, which is allowed outside all structures only. -/
def startsDefinition : Check Bool := do
  let state ← get
  match (← next).kind with
  | .opening =>
    if (← nextWord).kind = .keyword .define then return true
    modify fun reached => { reached with items := state.items }
    return false
  | _ =>
    modify fun reached => { reached with items := state.items }
    return false

/-- Opens a definition behind its keyword. -/
def openDefinition : Check Unit := do
  clauseName "define clause"
  expectClosing "define clause"
  openNamed .define

/-- Checks the items that are left. The bound is more than their number. -/
def checkRest : (bound : Nat) → Check Unit
  | 0 => return ()
  | bound + 1 => do
    if (← get).frames.isEmpty then
      if (← peek).kind = .eof then return ()
      if ← startsDefinition then openDefinition else textOrAction
    else
      if (← peekWord).kind = .eof then complain "unexpected EOF"
      textOrAction
    checkRest bound

/-- Checks the items of a template with some variables declared before. -/
def checkItems (name : String) (vars : List String) (items : List Item) : Except TemplateError Unit :=
  let start : State :=
    { items, reached := (items.head?.map Item.line).getD 1, vars, loops := 0, actionLine := 0, frames := [] }
  (((checkRest (items.length + 1)) name).run start).map (·.1)

/-- Checks a template. -/
def check (name text : String) : Except TemplateError Unit :=
  checkItems name ["$"] (lex text.toList)

/-- The declarations in front of each template of an alert. -/
def alertDeclarations : String :=
  "\x7b\x7b$labels := .Labels\x7d\x7d\x7b\x7b$externalLabels := .ExternalLabels\x7d\x7d\x7b\x7b$value := .Value\x7d\x7d"

/-- Checks a template of an alert, in which the labels and the value of the alert are declared. -/
def checkAlert (alert text : String) : Except TemplateError Unit :=
  check ("__alert_" ++ alert) (alertDeclarations ++ text)

end QueryScope.Template
