import QueryScope.Proofs.GuardedLexing

/-!
# Checks with a position

A check that reads the items of a template by their place, as a parser does that may go back: it counts its place up
and down, it counts loops up and down, it cuts literals by bytes, and it turns in loops. Where a count would fall
below zero, a cut has no meaning or a loop does not end, the check ends with a breach. Reading behind the last item
gives that item again. Each step has the name of the step of `Check` that it stands for.
-/

namespace QueryScope.Template.Guarded

/-- Why a check ends early. -/
inductive Stop where
  | breach (breach : Breach)
  /-- a mistake in the template, with the structures that are open there and the loops that may be left -/
  | mistake (error : TemplateError) (frames : List Frame) (loops : Nat)

/-- What a check reads. -/
structure Source where
  name : String
  items : List Item
  /-- how often a loop may turn -/
  turns : Nat

/-- The item at a place; behind the last one it comes again. -/
def Source.item (source : Source) (place : Nat) : Item :=
  source.items.getD (min place (source.items.length - 1)) ⟨.eof, [], 1⟩

/-- How far a check has come. -/
structure Cursor where
  /-- the place of the next item -/
  place : Nat
  /-- the last place that has been looked at -/
  seen : Nat
  vars : List String
  loops : Nat
  actionLine : Nat
  frames : List Frame

abbrev Strict := ReaderT Source (StateT Cursor (Except Stop))

/-- The check has come to something without a meaning. -/
def fall {α : Type} (breach : Breach) : Strict α :=
  throw (.breach breach)

/-- A result that may have no meaning. -/
def guarded {α : Type} : Except Breach α → Strict α
  | .ok result => pure result
  | .error breach => fall breach

/-! ## Items -/

/-- A complaint on the line of the last place that has been looked at. -/
def complain {α : Type} (complaint : String) : Strict α := do
  let source ← read
  let cursor ← get
  throw (.mistake ⟨source.name, (source.item cursor.seen).line, complaint⟩ cursor.frames cursor.loops)

def next : Strict Item := do
  let source ← read
  let cursor ← get
  set { cursor with place := cursor.place + 1, seen := max cursor.seen cursor.place }
  return source.item cursor.place

/-- Goes back by one item. -/
def backup : Strict Unit := do
  let cursor ← get
  if cursor.place = 0 then fall .position else set { cursor with place := cursor.place - 1 }

def goTo (place : Nat) : Strict Unit :=
  modify fun cursor => { cursor with place }

def peek : Strict Item := do
  let item ← next
  backup
  return item

/-- The next item that is not blank, with at most so many steps. -/
def wordWithin : (turns : Nat) → Strict Item
  | 0 => fall .endless
  | turns + 1 => do
    let item ← next
    if item.kind = .space then wordWithin turns else return item

def nextWord : Strict Item := do
  wordWithin (← read).turns

def peekWord : Strict Item := do
  let item ← nextWord
  backup
  return item

def unexpected {α : Type} (item : Item) (context : String) : Strict α := do
  if item.kind = .mistake then
    complain (String.ofList item.text ++ actionNote (← read).name (← get).actionLine item)
  else complain ("unexpected " ++ item.describe ++ " in " ++ context)

def expectClosing (context : String) : Strict Unit := do
  let item ← nextWord
  if item.kind ≠ .closing then unexpected item context

/-! ## Operands -/

def checkString (item : Item) : Strict Unit := do
  if item.kind = .string then
    if !(← guarded (stringVerdict (← read).turns item.text)) then complain "invalid syntax"

def checkConstant (item : Item) : Strict Unit := do
  match ← guarded (constantVerdict item.text) with
  | none => return ()
  | some .invalid => complain "invalid syntax"
  | some .malformed => complain ("malformed character constant: " ++ String.ofList item.text)

def simpleTerm (item : Item) : Strict (Option Operand) := do
  match item.kind with
  | .identifier =>
    if !isFunction (String.ofList item.text) then
      complain ("function " ++ Text.escaped (String.ofList item.text) ++ " not defined")
    return some .identifier
  | .dot => return some .dot
  | .nil => return some .nil
  | .var =>
    if !(← get).vars.contains (String.ofList item.text) then
      complain ("undefined variable " ++ Text.escaped (String.ofList item.text))
    return some .var
  | .field => return some .field
  | .bool => return some .bool
  | .charConstant =>
    checkConstant item
    return some .number
  | .number =>
    if !isValidNumber item.text then
      complain ("illegal number syntax: " ++ Text.escaped (String.ofList item.text))
    return some .number
  | .string | .rawString =>
    checkString item
    return some .string
  | _ =>
    backup
    return none

/-- The first place from another on whose item is not blank, with at most so many steps. -/
def firstWord : (turns place : Nat) → Strict Nat
  | 0, _ => fall .endless
  | turns + 1, place => do
    if ((← read).item place).kind = .space then firstWord turns (place + 1) else return place

/-- Skips the fields behind an operand, of which there are less than `turns`. -/
def skipFields : (turns : Nat) → Strict Unit
  | 0 => fall .endless
  | turns + 1 => do
    if (← peek).kind = .field then
      discard next
      skipFields turns

/-- A complaint about a field behind a term that takes none, where the search for the term began at `start`. -/
def strayField (start : Nat) : Strict Unit := do
  let source ← read
  let place ← firstWord source.turns start
  complain ("unexpected . after term " ++ Text.escaped (String.ofList (source.item place).text))

/-- A term with the fields behind it, where the search for the term began at `start`. -/
def withFields (start : Nat) (term : Operand) : Strict Operand := do
  if (← peek).kind ≠ .field then return term
  if term.isPlain then strayField start
  skipFields (← read).turns
  return if term = .field ∨ term = .var then term else .chain

def operand (inner : Strict Unit) : Strict (Option Operand) := do
  let start := (← get).place
  let item ← nextWord
  let term ← if item.kind = .leftParen then do
      inner
      pure (some .pipe)
    else simpleTerm item
  match term with
  | none => return none
  | some term => some <$> withFields start term

/-! ## Pipelines -/

def command (inner : Strict Unit) : (turns : Nat) → (first : Option Operand) → Strict Operand
  | 0, _ => fall .endless
  | turns + 1, first => do
    discard peekWord
    let found ← operand inner
    let first := first.or found
    let item ← next
    match item.kind with
    | .space => command inner turns first
    | .closing | .rightParen | .pipe =>
      if item.kind ≠ .pipe then backup
      match first with
      | some operand => return operand
      | none => complain "empty command"
    | _ => unexpected item "operand"

def checkStages (context : String) (commands : List Operand) : Strict Unit := do
  if commands.isEmpty then complain ("missing value for " ++ context)
  match plainStage? commands with
  | some stage => complain ("non executable command in pipeline stage " ++ toString stage)
  | none => return ()

def commands (inner : Strict Unit) (context : String) (ending : Kind) : (turns : Nat) → Strict (List Operand)
  | 0 => fall .endless
  | turns + 1 => do
    let item ← nextWord
    if item.kind = ending then return []
    else if startsCommand item.kind then
      backup
      let first ← command inner (← read).turns none
      return first :: (← commands inner context ending turns)
    else unexpected item context

def declareVar (item : Item) : Strict Unit :=
  modify fun cursor => { cursor with vars := String.ofList item.text :: cursor.vars }

/-- The declarations at the start of a pipeline, behind so many others. -/
def declarations (context : String) : (turns declared : Nat) → Strict Unit
  | 0, _ => fall .endless
  | turns + 1, declared => do
    let item ← peekWord
    if item.kind ≠ .var then return ()
    let start := (← get).place
    discard next
    let sign ← peekWord
    if sign.kind = .assign ∨ sign.kind = .declare then
      discard nextWord
      declareVar item
    else if sign.kind = .char ∧ sign.text = [','] then
      discard nextWord
      declareVar item
      if context = "range" ∧ declared + 1 < 2 then
        match (← peekWord).kind with
        | .var | .closing | .rightParen => declarations context turns (declared + 1)
        | _ => complain "range can only initialize variables"
      else complain ("too many declarations in " ++ context)
    else goTo start

def pipelineWith (inner : Strict Unit) (context : String) (ending : Kind) : Strict Unit := do
  declarations context (← read).turns 0
  let found ← commands inner context ending (← read).turns
  checkStages context found

/-- A pipeline in parentheses, with parentheses nested less than `turns` deep. -/
def parenthesized : (turns : Nat) → Strict Unit
  | 0 => fall .endless
  | turns + 1 => pipelineWith (parenthesized turns) "parenthesized pipeline" .rightParen

def pipeline (context : String) : Strict Unit := do
  pipelineWith (parenthesized (← read).turns) context .closing

/-! ## Actions and structures -/

def clauseName (context : String) : Strict Unit := do
  let name ← nextWord
  if name.kind ≠ .string ∧ name.kind ≠ .rawString then unexpected name context
  checkString name

def openNamed (kind : Named) : Strict Unit :=
  modify fun cursor =>
    { cursor with vars := ["$"], loops := 0, frames := .named kind cursor.vars cursor.loops :: cursor.frames }

def openMain (kind : Control) (vars : List String) : Strict Unit := do
  pipeline kind.word
  modify fun cursor =>
    { cursor with
      loops := if kind = .rangeLoop then cursor.loops + 1 else cursor.loops
      frames := .main kind vars :: cursor.frames }

def loopControl (word : String) : Strict Unit := do
  let item ← nextWord
  if item.kind ≠ .closing then unexpected item word
  if (← get).loops = 0 then complain (word ++ " outside \x7b\x7brange\x7d\x7d")

def templateCall : Strict Unit := do
  clauseName "template clause"
  let item ← nextWord
  if item.kind ≠ .closing then
    backup
    pipeline "template clause"

def action : Strict Flow := do
  let item ← nextWord
  match item.kind with
  | .keyword .block =>
    clauseName "block clause"
    pipeline "block clause"
    openNamed .block
    return .stays
  | .keyword .breakLoop =>
    loopControl "\x7b\x7bbreak\x7d\x7d"
    return .stays
  | .keyword .continueLoop =>
    loopControl "\x7b\x7bcontinue\x7d\x7d"
    return .stays
  | .keyword .elseBranch =>
    let word ← peekWord
    if word.kind ≠ .keyword .ifBranch ∧ word.kind ≠ .keyword .withScope then expectClosing "else"
    return .alternates
  | .keyword .endMark =>
    expectClosing "end"
    return .closes
  | .keyword .ifBranch =>
    openMain .ifBranch (← get).vars
    return .stays
  | .keyword .rangeLoop =>
    openMain .rangeLoop (← get).vars
    return .stays
  | .keyword .withScope =>
    openMain .withScope (← get).vars
    return .stays
  | .keyword .template =>
    templateCall
    return .stays
  | _ =>
    backup
    pipeline "command"
    return .stays

/-- The loops that may be left behind the first body of a control structure. -/
def loopsOutside (kind : Control) (loops : Nat) : Except Breach Nat :=
  if kind = .rangeLoop then if loops = 0 then .error .loops else .ok (loops - 1) else .ok loops

def close : Strict Unit := do
  let cursor ← get
  match cursor.frames with
  | [] => complain "unexpected \x7b\x7bend\x7d\x7d"
  | .named _ vars loops :: frames => set { cursor with vars, loops, frames }
  | .main kind vars :: frames =>
    let loops ← guarded (loopsOutside kind cursor.loops)
    set { cursor with vars, loops, frames }
  | .other vars :: frames => set { cursor with vars, frames }

def alternate : Strict Unit := do
  let cursor ← get
  match cursor.frames with
  | [] => complain "unexpected \x7b\x7belse\x7d\x7d"
  | .named kind _ _ :: _ => complain ("unexpected \x7b\x7belse\x7d\x7d in " ++ kind.clause)
  | .other _ :: _ => complain "expected end; found \x7b\x7belse\x7d\x7d"
  | .main kind vars :: frames =>
    let loops ← guarded (loopsOutside kind cursor.loops)
    set { cursor with loops, frames }
    let item ← peek
    if item.kind = .keyword .ifBranch ∧ kind = .ifBranch ∨
        item.kind = .keyword .withScope ∧ kind = .withScope then
      discard next
      openMain kind vars
    else modify fun cursor => { cursor with frames := .other vars :: cursor.frames }

def setActionLine (line : Nat) : Strict Unit :=
  modify fun cursor => { cursor with actionLine := line }

def textOrAction : Strict Unit := do
  let item ← nextWord
  match item.kind with
  | .text => return ()
  | .opening =>
    setActionLine item.line
    let depth := (← get).frames.length
    match ← action with
    | .stays => if (← get).frames.length = depth then setActionLine 0
    | .closes =>
      setActionLine 0
      close
    | .alternates =>
      setActionLine 0
      alternate
  | _ => unexpected item "input"

def startsDefinition : Strict Bool := do
  let start := (← get).place
  match (← next).kind with
  | .opening =>
    if (← nextWord).kind = .keyword .define then return true
    goTo start
    return false
  | _ =>
    goTo start
    return false

def openDefinition : Strict Unit := do
  clauseName "define clause"
  expectClosing "define clause"
  openNamed .define

def checkRest : (turns : Nat) → Strict Unit
  | 0 => fall .endless
  | turns + 1 => do
    if (← get).frames.isEmpty then
      if (← peek).kind = .eof then return ()
      if ← startsDefinition then openDefinition else textOrAction
    else
      if (← peekWord).kind = .eof then complain "unexpected EOF"
      textOrAction
    checkRest turns

/-- Leaves the structures that are open where a mistake was found, the innermost first. -/
def unwind : List Frame → (loops : Nat) → Except Breach Nat
  | [], loops => .ok loops
  | .named _ _ outer :: frames, _ => unwind frames outer
  | .main kind _ :: frames, loops => loopsOutside kind loops >>= unwind frames
  | .other _ :: frames, loops => unwind frames loops

/-- What comes of a run. -/
def outcome : Except Stop (Unit × Cursor) → Except Breach (Except TemplateError Unit)
  | .ok _ => .ok (.ok ())
  | .error (.breach breach) => .error breach
  | .error (.mistake error frames loops) => do
    discard (unwind frames loops)
    return .error error

/-- Checks a template, in which no loop may turn more often than `turns` times. -/
def check (turns : Nat) (name text : String) : Except Breach (Except TemplateError Unit) := do
  let items ← guardedFrom .text 0 1 text.toList
  outcome (checkRest turns ⟨name, items, turns⟩ ⟨0, 0, ["$"], 0, 0, []⟩)

end QueryScope.Template.Guarded
