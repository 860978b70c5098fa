import QueryScope.Pattern.Basic
import QueryScope.Pattern.Property
import QueryScope.Text.Blank
import QueryScope.Text.Digits
import QueryScope.Text.Letter

/-!
# Reading regular expressions

The syntax has groups, named groups, flags, classes with set operations, counted repetition and
escapes. There are no references to earlier groups and no conditions on what surrounds a match
other than assertions. Texts are sequences of characters, so that a class outside the Unicode mode
must not reach beyond ASCII.
-/

namespace QueryScope.Pattern

/-- The flags that bear on reading. -/
structure Mode where
  /-- blanks and comments between the parts are skipped -/
  spaced : Bool := false
  /-- classes are classes of Unicode characters -/
  unicode : Bool := true
deriving DecidableEq

/-- A reader of the start of a pattern. -/
abbrev Reader := StateT (List Char) Option

namespace Reader

/-- The next character, which is not read. -/
def look : Reader (Option Char) :=
  fun text => some (text.head?, text)

/-- The next character. -/
def next : Reader Char
  | [] => none
  | c :: rest => some (c, rest)

/-- Reads this text if it comes next. -/
def take? (lead : String) : Reader Bool := fun text =>
  match Text.after? lead.toList text with
  | some rest => some (true, rest)
  | none => some (false, text)

/-- Reads the first of these texts that comes next. -/
def takeAny? : List String → Reader Bool
  | [] => return false
  | lead :: leads => do
    if ← take? lead then return true else takeAny? leads

/-- The text behind blanks and comments. -/
def dropSpace : (inComment : Bool) → List Char → List Char
  | _, [] => []
  | true, c :: rest => dropSpace (c != '\n') rest
  | false, c :: rest =>
    if Text.isBlank c then dropSpace false rest
    else if c = '#' then dropSpace true rest
    else c :: rest

/-- Skips blanks and comments where the mode says so. -/
def skip (mode : Mode) : Reader Unit :=
  fun text => some ((), if mode.spaced then dropSpace false text else text)

/-- Goes on only if the condition holds. -/
def require (condition : Bool) : Reader Unit :=
  fun text => if condition then some ((), text) else none

/-- The next character, and then blanks where the mode skips them. -/
def nextAndSkip (mode : Mode) : Reader Char := do
  let c ← next
  skip mode
  return c

/-- The characters before a closing brace, which is read too. Blanks are skipped behind each character
but not behind the brace. The count bounds the number of characters. -/
def untilBrace (mode : Mode) : Nat → Reader (List Char)
  | 0 => fun _ => none
  | count + 1 => do
    let c ← next
    if c = '\x7d' then return []
    skip mode
    return c :: (← untilBrace mode count)

/-- The characters before a closing brace, as many as there are. -/
def braced (mode : Mode) : Reader (List Char) :=
  fun text => untilBrace mode (text.length + 1) text

end Reader

open Reader

/-- A part of a pattern that is neither a group nor a bracketed class. -/
inductive Atom where
  /-- a character; `byte` marks one written as `\xFF`, which is a byte outside the Unicode mode -/
  | literal (c : Char) (byte : Bool)
  | assertion (condition : Assertion)
  | dot
  /-- a class of digits, blanks or word characters, or of all others -/
  | shorthand (negated : Bool)
  /-- a class by a character property -/
  | property

/-- The atom holds only whole characters in this mode. -/
def Atom.fits (mode : Mode) : Atom → Bool
  | literal c byte => mode.unicode || !byte || c.toNat < 128
  | assertion _ => true
  | dot => mode.unicode
  | shorthand negated => mode.unicode || !negated
  | property => mode.unicode

/-- What the atom matches. -/
def Atom.pattern : Atom → Pattern
  | assertion condition => .assertion condition
  | _ => .character

/-- A character with a meaning of its own, which an escape takes away. -/
def isMeta (c : Char) : Bool :=
  "\\.+*?()|[]\x7b\x7d^$#&-~".toList.contains c

/-- A character that may follow a backslash and then stands for itself. -/
def isEscapable (c : Char) : Bool :=
  isMeta c || (c.toNat < 128 && !c.isAlphanum && c != '<' && c != '>')

/-- A given number of hexadecimal digits. -/
def fixedHex (mode : Mode) : Nat → Reader (List Char)
  | 0 => return []
  | width + 1 => do
    let c ← next
    require (Text.isHexDigit c)
    skip mode
    return c :: (← fixedHex mode width)

/-- The character with a code point. -/
def characterOf (digits : List Char) : Reader Char :=
  fun text => ((Text.numeral? 16 digits).bind Text.charOfCode?).map (·, text)

/-- The escape of a code point behind its letter. -/
def codeEscape (mode : Mode) (letter : Char) : Reader Atom := do
  skip mode
  if (← look) = some '\x7b' then
    discard (nextAndSkip mode)
    let digits ← braced mode
    skip mode
    require (digits.all Text.isHexDigit)
    return .literal (← characterOf digits) false
  else
    let width := if letter = 'x' then 2 else if letter = 'u' then 4 else 8
    return .literal (← characterOf (← fixedHex mode width)) (letter = 'x')

/-- The escape of a character property behind its letter. -/
def propertyEscape (mode : Mode) : Reader Atom := do
  skip mode
  let c ← next
  if c = '\x7b' then
    skip mode
    require (isPropertyQuery (← braced mode))
    return .property
  else
    skip mode
    require (c != '\\' && isPropertyName [c])
    return .property

/-- A letter of the name of a word assertion. -/
def isAssertionLetter (c : Char) : Bool :=
  c.isAlpha || c == '-'

/-- The word assertion with a name. -/
def wordAssertion? (name : List Char) : Option Assertion :=
  match String.ofList name with
  | "start" => some .wordStart
  | "end" => some .wordEnd
  | "start-half" => some .wordStartHalf
  | "end-half" => some .wordEndHalf
  | _ => none

/-- What follows the letter of a word boundary: a name in braces, or nothing. Braces that do not start
with a letter are a repetition, which is left to be read later. -/
def boundaryEscape (mode : Mode) : Reader Assertion := fun text =>
  match text with
  | '\x7b' :: rest =>
    match (skip mode) rest with
    | none | some ((), []) => none
    | some ((), c :: tail) =>
      if isAssertionLetter c then
        match (braced mode) (c :: tail) with
        | none => none
        | some (name, behind) => (wordAssertion? name).map (·, behind)
      else some (.wordBoundary, text)
  | _ => some (.wordBoundary, text)

/-- An escape behind its backslash. -/
def escape (mode : Mode) : Reader Atom := do
  let c ← next
  if c = 'x' ∨ c = 'u' ∨ c = 'U' then codeEscape mode c
  else if c = 'p' ∨ c = 'P' then propertyEscape mode
  else if c = 'd' ∨ c = 's' ∨ c = 'w' then return .shorthand false
  else if c = 'D' ∨ c = 'S' ∨ c = 'W' then return .shorthand true
  else if isEscapable c then return .literal c false
  else if c = 'a' then return .literal '\x07' false
  else if c = 'f' then return .literal '\x0c' false
  else if c = 't' then return .literal '\t' false
  else if c = 'n' then return .literal '\n' false
  else if c = 'r' then return .literal '\r' false
  else if c = 'v' then return .literal '\x0b' false
  else if c = 'A' then return .assertion .textStart
  else if c = 'z' then return .assertion .textEnd
  else if c = 'b' then return .assertion (← boundaryEscape mode)
  else if c = 'B' then return .assertion .notWordBoundary
  else if c = '<' then return .assertion .wordStart
  else if c = '>' then return .assertion .wordEnd
  else fun _ => none

/-- An atom outside brackets. -/
def atom (mode : Mode) : Reader Atom := do
  let c ← next
  if c = '\\' then escape mode
  else if c = '.' then return .dot
  else if c = '^' then return .assertion .lineStart
  else if c = '$' then return .assertion .lineEnd
  else return .literal c false

/-! ## Bracketed classes -/

/-- The names of the ASCII classes. -/
def asciiClasses : List String :=
  ["alnum", "alpha", "ascii", "blank", "cntrl", "digit", "graph", "lower", "print", "punct", "space",
    "upper", "word", "xdigit"]

/-- The ASCII class at the start of a text, whether it is negated, and the text behind it. -/
def asciiClass? (text : List Char) : Option (Bool × List Char) :=
  match Text.after? ['[', ':'] text with
  | none => none
  | some rest =>
    let (negated, nameAnd) :=
      match rest with
      | '^' :: tail => (true, tail)
      | tail => (false, tail)
    let name := nameAnd.takeWhile (· != ':')
    match Text.after? [':', ']'] (nameAnd.dropWhile (· != ':')) with
    | none => none
    | some behind => if asciiClasses.contains (String.ofList name) then some (negated, behind) else none

/-- The character that decides, behind a hyphen, whether the hyphen makes a range: the first one that
is neither blank nor the first number sign, or the very next one. -/
def behindHyphen (mode : Mode) (rest : List Char) : Option Char :=
  if mode.spaced then
    match rest.dropWhile Text.isBlank with
    | '#' :: tail => (tail.dropWhile Text.isBlank).head?.or rest.head?
    | tail => tail.head?.or rest.head?
  else rest.head?

/-- A member of a bracketed class. -/
def member (mode : Mode) : Reader Atom := do
  let c ← next
  if c = '\\' then escape mode else return .literal c false

/-- An atom that may stand in a class. -/
def Atom.isMember (mode : Mode) : Atom → Bool
  | assertion _ | dot => false
  | literal c byte => (literal c byte).fits mode && (mode.unicode || c.toNat < 128)
  | other => other.fits mode

/-- The character that an end of a range writes. -/
def Atom.rangeEnd? (mode : Mode) : Atom → Option Char
  | literal c byte => if (literal c byte).isMember mode then some c else none
  | _ => none

/-- One member or one range of a class. -/
def memberOrRange (mode : Mode) : Reader Unit := do
  let first ← member mode
  skip mode
  let rest ← get
  match rest with
  | [] => fun _ => none
  | c :: tail =>
    let follower := behindHyphen mode tail
    if c ≠ '-' ∨ follower = some ']' ∨ follower = some '-' then
      require (first.isMember mode)
    else
      discard (nextAndSkip mode)
      let second ← member mode
      match first.rangeEnd? mode, second.rangeEnd? mode with
      | some low, some high => require (low ≤ high)
      | _, _ => fun _ => none

/-- Hyphens that stand for themselves at the start of a class. -/
def leadingHyphens (mode : Mode) : Nat → Reader Bool
  | 0 => return false
  | count + 1 => do
    if (← look) = some '-' then
      discard (nextAndSkip mode)
      discard (leadingHyphens mode count)
      return true
    else return false

/-- The opening of a class: a negation, hyphens, or a closing bracket that stands for itself. A negated
class reaches beyond ASCII. -/
def openClass (mode : Mode) : Reader Unit := do
  discard (nextAndSkip mode)
  if (← look) = some '^' then
    discard (nextAndSkip mode)
    require mode.unicode
  let hyphens ← leadingHyphens mode (← get).length
  if !hyphens && (← look) = some ']' then discard (nextAndSkip mode)
  require (← look).isSome

/-- The operations on the sets of members of a class: intersection and two kinds of difference. -/
def setOperations : List String :=
  ["&&", "--", "~~"]

/-- The parts of a bracketed class in which brackets are open around the innermost one. The count
bounds the number of parts. -/
def classParts (mode : Mode) : (count outer : Nat) → Reader Unit
  | 0, _ => fun _ => none
  | count + 1, outer => do
    skip mode
    let text ← get
    match text with
    | [] => fun _ => none
    | '[' :: _ =>
      match asciiClass? text with
      | some (negated, rest) =>
        require (mode.unicode || !negated)
        set rest
        classParts mode count outer
      | none =>
        openClass mode
        classParts mode count (outer + 1)
    | ']' :: rest =>
      set rest
      match outer with
      | 0 => return ()
      | outer + 1 => classParts mode count outer
    | _ =>
      if !(← takeAny? setOperations) then memberOrRange mode
      classParts mode count outer

/-- A bracketed class. -/
def bracketClass (mode : Mode) : Reader Unit := do
  openClass mode
  classParts mode ((← get).length + 1) 0

/-! ## Repetition counts -/

/-- Digits with blanks between them where the mode skips them. -/
def countDigits (mode : Mode) : Nat → Reader (List Char)
  | 0 => return []
  | bound + 1 => do
    match ← look with
    | some c =>
      if c.isDigit then
        discard (nextAndSkip mode)
        return c :: (← countDigits mode bound)
      else return []
    | none => return []

/-- Blanks, and comments where the mode skips them. -/
def countBlanks (mode : Mode) : Nat → Reader Unit
  | 0 => return ()
  | bound + 1 => do
    if (← look).any Text.isBlank then
      discard (nextAndSkip mode)
      countBlanks mode bound

/-- A count of at most 32 bits with blanks around it. -/
def repeatCount (mode : Mode) : Reader Nat := do
  modify (·.dropWhile Text.isBlank)
  let length := (← get).length
  let digits ← countDigits mode length
  countBlanks mode length
  match Text.numeral? 10 digits with
  | some n => if n < Nat.pow 2 32 then return n else fun _ => none
  | none => fun _ => none

/-- The least number of times of a counted repetition, behind its opening brace. -/
def counts (mode : Mode) : Reader Nat := do
  skip mode
  let least ← repeatCount mode
  if ← take? "," then
    skip mode
    if (← look) ≠ some '\x7d' then
      let most ← repeatCount mode
      require (least ≤ most)
  require ((← nextAndSkip mode) = '\x7d')
  discard (take? "?")
  return least

/-! ## Groups and flags -/

/-- What stands between two bars of a pattern, one after the other. -/
inductive Item where
  /-- a change of flags, which cannot be repeated -/
  | flags
  | part (pattern : Pattern)

/-- The pattern of an item. -/
def Item.pattern : Item → Pattern
  | flags => .empty
  | part pattern => pattern

/-- A group that is being read. -/
structure Level where
  /-- the branches before the last bar, the last one first -/
  branches : List Pattern := []
  /-- the items behind the last bar, the last one first -/
  items : List Item := []
  /-- the mode to go back to behind the group -/
  outerMode : Mode := {}

/-- The pattern of items given in reverse. -/
def sequenceOf (items : List Item) : Pattern :=
  items.foldl (fun rest item => .sequence item.pattern rest) .empty

/-- The pattern of the group. -/
def Level.pattern (level : Level) : Pattern :=
  level.branches.foldl (fun rest branch => .choice branch rest) (sequenceOf level.items)

/-- Adds an item. -/
def Level.add (level : Level) (item : Item) : Level :=
  { level with items := item :: level.items }

/-- Repeats the last item; there must be one. -/
def Level.repeatLast? (level : Level) (least : Nat) : Option Level :=
  match level.items with
  | .part body :: items => some { level with items := .part (.repeated least body) :: items }
  | _ => none

/-- The flags of a group up to its colon or closing parenthesis: the flags seen, the new mode, and
whether a hyphen has been seen. -/
def flagLetters (mode : Mode) : (bound : Nat) → (seen : List Char) → Reader (List Char × Mode × Char)
  | 0, _ => fun _ => none
  | bound + 1, seen => do
    let c ← next
    if c = ':' ∨ c = ')' then
      require (seen.head? != some '-')
      return (seen, mode, c)
    else
      require ("imsUuRx-".toList.contains c && !seen.contains c)
      let value := !seen.contains '-'
      let mode :=
        if c = 'x' then { mode with spaced := value }
        else if c = 'u' then { mode with unicode := value }
        else mode
      flagLetters mode bound (c :: seen)

/-- A character of a group name. -/
def isGroupNameChar (first : Bool) (c : Char) : Bool :=
  if first then c == '_' || Text.isLetter c
  else c == '_' || c == '.' || c == '[' || c == ']' || Text.isLetterOrNumeral c

/-- The name of a group, up to and with its closing angle. -/
def groupName : Reader (List Char) := fun text =>
  let name := text.takeWhile (· != '>')
  match name, text.dropWhile (· != '>') with
  | c :: tail, _ :: rest =>
    if isGroupNameChar true c && tail.all (isGroupNameChar false) then some (name, rest) else none
  | _, _ => none

/-- How far a pattern has been read. -/
structure State where
  mode : Mode := {}
  level : Level := {}
  outer : List Level := []
  names : List (List Char) := []

/-- Opens a group in a mode. -/
def State.enter (state : State) (mode : Mode) : State :=
  { state with
    mode
    level := { outerMode := state.mode }
    outer := state.level :: state.outer }

/-- Openings of conditions on what surrounds a match, which are refused. -/
def surroundings : List String :=
  ["?=", "?!", "?<=", "?<!"]

/-- The opening of a group behind its parenthesis, or a change of flags. -/
def openGroup (state : State) : Reader State := do
  skip state.mode
  let text ← get
  require (!surroundings.any fun lead => (Text.after? lead.toList text).isSome)
  let named ← takeAny? ["?P<", "?<"]
  if named then
    let name ← groupName
    require (!state.names.contains name)
    return { state.enter state.mode with names := name :: state.names }
  else if ← take? "?" then
    let (seen, mode, close) ← flagLetters state.mode ((← get).length + 1) []
    if close = ':' then return state.enter mode
    else
      require (!seen.isEmpty)
      return { state with mode, level := state.level.add .flags }
  else return state.enter state.mode

/-- Closes the innermost group. -/
def State.close? (state : State) : Option State :=
  match state.outer with
  | [] => none
  | level :: outer =>
    some { state with mode := state.level.outerMode, level := level.add (.part state.level.pattern), outer }

/-- Reads one item of a pattern, of which the next character is `c`. -/
def step (state : State) (c : Char) : Reader State := do
  let repeatLast (least : Nat) : Reader State := fun text =>
    (state.level.repeatLast? least).map fun level => ({ state with level }, text)
  if c = '(' then
    discard next
    openGroup state
  else if c = ')' then
    discard next
    fun text => state.close?.map (·, text)
  else if c = '|' then
    discard next
    let level := { state.level with branches := sequenceOf state.level.items :: state.level.branches, items := [] }
    return { state with level }
  else if c = '[' then
    bracketClass state.mode
    return { state with level := state.level.add (.part .character) }
  else if c = '?' ∨ c = '*' ∨ c = '+' then
    discard next
    discard (take? "?")
    repeatLast (if c = '+' then 1 else 0)
  else if c = '\x7b' then
    discard next
    repeatLast (← counts state.mode)
  else
    let part ← atom state.mode
    require (part.fits state.mode)
    return { state with level := state.level.add (.part part.pattern) }

/-- Reads items up to the end of the pattern. The bound is more than the number of items. -/
def items : (bound : Nat) → State → Reader Pattern
  | 0, _ => fun _ => none
  | bound + 1, state => do
    skip state.mode
    match ← look with
    | none =>
      require state.outer.isEmpty
      return state.level.pattern
    | some c => items bound (← step state c)

/-- The pattern that a text writes. -/
def parse? (text : List Char) : Option Pattern :=
  ((items (text.length + 1) {}) text).map (·.1)

/-- A text that writes a pattern. -/
def isValid (text : String) : Bool :=
  (parse? text.toList).isSome

/-- The whole of the empty text matches the pattern that a text writes. -/
def acceptsEmpty (text : String) : Bool :=
  (parse? ("^(?:" ++ text ++ ")$").toList).any matchesEmpty

end QueryScope.Pattern
