import QueryScope.Label.Name
import QueryScope.Scan.Basic

/-!
# Words and blanks of queries

Blanks with comments, names, keywords and lists of labels.
-/

namespace QueryScope.Scan

/-- A blank between the words of a query. -/
def isSpace (c : Char) : Bool :=
  c == ' ' || c == '\t' || c == '\r' || c == '\n'

/-- The text behind blanks and comments; a comment goes from a number sign to the end of its line. -/
def dropBlanks : (inComment : Bool) → List Char → List Char
  | _, [] => []
  | true, c :: rest => dropBlanks (c != '\n') rest
  | false, c :: rest =>
    if isSpace c then dropBlanks false rest
    else if c = '#' then dropBlanks true rest
    else c :: rest

/-- Skips blanks and comments. -/
def blanks : Scanner Unit :=
  fun input => .ok ((), dropBlanks false input)

/-- The scanner's value behind blanks; where it fails without being final nothing is read, not even the
blanks. -/
def optBehindBlanks {α : Type} (scanner : Scanner α) : Scanner (Option α) :=
  opt (do blanks; scanner)

/-- A word that starts and goes on with characters of two classes. -/
def word (isStart isPart : Char → Bool) : Scanner String := fun input =>
  if input.head?.any isStart then
    .ok (String.ofList (input.takeWhile isPart), input.dropWhile isPart)
  else .error ⟨false, [], input⟩

/-- A label name. -/
def labelName : Scanner String :=
  word Label.isNameStart Text.isWordChar

/-- A metric name. -/
def metricName : Scanner String :=
  word Label.isMetricNameStart Label.isMetricNameChar

/-- The text behind a keyword, if the text begins with it and no name goes on there. -/
def afterKeyword? (keyword : String) (text : List Char) : Option (List Char) :=
  (Text.after? keyword.toList text).filter fun rest => !rest.head?.any Label.isMetricNameChar

/-- Exactly this keyword. -/
def keyword (name : String) : Scanner Unit := fun input =>
  match afterKeyword? name input with
  | some rest => .ok ((), rest)
  | none => .error ⟨false, [], input⟩

/-- This keyword if it comes next. -/
def optKeyword (name : String) : Scanner Bool := do
  return (← opt (keyword name)).isSome

/-- The value of the first keyword of a list that comes next. -/
def keywordOf {α : Type} (table : List (String × α)) : Scanner α := fun input =>
  match table.findSome? fun entry => (afterKeyword? entry.1 input).map (entry.2, ·) with
  | some result => .ok result
  | none => .error ⟨false, [], input⟩

/-- The value of the first literal of a list that comes next. -/
def literalOf {α : Type} (table : List (String × α)) : Scanner α := fun input =>
  match table.findSome? fun entry => (Text.after? entry.1.toList input).map (entry.2, ·) with
  | some result => .ok result
  | none => .error ⟨false, [], input⟩

/-- Items between commas up to a closing text. A comma may stand before the closing text. The count
bounds the number of items. -/
def itemsUntil {α : Type} (item : Scanner α) (close closeNote : String) : Nat → Scanner (List α)
  | 0 => miss
  | count + 1 => do
    blanks
    if ← optLiteral close then return []
    let first ← item
    blanks
    if ← optLiteral "," then
      return first :: (← itemsUntil item close closeNote count)
    expecting closeNote (commit (literal close))
    return [first]

/-- Items between commas up to a closing text, as many as the input holds. -/
def listUntil {α : Type} (item : Scanner α) (close closeNote : String) : Scanner (List α) :=
  fun input => itemsUntil item close closeNote (input.length + 1) input

/-- What follows `left` in a text of operands joined to the left by separators. The bound is more than
the number of operands. -/
def joinedLeft {α : Type} (operand : Scanner α) (separator : Scanner Unit) (join : α → α → α) :
    (bound : Nat) → (left : α) → Scanner α
  | 0, left => return left
  | bound + 1, left => do
    match ← optBehindBlanks separator with
    | none => return left
    | some () =>
      blanks
      let right ← operand
      joinedLeft operand separator join bound (join left right)

/-- The items behind the first one of a list with commas. The bound is more than their number. -/
def itemsBehindCommas {α : Type} (item : Scanner α) : (bound : Nat) → Scanner (List α)
  | 0 => return []
  | bound + 1 => do
    match ← optBehindBlanks (literal ",") with
    | none => return []
    | some () =>
      blanks
      let first ← item
      return first :: (← itemsBehindCommas item bound)

/-- At least one item, and commas between them. -/
def commaList {α : Type} (item : Scanner α) : Scanner (List α) := do
  let first ← item
  return first :: (← itemsBehindCommas item ((← get).length + 1))

/-- A list of label names in parentheses. -/
def labelList : Scanner (List String) := do
  literal "("
  listUntil (expecting "label name" (commit labelName)) ")" "',' or ')'"

end QueryScope.Scan
