import QueryScope.Text.Digits
import QueryScope.Text.Lead
import QueryScope.Toml.Scalar
import QueryScope.Toml.Value

/-!
# Reading settings documents

Settings are texts. Of other scalars only the form is read.
-/

namespace QueryScope.Toml

/-- A reading step over the rest of the text, which may fail. -/
abbrev Reading := StateT (List Char) Option

/-- A character that texts and comments may hold. -/
def isAllowed (c : Char) : Bool :=
  c == '\t' || (' ' ≤ c && c != '\x7f')

/-- A character of keys without quotes. -/
def isKeyChar (c : Char) : Bool :=
  c.isAlphanum || c == '_' || c == '-'

/-- The text behind the end of the line at its start. -/
def afterNewline? : List Char → Option (List Char)
  | '\n' :: rest => some rest
  | '\r' :: '\n' :: rest => some rest
  | _ => none

namespace Reading

/-- The next character. -/
def peek : Reading (Option Char) :=
  return (← get).head?

/-- Passes over the given characters. -/
def expect (mark : String) : Reading Unit := fun text =>
  (Text.after? mark.toList text).map ((), ·)

/-- Passes over the given characters, if they are there. -/
def accept (mark : String) : Reading Bool := fun text =>
  match Text.after? mark.toList text with
  | some rest => some (true, rest)
  | none => some (false, text)

/-- Passes over blanks. -/
def blanks : Reading Unit :=
  modify (·.dropWhile fun c => c == ' ' || c == '\t')

/-- Passes over a comment. -/
def comment : Reading Unit :=
  modify fun text => if text.head? = some '#' then text.dropWhile isAllowed else text

/-- Passes over the end of a line, which a comment may stand before. -/
def lineEnd : Reading Unit := do
  blanks
  comment
  match ← get with
  | [] => return ()
  | text =>
    match afterNewline? text with
    | some rest => set rest
    | none => failure

/-- Passes over blanks, comments and ends of lines. -/
def blankLines : Nat → Reading Unit
  | 0 => return ()
  | bound + 1 => do
    blanks
    comment
    match afterNewline? (← get) with
    | some rest =>
      set rest
      blankLines bound
    | none => return ()

/-- Passes over blanks, comments and ends of lines. -/
def gap : Reading Unit := do
  blankLines ((← get).length + 1)

end Reading

/-- The characters that one letter stands for behind a backslash. -/
def shortEscapes : List (Char × Char) :=
  [('b', '\x08'), ('t', '\t'), ('n', '\n'), ('f', '\x0c'), ('r', '\r'), ('e', '\x1b'), ('"', '"'),
    ('\\', '\\')]

/-- The letters before the hexadecimal code of a character, with the number of digits. -/
def codeEscapes : List (Char × Nat) :=
  [('x', 2), ('u', 4), ('U', 8)]

/-- The character that a letter and what follows write behind a backslash, and the text behind it. -/
def escaped? : List Char → Option (Char × List Char)
  | [] => none
  | letter :: rest =>
    match shortEscapes.lookup letter, codeEscapes.lookup letter with
    | some c, _ => some (c, rest)
    | none, some digits =>
      if (rest.take digits).length = digits then
        ((Text.numeral? 16 (rest.take digits)).bind Text.charOfCode?).map (·, rest.drop digits)
      else none
    | none, none => none

/-- The rest of a text on one line behind what was read. -/
def lineText? (quote : Char) : Nat → List Char → List Char → Option (String × List Char)
  | 0, _, _ => none
  | _, _, [] => none
  | bound + 1, found, c :: rest =>
    if c == quote then some (String.ofList found.reverse, rest)
    else if c == '\\' && quote == '"' then
      match escaped? rest with
      | some (x, behind) => lineText? quote bound (x :: found) behind
      | none => none
    else if isAllowed c then lineText? quote bound (c :: found) rest
    else none

/-- The text behind blanks and ends of lines, of which there is at least one. -/
def afterLineGap? (text : List Char) : Option (List Char) :=
  let isGap (c : Char) : Bool := c == ' ' || c == '\t' || c == '\n' || c == '\r'
  if (afterNewline? (text.dropWhile fun c => c == ' ' || c == '\t')).isSome then
    some (text.dropWhile isGap)
  else none

/-- The rest of a text of several lines behind what was read. Up to two quotes may stand before those
that end it. -/
def blockText? (quote : Char) : Nat → List Char → List Char → Option (String × List Char)
  | 0, _, _ => none
  | _, _, [] => none
  | bound + 1, found, c :: rest =>
    if c == quote then
      let quotes := 1 + (rest.takeWhile (· == quote)).length
      if quotes < 3 then blockText? quote bound (c :: found) rest
      else
        let kept := min (quotes - 3) 2
        some (String.ofList (List.replicate kept quote ++ found).reverse, (c :: rest).drop (kept + 3))
    else if c == '\\' && quote == '"' then
      match afterLineGap? rest with
      | some behind => blockText? quote bound found behind
      | none =>
        match escaped? rest with
        | some (x, behind) => blockText? quote bound (x :: found) behind
        | none => none
    else
      let isKept := isAllowed c || (afterNewline? (c :: rest)).isSome
      if isKept then blockText? quote bound (c :: found) rest else none

namespace Reading

/-- A text between quotes, or between three quotes on each side if it may have several lines. -/
def quoted (quote : Char) (severalLines : Bool) : Reading String := fun text =>
  match Text.after? [quote, quote, quote] text with
  | some inner =>
    if severalLines then blockText? quote (text.length + 1) [] ((afterNewline? inner).getD inner)
    else none
  | none => lineText? quote (text.length + 1) [] (text.drop 1)

/-- A part of a key. -/
def keyPart : Reading String := do
  match ← peek with
  | some '"' => quoted '"' false
  | some '\'' => quoted '\'' false
  | _ =>
    let text ← get
    let key := text.takeWhile isKeyChar
    if key.isEmpty then failure
    else
      set (text.drop key.length)
      return String.ofList key

/-- The further parts of a key behind dots. -/
def keyParts : Nat → Reading (List String)
  | 0 => return []
  | bound + 1 => do
    blanks
    if ← accept "." then
      blanks
      let part ← keyPart
      return part :: (← keyParts bound)
    else return []

/-- A key, with the blanks behind it. -/
def key : Reading (List String) := do
  let part ← keyPart
  return part :: (← keyParts (← get).length)

/-- The values of a list up to its end. -/
def items (value : Reading Value) : Nat → Reading (List Value)
  | 0 => failure
  | bound + 1 => do
    gap
    if ← accept "]" then return []
    else
      let item ← value
      gap
      if ← accept "," then return item :: (← items value bound)
      else
        expect "]"
        return [item]

/-- The entries between braces up to their end, added to those before. -/
def entries (value : Reading Value) : Nat → Table → Reading Table
  | 0, _ => failure
  | bound + 1, before => do
    gap
    if ← accept "\x7d" then return before
    else
      let keys ← key
      expect "="
      blanks
      let found ← value
      match Table.addEntry [] keys found .inline before with
      | none => failure
      | some (_, after) =>
        gap
        if ← accept "," then entries value bound after
        else
          expect "\x7d"
          return after

/-- A value inside of at most `depth` others. -/
def value : Nat → Reading Value
  | 0 => failure
  | depth + 1 => do
    let bound := (← get).length + 1
    match ← peek with
    | some '"' => return .text (← quoted '"' true)
    | some '\'' => return .text (← quoted '\'' true)
    | some '[' =>
      expect "["
      return .list false (← items (value depth) bound)
    | some '\x7b' =>
      expect "\x7b"
      return .table .inline (← entries (value depth) bound [])
    | _ =>
      match scalar? (← get) with
      | some (_, behind) =>
        set behind
        return .scalar
      | none => failure

/-- The lines of a document below the table at a place, added to the lines before. -/
def lines : Nat → List String → Table → Reading Table
  | 0, _, _ => failure
  | bound + 1, place, before => do
    gap
    match ← peek with
    | none => return before
    | some '[' =>
      let isList ← accept "[["
      unless isList do expect "["
      blanks
      let keys ← key
      expect (if isList then "]]" else "]")
      lineEnd
      match if isList then Table.addListHeader keys .header before
          else Table.addHeader keys .header before with
      | some (_, after) => lines bound keys after
      | none => failure
    | some _ =>
      let keys ← key
      expect "="
      blanks
      let found ← value 80
      lineEnd
      match Table.addEntry place keys found .header before with
      | some (_, after) => lines bound place after
      | none => failure

end Reading

/-- The table that a settings document writes. -/
def parse? (text : String) : Option Table :=
  let chars := match text.toList with
    | '\ufeff' :: rest => rest
    | rest => rest
  (Reading.lines (chars.length + 1) [] [] chars).map (·.1)

end QueryScope.Toml
