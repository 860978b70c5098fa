import QueryScope.Text.Digits
import QueryScope.Text.Letter
import QueryScope.Yaml.Cursor
import QueryScope.Yaml.Token

/-!
# Scalars

A scalar may go over several lines. Where it does, the ends of lines are folded: a single one is a
blank, and of several the first is dropped. Literal blocks keep them all.
-/

namespace QueryScope.Yaml

/-- What separates two words of a scalar. -/
inductive Gap where
  /-- blanks on a line -/
  | blanks (text : List Char)
  /-- the ends of lines, the first apart from the others -/
  | lines (first more : List Char)

namespace Gap

/-- What the separation counts as. -/
def text : Gap → List Char
  | blanks text => text
  | lines first more =>
    if first.head? = some '\n' then if more.isEmpty then [' '] else more
    else first ++ more

/-- The separation with one more blank. Blanks at the start of a line do not count. -/
def withBlank (c : Char) : Gap → Gap
  | blanks text => blanks (text ++ [c])
  | gap => gap

/-- The separation with the end of one more line. -/
def withBreak (ending : List Char) : Gap → Gap
  | blanks _ => lines ending []
  | lines first more => lines first (more ++ ending)

/-- The separation has the end of a line. -/
def hasBreak : Gap → Bool
  | blanks _ => false
  | lines _ _ => true

/-- Reads on while there are blanks and ends of lines. A tab may not stand left of the margin of a
later line. -/
def read (margin : Nat) : Nat → Gap → Cursor → Option (Gap × Cursor)
  | 0, gap, c => some (gap, c)
  | bound + 1, gap, c =>
    match c.rest with
    | [] => some (gap, c)
    | x :: _ =>
      if isGap x then
        if gap.hasBreak && x == '\t' && c.column < margin then none
        else read margin bound (gap.withBlank x) (c.skip 1)
      else if isBreak x then read margin bound (gap.withBreak (breakText c.rest)) c.skipBreak
      else some (gap, c)

end Gap

/-- The word of a plain scalar at the start of a text. A colon ends it before a blank, in flow
collections so do commas and brackets. There a colon may not stand before one of those. -/
def plainWord? (inFlow : Bool) : List Char → Option (List Char)
  | [] => some []
  | c :: rest =>
    if isGap c || isBreak c then some []
    else if inFlow && c == ':' && rest.head?.any (",?[]\x7b\x7d".toList.contains ·) then none
    else if (c == ':' && endsWord rest) || (inFlow && ",[]\x7b\x7d".toList.contains c) then some []
    else (plainWord? inFlow rest).map (c :: ·)

/-- A scalar as it was read, whether the end of a line was passed behind its last word, and the place
behind it. -/
structure PlainScalar where
  text : List Char
  endsOnLaterLine : Bool
  behind : Cursor

/-- The rest of a plain scalar behind the words read so far. -/
def plainFrom? (inFlow : Bool) (margin : Nat) :
    Nat → List Char → Gap → Cursor → Option PlainScalar
  | 0, text, gap, c => some ⟨text, gap.hasBreak, c⟩
  | bound + 1, text, gap, c =>
    if c.atDocumentMark || c.sees '#' then some ⟨text, gap.hasBreak, c⟩
    else
      match plainWord? inFlow c.rest with
      | none => none
      | some word =>
        let text := if word.isEmpty then text else text ++ gap.text ++ word
        let gap := if word.isEmpty then gap else .blanks []
        let c := c.skip word.length
        if c.rest.isEmpty || !endsWord c.rest then some ⟨text, gap.hasBreak, c⟩
        else
          match gap.read margin (c.rest.length + 1) c with
          | none => none
          | some (gap, c) =>
            if !inFlow && c.column < margin then some ⟨text, gap.hasBreak, c⟩
            else plainFrom? inFlow margin bound text gap c

/-- The plain scalar at a place. Outside of flow collections its lines stand right of the margin. -/
def plainScalar? (inFlow : Bool) (margin : Nat) (c : Cursor) : Option PlainScalar :=
  plainFrom? inFlow margin (c.rest.length + 1) [] (.blanks []) c

/-- The word of a single-quoted scalar at the start of a text, and how many characters write it. -/
def singleQuotedWord : List Char → List Char × Nat
  | '\'' :: '\'' :: rest =>
    let (word, width) := singleQuotedWord rest
    ('\'' :: word, width + 2)
  | c :: rest =>
    if c == '\'' || isGap c || isBreak c then ([], 0)
    else
      let (word, width) := singleQuotedWord rest
      (c :: word, width + 1)
  | [] => ([], 0)

/-- The characters that one letter stands for behind a backslash. -/
def shortEscapes : List (Char × Char) :=
  [('0', '\x00'), ('a', '\x07'), ('b', '\x08'), ('t', '\t'), ('\t', '\t'), ('n', '\n'),
    ('v', '\x0b'), ('f', '\x0c'), ('r', '\r'), ('e', '\x1b'), (' ', ' '), ('"', '"'), ('/', '/'),
    ('\\', '\\'), ('N', '\u0085'), ('_', '\u00a0'), ('L', '\u2028'), ('P', '\u2029')]

/-- The letters before the hexadecimal code of a character, with the number of digits. -/
def codeEscapes : List (Char × Nat) :=
  [('x', 2), ('u', 4), ('U', 8)]

/-- The character that the letter and what follows write behind a backslash, and the number of digits
of its code. -/
def escapedChar? (letter : Char) (rest : List Char) : Option (Char × Nat) :=
  match shortEscapes.lookup letter, codeEscapes.lookup letter with
  | some c, _ => some (c, 0)
  | none, some digits =>
    if (rest.take digits).length = digits then
      ((Text.numeral? 16 (rest.take digits)).bind Text.charOfCode?).map (·, digits)
    else none
  | none, none => none

/-- The word of a double-quoted scalar at a place, the place behind it, and whether it ends in the
end of a line that a backslash takes away. -/
def doubleQuotedWord? : Nat → List Char → Cursor → Option (List Char × Cursor × Bool)
  | 0, word, c => some (word, c, false)
  | bound + 1, word, c =>
    match c.rest with
    | [] => some (word, c, false)
    | '\\' :: rest =>
      match rest with
      | [] => none
      | letter :: behind =>
        if isBreak letter then some (word, (c.skip 1).skipBreak, true)
        else
          match escapedChar? letter behind with
          | some (x, digits) => doubleQuotedWord? bound (word ++ [x]) (c.skip (2 + digits))
          | none => none
    | x :: _ =>
      if x == '"' || isGap x || isBreak x then some (word, c, false)
      else doubleQuotedWord? bound (word ++ [x]) (c.skip 1)

/-- A word of a quoted scalar, the place behind it, and whether the end of a line was taken away. -/
def quotedWord? (quote : Char) (c : Cursor) : Option (List Char × Cursor × Bool) :=
  if quote == '\'' then
    let (word, width) := singleQuotedWord c.rest
    some (word, c.skip width, false)
  else doubleQuotedWord? (c.rest.length + 1) [] c

/-- The rest of a quoted scalar behind the text read so far. -/
def quotedFrom? (quote : Char) : Nat → List Char → Cursor → Option (List Char × Cursor)
  | 0, _, _ => none
  | bound + 1, text, c =>
    if c.atDocumentMark || c.rest.isEmpty then none
    else
      match quotedWord? quote c with
      | none => none
      | some (word, c, joined) =>
        let text := text ++ word
        if c.sees quote then some (text, c.skip 1)
        else
          let start : Gap := if joined then .lines [] [] else .blanks []
          match start.read 0 (c.rest.length + 1) c with
          | none => none
          | some (gap, c) => quotedFrom? quote bound (text ++ gap.text) c

/-- The quoted scalar at a place. -/
def quotedScalar? (quote : Char) (c : Cursor) : Option (List Char × Cursor) :=
  quotedFrom? quote (c.rest.length + 1) [] (c.skip 1)

/-- What happens to the ends of lines at the end of a block scalar. -/
inductive Chomping where
  | strip
  | clip
  | keep
deriving DecidableEq

/-- The chomping and the indentation that the first line of a block scalar gives, in either order. -/
def blockHeader? (c : Cursor) : Option (Chomping × Nat × Cursor) :=
  let chomping? (c : Cursor) : Chomping × Cursor :=
    if c.sees '+' then (.keep, c.skip 1) else if c.sees '-' then (.strip, c.skip 1) else (.clip, c)
  let indent? (c : Cursor) : Option (Nat × Cursor) :=
    match c.head? with
    | some d =>
      if d.isDigit then if d == '0' then none else some (d.toNat - '0'.toNat, c.skip 1)
      else some (0, c)
    | none => some (0, c)
  match chomping? c with
  | (.clip, _) => (indent? c).map fun (n, c) => ((chomping? c).1, n, (chomping? c).2)
  | (chomping, c) => (indent? c).map fun (n, c) => (chomping, n, c)

/-- Passes over blank lines of a block scalar up to its indentation: the ends of the lines, the
deepest column that was reached, and the place behind. An indentation of zero is not known yet. -/
def blankLines? (indent : Nat) :
    Nat → List Char → Nat → Cursor → Option (List Char × Nat × Cursor)
  | 0, breaks, deepest, c => some (breaks, deepest, c)
  | bound + 1, breaks, deepest, c =>
    let blanks := (c.rest.takeWhile (· == ' ')).length
    let c := c.skip (if indent = 0 then blanks else min blanks (indent - c.column))
    let deepest := max deepest c.column
    if c.sees '\t' && (indent = 0 || c.column < indent) then none
    else if c.rest.head?.any isBreak then
      blankLines? indent bound (breaks ++ breakText c.rest) deepest c.skipBreak
    else some (breaks, deepest, c)

/-- The lines of a block scalar behind the text read so far. `ending` is the end of the last line and
`blank` the ends of the blank lines behind it; `indented` says that the last line began with a
blank. -/
def blockLines? (folded : Bool) (indent : Nat) : Nat → (text ending blank : List Char) →
    (indented : Bool) → Cursor → Option (List Char × List Char × List Char × Cursor)
  | 0, text, ending, blank, _, c => some (text, ending, blank, c)
  | bound + 1, text, ending, blank, indented, c =>
    if c.column ≠ indent || c.rest.isEmpty then some (text, ending, blank, c)
    else
      let blankHere := c.rest.head?.any isGap
      let joint :=
        if folded && ending.head? = some '\n' && !indented && !blankHere then
          if blank.isEmpty then [' '] else []
        else ending
      let line := c.rest.takeWhile (!isBreak ·)
      let atEnd := c.skip line.length
      let behind := if atEnd.rest.isEmpty then atEnd else atEnd.skipBreak
      match blankLines? indent (behind.rest.length + 1) [] 0 behind with
      | none => none
      | some (breaks, _, next) =>
        blockLines? folded indent bound (text ++ joint ++ blank ++ line) (breakText atEnd.rest)
          breaks blankHere next

/-- The block scalar at a place, inside of blocks with the given margin. Without an indentation in
its first line it has that of its first line that is not blank. -/
def blockScalar? (folded : Bool) (margin : Nat) (c : Cursor) : Option (List Char × Cursor) := do
  let (chomping, increment, c) ← blockHeader? (c.skip 1)
  let c ← c.skipLine?
  let given := if increment = 0 then 0 else margin - 1 + increment
  let (breaks, deepest, c) ← blankLines? given (c.rest.length + 1) [] 0 c
  let indent := if given = 0 then max (max deepest margin) 1 else given
  let (text, ending, blank, c) ← blockLines? folded indent (c.rest.length + 1) [] [] breaks false c
  return (text ++ (if chomping = .strip then [] else ending) ++
    (if chomping = .keep then blank else []), c)

end QueryScope.Yaml
