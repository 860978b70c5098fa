import QueryScope.Template.Item
import QueryScope.Text.Lead
import QueryScope.Text.Letter

/-!
# Lexing templates

The items of a template follow one another without gaps, apart from comments and from the hyphens that
trim the text around an action. A mistake ends the items.
-/

namespace QueryScope.Template

/-- A blank inside an action. -/
def isSpace (c : Char) : Bool :=
  c == ' ' || c == '\t' || c == '\r' || c == '\n'

/-- A character of a word. -/
def isWordPart (c : Char) : Bool :=
  c == '_' || Text.isLetterOrNumeral c

/-- The number of line ends in a text. -/
def lineEnds (text : List Char) : Nat :=
  text.count '\n'

/-- A code point and the character itself, if it is no control character. -/
def showCharacter (c : Char) : String :=
  let digits := (Text.hexDigits c.toNat).map Char.toUpper
  let code := "U+" ++ String.ofList (List.replicate (4 - digits.length) '0' ++ digits)
  if Text.isControl c then code else code ++ " '" ++ String.ofList [c] ++ "'"

/-- The plain text before the next action. -/
def plainText : List Char → List Char
  | [] => []
  | c :: rest => if Text.startsWith "\x7b\x7b" (c :: rest) then [] else c :: plainText rest

/-- The text starts with the hyphen and blank that trim the text before an action. -/
def startsLeftTrim : List Char → Bool
  | '-' :: c :: _ => isSpace c
  | _ => false

/-- How many characters of trimming stand before the end of an action that comes next. -/
def actionEnd? (text : List Char) : Option Nat :=
  let trimmed :=
    match text with
    | c :: '-' :: rest => isSpace c && Text.startsWith "\x7d\x7d" rest
    | _ => false
  if trimmed then some 2 else if Text.startsWith "\x7d\x7d" text then some 0 else none

/-- A word may end before this text. -/
def atTerminator (text : List Char) : Bool :=
  match text with
  | [] => true
  | c :: _ =>
    isSpace c || c == '.' || c == ',' || c == '|' || c == ':' || c == ')' || c == '(' ||
      Text.startsWith "\x7d\x7d" text

/-! ## Numbers -/

/-- The text behind one character of a set, if it starts with one. -/
def acceptOne (set : String) : List Char → List Char
  | [] => []
  | c :: rest => if set.toList.contains c then rest else c :: rest

/-- The text starts with a character of a set. -/
def startsIn (set : String) (text : List Char) : Bool :=
  text.head?.any set.toList.contains

/-- The text behind all characters of a set that it starts with. -/
def acceptRun (set : String) (text : List Char) : List Char :=
  text.dropWhile set.toList.contains

/-- The digits of a number by the letter behind its leading zero, and whether the base has a fraction with
an exponent mark of its own. -/
def digitsOf (mark : Option Char) : String × Option String :=
  match mark with
  | some c =>
    if c = 'x' ∨ c = 'X' then ("0123456789abcdefABCDEF_", some "pP")
    else if c = 'o' ∨ c = 'O' then ("01234567_", none)
    else if c = 'b' ∨ c = 'B' then ("01_", none)
    else ("0123456789_", some "eE")
  | none => ("0123456789_", some "eE")

/-- The text behind the sign, the base mark, the digits and the point of a number, and the letters that
may mark its exponent. -/
def numberMantissa (text : List Char) : List Char × Option String :=
  let unsigned := acceptOne "+-" text
  let marked :=
    match unsigned with
    | '0' :: c :: rest => if "xXoObB".toList.contains c then some (c, rest) else none
    | _ => none
  let (digits, exponentMark) := digitsOf (marked.map (·.1))
  let whole := acceptRun digits ((marked.map (·.2)).getD unsigned)
  let rest := if startsIn "." whole then acceptRun digits (acceptOne "." whole) else whole
  (rest, exponentMark)

/-- The text behind an exponent with one of the given marks. -/
def numberExponent (mark : Option String) (text : List Char) : List Char :=
  match mark with
  | some letters =>
    if startsIn letters text then acceptRun "0123456789_" (acceptOne "+-" (acceptOne letters text)) else text
  | none => text

/-- The text behind a number, and whether the number ends there. A letter behind the number is taken with
it and makes it wrong. -/
def afterNumber (text : List Char) : List Char × Bool :=
  let (rest, mark) := numberMantissa text
  let rest := acceptOne "i" (numberExponent mark rest)
  match rest with
  | c :: behind => if isWordPart c then (behind, false) else (rest, true)
  | [] => ([], true)

/-- The text behind a number that may have an imaginary part, and whether it is a number. -/
def afterComplex (text : List Char) : List Char × Bool :=
  let (rest, good) := afterNumber text
  if good && startsIn "+-" rest then
    let (behind, good) := afterNumber rest
    (behind, good && (text.take (text.length - behind.length)).getLast? = some 'i')
  else (rest, good)

/-! ## Items inside actions -/

/-- What the start of the inside of an action is. -/
inductive Lexeme where
  /-- an item of one more than this many characters -/
  | item (kind : Kind) (more : Nat)
  | mistake (message : String)

/-- How many characters of a text stand before its remainder. -/
def taken (text rest : List Char) : Nat :=
  text.length - rest.length

/-- The text behind a closing quote on the same line. -/
def afterQuote? (quote : Char) : (escaped : Bool) → List Char → Option (List Char)
  | _, [] => none
  | true, c :: rest => if c = '\n' then none else afterQuote? quote false rest
  | false, c :: rest =>
    if c = '\\' then afterQuote? quote true rest
    else if c = '\n' then none
    else if c = quote then some rest
    else afterQuote? quote false rest

/-- A quoted item behind its first quote. -/
def quotedLexeme (quote : Char) (kind : Kind) (complaint : String) (text : List Char) : Lexeme :=
  match afterQuote? quote false text with
  | some rest => .item kind (taken text rest)
  | none => .mistake complaint

/-- A string between backticks behind the first of them. -/
def rawLexeme (text : List Char) : Lexeme :=
  match Text.splitAt? ['\x60'] text with
  | some (inside, _) => .item .rawString (inside.length + 1)
  | none => .mistake "unterminated raw quoted string"

/-- A complaint about the character where a word should end. -/
def badCharacter (text : List Char) : Lexeme :=
  .mistake ("bad character " ++ showCharacter (text.head?.getD '\ufffd'))

/-- A word, a field or a variable, of which `lead` characters have been looked at before `text`. -/
def wordLexeme (kind : List Char → Kind) (lead : Nat) (text : List Char) : Lexeme :=
  let word := text.takeWhile isWordPart
  let rest := text.dropWhile isWordPart
  if atTerminator rest then .item (kind word) (lead + word.length - 1) else badCharacter rest

/-- A number. -/
def numberLexeme (text : List Char) : Lexeme :=
  let (rest, good) := afterComplex text
  if good then .item .number (taken text rest - 1)
  else .mistake ("bad number syntax: " ++ Text.escaped (String.ofList (text.take (taken text rest))))

/-- Blanks; the last one before a trimmed end of the action belongs to that end. -/
def spaceLexeme (text : List Char) : Lexeme :=
  let run := text.takeWhile isSpace
  let trimmed := Text.startsWith "-\x7d\x7d" (text.dropWhile isSpace)
  .item .space (if trimmed then run.length - 2 else run.length - 1)

/-- What stands at the start of the inside of an action, behind its first character. -/
def lexeme (depth : Nat) (c : Char) (rest : List Char) : Lexeme :=
  if isSpace c then spaceLexeme (c :: rest)
  else if c = '=' then .item .assign 0
  else if c = ':' then
    if startsIn "=" rest then .item .declare 1 else .mistake "expected :="
  else if c = '|' then .item .pipe 0
  else if c = '"' then quotedLexeme '"' .string "unterminated quoted string" rest
  else if c = '\x60' then rawLexeme rest
  else if c = '\'' then quotedLexeme '\'' .charConstant "unterminated character constant" rest
  else if c = '$' then wordLexeme (fun _ => .var) 1 rest
  else if c = '.' then
    if rest.isEmpty || rest.head?.any Char.isDigit then numberLexeme (c :: rest)
    else wordLexeme (fun word => if word.isEmpty then .dot else .field) 1 rest
  else if c = '+' ∨ c = '-' ∨ c.isDigit then numberLexeme (c :: rest)
  else if isWordPart c then wordLexeme wordKind 0 (c :: rest)
  else if c = '(' then .item .leftParen 0
  else if c = ')' then
    if depth = 0 then .mistake "unexpected right paren" else .item .rightParen 0
  else if 0x20 ≤ c.toNat ∧ c.toNat < 0x7f then .item .char 0
  else .mistake ("unrecognized character in action: " ++ showCharacter c)

/-- The number of open parentheses behind an item. -/
def depthBehind (kind : Kind) (depth : Nat) : Nat :=
  match kind with
  | .leftParen => depth + 1
  | .rightParen => depth - 1
  | _ => depth

/-! ## Comments -/

/-- What comes behind the two braces that start an action. -/
inductive Opening where
  /-- an action behind this much trimming -/
  | action (trim : Nat)
  /-- a comment and the end of its action: as many characters behind the braces -/
  | comment (length : Nat)
  /-- a comment that is not closed; the number of line ends before it -/
  | mistake (message : String) (lines : Nat)

/-- What comes behind the two braces that start an action. -/
def openingOf (inner : List Char) : Opening :=
  let trim := if startsLeftTrim inner then 2 else 0
  match Text.after? ['/', '*'] (inner.drop trim) with
  | none => .action trim
  | some body =>
    let lines := lineEnds (inner.take trim)
    match Text.splitAt? ['*', '/'] body with
    | none => .mistake "unclosed comment" lines
    | some (comment, behind) =>
      match actionEnd? behind with
      | none => .mistake "comment ends before closing delimiter" lines
      | some width => .comment (trim + 2 + comment.length + 2 + width + 2)

/-! ## The items of a template -/

/-- Where the lexer stands. -/
inductive Mode where
  | text
  /-- inside an action with this many open parentheses -/
  | action (depth : Nat)

/-- The items from a place on. The first `skip` characters belong to what came before. -/
def itemsFrom : (mode : Mode) → (skip line : Nat) → List Char → List Item
  | .text, _, line, [] => [⟨.eof, [], line⟩]
  | .action _, _, line, [] => [⟨.mistake, "unclosed action".toList, line⟩]
  | mode, skip + 1, line, c :: rest => itemsFrom mode skip (if c = '\n' then line + 1 else line) rest
  | .text, 0, line, c :: rest =>
    let next := if c = '\n' then line + 1 else line
    if Text.startsWith "\x7b\x7b" (c :: rest) then
      match openingOf (rest.drop 1) with
      | .action trim => ⟨.opening, ['\x7b', '\x7b'], line⟩ :: itemsFrom (.action 0) (trim + 1) next rest
      | .comment length => itemsFrom .text (length + 1) next rest
      | .mistake message lines => [⟨.mistake, message.toList, line + lines⟩]
    else
      let text := plainText (c :: rest)
      ⟨.text, text, line⟩ :: itemsFrom .text (text.length - 1) next rest
  | .action depth, 0, line, c :: rest =>
    let next := if c = '\n' then line + 1 else line
    match actionEnd? (c :: rest) with
    | some width =>
      if depth = 0 then
        ⟨.closing, ['\x7d', '\x7d'], line + lineEnds ((c :: rest).take width)⟩ ::
          itemsFrom .text (width + 1) next rest
      else [⟨.mistake, "unclosed left paren".toList, line⟩]
    | none =>
      match lexeme depth c rest with
      | .item kind more =>
        ⟨kind, c :: rest.take more, line⟩ :: itemsFrom (.action (depthBehind kind depth)) more next rest
      | .mistake message => [⟨.mistake, message.toList, line⟩]

/-- The items of a template. The last one is the end or a mistake. -/
def lex (text : List Char) : List Item :=
  itemsFrom .text 0 1 text

end QueryScope.Template
