import QueryScope.Text.Letter

/-!
# Template variables in queries

A query text falls into code, string literals and variables. A variable is a dollar sign with a word
or with braces behind it. Inside a literal a variable ends before the closing quote.
-/

namespace QueryScope

/-- A template variable: `$name`, or `$` and the name in braces. -/
structure Variable where
  braced : Bool
  name : List Char
deriving DecidableEq

namespace Variable

/-- The written form of a variable. -/
def chars (v : Variable) : List Char :=
  if v.braced then '$' :: '\x7b' :: v.name ++ ['\x7d'] else '$' :: v.name

/-- The written form of a variable, as a string. -/
def text (v : Variable) : String :=
  String.ofList v.chars

/-- The variable behind a dollar sign, and the text behind the variable. -/
def read? (text : List Char) : Option (Variable × List Char) :=
  match text with
  | '\x7b' :: inner =>
    let name := inner.takeWhile (· != '\x7d')
    match inner.dropWhile (· != '\x7d') with
    | [] => none
    | _ :: rest => if name.isEmpty then none else some (⟨true, name⟩, rest)
  | _ =>
    let name := text.takeWhile Text.isWordChar
    if name.isEmpty then none else some (⟨false, name⟩, text.dropWhile Text.isWordChar)

/-- How many characters of the text behind the dollar sign a variable takes. -/
def width (v : Variable) : Nat :=
  if v.braced then v.name.length + 2 else v.name.length

/-- A part of the inside of a string literal. -/
inductive Inner where
  | char (c : Char)
  | var (v : Variable)
deriving DecidableEq

/-- A part of a query text. -/
inductive Piece where
  | char (c : Char)
  | var (v : Variable)
  /-- a string literal; `closed` tells whether its closing quote is there -/
  | literal (quote : Char) (body : List Inner) (closed : Bool)
deriving DecidableEq

/-- The written form of a part of a literal. -/
def Inner.chars : Inner → List Char
  | char c => [c]
  | var v => v.chars

/-- The written form of a part of a query. -/
def Piece.chars : Piece → List Char
  | char c => [c]
  | var v => v.chars
  | literal quote body closed => quote :: body.flatMap Inner.chars ++ if closed then [quote] else []

/-- The number of bytes of a text in UTF-8. -/
def byteLength (text : List Char) : Nat :=
  text.foldr (fun c length => c.utf8Size + length) 0

/-- The parts of the inside of a literal; `skip` characters belong to the part before. -/
def innerParts : (skip : Nat) → List Char → List Inner
  | _, [] => []
  | skip + 1, _ :: rest => innerParts skip rest
  | 0, c :: rest =>
    match if c = '$' then read? rest else none with
    | some (v, _) => .var v :: innerParts v.width rest
    | none => .char c :: innerParts 0 rest

/-- A character that opens a string literal. -/
def isQuote (c : Char) : Bool :=
  c == '"' || c == '\'' || c == '\x60'

/-- The inside of a literal up to its closing quote, and whether the quote is there. A backslash takes
the meaning from the character behind it, backticks apart. -/
def literalInside (quote : Char) : (escaped : Bool) → List Char → List Char × Bool
  | _, [] => ([], false)
  | true, c :: rest =>
    let (inside, closed) := literalInside quote false rest
    (c :: inside, closed)
  | false, c :: rest =>
    if c = quote then ([], true)
    else
      let (inside, closed) := literalInside quote (c = '\\' && quote != '\x60') rest
      (c :: inside, closed)

/-- The parts of a query; `skip` characters belong to the part before. -/
def pieces : (skip : Nat) → List Char → List Piece
  | _, [] => []
  | skip + 1, _ :: rest => pieces skip rest
  | 0, c :: rest =>
    if isQuote c then
      let (inside, closed) := literalInside c false rest
      .literal c (innerParts 0 inside) closed :: pieces (inside.length + if closed then 1 else 0) rest
    else
      match if c = '$' then read? rest else none with
      | some (v, _) => .var v :: pieces v.width rest
      | none => .char c :: pieces 0 rest

/-- The parts of a query text. -/
def piecesOf (query : String) : List Piece :=
  pieces 0 query.toList

end Variable

end QueryScope
