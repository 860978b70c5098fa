import QueryScope.Yaml.Scalar
import QueryScope.Yaml.Tag

/-!
# From text to tokens

Block collections are given by the columns where their entries begin. What stands before a colon is
known to be a key only when the colon is seen, so a place where a key may have begun is kept, and the
tokens for it are put there later. Such a key is written on one line, in at most 1024 characters.
-/

namespace QueryScope.Yaml

/-- A place where a key may have begun. -/
structure PendingKey where
  /-- how many tokens stand before it -/
  position : Nat
  index : Nat
  line : Nat
  column : Nat
  /-- nothing but a key may stand there -/
  required : Bool

/-- How far a document has been read into tokens. -/
structure Layout where
  cursor : Cursor
  /-- the tokens so far, the latest first -/
  tokens : List Token := []
  /-- the columns of the open block collections, the innermost first -/
  blocks : List Nat := []
  keyAllowed : Bool := true
  /-- where a key may have begun in the innermost collection -/
  key : Option PendingKey := none
  /-- the same for the collections around each open flow collection -/
  outerKeys : List (Option PendingKey) := []

namespace Layout

/-- A flow collection is open. -/
def inFlow (s : Layout) : Bool :=
  !s.outerKeys.isEmpty

/-- The column that the content of the innermost block stands at or right of. -/
def margin (s : Layout) : Nat :=
  match s.blocks with
  | [] => 0
  | column :: _ => column + 1

/-- Adds a token. -/
def emit (token : Token) (s : Layout) : Layout :=
  { s with tokens := token :: s.tokens }

/-- Adds a token and goes to the place behind it. -/
def emitTo (token : Token) (cursor : Cursor) (s : Layout) : Layout :=
  { s with tokens := token :: s.tokens, cursor := cursor }

/-- Puts tokens, the last of them first, behind the given number of tokens. -/
def insert (position : Nat) (added : List Token) (s : Layout) : Layout :=
  let later := s.tokens.length - position
  { s with tokens := s.tokens.take later ++ added ++ s.tokens.drop later }

/-- Opens a block collection at a column right of the innermost one. -/
def openBlock (column : Nat) (token : Token) (s : Layout) : Layout :=
  if s.inFlow || column < s.margin then s
  else { s.emit token with blocks := column :: s.blocks }

/-- Closes the block collections right of a column. -/
def closeBlocks (column : Nat) (s : Layout) : Layout :=
  if s.inFlow then s
  else
    let closed := s.blocks.takeWhile (column < ·)
    { s with
      tokens := closed.map (fun _ => Token.blockEnd) ++ s.tokens
      blocks := s.blocks.drop closed.length }

/-- Closes all block collections. -/
def closeAllBlocks (s : Layout) : Layout :=
  if s.inFlow then s
  else { s with tokens := s.blocks.map (fun _ => Token.blockEnd) ++ s.tokens, blocks := [] }

/-- No key began where one may have begun. -/
def dropKey? (s : Layout) : Option Layout :=
  if s.key.any (·.required) then none else some { s with key := none }

/-- A key may begin here, if one is allowed. -/
def saveKey? (s : Layout) : Option Layout :=
  if s.keyAllowed then
    s.dropKey?.map fun s =>
      { s with key := some {
          position := s.tokens.length
          index := s.cursor.index
          line := s.cursor.line
          column := s.cursor.column
          required := !s.inFlow && s.blocks.head? == some s.cursor.column } }
  else some s

/-- A key that may have begun cannot end here any more. -/
def isStale (c : Cursor) (key : PendingKey) : Bool :=
  key.line < c.line || key.index + 1024 < c.index

/-- Forgets the keys that cannot end here any more. -/
def dropStaleKeys? (s : Layout) : Option Layout :=
  if (s.key :: s.outerKeys).any (·.any fun key => key.required && isStale s.cursor key) then none
  else
    let fresh (key : Option PendingKey) := key.filter (!isStale s.cursor ·)
    some { s with key := fresh s.key, outerKeys := s.outerKeys.map fresh }

/-- Passes over blanks, comments and ends of lines. Tabs may not stand where a key may begin. A line
may begin with a mark of the byte order, which takes its first column. -/
def skipToToken (inFlow : Bool) : Nat → Bool → Cursor → Bool × Cursor
  | 0, allowed, c => (allowed, c)
  | bound + 1, allowed, c =>
    let c := if c.column = 0 && c.sees '\ufeff' then c.skip 1 else c
    let c := c.skipWhile fun x => x == ' ' || (x == '\t' && (inFlow || !allowed))
    let c := if c.sees '#' then c.skipWhile (!isBreak ·) else c
    if c.head?.any isBreak then skipToToken inFlow bound (allowed || !inFlow) c.skipBreak
    else (allowed, c)

/-- Adds a mark that starts or ends a document. -/
def documentMark? (token : Token) (s : Layout) : Option Layout := do
  let s ← s.closeAllBlocks.dropKey?
  return { s.emitTo token (s.cursor.skip 3) with keyAllowed := false }

/-- Opens a flow collection. -/
def openFlow? (token : Token) (s : Layout) : Option Layout := do
  let s ← s.saveKey?
  return { s.emitTo token (s.cursor.skip 1) with
    keyAllowed := true, key := none, outerKeys := s.key :: s.outerKeys }

/-- Closes a flow collection. -/
def closeFlow? (token : Token) (s : Layout) : Option Layout := do
  let s ← s.dropKey?
  return { s.emitTo token (s.cursor.skip 1) with
    keyAllowed := false, key := s.outerKeys.head?.getD s.key, outerKeys := s.outerKeys.drop 1 }

/-- Goes on to the next entry of a flow collection. -/
def comma? (s : Layout) : Option Layout := do
  let s ← s.dropKey?
  return { s.emitTo .comma (s.cursor.skip 1) with keyAllowed := true }

/-- Begins an item of a block sequence. -/
def item? (s : Layout) : Option Layout := do
  if !s.inFlow && !s.keyAllowed then none
  else
    let s ← (s.openBlock s.cursor.column .blockSequence).dropKey?
    return { s.emitTo .item (s.cursor.skip 1) with keyAllowed := true }

/-- Begins a key with a mark of its own. -/
def key? (s : Layout) : Option Layout := do
  if !s.inFlow && !s.keyAllowed then none
  else
    let s ← (s.openBlock s.cursor.column .blockMapping).dropKey?
    return { s.emitTo .key (s.cursor.skip 1) with keyAllowed := !s.inFlow }

/-- Begins a value, and with it the key that may have begun before. -/
def value? (s : Layout) : Option Layout :=
  match s.key with
  | some key =>
    let opens := !s.inFlow && s.margin ≤ key.column
    let s := s.insert key.position (if opens then [.key, .blockMapping] else [.key])
    some { s.emitTo .value (s.cursor.skip 1) with
      blocks := if opens then key.column :: s.blocks else s.blocks, keyAllowed := false, key := none }
  | none =>
    if !s.inFlow && !s.keyAllowed then none
    else
      let s := s.openBlock s.cursor.column .blockMapping
      some { s.emitTo .value (s.cursor.skip 1) with keyAllowed := !s.inFlow }

/-- Adds a token with which a key may begin and behind which none may. -/
def word? (read : Cursor → Option (Token × Cursor)) (s : Layout) : Option Layout := do
  let s ← s.saveKey?
  let (token, c) ← read s.cursor
  return { s.emitTo token c with keyAllowed := false }

/-- Adds a block scalar. -/
def block? (folded : Bool) (s : Layout) : Option Layout := do
  let s ← s.dropKey?
  let (text, c) ← blockScalar? folded s.margin s.cursor
  return { s.emitTo (.scalar (if folded then .quoted else .literal) text) c with keyAllowed := true }

/-- Adds a plain scalar. A key may begin behind it if it ends on a later line. -/
def plain? (s : Layout) : Option Layout := do
  let s ← s.saveKey?
  let scalar ← plainScalar? s.inFlow s.margin s.cursor
  return { s.emitTo (.scalar .plain scalar.text) scalar.behind with
    keyAllowed := scalar.endsOnLaterLine }

/-- A plain scalar begins with the characters. -/
def startsPlain (inFlow : Bool) (c : Char) (rest : List Char) : Bool :=
  !"-?:,[]\x7b\x7d#&*!|>'\"%@\x60".toList.contains c && !isGap c && !isBreak c ||
    c == '-' && !rest.head?.any isGap ||
    !inFlow && (c == '?' || c == ':') && !endsWord rest

/-- Adds the token that begins with the given character. -/
def token? (c : Char) (rest : List Char) (s : Layout) : Option Layout :=
  if s.cursor.column = 0 && c == '%' then do
    let s ← s.closeAllBlocks.dropKey?
    let (token, c) ← directive? s.cursor
    return { s.emitTo token c with keyAllowed := false }
  else if s.cursor.atMarks "---" then s.documentMark? .documentStart
  else if s.cursor.atMarks "..." then s.documentMark? .documentEnd
  else if c == '[' then s.openFlow? .flowSequence
  else if c == '\x7b' then s.openFlow? .flowMapping
  else if c == ']' then s.closeFlow? .flowSequenceEnd
  else if c == '\x7d' then s.closeFlow? .flowMappingEnd
  else if c == ',' then s.comma?
  else if c == '-' && endsWord rest then s.item?
  else if c == '?' && (s.inFlow || endsWord rest) then s.key?
  else if c == ':' && (s.inFlow || endsWord rest) then s.value?
  else if c == '*' then s.word? fun c => (anchorName? c).map fun (name, c) => (.alias name, c)
  else if c == '&' then s.word? fun c => (anchorName? c).map fun (name, c) => (.anchor name, c)
  else if c == '!' then s.word? (tag? s.inFlow)
  else if c == '|' && !s.inFlow then s.block? false
  else if c == '>' && !s.inFlow then s.block? true
  else if c == '\'' || c == '"' then
    s.word? fun cursor => (quotedScalar? c cursor).map fun (text, c) => (.scalar .quoted text, c)
  else if startsPlain s.inFlow c rest then s.plain?
  else none

/-- Goes to the next token. Blocks end where the text stands left of them. -/
def toToken? (s : Layout) : Option Layout :=
  let (allowed, c) := skipToToken s.inFlow (s.cursor.rest.length + 1) s.keyAllowed s.cursor
  (dropStaleKeys? { s with cursor := c, keyAllowed := allowed }).map (closeBlocks c.column)

/-- Adds the tokens of the rest of the document. -/
def readAll? : Nat → Layout → Option Layout
  | 0, _ => none
  | bound + 1, s =>
    match s.toToken? with
    | none => none
    | some s =>
      match s.cursor.rest with
      | [] => s.closeAllBlocks.dropKey?
      | c :: rest =>
        match s.token? c rest with
        | some next => readAll? bound next
        | none => none

end Layout

/-- The tokens of a document. -/
def tokens? (text : String) : Option (List Token) :=
  let chars := text.toList
  if chars.all isAllowed then
    (Layout.readAll? (chars.length + 2) { cursor := { rest := chars } }).map (·.tokens.reverse)
  else none

end QueryScope.Yaml
