import QueryScope.Yaml.Layout
import QueryScope.Yaml.Node

/-!
# From tokens to a document

The grammar of block and flow collections over the tokens.
-/

namespace QueryScope.Yaml

/-- How far the tokens of a document have been read. -/
structure Reader where
  tokens : List Token
  /-- what the handles of tags stand for -/
  handles : List (List Char × TagText) := []
  anchors : Anchors := {}

/-- A reading step, which may fail. -/
abbrev Reading := StateT Reader Option

namespace Reading

/-- The next token. -/
def peek : Reading (Option Token) :=
  return (← get).tokens.head?

/-- Passes over the next token. -/
def drop : Reading Unit :=
  modify fun s => { s with tokens := s.tokens.drop 1 }

/-- The next token is one of those given. -/
def seesAny (tokens : List Token) : Reading Bool :=
  return (← peek).any (tokens.contains ·)

/-- A node, or nothing before the given tokens. -/
def orEmpty (node : Reading Node) (tokens : List Token) : Reading Node := do
  if ← seesAny tokens then return .empty else node

/-- The items of a block sequence up to its end. -/
def blockItems (node : Reading Node) : Nat → Reading (List Node)
  | 0 => failure
  | bound + 1 => do
    match ← peek with
    | some .item =>
      drop
      let item ← orEmpty node [.item, .blockEnd]
      return item :: (← blockItems node bound)
    | some .blockEnd =>
      drop
      return []
    | _ => failure

/-- The items of a block sequence that stands at the column of the mapping around it. -/
def flushItems (node : Reading Node) : Nat → Reading (List Node)
  | 0 => failure
  | bound + 1 => do
    if (← peek) = some .item then
      drop
      let item ← orEmpty node [.item, .key, .value, .blockEnd]
      return item :: (← flushItems node bound)
    else return []

/-- The entries of a block mapping up to its end. -/
def blockEntries (node : Reading Node) : Nat → Reading (List (Node × Node))
  | 0 => failure
  | bound + 1 => do
    match ← peek with
    | some .key =>
      drop
      let key ← orEmpty node [.key, .value, .blockEnd]
      let value ← valuePart
      return (key, value) :: (← blockEntries node bound)
    | some .blockEnd =>
      drop
      return []
    | _ => failure
where
  valuePart : Reading Node := do
    if (← peek) = some .value then
      drop
      orEmpty node [.key, .value, .blockEnd]
    else return .empty

/-- Passes over the comma before a later entry of a flow collection. -/
def separator (first : Bool) : Reading Unit := do
  if first then return ()
  else if (← peek) = some .comma then drop
  else failure

/-- The pair that stands for a mapping of one entry in a flow sequence, behind the mark of its key. A
key that is left out takes the mark behind it along. -/
def flowPair (node : Reading Node) : Reading (Node × Node) := do
  let key ←
    if ← seesAny [.value, .comma, .flowSequenceEnd] then do
      drop
      pure Node.empty
    else node
  if (← peek) = some .value then
    drop
    return (key, ← orEmpty node [.comma, .flowSequenceEnd])
  else return (key, .empty)

/-- The items of a flow sequence up to its end. -/
def flowItems (node : Reading Node) : Nat → Bool → Reading (List Node)
  | 0, _ => failure
  | bound + 1, first => do
    if (← peek) = some .flowSequenceEnd then
      drop
      return []
    else
      separator first
      match ← peek with
      | some .key =>
        drop
        let pair ← flowPair node
        return .mapping none [pair] :: (← flowItems node bound false)
      | some .flowSequenceEnd =>
        drop
        return []
      | _ =>
        let item ← node
        return item :: (← flowItems node bound false)

/-- The entries of a flow mapping up to its end. -/
def flowEntries (node : Reading Node) : Nat → Bool → Reading (List (Node × Node))
  | 0, _ => failure
  | bound + 1, first => do
    if (← peek) = some .flowMappingEnd then
      drop
      return []
    else
      separator first
      match ← peek with
      | some .key =>
        drop
        let key ← orEmpty node [.value, .comma, .flowMappingEnd]
        let value ← valuePart
        return (key, value) :: (← flowEntries node bound false)
      | some .flowMappingEnd =>
        drop
        return []
      | _ =>
        let key ← node
        return (key, .empty) :: (← flowEntries node bound false)
where
  valuePart : Reading Node := do
    if (← peek) = some .value then
      drop
      orEmpty node [.comma, .flowMappingEnd]
    else return .empty

/-- The name of an anchor before a node. -/
def anchorPart : Reading (Option (List Char)) := do
  match ← peek with
  | some (.anchor name) =>
    drop
    return some name
  | _ => return none

/-- The tag before a node, with what its handle stands for. -/
def tagPart : Reading (Option Tag) := do
  match ← peek with
  | some (.tag handle suffix) =>
    drop
    if handle.isEmpty then return some ⟨suffix⟩
    else
      match (← get).handles.lookup handle with
      | some stem => return some ⟨stem ++ suffix⟩
      | none => failure
  | _ => return none

/-- The anchor and the tag before a node, in either order. -/
def properties : Reading (Option (List Char) × Option Tag) := do
  match ← anchorPart with
  | some name => return (some name, ← tagPart)
  | none =>
    match ← tagPart with
    | some tag => return (← anchorPart, some tag)
    | none => return (none, none)

/-- The content of a node. -/
def content (node : (block flush : Bool) → Reading Node) (block flush named : Bool)
    (tag : Option Tag) : Reading Node := do
  let bound := (← get).tokens.length + 1
  match ← peek with
  | some (.scalar style text) =>
    drop
    return .scalar ⟨tag, style, String.ofList text⟩
  | some .flowSequence =>
    drop
    return .sequence tag (← flowItems (node false false) bound true)
  | some .flowMapping =>
    drop
    return .mapping tag (← flowEntries (node false false) bound true)
  | some .item =>
    if flush then return .sequence tag (← flushItems (node true false) bound) else nothing
  | some .blockSequence =>
    if block then
      drop
      return .sequence tag (← blockItems (node true false) bound)
    else nothing
  | some .blockMapping =>
    if block then
      drop
      return .mapping tag (← blockEntries (node true true) bound)
    else nothing
  | _ => nothing
where
  nothing : Reading Node :=
    if named || tag.isSome then return .scalar { tag } else failure

/-- A node inside of at most `depth` others. `block` says that it may be a block collection, `flush`
that it may be a sequence at the column of the mapping around it. -/
def node : Nat → (block flush : Bool) → Reading Node
  | 0, _, _ => failure
  | depth + 1, block, flush => do
    match ← peek with
    | some (.alias name) =>
      drop
      match (← get).anchors.number? name with
      | some number => return .alias number
      | none => failure
    | _ =>
      let (name, tag) ← properties
      match name with
      | none => content (node depth) block flush false tag
      | some name =>
        let before := (← get).anchors.numbers.length
        modify fun s => { s with anchors := s.anchors.define name }
        let found ← content (node depth) block flush true tag
        modify fun s => { s with anchors := s.anchors.settle before found }
        return found

/-- The directives before a document. Only one version and one meaning of a handle may be given. -/
def directives (versioned : Bool) : Nat → Reading Unit
  | 0 => failure
  | bound + 1 => do
    match ← peek with
    | some (.version major minor) =>
      if versioned || major ≠ 1 || (minor ≠ 1 && minor ≠ 2) then failure
      else
        drop
        directives true bound
    | some (.tagHandle handle stem) =>
      if ((← get).handles.lookup handle).isSome then failure
      else
        drop
        modify fun s => { s with handles := (handle, stem) :: s.handles }
        directives versioned bound
    | _ => return ()

/-- The handles that need no directive. -/
def presetHandles : List (List Char × TagText) :=
  [(['!'], [some '!']), (['!', '!'], "tag:yaml.org,2002:".toList.map some)]

/-- Whether a document begins with a mark of its own or with directives. -/
def isExplicit : Token → Bool
  | .version _ _ => true
  | .tagHandle _ _ => true
  | .documentStart => true
  | _ => false

/-- The only document of a stream. -/
def document : Reading Document := do
  let bound := (← get).tokens.length + 1
  let root ←
    match ← peek with
    | none => pure Node.empty
    | some token =>
      if isExplicit token then
        directives false bound
        if (← peek) = some .documentStart then
          drop
          modify fun s => { s with handles := s.handles ++ presetHandles }
          let next ← peek
          if next.all fun t => isExplicit t || t = .documentEnd then pure Node.empty
          else node bound true false
        else failure
      else
        modify fun s => { s with handles := presetHandles }
        node bound true false
  let behind := (← get).tokens.dropWhile (· = .documentEnd)
  if behind.isEmpty then return ⟨root, (← get).anchors⟩ else failure

end Reading

/-- The document that a text writes. -/
def Document.parse? (text : String) : Option Document :=
  match tokens? text with
  | some tokens => (Reading.document { tokens := tokens }).map (·.1)
  | none => none

end QueryScope.Yaml
