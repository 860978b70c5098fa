import QueryScope.Duration
import QueryScope.NameMap
import QueryScope.Yaml.Reader
import QueryScope.Yaml.Value

/-!
# Decoding documents

A decoder reads a node as a value of a type. Collections may be nested 128 deep, aliases included,
and an alias may be followed a hundred times for each step of the document, so that decoding ends
even if a node has an alias of itself inside.
-/

namespace QueryScope.Yaml

/-- What decoding knows about the document: what the aliases stand for, and how many of them may be
followed. -/
structure Decoding where
  target? : Nat → Option Node
  limit : Nat

/-- A decoding step, which may fail. It counts the aliases that were followed. -/
abbrev Decode := ReaderT Decoding (StateT Nat Option)

/-- Reads a node, in which collections may be nested to the given depth. -/
abbrev Decoder (α : Type) := Nat → Node → Decode α

namespace Decoder

variable {α β : Type}

/-- The node itself, or what it is an alias of. -/
def resolve (node : Node) : Decode Node := do
  match node with
  | .alias number =>
    modify (· + 1)
    if (← read).limit < (← get) then failure
    else
      match (← read).target? number with
      | some target => return target
      | none => failure
  | _ => return node

/-- The text of any scalar. -/
def text : Decoder String := fun _ node => do
  match ← resolve node with
  | .scalar s => return s.text
  | _ => failure

/-- What a text is read as. -/
def ofText (read? : String → Option α) : Decoder α := fun depth node => do
  match read? (← text depth node) with
  | some a => return a
  | none => failure

/-- A duration. -/
def duration : Decoder Duration :=
  ofText fun s => (Duration.read s).toOption

/-- A scalar that is plain, or a literal block with a tag of the format. -/
def bare (tag : String) (read? : String → Option α) : Decoder α := fun _ node => do
  match ← resolve node with
  | .scalar s =>
    if s.style = .plain || (s.style = .literal && s.tag.any (·.isFormat tag)) then
      match read? s.text with
      | some a => return a
      | none => failure
    else failure
  | _ => failure

/-- A truth value. -/
def bool : Decoder Bool :=
  bare "bool" bool?

/-- A signed integer of 64 bits. -/
def integer : Decoder Int :=
  bare "int" fun s => (integer? s.toList).filter fun n => -(Nat.pow 2 63 : Nat) ≤ n ∧ n < (Nat.pow 2 63 : Nat)

/-- An integer of 64 bits without a sign. -/
def natural : Decoder Nat :=
  bare "int" fun s => (unsigned? s.toList).filter (· < Nat.pow 2 64)

/-- A value that may be missing: where nothing or null is written, there is none. -/
def optional (decoder : Decoder α) : Decoder (Option α) := fun depth node => do
  let node ← resolve node
  match node with
  | .scalar s =>
    if s.style = .plain then
      match s.tag with
      | none => if s.text.isEmpty || isNullText s.text then return none else present depth node
      | some tag =>
        if tag.isFormat "null" then if isNullText s.text then return none else failure
        else present depth node
    else present depth node
  | _ => present depth node
where
  present (depth : Nat) (node : Node) : Decode (Option α) :=
    some <$> decoder depth node

/-- The items of a sequence. Where nothing is written, there are none. -/
def list (decoder : Decoder α) : Decoder (List α) := fun depth node => do
  match ← resolve node, depth with
  | .sequence _ items, inner + 1 => items.mapM (decoder inner)
  | .scalar s, _ => if s.style = .plain && s.text.isEmpty then return [] else failure
  | _, _ => failure

/-- The entries of a mapping. Where nothing is written, there are none. -/
def entries (depth : Nat) (node : Node) : Decode (List (Node × Node)) := do
  match ← resolve node, depth with
  | .mapping _ entries, _ + 1 => return entries
  | .scalar s, _ => if s.style = .plain && s.text.isEmpty then return [] else failure
  | _, _ => failure

/-- A map from texts. Of two values for one text the later one counts. -/
def nameMap (decoder : Decoder α) : Decoder (NameMap α) := fun depth node => do
  let pairs ← (← entries depth node).mapM fun entry =>
    return (← text (depth - 1) entry.1, ← decoder (depth - 1) entry.2)
  return .ofList pairs

/-- The fields of a record, each at most once, put into the record in turn. -/
def fields (field? : String → Option (Decoder (α → α))) (depth : Nat) :
    List (Node × Node) → List String → α → Decode (α × List String)
  | [], seen, record => return (record, seen)
  | (key, value) :: rest, seen, record => do
    let name ← text depth key
    match field? name with
    | none => failure
    | some decoder =>
      if seen.contains name then failure
      else
        let update ← decoder depth value
        fields field? depth rest (name :: seen) (update record)

/-- A record with some of the known fields and all of those that are required. -/
def record (initial : α) (field? : String → Option (Decoder (α → α)))
    (required : List String) : Decoder α := fun depth node => do
  let (result, seen) ← fields field? (depth - 1) (← entries depth node) [] initial
  if required.all (seen.contains ·) then return result else failure

/-- A field with a decoder of its own, and how it is put into the record. -/
def field (decoder : Decoder β) (set : β → α → α) : Decoder (α → α) := fun depth node =>
  set <$> decoder depth node

/-- Pairs of a mapping, in which no key may stand twice. -/
def distinct : List (Value × Value) → List (Value × Value) → Decode (List (Value × Value))
  | [], _ => return []
  | entry :: rest, before =>
    if before.any (Value.same entry.1 ·.1) then failure
    else return entry :: (← distinct rest (entry :: before))

/-- Any value. -/
def value : Decoder Value := fun depth node => do
  match ← resolve node with
  | .scalar s =>
    match s.value? with
    | some v => return v
    | none => failure
  | .sequence tag items =>
    match depth with
    | 0 => failure
    | inner + 1 => return (Value.sequence (← items.mapM (value inner))).withTag tag
  | .mapping tag entries =>
    match depth with
    | 0 => failure
    | inner + 1 =>
      let pairs ← entries.mapM fun entry => return (← value inner entry.1, ← value inner entry.2)
      return (Value.mapping (← distinct pairs [])).withTag tag
  | .alias _ => failure

/-- The text of a value that is no collection. -/
def valueText : Decoder String := fun depth node => do
  match (← value depth node).scalarText? with
  | some s => return s
  | none => failure

/-- A map from texts to the texts of values, which may be missing. -/
def valueTextMap : Decoder (NameMap String) := fun depth node => do
  let values ← optional (nameMap value) depth node
  match (values.getD .empty).entries.mapM fun entry => entry.2.scalarText?.map (entry.1, ·) with
  | some pairs => return .ofList pairs
  | none => failure

end Decoder

/-- Reads a document. -/
def Document.decode? {α : Type} (document : Document) (decoder : Decoder α) : Option α :=
  let decoding : Decoding :=
    { target? := document.anchors.node?, limit := 100 * document.root.steps }
  ((decoder 128 document.root).run decoding |>.run 0).map (·.1)

/-- Reads a text as a document. -/
def decodeText? {α : Type} (decoder : Decoder α) (text : String) : Option α :=
  (Document.parse? text).bind (·.decode? decoder)

end QueryScope.Yaml
