import QueryScope.Number.Shortest
import QueryScope.Scan.Numeral
import QueryScope.Text.Lead
import QueryScope.Yaml.Node

/-!
# Values of scalars

A plain scalar is null, a truth value, an integer or a number if it is written like one, and a text
otherwise. Integers have at most 64 bits.
-/

namespace QueryScope.Yaml

open Number

/-- A value without a model of its own. -/
inductive Value where
  | null
  | bool (value : Bool)
  | integer (value : Int)
  | number (value : Binary64)
  | text (value : String)
  | sequence (items : List Value)
  | mapping (entries : List (Value × Value))
  | tagged (tag : String) (value : Value)

/-- The spellings of null. -/
def isNullText (text : String) : Bool :=
  ["null", "Null", "NULL", "~"].contains text

/-- The spellings of the truth values. -/
def bool? (text : String) : Option Bool :=
  if ["true", "True", "TRUE"].contains text then some true
  else if ["false", "False", "FALSE"].contains text then some false
  else none

/-- The text without a plus sign before it. -/
def withoutPlus : List Char → List Char
  | '+' :: rest => rest
  | text => text

/-- Digits behind a leading zero, which write no number. -/
def isZeroLed (text : List Char) : Bool :=
  let digits := match text with
    | '+' :: rest => rest
    | '-' :: rest => rest
    | rest => rest
  match digits with
  | '0' :: more => !more.isEmpty && more.all Char.isDigit
  | _ => false

/-- The number that a text writes behind the mark of a radix. -/
def radixNumeral? (text : List Char) : Option Nat :=
  match text with
  | '0' :: 'x' :: digits => Text.numeral? 16 digits
  | '0' :: 'o' :: digits => Text.numeral? 8 digits
  | '0' :: 'b' :: digits => Text.numeral? 2 digits
  | _ => none

/-- The integer that a text writes without a minus sign. -/
def unsigned? (text : List Char) : Option Nat :=
  let body := withoutPlus text
  match radixNumeral? body with
  | some n => some n
  | none => if isZeroLed text then none else Text.numeral? 10 body

/-- The integer that a text writes. -/
def integer? (text : List Char) : Option Int :=
  match unsigned? text, text with
  | some n, _ => some n
  | none, '-' :: body =>
    match radixNumeral? body with
    | some n => some (-n)
    | none => if isZeroLed text then none else (Text.numeral? 10 body).map (-·)
  | none, _ => none

/-- The finite number that a text writes as a decimal. -/
def finite? (text : List Char) : Option Binary64 :=
  let (negative, body) := match text with
    | '-' :: rest => (true, rest)
    | rest => (false, rest)
  match Scan.decimal? body with
  | some (d, []) => some (d.toBinary64 negative) |>.filter (·.isFinite)
  | _ => none

/-- The number that a text writes. -/
def number? (text : List Char) : Option Binary64 :=
  let body := withoutPlus text
  if [".inf", ".Inf", ".INF"].contains (String.ofList body) then some (.infinite false)
  else if ["-.inf", "-.Inf", "-.INF"].contains (String.ofList text) then some (.infinite true)
  else if [".nan", ".NaN", ".NAN"].contains (String.ofList text) then some .nan
  else if body ≠ text && body.head? = some '-' then none
  else finite? body

/-- An integer as a value: too large for 64 bits it is refused, and too large for 128 bits it is no
integer. -/
def integerValue? (text : List Char) : Option (Option Value) :=
  (integer? text).bind fun n =>
    if -(Nat.pow 2 63 : Nat) ≤ n ∧ n < (Nat.pow 2 64 : Nat) then some (some (.integer n))
    else if -(Nat.pow 2 127 : Nat) ≤ n ∧ n < (Nat.pow 2 128 : Nat) then some none
    else none

/-- The value of a plain scalar. -/
def plainValue? (text : String) : Option Value :=
  let chars := text.toList
  if text.isEmpty || isNullText text then some .null
  else
    match bool? text, integerValue? chars with
    | some b, _ => some (.bool b)
    | none, some value => value
    | none, none =>
      match if isZeroLed chars then none else number? chars with
      | some x => some (.number x)
      | none => some (.text text)

/-- The value of a text by a tag that does not belong to the document. -/
def formatValue? (tag : Tag) (text : String) : Option Value :=
  if tag.isFormat "bool" then (bool? text).map .bool
  else if tag.isFormat "int" then (integerValue? text.toList).join
  else if tag.isFormat "float" then (number? text.toList).map .number
  else if tag.isFormat "null" then if isNullText text then some .null else none
  else some (.text text)

/-- The value with a tag before it. Only the name of a tag that belongs to the document is kept. -/
def Value.withTag (tag : Option Tag) (value : Value) : Value :=
  match tag.bind Tag.localName? with
  | some name => .tagged name value
  | none => value

/-- The value of a scalar. -/
def Scalar.value? (scalar : Scalar) : Option Value :=
  match scalar.tag.filter (!·.isLocal) with
  | some tag => formatValue? tag scalar.text
  | none =>
    let bare := if scalar.style = .plain then plainValue? scalar.text else some (.text scalar.text)
    bare.map (.withTag scalar.tag)

namespace Value

/-- Two numbers are the same key. The sign of zero does not count. -/
def sameNumber : Binary64 → Binary64 → Bool
  | .finite m a, .finite n b => a == b && (m == n || a.val == 0)
  | a, b => a == b

mutual

/-- Two values are the same key. The order of entries does not count. -/
def same : Value → Value → Bool
  | null, null => true
  | bool a, bool b => a == b
  | integer a, integer b => a == b
  | number a, number b => sameNumber a b
  | text a, text b => a == b
  | sequence as, sequence bs => sameItems as bs
  | mapping as, mapping bs => as.length == bs.length && sameEntries as bs
  | tagged s a, tagged t b => s == t && same a b
  | _, _ => false

/-- The items of two sequences are the same, in order. -/
def sameItems : List Value → List Value → Bool
  | [], [] => true
  | a :: as, b :: bs => same a b && sameItems as bs
  | _, _ => false

/-- Every entry of a mapping is one of another. -/
def sameEntries : List (Value × Value) → List (Value × Value) → Bool
  | [], _ => true
  | (k, v) :: rest, bs => bs.any (fun e => same k e.1 && same v e.2) && sameEntries rest bs

end

/-- The text of a value that is no collection. -/
def scalarText? : Value → Option String
  | null => some ""
  | bool true => some "true"
  | bool false => some "false"
  | integer n => some (toString n)
  | number x => some x.documentText
  | text s => some s
  | tagged _ value => value.scalarText?
  | sequence _ => none
  | mapping _ => none

end Value

end QueryScope.Yaml
