import QueryScope.Number.Decimal
import QueryScope.Scan.Report
import QueryScope.Text.Lead

/-!
# Durations

A duration is a whole number of milliseconds. It is written as counts of units from the largest
to the smallest, and read back from that form or from a bare number of seconds.
-/

namespace QueryScope

open Scan

/-- A span of time. -/
structure Duration where
  millis : Nat
deriving DecidableEq

namespace Duration

/-- The units of time in their order of size. -/
inductive Measure where
  | year
  | week
  | day
  | hour
  | minute
  | second
  | millisecond
deriving DecidableEq

namespace Measure

/-- The place of a unit in the order of size, the largest first. -/
def rank : Measure → Nat
  | year => 0
  | week => 1
  | day => 2
  | hour => 3
  | minute => 4
  | second => 5
  | millisecond => 6

/-- The milliseconds of a unit. -/
def millis : Measure → Nat
  | year => 365 * 24 * 60 * 60 * 1000
  | week => 7 * 24 * 60 * 60 * 1000
  | day => 24 * 60 * 60 * 1000
  | hour => 60 * 60 * 1000
  | minute => 60 * 1000
  | second => 1000
  | millisecond => 1

/-- The letters of a unit. -/
def symbol : Measure → List Char
  | year => ['y']
  | week => ['w']
  | day => ['d']
  | hour => ['h']
  | minute => ['m']
  | second => ['s']
  | millisecond => ['m', 's']

/-- Whether a unit is written only when it divides what is left. -/
def whenExact : Measure → Bool
  | year | week => true
  | _ => false

/-- All units, the largest first. -/
def all : List Measure :=
  [year, week, day, hour, minute, second, millisecond]

/-- The unit at the start of a text, if no letter follows it, and the text behind it. -/
def read? (text : List Char) : Option (Measure × List Char) :=
  all.findSome? fun m =>
    match Text.after? m.symbol text with
    | some rest => if rest.head?.any Char.isAlpha then none else some (m, rest)
    | none => none

theorem length_lt_of_read? {text rest : List Char} {m : Measure} (h : read? text = some (m, rest)) :
    rest.length < text.length := by
  obtain ⟨n, -, hn⟩ := List.exists_of_findSome?_eq_some h
  split at hn
  case h_1 tail htail =>
    have hsplit := Text.eq_append_of_after? htail
    split at hn
    · simp at hn
    · obtain ⟨-, rfl⟩ := Prod.mk.inj (Option.some.inj hn)
      have hpos : 0 < n.symbol.length := by cases n <;> decide
      rw [hsplit, List.length_append]
      omega
  case h_2 => simp at hn

end Measure

/-- The first value that does not fit a count of milliseconds. -/
def limit : Nat :=
  Nat.pow 2 64

/-- The written form of a number of milliseconds by the given units. -/
def writeUnits : List Measure → Nat → List Char
  | [], _ => []
  | m :: smaller, left =>
    if m.whenExact ∧ left % m.millis ≠ 0 then writeUnits smaller left
    else if left / m.millis = 0 then writeUnits smaller left
    else Number.decimalDigits (left / m.millis) ++ m.symbol ++ writeUnits smaller (left % m.millis)

/-- The written form of a duration: the milliseconds below `2 ^ 64`, in units. Years and weeks
are used only where they leave nothing over. -/
def chars (d : Duration) : List Char :=
  let left := d.millis % limit
  if left = 0 then ['0', 's'] else writeUnits Measure.all left

/-- The written form of a duration, as a string. -/
def text (d : Duration) : String :=
  String.ofList d.chars

/-- The complaint about a text that is no duration. -/
def malformed : String :=
  "not a valid duration string"

/-- Reads the counts behind `total` milliseconds that ended with the unit `last`. -/
def scanCounts (total : Nat) (last : Option Measure) (input : List Char) :
    Except Failure (Duration × List Char) :=
  let digits := input.takeWhile Char.isDigit
  let rest := input.dropWhile Char.isDigit
  if digits = [] then
    if last.isSome then .ok (⟨total⟩, input) else miss input
  else
    let count := Number.natOfDigits digits
    if limit ≤ count then halt input
    else
      match found : Measure.read? rest with
      | some (m, next) =>
        if last.any fun l => m.rank ≤ l.rank then refuse malformed input
        else if limit ≤ total + count * m.millis then halt input
        else scanCounts (total + count * m.millis) (some m) next
      | none =>
        if last.isSome then refuse malformed input
        else if rest.head?.any fun c => c.isAlpha || c == '.' then refuse malformed input
        else .ok (⟨count * 1000⟩, rest)
termination_by input.length
decreasing_by
  have hnext := Measure.length_lt_of_read? found
  have hrest : rest.length ≤ input.length := Text.length_dropWhile_le Char.isDigit input
  omega

/-- A duration: counts of units from the largest to the smallest, or a bare number of seconds. -/
def scan : Scanner Duration := fun input =>
  if input.head? = some '-' then refuse malformed input else scanCounts 0 none input

/-- The duration that a whole text writes, blanks around it apart. -/
def parse (text : String) : Except SyntaxError Duration :=
  readAll scan (Text.trim text.toList)

/-- Why a setting is no duration. -/
inductive Fault where
  | empty
  | malformed (text : String)
deriving DecidableEq

/-- The fault in one line. -/
def Fault.message : Fault → String
  | empty => "empty duration string"
  | malformed text => Duration.malformed ++ ": " ++ Text.escaped text

/-- The duration that a setting writes, blanks around it apart. -/
def read (setting : String) : Except Fault Duration :=
  let text := Text.trimmed setting
  if text.isEmpty then .error .empty
  else
    match parse text with
    | .ok d => .ok d
    | .error _ => .error (.malformed text)

end Duration

end QueryScope
