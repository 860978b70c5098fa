/-!
# Patterns of paths

A question mark stands for one character, a star for any number of them, brackets for one of some
characters, and two stars for any number of directories.
-/

namespace QueryScope.Glob

/-- Characters in brackets. -/
inductive CharRange where
  | single (c : Char)
  | range (first last : Char)
deriving DecidableEq

/-- The character is one of the range. -/
def CharRange.holds (c : Char) : CharRange → Bool
  | single d => c == d
  | range first last => first ≤ c && c ≤ last

/-- A step of a pattern. -/
inductive Step where
  | char (c : Char)
  | anyChar
  | within (ranges : List CharRange)
  | outside (ranges : List CharRange)
  | anyText
  | anyDirectories
deriving DecidableEq

/-- What is wrong with a pattern. -/
inductive Complaint where
  | tooManyStars
  | recursivePart
  | range
deriving DecidableEq

/-- The complaint in words. -/
def Complaint.text : Complaint → String
  | tooManyStars => "wildcards are either regular \x60*\x60 or recursive \x60**\x60"
  | recursivePart => "recursive wildcards must form a single path component"
  | range => "invalid range pattern"

/-- What is wrong with a pattern, and before which character. -/
structure PatternError where
  position : Nat
  complaint : Complaint
deriving DecidableEq

/-- The error in one line. -/
def PatternError.message (e : PatternError) : String :=
  "Pattern syntax error near position " ++ toString e.position ++ ": " ++ e.complaint.text

/-- The ranges that characters in brackets write. -/
def charRanges : List Char → List CharRange
  | first :: '-' :: last :: rest => .range first last :: charRanges rest
  | c :: rest => .single c :: charRanges rest
  | [] => []

/-- The characters up to a closing bracket, of which there is at least one, and what follows it. -/
def bracketed? : List Char → Option (List Char × List Char)
  | [] => none
  | first :: rest =>
    match rest.dropWhile (· != ']') with
    | [] => none
    | _ :: behind => some (first :: rest.takeWhile (· != ']'), behind)

/-- The step that begins with an opening bracket, and what follows it. -/
def bracketStep? : List Char → Option (Step × List Char)
  | '!' :: rest => (bracketed? rest).map fun (chars, behind) => (.outside (charRanges chars), behind)
  | rest => (bracketed? rest).map fun (chars, behind) => (.within (charRanges chars), behind)

/-- The steps with two stars added. Two stars behind two stars add nothing, except at the start. -/
def addDirectories (steps : List Step) : List Step :=
  if 1 < steps.length && steps.getLast? = some .anyDirectories then steps else steps ++ [.anyDirectories]

/-- The steps behind those read so far, where `position` characters stand before the text, the last
of which is `previous`. -/
def stepsFrom (bound position : Nat) (previous : Option Char) (steps : List Step)
    (text : List Char) : Except PatternError (List Step) :=
  match bound, text with
  | 0, _ => .ok steps
  | _, [] => .ok steps
  | bound + 1, '?' :: rest => stepsFrom bound (position + 1) (some '?') (steps ++ [.anyChar]) rest
  | bound + 1, '*' :: rest =>
    let stars := 1 + (rest.takeWhile (· == '*')).length
    let behind := rest.dropWhile (· == '*')
    if 2 < stars then .error ⟨position + 2, .tooManyStars⟩
    else if stars = 1 then stepsFrom bound (position + 1) (some '*') (steps ++ [.anyText]) behind
    else if previous.any (· != '/') then .error ⟨position - 1, .recursivePart⟩
    else
      match behind with
      | [] => .ok (addDirectories steps)
      | '/' :: more => stepsFrom bound (position + 3) (some '/') (addDirectories steps) more
      | _ => .error ⟨position + 2, .recursivePart⟩
  | bound + 1, '[' :: rest =>
    match bracketStep? rest with
    | some (step, behind) =>
      stepsFrom bound (position + 1 + rest.length - behind.length) (some ']') (steps ++ [step]) behind
    | none => .error ⟨position, .range⟩
  | bound + 1, c :: rest => stepsFrom bound (position + 1) (some c) (steps ++ [.char c]) rest

/-- The steps of a pattern. -/
def parse (pattern : String) : Except PatternError (List Step) :=
  stepsFrom pattern.length 0 none [] pattern.toList

/-- A condition holds for the text without some of its first characters. -/
def holdsBehind (condition : List Char → Bool) : List Char → Bool
  | [] => condition []
  | c :: rest => condition (c :: rest) || holdsBehind condition rest

/-- The steps match a whole text. -/
def isMatch : List Step → List Char → Bool
  | [], text => text.isEmpty
  | .anyText :: steps, text => holdsBehind (isMatch steps) text
  | .anyDirectories :: steps, text => holdsBehind (isMatch steps) text
  | _ :: _, [] => false
  | .char d :: steps, c :: text => c == d && isMatch steps text
  | .anyChar :: steps, _ :: text => isMatch steps text
  | .within ranges :: steps, c :: text => ranges.any (·.holds c) && isMatch steps text
  | .outside ranges :: steps, c :: text => !ranges.any (·.holds c) && isMatch steps text

/-- The character of a step that matches one alone. -/
def Step.char? : Step → Option Char
  | char c => some c
  | _ => none

/-- The text that steps without wildcards match. -/
def literal? (steps : List Step) : Option String :=
  (steps.mapM Step.char?).map String.ofList

end QueryScope.Glob
