import QueryScope.Proofs.TemplateSteps

/-!
# Nesting in templates

The keywords at the start of actions say where structures begin, go on and end. A grammar says how they are
nested: each structure has one end, definitions stand outside of all others, and a loop is left from its first
body only. What one keyword does to the open structures keeps the way in which the rest completes them.
-/

namespace QueryScope.Template

/-! ## Keywords of actions -/

/-- A keyword at the start of an action, as far as it concerns structures. -/
inductive Mark where
  /-- `if`, `with` or `range` -/
  | control (kind : Control)
  /-- `define` or `block` -/
  | named (kind : Named)
  | plainElse
  /-- `else if` or `else with` -/
  | elseControl (kind : Control)
  /-- `end` -/
  | closes
  /-- `break`, or `continue` if the loop goes on -/
  | jump (goesOn : Bool)
deriving DecidableEq

/-- The keyword that comes next, blanks apart, and the items behind it. -/
def keyword? (items : List Item) : Option (Keyword × List Item) :=
  match afterSpaces items with
  | [] => none
  | item :: behind =>
    match item.kind with
    | .keyword word => some (word, behind)
    | _ => none

/-- What a keyword at the start of an action does, by the items behind it. -/
def Keyword.mark? (behind : List Item) : Keyword → Option Mark
  | block => some (.named .block)
  | breakLoop => some (.jump false)
  | continueLoop => some (.jump true)
  | define => some (.named .define)
  | elseBranch =>
    match (keyword? behind).map Prod.fst with
    | some .ifBranch => some (.elseControl .ifBranch)
    | some .withScope => some (.elseControl .withScope)
    | _ => some .plainElse
  | endMark => some .closes
  | ifBranch => some (.control .ifBranch)
  | rangeLoop => some (.control .rangeLoop)
  | template => none
  | withScope => some (.control .withScope)

/-- The mark of an action behind its braces. -/
def mark? (items : List Item) : Option Mark :=
  (keyword? items).bind fun found => found.1.mark? found.2

/-- The marks of all actions, from left to right. -/
def marks : List Item → List Mark
  | [] => []
  | item :: items => (if item.kind = .opening then mark? items else none).toList ++ marks items

/-! ## Nesting -/

mutual

/-- The marks of a body, which stands in a loop that may be left or not: complete structures one after
another, and ways out of the loop. -/
inductive Body : (inLoop : Bool) → List Mark → Prop
  | nil (inLoop : Bool) : Body inLoop []
  | jump (goesOn : Bool) {rest : List Mark} (hrest : Body true rest) : Body true (.jump goesOn :: rest)
  | block {inLoop : Bool} {inner rest : List Mark} (hinner : Body false inner) (hrest : Body inLoop rest) :
      Body inLoop (.named .block :: (inner ++ .closes :: rest))
  | control {inLoop : Bool} {kind : Control} {main ending rest : List Mark}
      (hmain : Body (inLoop || decide (kind = .rangeLoop)) main) (hending : Ending inLoop kind ending)
      (hrest : Body inLoop rest) : Body inLoop (.control kind :: (main ++ (ending ++ rest)))

/-- The marks of a control structure behind its first body: its end, with a second body before it or not, or
a further condition of the same kind, which shares its end. -/
inductive Ending : (inLoop : Bool) → Control → List Mark → Prop
  | close (inLoop : Bool) (kind : Control) : Ending inLoop kind [.closes]
  | otherwise {inLoop : Bool} (kind : Control) {other : List Mark} (hother : Body inLoop other) :
      Ending inLoop kind (.plainElse :: (other ++ [.closes]))
  | chained {inLoop : Bool} {kind : Control} {main ending : List Mark} (hkind : kind ≠ .rangeLoop)
      (hmain : Body inLoop main) (hending : Ending inLoop kind ending) :
      Ending inLoop kind (.elseControl kind :: (main ++ ending))

end

/-- The marks of a template: a body outside of all loops, with definitions in it. -/
inductive Nested : List Mark → Prop
  | body {all : List Mark} (h : Body false all) : Nested all
  | define {before inner rest : List Mark} (hbefore : Body false before) (hinner : Body false inner)
      (hrest : Nested rest) : Nested (before ++ .named .define :: (inner ++ .closes :: rest))

lemma Nested.prepend {piece : List Mark} (hpiece : ∀ body, Body false body → Body false (piece ++ body))
    {all : List Mark} (h : Nested all) : Nested (piece ++ all) := by
  cases h with
  | body h => exact .body (hpiece all h)
  | define hbefore hinner hrest =>
    rw [← List.append_assoc]
    exact .define (hpiece _ hbefore) hinner hrest

/-! ## Open structures -/

/-- The loops that may be left in the first body of a control structure. -/
def loopsInside (kind : Control) (loops : Nat) : Nat :=
  if kind = .rangeLoop then loops + 1 else loops

lemma loopsBehind_loopsInside (kind : Control) (loops : Nat) : loopsBehind kind (loopsInside kind loops) = loops := by
  cases kind <;> rfl

/-- The loops that may be left inside open structures. -/
def loopsIn : List Frame → Nat
  | [] => 0
  | .named _ _ _ :: _ => 0
  | .main kind _ :: frames => loopsInside kind (loopsIn frames)
  | .other _ :: frames => loopsIn frames

/-- The count of loops is right, and so are those that are restored behind named structures. -/
def Counted : List Frame → Nat → Prop
  | [], loops => loops = 0
  | .named _ _ outer :: frames, loops => loops = 0 ∧ Counted frames outer
  | .main kind _ :: frames, loops => ∃ outer, loops = loopsInside kind outer ∧ Counted frames outer
  | .other _ :: frames, loops => Counted frames loops

lemma Counted.eq {frames : List Frame} {loops : Nat} (h : Counted frames loops) : loops = loopsIn frames := by
  induction frames generalizing loops with
  | nil => exact h
  | cons frame frames ih =>
    cases frame with
    | named => exact h.1
    | main kind vars =>
      obtain ⟨outer, rfl, houter⟩ := h
      rw [loopsIn, ih houter]
    | other => exact ih h

/-- A loop may be left inside open structures. -/
def inLoop (frames : List Frame) : Bool :=
  loopsIn frames != 0

lemma inLoop_main (kind : Control) (vars : List String) (frames : List Frame) :
    inLoop (.main kind vars :: frames) = (inLoop frames || decide (kind = .rangeLoop)) := by
  cases kind <;> simp [inLoop, loopsIn, loopsInside]

/-- The marks that end a structure behind its open body. -/
def Frame.Ends (inLoop : Bool) (ending : List Mark) : Frame → Prop
  | named _ _ _ => ending = [.closes]
  | main kind _ => Ending inLoop kind ending
  | other _ => ending = [.closes]

/-- The marks complete open structures from the innermost to the outermost, and then the template. -/
def Completes : List Frame → List Mark → Prop
  | [], all => Nested all
  | frame :: frames, all => ∃ body ending rest, all = body ++ (ending ++ rest) ∧
      Body (inLoop (frame :: frames)) body ∧ frame.Ends (inLoop frames) ending ∧ Completes frames rest

lemma Completes.prepend {frames : List Frame} {all : List Mark} (h : Completes frames all) (piece : List Mark)
    (hpiece : ∀ body, Body (inLoop frames) body → Body (inLoop frames) (piece ++ body)) :
    Completes frames (piece ++ all) := by
  cases frames with
  | nil => exact Nested.prepend hpiece h
  | cons frame frames =>
    obtain ⟨body, ending, rest, rfl, hbody, hending, hrest⟩ := h
    exact ⟨piece ++ body, ending, rest, by rw [List.append_assoc], hpiece body hbody, hending, hrest⟩

/-- What the mark of an action does to the open structures, to the count of loops and to the variables that may
be used. Of those, `outer` are there before the action and `vars` behind its pipeline. -/
inductive Turns (outer vars : List String) :
    Option Mark → List Frame → Nat → List Frame → Nat → List String → Prop
  | stays {frames : List Frame} {loops : Nat} : Turns outer vars none frames loops frames loops vars
  | jumps {frames : List Frame} {loops : Nat} (goesOn : Bool) (hloops : loops ≠ 0) :
      Turns outer vars (some (.jump goesOn)) frames loops frames loops vars
  | block {frames : List Frame} {loops : Nat} :
      Turns outer vars (some (.named .block)) frames loops (.named .block vars loops :: frames) 0 ["$"]
  | define {loops : Nat} : Turns outer vars (some (.named .define)) [] loops [.named .define vars loops] 0 ["$"]
  | control {frames : List Frame} {loops : Nat} (kind : Control) :
      Turns outer vars (some (.control kind)) frames loops (.main kind outer :: frames) (loopsInside kind loops) vars
  | closesNamed {frames : List Frame} {loops count : Nat} (kind : Named) (saved : List String) :
      Turns outer vars (some .closes) (.named kind saved count :: frames) loops frames count saved
  | closesMain {frames : List Frame} {loops : Nat} (kind : Control) (saved : List String) :
      Turns outer vars (some .closes) (.main kind saved :: frames) loops frames (loopsBehind kind loops) saved
  | closesOther {frames : List Frame} {loops : Nat} (saved : List String) :
      Turns outer vars (some .closes) (.other saved :: frames) loops frames loops saved
  | otherwise {frames : List Frame} {loops : Nat} (kind : Control) (saved : List String) :
      Turns outer vars (some .plainElse) (.main kind saved :: frames) loops (.other saved :: frames)
        (loopsBehind kind loops) vars
  | chained {frames : List Frame} {loops : Nat} {kind : Control} (saved : List String)
      (hkind : kind ≠ .rangeLoop) :
      Turns outer vars (some (.elseControl kind)) (.main kind saved :: frames) loops (.main kind saved :: frames)
        loops vars

section Turns

variable {outer vars vars' : List String} {mark : Option Mark} {frames frames' : List Frame} {loops loops' : Nat}

lemma Turns.counted (h : Turns outer vars mark frames loops frames' loops' vars') (hcounted : Counted frames loops) :
    Counted frames' loops' := by
  cases h with
  | stays => exact hcounted
  | jumps => exact hcounted
  | block => exact ⟨rfl, hcounted⟩
  | define => exact ⟨rfl, hcounted⟩
  | control => exact ⟨loops, rfl, hcounted⟩
  | closesNamed => exact hcounted.2
  | closesMain kind =>
    obtain ⟨outer, rfl, houter⟩ := hcounted
    exact (loopsBehind_loopsInside kind outer).symm ▸ houter
  | closesOther => exact hcounted
  | otherwise kind =>
    obtain ⟨outer, rfl, houter⟩ := hcounted
    exact (loopsBehind_loopsInside kind outer).symm ▸ houter
  | chained => exact hcounted

/-- What completes the structures behind a mark completes those before it, with the mark in front. -/
lemma Turns.completes (h : Turns outer vars mark frames loops frames' loops' vars') (hcounted : Counted frames loops)
    {all : List Mark} (hall : Completes frames' all) : Completes frames (mark.toList ++ all) := by
  cases h with
  | stays => exact hall
  | jumps goesOn hloops =>
    have hloop : inLoop frames = true := by
      rw [hcounted.eq] at hloops
      simpa [inLoop] using hloops
    refine hall.prepend [.jump goesOn] fun body hbody => ?_
    rw [hloop] at hbody ⊢
    exact .jump goesOn hbody
  | block =>
    obtain ⟨inner, ending, rest, rfl, hinner, rfl, hrest⟩ := hall
    have hpiece := hrest.prepend (.named .block :: (inner ++ [.closes])) fun body hbody => by
      simpa using Body.block hinner hbody
    simpa using hpiece
  | define =>
    obtain ⟨inner, ending, rest, rfl, hinner, rfl, hrest⟩ := hall
    exact Nested.define (.nil false) hinner hrest
  | control kind =>
    obtain ⟨main, ending, rest, rfl, hmain, hending, hrest⟩ := hall
    rw [inLoop_main] at hmain
    have hpiece := hrest.prepend (.control kind :: (main ++ ending)) fun body hbody => by
      simpa using Body.control hmain hending hbody
    simpa using hpiece
  | closesNamed => exact ⟨[], [.closes], all, rfl, .nil _, rfl, hall⟩
  | closesMain kind => exact ⟨[], [.closes], all, rfl, .nil _, .close _ kind, hall⟩
  | closesOther => exact ⟨[], [.closes], all, rfl, .nil _, rfl, hall⟩
  | @otherwise frames _ kind =>
    obtain ⟨other, ending, rest, rfl, hother, rfl, hrest⟩ := hall
    have hending : Ending (inLoop frames) kind (.plainElse :: (other ++ [.closes])) := .otherwise kind hother
    exact ⟨[], _, rest, by simp, .nil _, hending, hrest⟩
  | @chained frames _ kind _ hkind =>
    obtain ⟨main, ending, rest, rfl, hmain, hending, hrest⟩ := hall
    rw [inLoop_main, decide_eq_false hkind, Bool.or_false] at hmain
    exact ⟨[], .elseControl kind :: (main ++ ending), rest, by simp, .nil _, .chained hkind hmain hending, hrest⟩

end Turns

end QueryScope.Template
