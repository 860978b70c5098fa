import QueryScope.Template.Check
import Mathlib.Tactic

/-!
# Steps of template checks

What a successful step of a check does to its state. Inside an action a check passes over items one by one,
none of which opens an action, and leaves the open structures and the count of loops as they are. A variable
that it passes over may be used there or is declared.
-/

namespace QueryScope.Template

section Steps

variable {α β : Type} {name : String} {s s' : State}

lemma bind_eq_ok_iff {x : Check α} {f : α → Check β} {b : β} :
    (x >>= f) name s = .ok (b, s') ↔ ∃ a m, x name s = .ok (a, m) ∧ f a name m = .ok (b, s') := by
  change (x name s >>= fun result => f result.1 name result.2) = .ok (b, s') ↔ _
  cases h : x name s with
  | error e => simp [bind, Except.bind]
  | ok result =>
    obtain ⟨a, m⟩ := result
    simp [bind, Except.bind]

lemma bind_of_ok {x : Check α} {a : α} {m : State} (h : x name s = .ok (a, m)) (f : α → Check β) :
    (x >>= f) name s = f a name m := by
  change (x name s >>= fun result => f result.1 name result.2) = _
  rw [h]
  rfl

lemma bind_congr_of_ok {x : Check α} {f g : α → Check β}
    (h : ∀ a m, x name s = .ok (a, m) → f a name m = g a name m) : (x >>= f) name s = (x >>= g) name s := by
  cases hx : x name s with
  | error e =>
    change (x name s >>= fun result => f result.1 name result.2) =
      (x name s >>= fun result => g result.1 name result.2)
    rw [hx]
    rfl
  | ok result =>
    rw [bind_of_ok hx, bind_of_ok hx]
    exact h _ _ hx

lemma pure_eq_ok_iff {a b : α} : (pure a : Check α) name s = .ok (b, s') ↔ a = b ∧ s = s' := by
  change Except.ok (a, s) = .ok (b, s') ↔ _
  simp

lemma map_eq_ok_iff {x : Check α} {g : α → β} {b : β} :
    (g <$> x) name s = .ok (b, s') ↔ ∃ a, x name s = .ok (a, s') ∧ g a = b := by
  rw [map_eq_pure_bind, bind_eq_ok_iff]
  constructor
  · rintro ⟨a, m, hx, hb⟩
    obtain ⟨rfl, rfl⟩ := pure_eq_ok_iff.1 hb
    exact ⟨a, hx, rfl⟩
  · rintro ⟨a, hx, rfl⟩
    exact ⟨a, s', hx, pure_eq_ok_iff.2 ⟨rfl, rfl⟩⟩

lemma get_eq_ok_iff {m : State} : (get : Check State) name s = .ok (m, s') ↔ s = m ∧ s = s' := by
  change Except.ok (s, s) = .ok (m, s') ↔ _
  simp

lemma modify_eq_ok_iff {f : State → State} {u : PUnit} :
    (modify f : Check PUnit) name s = .ok (u, s') ↔ f s = s' := by
  change Except.ok (PUnit.unit, f s) = .ok (u, s') ↔ _
  simp

lemma set_eq_ok_iff {t : State} {u : PUnit} : (set t : Check PUnit) name s = .ok (u, s') ↔ t = s' := by
  change Except.ok (PUnit.unit, t) = .ok (u, s') ↔ _
  simp

lemma unread_eq_ok_iff {item : Item} {u : Unit} :
    unread item name s = .ok (u, s') ↔ { s with items := item :: s.items } = s' :=
  modify_eq_ok_iff

lemma complain_ne_ok {text : String} {result : α × State} : (complain text : Check α) name s ≠ .ok result :=
  nofun

lemma unexpected_ne_ok {item : Item} {context : String} {result : α × State} :
    (unexpected item context : Check α) name s ≠ .ok result := by
  unfold unexpected
  split_ifs
  · exact nofun
  · exact complain_ne_ok

/-- A condition under which a check ends was not met. -/
lemma guard_eq_ok_iff {c : Prop} [Decidable c] {x : Check Unit} {k : Unit → Check β} {b : β}
    (hx : ∀ result, x name s ≠ .ok result) :
    (if c then x >>= k else k ()) name s = .ok (b, s') ↔ ¬c ∧ k () name s = .ok (b, s') := by
  split_ifs with hc
  · rw [bind_eq_ok_iff]
    constructor
    · rintro ⟨a, m, ha, -⟩
      exact absurd ha (hx _)
    · exact fun h => absurd hc h.1
  · exact ⟨fun h => ⟨hc, h⟩, And.right⟩

end Steps

/-! ## Passing over items -/

/-- The items `rest` are what is left of others behind some that open no action. At the end one may be
added that says so. -/
inductive Passes : List Item → List Item → Prop
  | refl (items : List Item) : Passes items items
  | skip {item : Item} {items rest : List Item} (hkind : item.kind ≠ .opening) (h : Passes items rest) :
      Passes (item :: items) rest
  | finish (line : Nat) : Passes [] [⟨.eof, [], line⟩]

lemma Passes.trans {a b c : List Item} (hab : Passes a b) (hbc : Passes b c) : Passes a c := by
  induction hab with
  | refl => exact hbc
  | skip hkind _ ih => exact .skip hkind (ih hbc)
  | finish line =>
    cases hbc with
    | refl => exact .finish line
    | skip _ h => exact h

/-- The items behind blanks. -/
def afterSpaces (items : List Item) : List Item :=
  items.dropWhile (·.kind = .space)

/-- An item behind a variable that declares it. In the header of a loop that may be a comma. -/
def Item.Declares (inRange : Bool) (sign : Item) : Prop :=
  (sign.kind = .assign ∨ sign.kind = .declare) ∨ (sign.kind = .char ∧ sign.text = [',']) ∧ inRange = true

lemma Item.Declares.plain {inRange : Bool} {sign : Item} (h : sign.Declares inRange) :
    sign.kind ≠ .space ∧ sign.kind ≠ .opening ∧ sign.kind ≠ .var := by
  rcases h with (hkind | hkind) | ⟨⟨hkind, -⟩, -⟩
  · simp [hkind]
  · simp [hkind]
  · simp [hkind]

/-- A variable before these items is declared there: what comes next, blanks apart, declares it. -/
def DeclaredBefore (inRange : Bool) (items : List Item) : Prop :=
  ∃ sign, (afterSpaces items).head? = some sign ∧ sign.Declares inRange

lemma DeclaredBefore.mono {inRange : Bool} {items : List Item} (h : DeclaredBefore false items) :
    DeclaredBefore inRange items := by
  obtain ⟨sign, hsign, hdeclares | ⟨-, hfalse⟩⟩ := h
  · exact ⟨sign, hsign, .inl hdeclares⟩
  · cases hfalse

/-- How a check passes over items, with the variables that may be used before them and behind them. -/
inductive Walks (inRange : Bool) : List Item → List String → List Item → List String → Prop
  | refl (items : List Item) (vars : List String) : Walks inRange items vars items vars
  | skip {item : Item} {items rest : List Item} {vars vars' : List String} (hopening : item.kind ≠ .opening)
      (hvar : item.kind ≠ .var) (h : Walks inRange items vars rest vars') :
      Walks inRange (item :: items) vars rest vars'
  | use {item : Item} {items rest : List Item} {vars vars' : List String} (hvar : item.kind = .var)
      (hmem : String.ofList item.text ∈ vars) (h : Walks inRange items vars rest vars') :
      Walks inRange (item :: items) vars rest vars'
  | declare {item : Item} {items rest : List Item} {vars vars' : List String} (hvar : item.kind = .var)
      (hsign : DeclaredBefore inRange items)
      (h : Walks inRange items (String.ofList item.text :: vars) rest vars') :
      Walks inRange (item :: items) vars rest vars'
  | finish (line : Nat) (vars : List String) : Walks inRange [] vars [⟨.eof, [], line⟩] vars

section Walks

variable {inRange : Bool} {items items' rest : List Item} {vars vars' vars'' : List String}

lemma Walks.trans (h : Walks inRange items vars items' vars') (h' : Walks inRange items' vars' rest vars'') :
    Walks inRange items vars rest vars'' := by
  induction h with
  | refl => exact h'
  | skip hopening hvar _ ih => exact .skip hopening hvar (ih h')
  | use hvar hmem _ ih => exact .use hvar hmem (ih h')
  | declare hvar hsign _ ih => exact .declare hvar hsign (ih h')
  | finish line vars =>
    cases h' with
    | refl => exact .finish line _
    | skip _ _ h => exact h
    | use hvar => cases hvar
    | declare hvar => cases hvar

lemma Walks.mono (h : Walks false items vars rest vars') : Walks inRange items vars rest vars' := by
  induction h with
  | refl => exact .refl _ _
  | skip hopening hvar _ ih => exact .skip hopening hvar ih
  | use hvar hmem _ ih => exact .use hvar hmem ih
  | declare hvar hsign _ ih => exact .declare hvar hsign.mono ih
  | finish line vars => exact .finish line vars

lemma Walks.passes (h : Walks inRange items vars rest vars') : Passes items rest := by
  induction h with
  | refl items => exact .refl items
  | skip hopening _ _ ih => exact .skip hopening ih
  | use hvar _ _ ih => exact .skip (by simp [hvar]) ih
  | declare hvar _ _ ih => exact .skip (by simp [hvar]) ih
  | finish line => exact .finish line

lemma walks_dropWhile {skips : Item → Bool}
    (hskips : ∀ item, skips item = true → item.kind ≠ .opening ∧ item.kind ≠ .var) (items : List Item) :
    Walks inRange items vars (items.dropWhile skips) vars := by
  induction items with
  | nil => exact .refl [] vars
  | cons item items ih =>
    by_cases hitem : skips item = true
    · rw [List.dropWhile_cons_of_pos hitem]
      exact .skip (hskips item hitem).1 (hskips item hitem).2 ih
    · rw [List.dropWhile_cons_of_neg hitem]
      exact .refl _ _

lemma walks_afterSpaces (items : List Item) : Walks inRange items vars (afterSpaces items) vars := by
  refine walks_dropWhile (fun item hitem => ?_) items
  have hspace : item.kind = .space := by simpa using hitem
  simp [hspace]

end Walks

lemma afterSpaces_cons {item : Item} (h : item.kind ≠ .space) (items : List Item) :
    afterSpaces (item :: items) = item :: items :=
  List.dropWhile_cons_of_neg (by simpa using h)

lemma kind_ne_space {item : Item} {items rest : List Item} (h : afterSpaces items = item :: rest) :
    item.kind ≠ .space := by
  have hhead := List.head?_dropWhile_not (fun item : Item => decide (item.kind = .space)) items
  rw [show items.dropWhile (fun item : Item => decide (item.kind = .space)) = item :: rest from h] at hhead
  simpa using hhead

/-- A check has gone on inside an action. -/
structure Advances (inRange : Bool) (before after : State) : Prop where
  walks : Walks inRange before.items before.vars after.items after.vars
  frames : after.frames = before.frames
  loops : after.loops = before.loops

section Advances

variable {inRange : Bool} {a b c : State}

lemma Advances.items (h : Advances inRange a b) : Passes a.items b.items :=
  h.walks.passes

lemma Advances.refl (s : State) : Advances inRange s s :=
  ⟨.refl _ _, rfl, rfl⟩

lemma Advances.trans (hab : Advances inRange a b) (hbc : Advances inRange b c) : Advances inRange a c :=
  ⟨hab.walks.trans hbc.walks, hbc.frames.trans hab.frames, hbc.loops.trans hab.loops⟩

end Advances

/-- An item has been taken from the start of the items, or there are none and it says so. -/
structure Takes (before : State) (item : Item) (after : State) : Prop where
  items : before.items = item :: after.items ∨
    before.items = [] ∧ after.items = [] ∧ ∃ line, item = ⟨.eof, [], line⟩
  vars : after.vars = before.vars
  frames : after.frames = before.frames
  loops : after.loops = before.loops

section Takes

variable {inRange : Bool} {before after : State} {item : Item}

lemma Takes.unread (h : Takes before item after) :
    Advances inRange before { after with items := item :: after.items } := by
  refine ⟨?_, h.frames, h.loops⟩
  dsimp only
  rw [h.vars]
  rcases h.items with hitems | ⟨hbefore, hafter, line, rfl⟩
  · rw [hitems]
    exact .refl _ _
  · rw [hbefore, hafter]
    exact .finish line _

/-- An item has been taken from behind blanks. -/
def TakesWord (before : State) (item : Item) (after : State) : Prop :=
  Takes { before with items := afterSpaces before.items } item after

lemma TakesWord.unread (h : TakesWord before item after) :
    Advances inRange before { after with items := item :: after.items } := by
  have hspaces : Advances inRange before { before with items := afterSpaces before.items } :=
    ⟨walks_afterSpaces before.items, rfl, rfl⟩
  exact hspaces.trans (Takes.unread h)

lemma TakesWord.advances (h : TakesWord before item after) (hopening : item.kind ≠ .opening)
    (hvar : item.kind ≠ .var) : Advances inRange before after :=
  h.unread.trans ⟨.skip hopening hvar (.refl _ _), rfl, rfl⟩

/-- The variables do not matter to blanks. -/
lemma TakesWord.lead (h : TakesWord before item after) (vars : List String) :
    Walks inRange before.items vars (item :: after.items) vars := by
  have h' : TakesWord { before with vars } item { after with vars } := ⟨h.items, rfl, h.frames, h.loops⟩
  exact h'.unread.walks

lemma TakesWord.walks (h : TakesWord before item after) (hopening : item.kind ≠ .opening) (hvar : item.kind ≠ .var)
    (vars : List String) : Walks inRange before.items vars after.items vars :=
  (h.lead vars).trans (.skip hopening hvar (.refl _ _))

end Takes

/-! ## Single items -/

section Items

variable {name : String} {s s' : State} {item : Item}

lemma takes_of_next (h : next name s = .ok (item, s')) : Takes s item s' := by
  obtain ⟨m, state, hget, h⟩ := bind_eq_ok_iff.1 h
  obtain ⟨rfl, rfl⟩ := get_eq_ok_iff.1 hget
  cases hitems : s.items with
  | nil =>
    rw [hitems] at h
    obtain ⟨rfl, rfl⟩ := pure_eq_ok_iff.1 h
    exact ⟨.inr ⟨hitems, hitems, _, rfl⟩, rfl, rfl, rfl⟩
  | cons head items =>
    rw [hitems] at h
    obtain ⟨u, state, hset, h⟩ := bind_eq_ok_iff.1 h
    obtain rfl := set_eq_ok_iff.1 hset
    obtain ⟨rfl, rfl⟩ := pure_eq_ok_iff.1 h
    exact ⟨.inl hitems, rfl, rfl, rfl⟩

lemma drop_length_takeWhile (skips : Item → Bool) (items : List Item) :
    items.drop (items.takeWhile skips).length = items.dropWhile skips := by
  induction items with
  | nil => rfl
  | cons item items ih =>
    by_cases hitem : skips item = true
    · rw [List.takeWhile_cons_of_pos hitem, List.dropWhile_cons_of_pos hitem, List.length_cons,
        List.drop_succ_cons, ih]
    · rw [List.takeWhile_cons_of_neg hitem, List.dropWhile_cons_of_neg hitem]
      rfl

lemma skipSpaces_eq_ok {u : Unit} (h : skipSpaces name s = .ok (u, s')) :
    s'.items = afterSpaces s.items ∧ s'.vars = s.vars ∧ s'.frames = s.frames ∧ s'.loops = s.loops := by
  obtain ⟨m, state, hget, h⟩ := bind_eq_ok_iff.1 h
  obtain ⟨rfl, rfl⟩ := get_eq_ok_iff.1 hget
  obtain rfl := set_eq_ok_iff.1 h
  exact ⟨drop_length_takeWhile _ _, rfl, rfl, rfl⟩

lemma takesWord_of_nextWord (h : nextWord name s = .ok (item, s')) : TakesWord s item s' := by
  obtain ⟨u, m, hskip, h⟩ := bind_eq_ok_iff.1 h
  obtain ⟨hitems, hvars, hframes, hloops⟩ := skipSpaces_eq_ok hskip
  have htakes := takes_of_next h
  exact ⟨hitems ▸ htakes.items, htakes.vars.trans hvars, htakes.frames.trans hframes,
    htakes.loops.trans hloops⟩

lemma takes_of_peek (h : peek name s = .ok (item, s')) :
    ∃ m, Takes s item m ∧ s' = { m with items := item :: m.items } := by
  obtain ⟨first, m, hnext, h⟩ := bind_eq_ok_iff.1 h
  obtain ⟨u, state, hunread, h⟩ := bind_eq_ok_iff.1 h
  obtain rfl := unread_eq_ok_iff.1 hunread
  obtain ⟨rfl, rfl⟩ := pure_eq_ok_iff.1 h
  exact ⟨m, takes_of_next hnext, rfl⟩

lemma takesWord_of_peekWord (h : peekWord name s = .ok (item, s')) :
    ∃ m, TakesWord s item m ∧ s' = { m with items := item :: m.items } := by
  obtain ⟨u, first, hskip, h⟩ := bind_eq_ok_iff.1 h
  obtain ⟨hitems, hvars, hframes, hloops⟩ := skipSpaces_eq_ok hskip
  obtain ⟨m, htakes, rfl⟩ := takes_of_peek h
  exact ⟨m, ⟨hitems ▸ htakes.items, htakes.vars.trans hvars, htakes.frames.trans hframes,
    htakes.loops.trans hloops⟩, rfl⟩

/-- An item that is there is the next one. -/
lemma Takes.eq {first : Item} {items : List Item} (h : Takes s item s') (hitems : s.items = first :: items) :
    item = first ∧ s'.items = items := by
  rcases h.items with htaken | ⟨hnil, -⟩
  · rw [hitems] at htaken
    exact ⟨(List.cons.inj htaken).1.symm, (List.cons.inj htaken).2.symm⟩
  · rw [hitems] at hnil
    cases hnil

lemma TakesWord.eq {first : Item} {items : List Item} (h : TakesWord s item s')
    (hitems : s.items = first :: items) (hkind : first.kind ≠ .space) : item = first ∧ s'.items = items := by
  refine Takes.eq h ?_
  change afterSpaces s.items = _
  rw [hitems, afterSpaces_cons hkind]

end Items

/-! ## Steps inside an action -/

/-- Where the check succeeds, it has gone on inside an action. -/
def Keeps {α : Type} (inRange : Bool) (x : Check α) : Prop :=
  ∀ ⦃name : String⦄ ⦃s : State⦄ ⦃a : α⦄ ⦃s' : State⦄, x name s = .ok (a, s') → Advances inRange s s'

variable {inRange : Bool}

section Rules

variable {α β : Type} {x y : Check α} {f : α → Check β}

lemma Keeps.mono (hx : Keeps false x) : Keeps inRange x := by
  intro name s a s' h
  have hadvances := hx h
  exact ⟨hadvances.walks.mono, hadvances.frames, hadvances.loops⟩

lemma Keeps.bind (hx : Keeps inRange x) (hf : ∀ a, Keeps inRange (f a)) : Keeps inRange (x >>= f) := by
  intro name s b s' h
  obtain ⟨a, m, ha, hb⟩ := bind_eq_ok_iff.1 h
  exact (hx ha).trans (hf a hb)

lemma Keeps.pure (a : α) : Keeps inRange (Pure.pure a : Check α) := by
  intro name s b s' h
  obtain ⟨-, rfl⟩ := pure_eq_ok_iff.1 h
  exact .refl s

lemma Keeps.map {g : α → β} (hx : Keeps inRange x) : Keeps inRange (g <$> x) := by
  intro name s b s' h
  obtain ⟨a, ha, -⟩ := map_eq_ok_iff.1 h
  exact hx ha

lemma Keeps.discard (hx : Keeps inRange x) : Keeps inRange (discard x) :=
  hx.map

lemma Keeps.ite {c : Prop} [Decidable c] (hx : c → Keeps inRange x) (hy : ¬c → Keeps inRange y) :
    Keeps inRange (if c then x else y) := by
  split_ifs with hc
  · exact hx hc
  · exact hy hc

lemma keeps_get : Keeps inRange (get : Check State) := by
  intro name s m s' h
  obtain ⟨-, rfl⟩ := get_eq_ok_iff.1 h
  exact .refl s

lemma keeps_complain (text : String) : Keeps inRange (complain text : Check α) :=
  fun _ _ _ _ h => absurd h complain_ne_ok

/-- A condition under which a check ends does not matter to what it keeps. -/
lemma Keeps.guard {c : Prop} [Decidable c] {text : String} {k : Unit → Check β} (hk : Keeps inRange (k ())) :
    Keeps inRange (if c then complain text >>= k else k ()) :=
  .ite (fun _ => (keeps_complain text).bind fun _ => hk) fun _ => hk

lemma keeps_peek : Keeps inRange peek := by
  intro name s item s' h
  obtain ⟨m, htakes, rfl⟩ := takes_of_peek h
  exact htakes.unread

lemma keeps_peekWord : Keeps inRange peekWord := by
  intro name s item s' h
  obtain ⟨m, htakes, rfl⟩ := takesWord_of_peekWord h
  exact htakes.unread

lemma keeps_checkString (item : Item) : Keeps inRange (checkString item) :=
  .ite (fun _ => keeps_complain _) fun _ => .pure ()

lemma keeps_checkConstant (item : Item) : Keeps inRange (checkConstant item) := by
  unfold checkConstant
  split
  · exact .pure ()
  · exact keeps_complain _
  · exact keeps_complain _

end Rules

/-! ## Operands -/

/-- Where the check succeeds behind an item, it has gone on inside an action with that item in front. -/
def KeepsBehind {α : Type} (inRange : Bool) (item : Item) (x : Check α) : Prop :=
  ∀ ⦃name : String⦄ ⦃s : State⦄ ⦃a : α⦄ ⦃s' : State⦄, x name s = .ok (a, s') →
    Advances inRange { s with items := item :: s.items } s'

lemma Keeps.behind {α : Type} {x : Check α} (hx : Keeps inRange x) {item : Item} (hopening : item.kind ≠ .opening)
    (hvar : item.kind ≠ .var) : KeepsBehind inRange item x := by
  intro name s a s' h
  exact Advances.trans ⟨.skip hopening hvar (.refl _ _), rfl, rfl⟩ (hx h)

lemma Keeps.word {α : Type} {f : Item → Check α} (hf : ∀ item, KeepsBehind inRange item (f item)) :
    Keeps inRange (nextWord >>= f) := by
  intro name s a s' h
  obtain ⟨item, m, hitem, h⟩ := bind_eq_ok_iff.1 h
  exact (takesWord_of_nextWord hitem).unread.trans (hf item h)

lemma Keeps.item {α : Type} {f : Item → Check α} (hf : ∀ item, KeepsBehind inRange item (f item)) :
    Keeps inRange (next >>= f) := by
  intro name s a s' h
  obtain ⟨item, m, hitem, h⟩ := bind_eq_ok_iff.1 h
  exact (takes_of_next hitem).unread.trans (hf item h)

lemma KeepsBehind.bind {α β : Type} {item : Item} {x : Check α} {f : α → Check β}
    (hx : KeepsBehind inRange item x) (hf : ∀ a, Keeps inRange (f a)) : KeepsBehind inRange item (x >>= f) := by
  intro name s b s' h
  obtain ⟨a, m, ha, hb⟩ := bind_eq_ok_iff.1 h
  exact (hx ha).trans (hf a hb)

lemma keepsBehind_unread (item : Item) : KeepsBehind inRange item (unread item) := by
  intro name s u s' h
  obtain rfl := unread_eq_ok_iff.1 h
  exact .refl _

lemma KeepsBehind.ite_unread {α : Type} {item : Item} {c : Prop} [Decidable c] {x : Check α} (hx : Keeps inRange x)
    (hopening : item.kind ≠ .opening) (hvar : item.kind ≠ .var) :
    KeepsBehind inRange item (if c then unread item >>= fun _ => x else x) := by
  split_ifs
  · exact (keepsBehind_unread item).bind fun _ => hx
  · exact hx.behind hopening hvar

/-- A variable that is an operand may be used. -/
lemma keepsBehind_var {item : Item} (hvar : item.kind = .var) (complaint : String) (result : Option Operand) :
    KeepsBehind inRange item (do
      if !(← get).vars.contains (String.ofList item.text) then complain complaint
      return result) := by
  intro name s a s' h
  obtain ⟨m, state, hget, h⟩ := bind_eq_ok_iff.1 h
  obtain ⟨rfl, rfl⟩ := get_eq_ok_iff.1 hget
  obtain ⟨hcontains, h⟩ := (guard_eq_ok_iff fun _ => complain_ne_ok).1 h
  obtain ⟨-, rfl⟩ := pure_eq_ok_iff.1 h
  have hmem : String.ofList item.text ∈ s.vars := by simpa using hcontains
  exact ⟨.use hvar hmem (.refl _ _), rfl, rfl⟩

/-- An operand that an item is by itself is passed over with the item; otherwise the item is left. -/
lemma keepsBehind_simpleTerm (item : Item) : KeepsBehind inRange item (simpleTerm item) := by
  unfold simpleTerm
  split
  case h_1 hkind =>
    refine Keeps.behind ?_ (by simp [hkind]) (by simp [hkind])
    exact .guard (.pure _)
  case h_2 hkind => exact (Keeps.pure _).behind (by simp [hkind]) (by simp [hkind])
  case h_3 hkind => exact (Keeps.pure _).behind (by simp [hkind]) (by simp [hkind])
  case h_4 hkind => exact keepsBehind_var hkind _ _
  case h_5 hkind => exact (Keeps.pure _).behind (by simp [hkind]) (by simp [hkind])
  case h_6 hkind => exact (Keeps.pure _).behind (by simp [hkind]) (by simp [hkind])
  case h_7 hkind =>
    exact ((keeps_checkConstant item).bind fun _ => .pure _).behind (by simp [hkind]) (by simp [hkind])
  case h_8 hkind =>
    refine Keeps.behind ?_ (by simp [hkind]) (by simp [hkind])
    exact .guard (.pure _)
  case h_9 hkind | h_10 hkind =>
    exact ((keeps_checkString item).bind fun _ => .pure _).behind (by simp [hkind]) (by simp [hkind])
  case h_11 => exact (keepsBehind_unread item).bind fun _ => .pure _

lemma keeps_skipFields : Keeps inRange skipFields := by
  intro name s u s' h
  obtain ⟨m, state, hget, h⟩ := bind_eq_ok_iff.1 h
  obtain ⟨rfl, rfl⟩ := get_eq_ok_iff.1 hget
  obtain ⟨v, m, hset, h⟩ := bind_eq_ok_iff.1 h
  obtain rfl := set_eq_ok_iff.1 hset
  have hfields : Walks inRange s.items s.vars (s.items.dropWhile (·.kind = .field)) s.vars := by
    refine walks_dropWhile (fun item hitem => ?_) _
    have hfield : item.kind = .field := by simpa using hitem
    simp [hfield]
  rw [← drop_length_takeWhile] at hfields
  have hpeek : Advances inRange _ s' := keeps_peek.discard h
  exact ⟨hfields.trans hpeek.walks, hpeek.frames, hpeek.loops⟩

lemma keeps_withFields (item : Item) (term : Operand) : Keeps inRange (withFields item term) := by
  refine keeps_peek.bind fun _ => .ite (fun _ => .pure _) fun _ => ?_
  exact .guard (keeps_skipFields.bind fun _ => .pure _)

lemma keeps_operand {inner : Check Unit} (hinner : Keeps inRange inner) : Keeps inRange (operand inner) := by
  refine .word fun item => ?_
  dsimp only
  split_ifs with hparen
  · refine Keeps.behind (hinner.bind fun _ => (Keeps.pure _).bind fun term => ?_) (by simp [hparen])
      (by simp [hparen])
    cases term with
    | none => exact .pure _
    | some term => exact (keeps_withFields item term).map
  · refine (keepsBehind_simpleTerm item).bind fun term => ?_
    cases term with
    | none => exact .pure _
    | some term => exact (keeps_withFields item term).map

/-! ## Pipelines -/

lemma keeps_command {inner : Check Unit} (hinner : Keeps inRange inner) (bound : Nat) (first : Option Operand) :
    Keeps inRange (command inner bound first) := by
  induction bound generalizing first with
  | zero => exact keeps_complain _
  | succ bound ih =>
    unfold command
    refine keeps_peekWord.discard.bind fun _ => (keeps_operand hinner).bind fun found => .item fun item => ?_
    dsimp only
    split
    case h_1 hkind => exact (ih _).behind (by simp [hkind]) (by simp [hkind])
    case h_2 hkind | h_3 hkind | h_4 hkind =>
      -- The item that ends the command is left, a bar apart.
      refine .ite_unread ?_ (by simp [hkind]) (by simp [hkind])
      cases first.or found with
      | none => exact keeps_complain _
      | some operand => exact .pure _
    case h_5 => exact fun _ _ _ _ h => absurd h unexpected_ne_ok

lemma keeps_checkStages (context : String) (found : List Operand) : Keeps inRange (checkStages context found) := by
  unfold checkStages
  refine .guard ?_
  split
  · exact keeps_complain _
  · exact .pure ()

lemma keeps_commands {inner : Check Unit} (hinner : Keeps inRange inner) (context : String) {ending : Kind}
    (hending : ending ≠ .opening ∧ ending ≠ .var) (bound : Nat) :
    Keeps inRange (commands inner context ending bound) := by
  induction bound with
  | zero => exact .pure _
  | succ bound ih =>
    unfold commands
    refine .word fun item => ?_
    split_ifs with hend hstart
    · exact (Keeps.pure _).behind (hend ▸ hending.1) (hend ▸ hending.2)
    · refine (keepsBehind_unread item).bind fun _ => keeps_get.bind fun state => ?_
      exact (keeps_command hinner _ _).bind fun _ => ih.bind fun _ => .pure _
    · exact fun _ _ _ _ h => absurd h unexpected_ne_ok

/-- A variable and the sign behind it are passed over, and the variable is declared. -/
lemma advances_of_declaration {name : String} {s m behind here after s' : State} {item sign : Item} {u v w : PUnit}
    (hitem : peekWord name s = .ok (item, m)) (hnext : discard next name m = .ok (u, behind))
    (hsign : peekWord name behind = .ok (sign, here)) (hword : discard nextWord name here = .ok (v, after))
    (hdeclare : declareVar item name after = .ok (w, s')) (hvar : item.kind = .var)
    (hkind : sign.Declares inRange) : Advances inRange s s' := by
  obtain ⟨place, htakes, rfl⟩ := takesWord_of_peekWord hitem
  obtain ⟨again, hnext, -⟩ := map_eq_ok_iff.1 hnext
  have hpast := takes_of_next hnext
  obtain ⟨rfl, hbehind⟩ := hpast.eq rfl
  obtain ⟨second, htakesSign, rfl⟩ := takesWord_of_peekWord hsign
  obtain ⟨againSign, hword, -⟩ := map_eq_ok_iff.1 hword
  have hpastSign := takesWord_of_nextWord hword
  obtain ⟨hspace, hopening, hnovar⟩ := hkind.plain
  obtain ⟨rfl, hafter⟩ := hpastSign.eq rfl hspace
  obtain rfl := modify_eq_ok_iff.1 hdeclare
  have hdeclared : DeclaredBefore inRange place.items := by
    rw [← hbehind]
    rcases htakesSign.items with hitems | ⟨-, -, line, rfl⟩
    · exact ⟨againSign, by rw [show afterSpaces behind.items = againSign :: second.items from hitems]; rfl, hkind⟩
    · exact absurd hkind (by simp [Item.Declares])
  have hvars : after.vars = place.vars := by rw [hpastSign.vars, htakesSign.vars, hpast.vars]
  refine ⟨(htakes.unread.walks).trans (.declare hvar hdeclared ?_), ?_, ?_⟩
  · dsimp only
    rw [hafter, hvars, ← hbehind]
    exact htakesSign.walks hopening hnovar _
  · rw [hpastSign.frames, htakesSign.frames, hpast.frames, htakes.frames]
  · rw [hpastSign.loops, htakesSign.loops, hpast.loops, htakes.loops]

lemma keeps_declarations (context : String) (bound : Nat) :
    Keeps (decide (context = "range")) (declarations context bound) := by
  induction bound with
  | zero => exact .pure _
  | succ bound ih =>
    intro name s u s' h
    unfold declarations at h
    obtain ⟨item, m, hitem, h⟩ := bind_eq_ok_iff.1 h
    have hfirst : Advances (decide (context = "range")) s m := keeps_peekWord hitem
    by_cases hvar : item.kind = .var
    · rw [if_neg (not_not.2 hvar)] at h
      obtain ⟨state, place, hget, h⟩ := bind_eq_ok_iff.1 h
      obtain ⟨rfl, rfl⟩ := get_eq_ok_iff.1 hget
      obtain ⟨_, behind, hnext, h⟩ := bind_eq_ok_iff.1 h
      obtain ⟨sign, here, hsign, h⟩ := bind_eq_ok_iff.1 h
      by_cases hassign : sign.kind = .assign ∨ sign.kind = .declare
      · rw [if_pos hassign] at h
        obtain ⟨_, after, hword, h⟩ := bind_eq_ok_iff.1 h
        exact advances_of_declaration hitem hnext hsign hword h hvar (.inl hassign)
      · rw [if_neg hassign] at h
        by_cases hcomma : sign.kind = .char ∧ sign.text = [',']
        · rw [if_pos hcomma] at h
          obtain ⟨_, after, hword, h⟩ := bind_eq_ok_iff.1 h
          obtain ⟨_, declared, hdeclare, h⟩ := bind_eq_ok_iff.1 h
          by_cases hmore : context = "range" ∧ bound ≠ 0
          · rw [if_pos hmore] at h
            have hdeclared : Advances (decide (context = "range")) s declared :=
              advances_of_declaration hitem hnext hsign hword hdeclare hvar
                (.inr ⟨hcomma, decide_eq_true hmore.1⟩)
            refine hdeclared.trans ((keeps_peekWord.bind fun second => ?_) h)
            split
            · exact ih
            · exact ih
            · exact ih
            · exact keeps_complain _
          · rw [if_neg hmore] at h
            exact absurd h complain_ne_ok
        · -- No declaration: the check goes back to the variable.
          rw [if_neg hcomma] at h
          obtain rfl := modify_eq_ok_iff.1 h
          obtain ⟨again, hnext, -⟩ := map_eq_ok_iff.1 hnext
          have hpast := takes_of_next hnext
          obtain ⟨second, htakes, rfl⟩ := takesWord_of_peekWord hsign
          refine ⟨?_, ?_, ?_⟩
          · dsimp only
            rw [htakes.vars, hpast.vars]
            exact hfirst.walks
          · rw [htakes.frames, hpast.frames, hfirst.frames]
          · rw [htakes.loops, hpast.loops, hfirst.loops]
    · rw [if_pos hvar] at h
      obtain ⟨-, rfl⟩ := pure_eq_ok_iff.1 h
      exact hfirst

lemma keeps_pipelineWith {inner : Check Unit} (hinner : Keeps false inner) (context : String) {ending : Kind}
    (hending : ending ≠ .opening ∧ ending ≠ .var) :
    Keeps (decide (context = "range")) (pipelineWith inner context ending) :=
  (keeps_declarations context 2).bind fun _ => keeps_get.bind fun _ =>
    (keeps_commands hinner.mono context hending _).bind fun found => keeps_checkStages context found

lemma keeps_parenthesized (depth : Nat) : Keeps false (parenthesized depth) := by
  induction depth with
  | zero => exact .pure _
  | succ depth ih => exact keeps_pipelineWith ih "parenthesized pipeline" (by decide)

/-- In a pipeline a variable is declared before a comma only if the pipeline is the header of a loop. -/
lemma keeps_pipeline (context : String) : Keeps (decide (context = "range")) (pipeline context) :=
  keeps_get.bind fun _ => keeps_pipelineWith (keeps_parenthesized _) context (by decide)

/-- No pipeline starts with a keyword. -/
lemma kind_ne_keyword_of_pipeline {context name : String} {s s' : State} {u : Unit} {item : Item}
    {items : List Item} (h : pipeline context name s = .ok (u, s')) (hitems : afterSpaces s.items = item :: items)
    (word : Keyword) : item.kind ≠ .keyword word := by
  intro hkind
  obtain ⟨state, m, hget, h⟩ := bind_eq_ok_iff.1 h
  obtain ⟨rfl, rfl⟩ := get_eq_ok_iff.1 hget
  obtain ⟨_, m, hdeclarations, h⟩ := bind_eq_ok_iff.1 h
  unfold declarations at hdeclarations
  obtain ⟨first, place, hfirst, hdeclarations⟩ := bind_eq_ok_iff.1 hdeclarations
  obtain ⟨behind, htakes, rfl⟩ := takesWord_of_peekWord hfirst
  obtain ⟨rfl, -⟩ := Takes.eq htakes hitems
  rw [if_pos (by simp [hkind])] at hdeclarations
  obtain ⟨-, rfl⟩ := pure_eq_ok_iff.1 hdeclarations
  obtain ⟨state, m, hget, h⟩ := bind_eq_ok_iff.1 h
  obtain ⟨rfl, rfl⟩ := get_eq_ok_iff.1 hget
  obtain ⟨found, m, hcommands, -⟩ := bind_eq_ok_iff.1 h
  unfold commands at hcommands
  obtain ⟨again, place, hagain, hcommands⟩ := bind_eq_ok_iff.1 hcommands
  obtain ⟨rfl, -⟩ := (takesWord_of_nextWord hagain).eq rfl (by simp [hkind])
  rw [if_neg (by simp [hkind]), if_neg (by simp [hkind, startsCommand])] at hcommands
  exact unexpected_ne_ok hcommands

/-! ## Words of actions -/

lemma expectClosing_eq_ok {context name : String} {s s' : State} {u : Unit}
    (h : expectClosing context name s = .ok (u, s')) :
    ∃ item, TakesWord s item s' ∧ item.kind = .closing := by
  obtain ⟨item, m, hitem, h⟩ := bind_eq_ok_iff.1 h
  by_cases hkind : item.kind = .closing
  · rw [if_neg (not_not.2 hkind)] at h
    obtain ⟨-, rfl⟩ := pure_eq_ok_iff.1 h
    exact ⟨item, takesWord_of_nextWord hitem, hkind⟩
  · rw [if_pos hkind] at h
    exact absurd h unexpected_ne_ok

lemma keeps_expectClosing (context : String) : Keeps inRange (expectClosing context) := by
  intro name s u s' h
  obtain ⟨item, htakes, hkind⟩ := expectClosing_eq_ok h
  exact htakes.advances (by simp [hkind]) (by simp [hkind])

lemma keeps_clauseName (context : String) : Keeps inRange (clauseName context) := by
  refine .word fun item => ?_
  split_ifs with hkind
  · intro name s u s' h
    obtain ⟨_, m, hunexpected, -⟩ := bind_eq_ok_iff.1 h
    exact absurd hunexpected unexpected_ne_ok
  · refine (keeps_checkString item).behind (fun hopening => hkind ?_) fun hvar => hkind ?_
    · simp [hopening]
    · simp [hvar]

lemma keeps_templateCall : Keeps false templateCall := by
  refine (keeps_clauseName _).bind fun _ => .word fun item => ?_
  split_ifs with hkind
  · exact (keepsBehind_unread item).bind fun _ => keeps_pipeline "template clause"
  · exact (Keeps.pure _).behind (by simp [not_not.1 hkind]) (by simp [not_not.1 hkind])

lemma loopControl_eq_ok {word name : String} {s s' : State} {u : Unit}
    (h : loopControl word name s = .ok (u, s')) : Advances inRange s s' ∧ s.loops ≠ 0 := by
  obtain ⟨item, m, hitem, h⟩ := bind_eq_ok_iff.1 h
  obtain ⟨hkind, h⟩ := (guard_eq_ok_iff fun _ => unexpected_ne_ok).1 h
  obtain ⟨state, place, hget, h⟩ := bind_eq_ok_iff.1 h
  obtain ⟨rfl, rfl⟩ := get_eq_ok_iff.1 hget
  have hadvances : Advances inRange s m :=
    (takesWord_of_nextWord hitem).advances (by simp [not_not.1 hkind]) (by simp [not_not.1 hkind])
  by_cases hloops : m.loops = 0
  · rw [if_pos hloops] at h
    exact absurd h complain_ne_ok
  · rw [if_neg hloops] at h
    obtain ⟨-, rfl⟩ := pure_eq_ok_iff.1 h
    exact ⟨hadvances, hadvances.loops ▸ hloops⟩

end QueryScope.Template
