import QueryScope.Proofs.TemplateNesting

/-!
# Scopes in templates

Where the structures of a template begin and end is said by the places of its items: the keywords at the start of
actions are counted, and a structure ends where the count first falls below what it is inside. A declaration is in
scope as long as no `if`, `with` or `range` around it has ended, and only inside the same bodies of definitions and
blocks.
-/

namespace QueryScope.Template

/-! ## Places -/

/-- The kind of the item at a place. -/
def kindAt? (items : List Item) (place : Nat) : Option Kind :=
  items[place]?.map Item.kind

/-- The mark of the action that starts at a place. -/
def markAt? (items : List Item) (place : Nat) : Option Mark :=
  if kindAt? items place = some .opening then mark? (items.drop (place + 1)) else none

/-- How an action changes the number of open structures. -/
def shift : Option Mark → Int
  | some (.control _) => 1
  | some (.named _) => 1
  | some .closes => -1
  | _ => 0

/-- How many structures are open before a place. -/
def level (items : List Item) : Nat → Int
  | 0 => 0
  | place + 1 => level items place + shift (markAt? items place)

/-- The action at `last` ends the structure that is open behind the action at `first`. -/
structure EndsAt (items : List Item) (first last : Nat) : Prop where
  lt : first < last
  mark : markAt? items last = some .closes
  falls : level items last = level items (first + 1)
  inside : ∀ place, first < place → place ≤ last → level items (first + 1) ≤ level items place

/-- The keyword of an `if`, `with` or `range`, behind `else` or not. -/
def Mark.IsControl (mark : Mark) : Prop :=
  ∃ kind, mark = .control kind ∨ mark = .elseControl kind

/-- An `if`, `with` or `range` from its keyword to its end. -/
def IsControl (items : List Item) (first last : Nat) : Prop :=
  (∃ mark, markAt? items first = some mark ∧ mark.IsControl) ∧ EndsAt items first last

/-- A `define` or `block` from its keyword to its end. -/
def IsNamed (items : List Item) (first last : Nat) : Prop :=
  (∃ kind, markAt? items first = some (.named kind)) ∧ EndsAt items first last

/-- The place is inside the action that starts at `action`. -/
structure InAction (items : List Item) (action place : Nat) : Prop where
  lt : action < place
  opening : kindAt? items action = some .opening
  inside : ∀ other, action < other → other < place → kindAt? items other ≠ some .opening

/-- The place is in the body between `first` and `last`: inside an action that comes behind the header. -/
def InBody (items : List Item) (first last place : Nat) : Prop :=
  ∃ action, InAction items action place ∧ first < action ∧ place < last

/-- A variable at the place is declared there: `:=` or `=` follows or, in the header of a loop, a comma. -/
def IsDeclaration (items : List Item) (place : Nat) : Prop :=
  ∃ inRange, DeclaredBefore inRange (items.drop (place + 1)) ∧
    (inRange = true → ∃ action, InAction items action place ∧ markAt? items action = some (.control .rangeLoop))

/-- What is declared at a place is in scope at another one. -/
structure InScope (items : List Item) (earlier place : Nat) : Prop where
  controls : ∀ first last, IsControl items first last → first < earlier → earlier < last →
    first < place ∧ place < last
  bodies : ∀ first last, IsNamed items first last →
    (InBody items first last place ↔ InBody items first last earlier)

/-- The variable of this name is declared at the place. -/
def Declares (items : List Item) (place : Nat) (name : String) : Prop :=
  ∃ item, items[place]? = some item ∧ item.kind = .var ∧ String.ofList item.text = name ∧ IsDeclaration items place

/-- A variable at the place that is not declared there is `$`, or an earlier declaration of it is in scope. -/
def Scoped (items : List Item) (place : Nat) : Prop :=
  ∀ item, items[place]? = some item → item.kind = .var → ¬IsDeclaration items place →
    String.ofList item.text = "$" ∨
      ∃ earlier < place, Declares items earlier (String.ofList item.text) ∧ InScope items earlier place

/-! ## Levels -/

section Levels

variable {items : List Item} {place place' first last : Nat} {mark : Mark}

lemma kindAt?_of_markAt? (h : markAt? items place = some mark) : kindAt? items place = some .opening := by
  by_contra hkind
  rw [markAt?, if_neg hkind] at h
  cases h

lemma getElem?_of_drop {item : Item} {rest : List Item} (h : items.drop place = item :: rest) :
    items[place]? = some item := by
  rw [← List.head?_drop, h]
  rfl

lemma drop_succ_of_drop {item : Item} {rest : List Item} (h : items.drop place = item :: rest) :
    items.drop (place + 1) = rest := by
  rw [← List.tail_drop, h]
  rfl

lemma level_succ (items : List Item) (place : Nat) :
    level items (place + 1) = level items place + shift (markAt? items place) :=
  rfl

/-- No action starts from one place up to another. -/
def NoOpening (items : List Item) (place place' : Nat) : Prop :=
  ∀ other, place ≤ other → other < place' → kindAt? items other ≠ some .opening

lemma NoOpening.le (h : NoOpening items place place') (hmark : markAt? items last = some mark)
    (hle : place ≤ last) : place' ≤ last := by
  by_contra hlt
  exact h last hle (by omega) (kindAt?_of_markAt? hmark)

lemma NoOpening.lt (h : NoOpening items place place') (hmark : markAt? items first = some mark)
    (hlt : first < place') : first < place := by
  by_contra hle
  exact h first (by omega) hlt (kindAt?_of_markAt? hmark)

lemma NoOpening.level_eq (h : NoOpening items place place') {other : Nat} (hle : place ≤ other)
    (hle' : other ≤ place') : level items other = level items place := by
  induction other, hle using Nat.le_induction with
  | base => rfl
  | succ other hle ih =>
    have hmark : markAt? items other = none := if_neg (h other hle (by omega))
    rw [level_succ, hmark, ih (by omega)]
    simp [shift]

/-- What starts before a structure ends behind everything that is inside the structure. -/
lemma EndsAt.lt_of_lt {start stop : Nat} (h : EndsAt items start stop) (hfirst : start < first)
    (hstop : first < stop) (hopens : level items (first + 1) = level items first + 1)
    (hinside : ∀ other, first < other → other ≤ place → level items (first + 1) ≤ level items other) :
    place < stop := by
  by_contra hle
  have hbefore := h.inside first hfirst (by omega)
  have hbehind := hinside stop hstop (by omega)
  have hlevel := h.falls
  omega

/-- What starts before the end of a structure and ends behind it has started before the structure. -/
lemma EndsAt.lt_first {start stop : Nat} (h : EndsAt items start stop)
    (hopens : level items (start + 1) = level items start + 1) (hends : EndsAt items first last)
    (hstart : start < last) (hstop : last < stop) : start < first := by
  have hbehind := h.inside (last + 1) (by omega) (by omega)
  have hfalls : level items (last + 1) = level items last - 1 := by
    rw [level_succ, hends.mark]
    rfl
  have hlevel := hends.falls
  by_contra hle
  by_cases heq : start = first
  · subst heq
    omega
  · have hinside := hends.inside start (by omega) (by omega)
    omega

end Levels

/-! ## What an action sees -/

/-- What is declared in the action at `earlier` is in scope in the action at `action`. -/
structure Sees (items : List Item) (action earlier : Nat) : Prop where
  controls : ∀ first last, IsControl items first last → first ≤ earlier → earlier < last → action < last
  bodies : ∀ first last, IsNamed items first last →
    (first < earlier ∧ earlier < last ↔ first < action ∧ action < last)

/-- What is declared in the action at `earlier` is in scope from a place between actions on. -/
structure SeesFrom (items : List Item) (place earlier : Nat) : Prop where
  controls : ∀ first last, IsControl items first last → first ≤ earlier → earlier < last → place ≤ last
  bodies : ∀ first last, IsNamed items first last →
    (first < earlier ∧ earlier < last ↔ first < place ∧ place ≤ last)

section Sees

variable {items : List Item} {action earlier first last place place' : Nat}

lemma Sees.refl (items : List Item) (action : Nat) : Sees items action action :=
  ⟨fun _ _ _ _ h => h, fun _ _ _ => Iff.rfl⟩

lemma SeesFrom.mono (h : SeesFrom items place earlier) (hle : place ≤ place') (hno : NoOpening items place place') :
    SeesFrom items place' earlier := by
  constructor
  · intro first last hcontrol hfirst hlast
    exact hno.le hcontrol.2.mark (h.controls first last hcontrol hfirst hlast)
  · intro first last hnamed
    obtain ⟨kind, hmark⟩ := hnamed.1
    rw [h.bodies first last hnamed]
    constructor
    · rintro ⟨hfirst, hlast⟩
      exact ⟨by omega, hno.le hnamed.2.mark hlast⟩
    · rintro ⟨hfirst, hlast⟩
      exact ⟨hno.lt hmark hfirst, by omega⟩

lemma SeesFrom.sees (h : SeesFrom items action earlier) (hmark : markAt? items action ≠ some .closes) :
    Sees items action earlier := by
  have hne {last : Nat} (hlast : markAt? items last = some .closes) (hle : action ≤ last) : action < last := by
    by_contra hlt
    obtain rfl : action = last := by omega
    exact hmark hlast
  constructor
  · intro first last hcontrol hfirst hlast
    exact hne hcontrol.2.mark (h.controls first last hcontrol hfirst hlast)
  · intro first last hnamed
    rw [h.bodies first last hnamed]
    constructor
    · exact fun hbody => ⟨hbody.1, hne hnamed.2.mark hbody.2⟩
    · exact fun hbody => ⟨hbody.1, hbody.2.le⟩

/-- Behind an action other declarations are not in scope than in it, unless it is the header of a body. -/
lemma Sees.from (h : Sees items action earlier) (hmark : ∀ kind, markAt? items action ≠ some (.named kind)) :
    SeesFrom items (action + 1) earlier := by
  constructor
  · exact fun first last hcontrol hfirst hlast => h.controls first last hcontrol hfirst hlast
  · intro first last hnamed
    obtain ⟨kind, hfirst⟩ := hnamed.1
    have hne : first ≠ action := by
      rintro rfl
      exact hmark kind hfirst
    rw [h.bodies first last hnamed]
    omega

/-- Behind the end of a structure is in scope what was in scope where it began. -/
lemma Sees.behind_end (h : Sees items first earlier) (hle : earlier ≤ first)
    (hown : earlier = first → ∃ kind, markAt? items first = some (.named kind))
    (hopens : level items (first + 1) = level items first + 1) (hends : EndsAt items first last) :
    SeesFrom items (last + 1) earlier := by
  constructor
  · intro start stop hcontrol hstart hstop
    have hlast := h.controls start stop hcontrol hstart hstop
    have hne : start ≠ first := by
      rintro rfl
      obtain ⟨⟨mark, hmark, kind, hkind⟩, -⟩ := hcontrol
      obtain ⟨kind', hnamed⟩ := hown (by omega)
      rw [hmark] at hnamed
      cases hnamed
      simp at hkind
    exact hcontrol.2.lt_of_lt (by omega) hlast hopens hends.inside
  · intro start stop hnamed
    obtain ⟨kind, hmark⟩ := hnamed.1
    have hopens' : level items (start + 1) = level items start + 1 := by
      rw [level_succ, hmark]
      rfl
    rw [h.bodies start stop hnamed]
    constructor
    · rintro ⟨hbefore, hbehind⟩
      have hfirst := hends.lt
      exact ⟨by omega, hnamed.2.lt_of_lt hbefore hbehind hopens hends.inside⟩
    · rintro ⟨hbefore, hbehind⟩
      have hne : start ≠ last := by
        rintro rfl
        rw [hends.mark] at hmark
        cases hmark
      have hfirst := hends.lt
      exact ⟨hnamed.2.lt_first hopens' hends (by omega) (by omega), by omega⟩

end Sees

/-! ## Variables that are known -/

/-- Each of the variables is `$`, or declared before the place in an action with the property. -/
def Known (items : List Item) (place : Nat) (visible : Nat → Prop) (vars : List String) : Prop :=
  ∀ name ∈ vars, name = "$" ∨ ∃ earlier action, earlier < place ∧ Declares items earlier name ∧
    InAction items action earlier ∧ visible action

section Known

variable {items rest : List Item} {vars vars' : List String} {visible visible' : Nat → Prop}
  {action earlier place place' : Nat}

lemma known_dollar (items : List Item) (place : Nat) (visible : Nat → Prop) : Known items place visible ["$"] :=
  fun _ hname => .inl (List.mem_singleton.1 hname)

lemma Known.imp (h : Known items place visible vars) (hle : place ≤ place')
    (himp : ∀ action < place, kindAt? items action = some .opening → visible action → visible' action) :
    Known items place' visible' vars := by
  intro name hname
  obtain hdollar | ⟨earlier, action, hlt, hdeclares, hin, hvisible⟩ := h name hname
  · exact .inl hdollar
  · exact .inr ⟨earlier, action, by omega, hdeclares, hin, himp action (hin.lt.trans hlt) hin.opening hvisible⟩

lemma Known.mono (h : Known items place visible vars) (hle : place ≤ place') : Known items place' visible vars :=
  h.imp hle fun _ _ _ hvisible => hvisible

lemma InAction.lt_iff_le {first : Nat} (h : InAction items action place)
    (hfirst : kindAt? items first = some .opening) : first < place ↔ first ≤ action := by
  have hlt := h.lt
  constructor
  · intro hbefore
    by_contra hle
    exact h.inside first (by omega) hbefore hfirst
  · omega

lemma InAction.lt_iff_lt {last : Nat} (h : InAction items action place) (hlast : kindAt? items last = some .opening)
    (hplace : kindAt? items place ≠ some .opening) : place < last ↔ action < last := by
  have hlt := h.lt
  constructor
  · omega
  · intro hbehind
    by_contra hle
    have hne : last ≠ place := by
      rintro rfl
      exact hplace hlast
    exact h.inside last hbehind (by omega) hlast

lemma InAction.eq {other : Nat} (h : InAction items action place) (hother : InAction items other place) :
    other = action :=
  le_antisymm ((h.lt_iff_le hother.opening).1 hother.lt) ((hother.lt_iff_le h.opening).1 h.lt)

lemma InAction.inBody_iff {first last : Nat} (h : InAction items action place)
    (hlast : kindAt? items last = some .opening) (hplace : kindAt? items place ≠ some .opening) :
    InBody items first last place ↔ first < action ∧ action < last := by
  rw [← h.lt_iff_lt hlast hplace]
  constructor
  · rintro ⟨other, hother, hbody⟩
    exact h.eq hother ▸ hbody
  · exact fun hbody => ⟨action, h, hbody⟩

/-- An action that sees another one has what is declared there in scope. -/
lemma Sees.inScope {other : Nat} (h : Sees items action other) (hplace : InAction items action place)
    (hearlier : InAction items other earlier) (hlt : earlier < place) (hkind : kindAt? items place ≠ some .opening)
    (hkind' : kindAt? items earlier ≠ some .opening) : InScope items earlier place := by
  constructor
  · intro first last hcontrol hfirst hlast
    obtain ⟨mark, hmark, -⟩ := hcontrol.1
    rw [hearlier.lt_iff_le (kindAt?_of_markAt? hmark)] at hfirst
    rw [hearlier.lt_iff_lt (kindAt?_of_markAt? hcontrol.2.mark) hkind'] at hlast
    rw [hplace.lt_iff_lt (kindAt?_of_markAt? hcontrol.2.mark) hkind]
    have hbefore := hearlier.lt
    exact ⟨by omega, h.controls first last hcontrol hfirst hlast⟩
  · intro first last hnamed
    have hlast := kindAt?_of_markAt? hnamed.2.mark
    rw [hplace.inBody_iff hlast hkind, hearlier.inBody_iff hlast hkind']
    exact (h.bodies first last hnamed).symm

lemma Known.isScoped {item : Item} (h : Known items place (Sees items action) vars) (hplace : InAction items action place)
    (hitem : items[place]? = some item) (hvar : item.kind = .var) (hmem : String.ofList item.text ∈ vars) :
    Scoped items place := by
  intro found hfound _ _
  obtain rfl : item = found := Option.some.inj (hitem.symm.trans hfound)
  have hkind : kindAt? items place ≠ some .opening := by simp [kindAt?, hitem, hvar]
  obtain hdollar | ⟨earlier, other, hlt, hdeclares, hother, hsees⟩ := h _ hmem
  · exact .inl hdollar
  · obtain ⟨declared, hdeclared, hvar', hname, hdeclaration⟩ := hdeclares
    have hkind' : kindAt? items earlier ≠ some .opening := by simp [kindAt?, hdeclared, hvar']
    exact .inr ⟨earlier, hlt, ⟨declared, hdeclared, hvar', hname, hdeclaration⟩,
      hsees.inScope hplace hother hlt hkind hkind'⟩

end Known

end QueryScope.Template
