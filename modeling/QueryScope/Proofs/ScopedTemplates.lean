import QueryScope.Proofs.ScanSteps
import QueryScope.Proofs.TemplateRuns
import QueryScope.Proofs.TemplateScopes

/-!
# Variables of accepted templates

At each place between actions the variables that a check lets through are in scope, and so are those that it keeps
for the end of each open structure. One action keeps that, whatever its mark is, so the variables that an accepted
template uses are declared in scope.
-/

namespace QueryScope.Template

/-! ## Walks through an action -/

/-- The items are what is left of all from a place on, or the place is behind all of them. -/
def LeftFrom (all : List Item) (place : Nat) (items : List Item) : Prop :=
  items = all.drop place ∨ all.length ≤ place ∧ ∃ line, items = [⟨.eof, [], line⟩]

section Walks

variable {all items rest : List Item} {vars vars' : List String} {inRange : Bool} {action place : Nat}

lemma scoped_of_kind {item : Item} (hitem : all[place]? = some item) (hkind : item.kind ≠ .var) : Scoped all place := by
  intro found hfound hvar
  obtain rfl : item = found := Option.some.inj (hitem.symm.trans hfound)
  exact absurd hvar hkind

lemma InAction.succ (h : InAction all action place) (hkind : kindAt? all place ≠ some .opening) :
    InAction all action (place + 1) := by
  refine ⟨h.lt.trans (Nat.lt_succ_self place), h.opening, ?_⟩
  intro other hother hlt
  by_cases heq : other = place
  · exact heq ▸ hkind
  · exact h.inside other hother (by omega)

/-- Inside an action a check gets from a place to where the rest is left, and what it passes over is scoped. -/
def Reaches (all : List Item) (action place : Nat) (rest : List Item) (vars : List String) : Prop :=
  ∃ place', place ≤ place' ∧ LeftFrom all place' rest ∧ InAction all action place' ∧
    Known all place' (Sees all action) vars ∧ ∀ other, place ≤ other → other < place' → Scoped all other

lemma Reaches.cons (h : Reaches all action (place + 1) rest vars) (hscoped : Scoped all place) :
    Reaches all action place rest vars := by
  obtain ⟨place', hle, hleft, hin, hknown, hall⟩ := h
  refine ⟨place', by omega, hleft, hin, hknown, ?_⟩
  intro other hother hlt
  by_cases heq : other = place
  · exact heq ▸ hscoped
  · exact hall other (by omega) hlt

/-- The variables that are known inside an action are those in scope and those that it declares. -/
lemma Walks.reaches (h : Walks inRange items vars rest vars') (hitems : all.drop place = items)
    (hin : InAction all action place)
    (hrange : inRange = true → markAt? all action = some (.control .rangeLoop))
    (hknown : Known all place (Sees all action) vars) : Reaches all action place rest vars' := by
  induction h generalizing place with
  | refl => exact ⟨place, le_rfl, .inl hitems.symm, hin, hknown, fun other hle hlt => by omega⟩
  | @skip item items rest vars vars' hopening hvar _ ih =>
    have hitem := getElem?_of_drop hitems
    have hin' := hin.succ (by simp [kindAt?, hitem, hopening])
    have hknown' := hknown.mono (Nat.le_succ place)
    exact (ih (drop_succ_of_drop hitems) hin' hknown').cons (scoped_of_kind hitem hvar)
  | @use item items rest vars vars' hvar hmem _ ih =>
    have hitem := getElem?_of_drop hitems
    have hin' := hin.succ (by simp [kindAt?, hitem, hvar])
    have hknown' := hknown.mono (Nat.le_succ place)
    exact (ih (drop_succ_of_drop hitems) hin' hknown').cons (hknown.isScoped hin hitem hvar hmem)
  | @declare item items rest vars vars' hvar hsign _ ih =>
    have hitem := getElem?_of_drop hitems
    have hrest := drop_succ_of_drop hitems
    have hin' := hin.succ (by simp [kindAt?, hitem, hvar])
    have hdeclaration : IsDeclaration all place := by
      refine ⟨inRange, hrest.symm ▸ hsign, fun hinRange => ?_⟩
      exact ⟨action, hin, hrange hinRange⟩
    have hknown' : Known all (place + 1) (Sees all action) (String.ofList item.text :: vars) := by
      intro name hname
      rcases List.mem_cons.1 hname with rfl | hmem
      · exact .inr ⟨place, action, Nat.lt_succ_self place, ⟨item, hitem, hvar, rfl, hdeclaration⟩, hin,
          .refl all action⟩
      · exact hknown.mono (Nat.le_succ place) name hmem
    exact (ih hrest hin' hknown').cons fun _ _ _ hno => absurd hdeclaration hno
  | finish line vars =>
    have hend : all.length ≤ place := List.drop_eq_nil_iff.1 hitems
    exact ⟨place, le_rfl, .inr ⟨hend, line, rfl⟩, hin, hknown, fun other hle hlt => by omega⟩

/-- An end holds no variables, and so it does not matter what is in scope in it. -/
lemma Inside.reaches (h : Inside (markAt? all action) items vars rest vars') (hitems : all.drop (action + 1) = items)
    (hopening : kindAt? all action = some .opening)
    (hknown : markAt? all action ≠ some .closes → Known all action (Sees all action) vars) :
    ∃ place', LeftFrom all place' rest ∧ InAction all action place' ∧
      (markAt? all action ≠ some .closes → Known all place' (Sees all action) vars') ∧
        ∀ other, action < other → other < place' → Scoped all other := by
  have hin : InAction all action (action + 1) :=
    ⟨Nat.lt_succ_self action, hopening, fun other hbehind hlt => by omega⟩
  by_cases hends : markAt? all action = some .closes
  · have hnone : Known all (action + 1) (Sees all action) [] := nofun
    obtain ⟨place', -, hleft, hin', -, hscoped⟩ := (h.ends hends).reaches hitems hin nofun hnone
    exact ⟨place', hleft, hin', fun hne => absurd hends hne, hscoped⟩
  · have hrange (hstarts : startsLoop (markAt? all action) = true) :
        markAt? all action = some (.control .rangeLoop) := of_decide_eq_true hstarts
    obtain ⟨place', -, hleft, hin', hknown', hscoped⟩ :=
      h.walks.reaches hitems hin hrange ((hknown hends).mono (Nat.le_succ action))
    exact ⟨place', hleft, hin', fun _ => hknown', hscoped⟩

end Walks

/-! ## Open structures -/

/-- The variables that are restored behind a structure. -/
def Frame.saved : Frame → List String
  | named _ vars _ => vars
  | main _ vars => vars
  | other vars => vars

/-- What is declared in the action at `earlier` is in scope again behind the structure that starts at `first`. The
header of a structure with a name stands outside of its body. -/
def Restored (all : List Item) (first earlier : Nat) : Prop :=
  Sees all first earlier ∧ earlier ≤ first ∧ (earlier = first → ∃ kind, markAt? all first = some (.named kind))

/-- The structure that starts at `first` is the innermost one at a place. -/
structure IsOpen (all : List Item) (place : Nat) (frame : Frame) (first : Nat) : Prop where
  lt : first < place
  opens : level all (first + 1) = level all first + 1
  here : level all place = level all (first + 1)
  inside : ∀ other, first < other → other ≤ place → level all (first + 1) ≤ level all other
  saved : Known all place (Restored all first) frame.saved

/-- The structures start at the places `firsts` and are open, the innermost first. -/
def AreOpen (all : List Item) : Nat → List Frame → List Nat → Prop
  | _, [], [] => True
  | place, frame :: frames, first :: firsts => IsOpen all place frame first ∧ AreOpen all first frames firsts
  | _, _, _ => False

section Open

variable {all : List Item} {action place place' : Nat} {frame frame' : Frame} {frames : List Frame}
  {firsts : List Nat}

lemma AreOpen.mono (h : AreOpen all place frames firsts) (hle : place ≤ place')
    (hlevel : level all place' = level all place)
    (hinside : ∀ other, place ≤ other → other ≤ place' → level all place ≤ level all other) :
    AreOpen all place' frames firsts := by
  cases frames with
  | nil =>
    cases firsts with
    | nil => trivial
    | cons => exact h.elim
  | cons frame frames =>
    cases firsts with
    | nil => exact h.elim
    | cons first firsts =>
      obtain ⟨hopen, hrest⟩ := h
      have hlt := hopen.lt
      have hhere := hopen.here
      refine ⟨⟨by omega, hopen.opens, by omega, ?_, hopen.saved.mono hle⟩, hrest⟩
      intro other hother hle'
      by_cases hbefore : other ≤ place
      · exact hopen.inside other hother hbefore
      · exact hhere ▸ hinside other (by omega) hle'

lemma AreOpen.of_noOpening (h : AreOpen all place frames firsts) (hle : place ≤ place')
    (hno : NoOpening all place place') : AreOpen all place' frames firsts := by
  apply h.mono hle
  · exact hno.level_eq hle le_rfl
  · exact fun other hother hlt => (hno.level_eq hother hlt).ge

lemma AreOpen.replace (h : AreOpen all place (frame :: frames) firsts) (hsaved : frame'.saved = frame.saved) :
    AreOpen all place (frame' :: frames) firsts := by
  cases firsts with
  | nil => exact h.elim
  | cons first firsts =>
    obtain ⟨hopen, hrest⟩ := h
    exact ⟨⟨hopen.lt, hopen.opens, hopen.here, hopen.inside, hsaved ▸ hopen.saved⟩, hrest⟩

lemma InAction.noOpening (h : InAction all action place) : NoOpening all (action + 1) place :=
  fun other hle hlt => h.inside other hle hlt

/-- Behind an action that neither opens nor closes a structure the same structures are open. -/
lemma AreOpen.stays (h : AreOpen all action frames firsts) (hin : InAction all action place)
    (hshift : shift (markAt? all action) = 0) : AreOpen all place frames firsts := by
  have hlevel : level all (action + 1) = level all action := by rw [level_succ, hshift, add_zero]
  have hbehind : AreOpen all (action + 1) frames firsts := by
    apply h.mono (Nat.le_succ action) hlevel
    intro other hle hle'
    rcases Nat.lt_or_ge action other with hlt | hge
    · exact (show other = action + 1 by omega) ▸ hlevel.ge
    · exact (show other = action by omega) ▸ le_rfl
  exact hbehind.of_noOpening hin.lt hin.noOpening

lemma AreOpen.opens (h : AreOpen all action frames firsts) (hin : InAction all action place)
    (hshift : shift (markAt? all action) = 1) (hsaved : Known all place (Restored all action) frame.saved) :
    AreOpen all place (frame :: frames) (action :: firsts) := by
  have hlevel (other : Nat) (hle : action + 1 ≤ other) (hle' : other ≤ place) :=
    hin.noOpening.level_eq hle hle'
  refine ⟨⟨hin.lt, by rw [level_succ, hshift], hlevel place hin.lt le_rfl, ?_, hsaved⟩, h⟩
  exact fun other hlt hle => (hlevel other hlt hle).ge

/-- Behind an end the structure around it is closed, and what was in scope before it is in scope again. -/
lemma AreOpen.closes (h : AreOpen all action (frame :: frames) firsts) (hin : InAction all action place)
    (hmark : markAt? all action = some .closes) :
    ∃ first firsts', firsts = first :: firsts' ∧ EndsAt all first action ∧ AreOpen all place frames firsts' ∧
      Known all place (SeesFrom all place) frame.saved := by
  cases firsts with
  | nil => exact h.elim
  | cons first firsts =>
    obtain ⟨hopen, hrest⟩ := h
    have hends : EndsAt all first action := ⟨hopen.lt, hmark, hopen.here, hopen.inside⟩
    have hfalls : level all (action + 1) = level all first := by
      have hhere := hopen.here
      have hopens := hopen.opens
      rw [level_succ, hmark, shift]
      omega
    refine ⟨first, firsts, rfl, hends, ?_, ?_⟩
    · have hbehind : AreOpen all (action + 1) frames firsts := by
        apply hrest.mono (hopen.lt.le.trans (Nat.le_succ action)) hfalls
        intro other hle hle'
        by_cases hfirst : other = first
        · exact hfirst ▸ le_rfl
        · by_cases hlast : other = action + 1
          · exact hlast ▸ hfalls.ge
          · have hinside := hopen.inside other (by omega) (by omega)
            have hopens := hopen.opens
            omega
      exact hbehind.of_noOpening hin.lt hin.noOpening
    · apply hopen.saved.imp hin.lt.le
      rintro earlier - - ⟨hsees, hle, hown⟩
      exact (hsees.behind_end hle hown hopen.opens hends).mono hin.lt hin.noOpening

/-- What an action does to the open structures: some end there, and one may begin. -/
structure Changes (all : List Item) (action : Nat) (firsts firsts' : List Nat) : Prop where
  ends : ∀ first ∈ firsts, first ∈ firsts' ∨ EndsAt all first action
  begins : 0 < shift (markAt? all action) → action ∈ firsts'
  chained : ∀ kind, markAt? all action = some (.elseControl kind) →
    ∃ first ∈ firsts', first < action ∧ level all (first + 1) = level all action

lemma Changes.stays (hshift : shift (markAt? all action) = 0)
    (hmark : ∀ kind, markAt? all action ≠ some (.elseControl kind)) : Changes all action firsts firsts :=
  ⟨fun _ hfirst => .inl hfirst, fun hpos => by omega, fun kind hkind => absurd hkind (hmark kind)⟩

lemma Changes.opens (hmark : ∀ kind, markAt? all action ≠ some (.elseControl kind)) :
    Changes all action firsts (action :: firsts) :=
  ⟨fun _ hfirst => .inl (List.mem_cons_of_mem _ hfirst), fun _ => List.mem_cons_self,
    fun kind hkind => absurd hkind (hmark kind)⟩

lemma Changes.closes {first : Nat} (hmark : markAt? all action = some .closes) (hends : EndsAt all first action) :
    Changes all action (first :: firsts) firsts := by
  refine ⟨fun other hother => ?_, fun hpos => ?_, fun kind hkind => ?_⟩
  · rcases List.mem_cons.1 hother with rfl | hmem
    · exact .inr hends
    · exact .inl hmem
  · rw [hmark, shift] at hpos
    omega
  · rw [hmark] at hkind
    cases hkind

lemma Turns.areOpen {outer vars vars' : List String} {frames frames' : List Frame} {loops loops' : Nat}
    (h : Turns outer vars (markAt? all action) frames loops frames' loops' vars')
    (hopen : AreOpen all action frames firsts) (hin : InAction all action place)
    (houter : markAt? all action ≠ some .closes → Known all action (Sees all action) outer)
    (hvars : markAt? all action ≠ some .closes → Known all place (Sees all action) vars) :
    ∃ firsts', AreOpen all place frames' firsts' ∧ Known all place (SeesFrom all place) vars' ∧
      Changes all action firsts firsts' := by
  have hbehind (hne : markAt? all action ≠ some .closes) (hno : ∀ kind, markAt? all action ≠ some (.named kind)) :
      Known all place (SeesFrom all place) vars := by
    apply (hvars hne).imp le_rfl
    intro earlier _ _ hsees
    exact (hsees.from hno).mono hin.lt hin.noOpening
  have hheader {kind : Named} (hkind : markAt? all action = some (.named kind)) :
      Known all place (Restored all action) vars := by
    apply (hvars (by simp [hkind])).imp le_rfl
    intro earlier hlt hopening hsees
    exact ⟨hsees, (hin.lt_iff_le hopening).1 hlt, fun _ => ⟨kind, hkind⟩⟩
  generalize hmark : markAt? all action = mark at h
  cases h with
  | stays =>
    exact ⟨firsts, hopen.stays hin (by simp [hmark, shift]), hbehind (by simp [hmark]) (by simp [hmark]),
      .stays (by simp [hmark, shift]) (by simp [hmark])⟩
  | jumps =>
    exact ⟨firsts, hopen.stays hin (by simp [hmark, shift]), hbehind (by simp [hmark]) (by simp [hmark]),
      .stays (by simp [hmark, shift]) (by simp [hmark])⟩
  | block =>
    exact ⟨_, hopen.opens hin (by simp [hmark, shift]) (hheader hmark), known_dollar all place _,
      .opens (by simp [hmark])⟩
  | define =>
    exact ⟨_, hopen.opens hin (by simp [hmark, shift]) (hheader hmark), known_dollar all place _,
      .opens (by simp [hmark])⟩
  | control kind =>
    have hsaved : Known all place (Restored all action) outer := by
      apply (houter (by simp [hmark])).imp hin.lt.le
      intro earlier hlt _ hsees
      exact ⟨hsees, hlt.le, fun heq => by omega⟩
    exact ⟨_, hopen.opens hin (by simp [hmark, shift]) hsaved, hbehind (by simp [hmark]) (by simp [hmark]),
      .opens (by simp [hmark])⟩
  | closesNamed =>
    obtain ⟨first, firsts', rfl, hends, hopen', hknown⟩ := hopen.closes hin hmark
    exact ⟨firsts', hopen', hknown, .closes hmark hends⟩
  | closesMain =>
    obtain ⟨first, firsts', rfl, hends, hopen', hknown⟩ := hopen.closes hin hmark
    exact ⟨firsts', hopen', hknown, .closes hmark hends⟩
  | closesOther =>
    obtain ⟨first, firsts', rfl, hends, hopen', hknown⟩ := hopen.closes hin hmark
    exact ⟨firsts', hopen', hknown, .closes hmark hends⟩
  | otherwise kind saved =>
    have hreplaced : AreOpen all action (.other saved :: _) firsts := hopen.replace rfl
    exact ⟨firsts, hreplaced.stays hin (by simp [hmark, shift]), hbehind (by simp [hmark]) (by simp [hmark]),
      .stays (by simp [hmark, shift]) (by simp [hmark])⟩
  | chained saved =>
    refine ⟨firsts, hopen.stays hin (by simp [hmark, shift]), hbehind (by simp [hmark]) (by simp [hmark]), ?_⟩
    refine ⟨fun _ hfirst => .inl hfirst, fun hpos => by simp [hmark, shift] at hpos, fun _ _ => ?_⟩
    cases firsts with
    | nil => exact hopen.elim
    | cons first firsts => exact ⟨first, List.mem_cons_self, hopen.1.lt, hopen.1.here.symm⟩

end Open

/-! ## Whole checks -/

section Whole

variable {all : List Item} {place place' : Nat} {firsts firsts' : List Nat}

/-- The items behind blanks are left from the first place that is not blank. -/
lemma exists_drop_of_afterSpaces {item : Item} {rest : List Item} (h : afterSpaces (all.drop place) = item :: rest) :
    ∃ place', place ≤ place' ∧ all.drop place' = item :: rest ∧
      ∀ other, place ≤ other → other < place' → kindAt? all other = some .space := by
  generalize hitems : all.drop place = items at h
  induction items generalizing place with
  | nil => cases h
  | cons head items ih =>
    by_cases hspace : head.kind = .space
    · rw [afterSpaces, List.dropWhile_cons_of_pos (by simpa using hspace)] at h
      obtain ⟨place', hle, hdrop, hblank⟩ := ih (drop_succ_of_drop hitems) h
      refine ⟨place', by omega, hdrop, fun other hother hlt => ?_⟩
      by_cases heq : other = place
      · simp [kindAt?, heq, getElem?_of_drop hitems, hspace]
      · exact hblank other (by omega) hlt
    · rw [afterSpaces_cons hspace] at h
      exact ⟨place, le_rfl, hitems.trans h, fun other hother hlt => by omega⟩

lemma LeftFrom.exists_drop {item : Item} {items rest : List Item} (h : LeftFrom all place items)
    (hlead : afterSpaces items = item :: rest) (hitem : item.kind ≠ .eof) :
    ∃ place', place ≤ place' ∧ all.drop place' = item :: rest ∧
      ∀ other, place ≤ other → other < place' → kindAt? all other = some .space := by
  rcases h with rfl | ⟨-, line, rfl⟩
  · exact exists_drop_of_afterSpaces hlead
  · rw [afterSpaces_cons (by simp)] at hlead
    rw [← (List.cons.inj hlead).1] at hitem
    exact absurd rfl hitem

lemma LeftFrom.kind_eq_eof {items : List Item} (h : LeftFrom all place items) (hend : AtEnd items) {other : Nat}
    (hle : place ≤ other) {item : Item} (hitem : all[other]? = some item) : item.kind = .eof := by
  rcases h with rfl | ⟨hlength, -⟩
  · have hmem : item ∈ all.drop place := by
      rw [List.mem_iff_getElem?]
      exact ⟨other - place, by rw [List.getElem?_drop, ← hitem]; congr 1; omega⟩
    rcases hend with hnil | ⟨last, hlast, hkind⟩
    · rw [hnil] at hmem
      cases hmem
    · rw [hlast, List.mem_singleton] at hmem
      exact hmem ▸ hkind
  · rw [List.getElem?_eq_none (by omega)] at hitem
    cases hitem

/-- From a place on all variables are scoped, and all structures end, those included that are open there. -/
structure Sound (all : List Item) (place : Nat) (firsts : List Nat) : Prop where
  uses : ∀ other, place ≤ other → Scoped all other
  open_end : ∀ first ∈ firsts, ∃ last, place ≤ last ∧ EndsAt all first last
  ends : ∀ first, place ≤ first → ∀ mark, markAt? all first = some mark →
    (mark.IsControl ∨ ∃ kind, mark = .named kind) → ∃ last, EndsAt all first last

lemma Sound.before (h : Sound all place' firsts) (hle : place ≤ place') (hno : NoOpening all place place')
    (hscoped : ∀ other, place ≤ other → other < place' → Scoped all other) : Sound all place firsts := by
  refine ⟨fun other hother => ?_, fun first hfirst => ?_, fun first hfirst mark hmark => ?_⟩
  · rcases Nat.lt_or_ge other place' with hlt | hge
    · exact hscoped other hother hlt
    · exact h.uses other hge
  · obtain ⟨last, hlast, hends⟩ := h.open_end first hfirst
    exact ⟨last, by omega, hends⟩
  · exact h.ends first (hno.le hmark hfirst) mark hmark

/-- One action before: what it opens ends behind it. -/
lemma Sound.action {action : Nat} (h : Sound all place firsts') (hin : InAction all action place)
    (hscoped : ∀ other, action < other → other < place → Scoped all other) (hchanges : Changes all action firsts firsts') :
    Sound all action firsts := by
  have hlt := hin.lt
  refine ⟨fun other hother => ?_, fun first hfirst => ?_, fun first hfirst mark hmark hbegins => ?_⟩
  · rcases Nat.lt_or_ge other place with hbefore | hge
    · by_cases heq : other = action
      · intro item hitem hvar
        have hopening := hin.opening
        rw [← heq, kindAt?, hitem, Option.map_some, hvar] at hopening
        cases hopening
      · exact hscoped other (by omega) hbefore
    · exact h.uses other hge
  · rcases hchanges.ends first hfirst with hmem | hends
    · obtain ⟨last, hlast, hends⟩ := h.open_end first hmem
      exact ⟨last, by omega, hends⟩
    · exact ⟨action, le_rfl, hends⟩
  · by_cases heq : first = action
    · subst heq
      rcases hbegins with ⟨kind, rfl | rfl⟩ | ⟨kind, rfl⟩
      · obtain ⟨last, -, hends⟩ := h.open_end first (hchanges.begins (by simp [hmark, shift]))
        exact ⟨last, hends⟩
      · -- A further condition ends where the structure ends that it belongs to.
        obtain ⟨outer, houter, hbefore, hlevel⟩ := hchanges.chained kind hmark
        obtain ⟨last, hlast, hends⟩ := h.open_end outer houter
        have hsame : level all (first + 1) = level all (outer + 1) := by
          rw [level_succ, hmark, hlevel]
          simp [shift]
        refine ⟨last, by omega, hends.mark, hends.falls.trans hsame.symm, fun other hother hle => ?_⟩
        exact hsame ▸ hends.inside other (by omega) hle
      · obtain ⟨last, -, hends⟩ := h.open_end first (hchanges.begins (by simp [hmark, shift]))
        exact ⟨last, hends⟩
    · have hbehind := hin.noOpening.le hmark (by omega)
      exact h.ends first hbehind mark hmark hbegins

lemma Turns.of_none {outer vars vars' : List String} {frames frames' : List Frame} {loops loops' : Nat}
    (h : Turns outer vars none frames loops frames' loops' vars') : frames' = frames ∧ vars' = vars := by
  cases h
  exact ⟨rfl, rfl⟩

lemma Run.sound {s : State} (h : Run s) (hleft : LeftFrom all place s.items)
    (hknown : Known all place (SeesFrom all place) s.vars) (hopen : AreOpen all place s.frames firsts) :
    Sound all place firsts := by
  induction h generalizing place firsts with
  | done hframes hend =>
    have hkind {other : Nat} {item : Item} (hle : place ≤ other) (hitem : all[other]? = some item) :=
      hleft.kind_eq_eof hend hle hitem
    refine ⟨fun other hle item hitem hvar => ?_, fun first hfirst => ?_, fun first hle mark hmark => ?_⟩
    · rw [hkind hle hitem] at hvar
      cases hvar
    · cases firsts with
      | nil => cases hfirst
      | cons =>
        rw [hframes] at hopen
        exact hopen.elim
    · obtain ⟨item, hitem, hopening⟩ := Option.map_eq_some_iff.1 (kindAt?_of_markAt? hmark)
      rw [hkind hle hitem] at hopening
      cases hopening
  | @step s m mark vars hleads hturns _ ih =>
    cases hleads with
    | text hlead hitem =>
      obtain ⟨hframes, hvars⟩ := hturns.of_none
      obtain ⟨text, hle, hdrop, hblank⟩ := hleft.exists_drop hlead (by simp [hitem])
      have hplain (other : Nat) (hother : place ≤ other) (hlt : other < text + 1) :
          kindAt? all other = some .space ∨ kindAt? all other = some .text := by
        by_cases heq : other = text
        · exact .inr (by rw [heq, kindAt?, getElem?_of_drop hdrop, Option.map_some, hitem])
        · exact .inl (hblank other hother (by omega))
      have hno : NoOpening all place (text + 1) := by
        intro other hother hlt
        rcases hplain other hother hlt with hkind | hkind
        · simp [hkind]
        · simp [hkind]
      have hknown' : Known all (text + 1) (SeesFrom all (text + 1)) m.vars := by
        rw [hvars]
        exact hknown.imp (by omega) fun _ _ _ hsees => hsees.mono (by omega) hno
      have hopen' : AreOpen all (text + 1) m.frames firsts := hframes ▸ hopen.of_noOpening (by omega) hno
      refine (ih (.inl (drop_succ_of_drop hdrop).symm) hknown' hopen').before (by omega) hno ?_
      intro other hother hlt item hfound hvar
      rcases hplain other hother hlt with hkind | hkind
      · simp [kindAt?, hfound, hvar] at hkind
      · simp [kindAt?, hfound, hvar] at hkind
    | @action item _ inner _ _ _ hlead hitem hinside =>
      obtain ⟨action, hle, hdrop, hblank⟩ := hleft.exists_drop hlead (by simp [hitem])
      have hno : NoOpening all place action := by
        intro other hother hlt
        simp [hblank other hother hlt]
      have hinner := drop_succ_of_drop hdrop
      have hopening : kindAt? all action = some .opening := by
        rw [kindAt?, getElem?_of_drop hdrop, Option.map_some, hitem]
      have hmark : markAt? all action = mark? inner := by rw [markAt?, if_pos hopening, hinner]
      rw [← hmark] at hinside hturns
      have hknown' : Known all action (SeesFrom all action) s.vars :=
        hknown.imp hle fun _ _ _ hsees => hsees.mono hle hno
      have houter (hne : markAt? all action ≠ some .closes) : Known all action (Sees all action) s.vars :=
        hknown'.imp le_rfl fun _ _ _ hsees => hsees.sees hne
      obtain ⟨place', hleft', hin, hvars, hscoped⟩ := hinside.reaches hinner hopening houter
      obtain ⟨firsts', hopen', hknown'', hchanges⟩ :=
        hturns.areOpen (hopen.of_noOpening hle hno) hin houter hvars
      refine ((ih hleft' hknown'' hopen').action hin hscoped hchanges).before hle hno ?_
      intro other hother hlt item hfound hvar
      have hkind := hblank other hother hlt
      simp [kindAt?, hfound, hvar] at hkind

end Whole

/-- In an accepted template each structure has an end, and each variable that is used is `$` or has been declared
before: each `if`, `with` or `range` around the declaration is also around the use, and the two stand in the same
bodies of definitions and blocks. -/
theorem variables_are_declared_in_scope (name text : String) (h : check name text = .ok ()) :
    (∀ first mark, markAt? (lex text.toList) first = some mark → (mark.IsControl ∨ ∃ kind, mark = .named kind) →
        ∃ last, EndsAt (lex text.toList) first last) ∧
      ∀ place, Scoped (lex text.toList) place := by
  have hrun := run_of_checkItems h (inOrder_lex text.toList)
  have hsound : Sound (lex text.toList) 0 [] := hrun.sound (.inl rfl) (known_dollar _ _ _) trivial
  exact ⟨fun first => hsound.ends first (Nat.zero_le first), fun place => hsound.uses place (Nat.zero_le place)⟩

/-- Variables of a loop, of a condition with a further one, and of the header of a block. -/
def scopeSample : String :=
  "\x7b\x7b$v := .A\x7d\x7d\x7b\x7brange $i, $e := .L\x7d\x7d\x7b\x7bif $t := $e\x7d\x7d\x7b\x7b$t\x7d\x7d" ++
    "\x7b\x7belse if $i\x7d\x7d\x7b\x7b$t\x7d\x7d\x7b\x7bend\x7d\x7d\x7b\x7bend\x7d\x7d" ++
    "\x7b\x7bblock \"cell\" $w := $v\x7d\x7d\x7b\x7b$\x7d\x7d\x7b\x7bend\x7d\x7d\x7b\x7b$w\x7d\x7d"

theorem variables_are_declared_in_scope_sample :
    check "page" scopeSample = .ok () ∧
      ((lex scopeSample.toList).filter fun item => decide (item.kind = .var)).map (fun item => String.ofList item.text) =
        ["$v", "$i", "$e", "$t", "$e", "$t", "$i", "$t", "$w", "$v", "$", "$w"] ∧
      (∃ last, EndsAt (lex scopeSample.toList) 31 last) ∧ ∀ place, Scoped (lex scopeSample.toList) place := by
  have hcheck : (check "page" scopeSample).toOption.any (fun _ => true) = true := by decide +kernel
  obtain ⟨⟨⟩, hok, -⟩ := exists_ok_of_any hcheck
  obtain ⟨hends, hscoped⟩ := variables_are_declared_in_scope "page" scopeSample hok
  have hmark : markAt? (lex scopeSample.toList) 31 = some (.elseControl .ifBranch) := by decide +kernel
  exact ⟨hok, by decide +kernel, hends 31 _ hmark (.inl ⟨.ifBranch, .inr rfl⟩), hscoped⟩

end QueryScope.Template
