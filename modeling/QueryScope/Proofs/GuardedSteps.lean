import QueryScope.Proofs.GuardedChecks
import QueryScope.Proofs.TemplateNesting

/-!
# Steps of checks with a position

A check with a position does what the check on the items that are left does, step by step, and meets no breach. What
carries this through a run is that the check stands before an item wherever it goes on: only the end and a mistake
have no item behind them, and at these a check ends or goes back.
-/

namespace QueryScope.Template.Guarded

/-- What a check relies on in what it reads: there is no item behind the end or a mistake, the lines do not decrease,
quoted items have their quotes, and a loop may turn more often than there is something to read. -/
structure Source.Valid (source : Source) : Prop where
  last : ∀ place item, source.items[place]? = some item → item.kind ≠ .eof → item.kind ≠ .mistake →
    place + 1 < source.items.length
  lines : source.items.Pairwise (·.line ≤ ·.line)
  strings : ∀ item ∈ source.items, item.kind = .string →
    (∃ body, item.text = '"' :: body ++ ['"']) ∧ item.text.length < source.turns
  constants : ∀ item ∈ source.items, item.kind = .charConstant → ∃ body, item.text = '\'' :: body
  turns : source.items.length < source.turns

/-- The state of a check that stands at a place. -/
def Source.view (source : Source) (cursor : Cursor) : State :=
  ⟨source.items.drop cursor.place, (source.item cursor.seen).line, cursor.vars, cursor.loops, cursor.actionLine,
    cursor.frames⟩

/-- The last place that has been looked at is that of an item, and the loops are counted right. -/
structure Source.Sound (source : Source) (cursor : Cursor) : Prop where
  seen : cursor.seen < source.items.length
  counted : Counted cursor.frames cursor.loops

/-- A check with a position agrees with one on the items that are left: both end with the same result, and then
`post` holds, or with the same error, which stands on the line of an item. -/
inductive Agrees (source : Source) {α : Type} (post : α → Cursor → Prop) :
    Except Stop (α × Cursor) → Except TemplateError (α × State) → Prop
  | done {result : α} {cursor : Cursor} (hsound : source.Sound cursor) (hpost : post result cursor) :
      Agrees source post (.ok (result, cursor)) (.ok (result, source.view cursor))
  | mistake {error : TemplateError} {frames : List Frame} {loops : Nat} (hcounted : Counted frames loops)
      (hline : ∃ item ∈ source.items, error.line = item.line) :
      Agrees source post (.error (.mistake error frames loops)) (.error error)

/-! ## Items by their place -/

section Items

variable {source : Source} {place : Nat} {item : Item}

lemma Source.item_eq (h : source.items[place]? = some item) : source.item place = item := by
  have hplace : place < source.items.length := (List.getElem?_eq_some_iff.1 h).1
  rw [Source.item, Nat.min_eq_left (by omega), List.getD_eq_getElem?_getD, h, Option.getD_some]

lemma Source.getElem?_item (h : place < source.items.length) : source.items[place]? = some (source.item place) := by
  have hfound := List.getElem?_eq_getElem h
  rw [hfound, Source.item_eq hfound]

lemma Source.item_mem (h : place < source.items.length) : source.item place ∈ source.items :=
  List.mem_of_getElem? (Source.getElem?_item h)

/-- The line of the later one of two places is the later one of their lines. -/
lemma Source.Valid.line_max (hvalid : source.Valid) {seen : Nat} (hseen : seen < source.items.length)
    (hplace : place < source.items.length) :
    (source.item (max seen place)).line = max (source.item seen).line (source.item place).line := by
  have hle {first second : Nat} (hsecond : second < source.items.length) (h : first ≤ second) :
      (source.item first).line ≤ (source.item second).line := by
    rcases h.eq_or_lt with rfl | hlt
    · exact le_rfl
    · have hfound := List.pairwise_iff_getElem.1 hvalid.lines first second (hlt.trans hsecond) hsecond hlt
      rwa [← Source.item_eq (List.getElem?_eq_getElem (hlt.trans hsecond)),
        ← Source.item_eq (List.getElem?_eq_getElem hsecond)] at hfound
  rcases le_total seen place with h | h
  · rw [max_eq_right h, max_eq_right (hle hplace h)]
  · rw [max_eq_left h, max_eq_left (hle hseen h)]

end Items

/-! ## Agreement -/

section Rules

variable {source : Source} {α β : Type} {cursor : Cursor} {state : State}

lemma Agrees.bind {post : α → Cursor → Prop} {post' : β → Cursor → Prop} {x : Strict α} {y : Check α}
    {f : α → Strict β} {g : α → Check β} (h : Agrees source post (x source cursor) (y source.name state))
    (hstep : ∀ result next, source.Sound next → post result next →
      Agrees source post' (f result source next) (g result source.name (source.view next))) :
    Agrees source post' ((x >>= f) source cursor) ((y >>= g) source.name state) := by
  change Agrees source post' (x source cursor >>= fun result => f result.1 source result.2)
    (y source.name state >>= fun result => g result.1 source.name result.2)
  generalize x source cursor = first, y source.name state = second at h
  cases h with
  | done hsound hpost => exact hstep _ _ hsound hpost
  | mistake hcounted hline => exact .mistake hcounted hline

lemma Agrees.mono {post post' : α → Cursor → Prop} {x : Except Stop (α × Cursor)}
    {y : Except TemplateError (α × State)} (h : Agrees source post x y)
    (himp : ∀ result next, post result next → post' result next) : Agrees source post' x y := by
  cases h with
  | done hsound hpost => exact .done hsound (himp _ _ hpost)
  | mistake hcounted hline => exact .mistake hcounted hline

lemma Agrees.pure {post : α → Cursor → Prop} (hsound : source.Sound cursor) {result : α} (hpost : post result cursor) :
    Agrees source post ((Pure.pure result : Strict α) source cursor)
      ((Pure.pure result : Check α) source.name (source.view cursor)) :=
  .done hsound hpost

lemma Agrees.ite_iff {post : α → Cursor → Prop} {condition condition' : Prop} [Decidable condition]
    [Decidable condition'] {x x' : Strict α} {y y' : Check α} (hiff : condition ↔ condition')
    (hpos : condition → Agrees source post (x source cursor) (y source.name state))
    (hneg : ¬condition → Agrees source post (x' source cursor) (y' source.name state)) :
    Agrees source post ((if condition then x else x') source cursor)
      ((if condition' then y else y') source.name state) := by
  by_cases h : condition
  · rw [if_pos h, if_pos (hiff.1 h)]
    exact hpos h
  · rw [if_neg h, if_neg (mt hiff.2 h)]
    exact hneg h

lemma Agrees.ite {post : α → Cursor → Prop} {condition : Prop} [Decidable condition] {x x' : Strict α}
    {y y' : Check α} (hpos : condition → Agrees source post (x source cursor) (y source.name state))
    (hneg : ¬condition → Agrees source post (x' source cursor) (y' source.name state)) :
    Agrees source post ((if condition then x else x') source cursor)
      ((if condition then y else y') source.name state) :=
  .ite_iff Iff.rfl hpos hneg

lemma Agrees.complain {post : α → Cursor → Prop} (hsound : source.Sound cursor) (text : String) :
    Agrees source post (Guarded.complain text source cursor)
      (Template.complain text source.name (source.view cursor)) :=
  .mistake hsound.counted ⟨source.item cursor.seen, Source.item_mem hsound.seen, rfl⟩

lemma Agrees.unexpected {post : α → Cursor → Prop} (hsound : source.Sound cursor) (item : Item) (context : String) :
    Agrees source post (Guarded.unexpected item context source cursor)
      (Template.unexpected item context source.name (source.view cursor)) := by
  unfold Guarded.unexpected Template.unexpected
  refine .ite (fun _ => ?_) fun _ => .complain hsound _
  exact Agrees.complain hsound _

/-- A condition under which both checks end with a mistake. -/
lemma Agrees.guard {post : β → Cursor → Prop} {condition : Prop} [Decidable condition] {x : Strict α} {y : Check α}
    {f : α → Strict β} {g : α → Check β} {z : Strict β} {w : Check β}
    (hfail : Agrees source (fun _ _ => False) (x source cursor) (y source.name state))
    (h : ¬condition → Agrees source post (z source cursor) (w source.name state)) :
    Agrees source post ((if condition then x >>= f else z) source cursor)
      ((if condition then y >>= g else w) source.name state) :=
  .ite (fun _ => hfail.bind fun _ _ _ => False.elim) h

lemma Agrees.read {post : α → Cursor → Prop} {f : Source → Strict α} {y : Except TemplateError (α × State)}
    (h : Agrees source post (f source source cursor) y) :
    Agrees source post ((MonadReader.read >>= f) source cursor) y :=
  h

lemma Agrees.getCursor {post : α → Cursor → Prop} {f : Cursor → Strict α} {y : Except TemplateError (α × State)}
    (h : Agrees source post (f cursor source cursor) y) :
    Agrees source post ((MonadState.get >>= f) source cursor) y :=
  h

lemma Agrees.getState {post : α → Cursor → Prop} {x : Except Stop (α × Cursor)} {g : State → Check α}
    (h : Agrees source post x (g state source.name state)) :
    Agrees source post x ((MonadState.get >>= g) source.name state) :=
  h

lemma Agrees.map {post : α → Cursor → Prop} {post' : β → Cursor → Prop} {x : Strict α} {y : Check α} (f : α → β)
    (h : Agrees source post (x source cursor) (y source.name state))
    (himp : ∀ result next, post result next → post' (f result) next) :
    Agrees source post' ((f <$> x) source cursor) ((f <$> y) source.name state) := by
  rw [map_eq_pure_bind, map_eq_pure_bind]
  exact h.bind fun result next hsound hpost => .pure hsound (himp result next hpost)

lemma Agrees.discard {post : α → Cursor → Prop} {x : Strict α} {y : Check α}
    (h : Agrees source post (x source cursor) (y source.name state)) :
    Agrees source (fun _ next => ∃ result, post result next) (Functor.discard x source cursor)
      (Functor.discard y source.name state) :=
  h.map (fun _ => PUnit.unit) fun result _ hpost => ⟨result, hpost⟩

end Rules

/-! ## Reading items -/

section Reading

variable {source : Source} {cursor : Cursor} {place : Nat}

lemma Source.drop_eq (h : place < source.items.length) :
    source.items.drop place = source.item place :: source.items.drop (place + 1) := by
  rw [List.drop_eq_getElem_cons h, Source.item_eq (List.getElem?_eq_getElem h)]

lemma Source.length_view (source : Source) (cursor : Cursor) :
    (source.view cursor).items.length = source.items.length - cursor.place :=
  List.length_drop

/-- There is an item behind one that is neither the end nor a mistake. -/
lemma Source.Valid.behind (hvalid : source.Valid) (hplace : place < source.items.length)
    (heof : (source.item place).kind ≠ .eof) (hmistake : (source.item place).kind ≠ .mistake) :
    place + 1 < source.items.length :=
  hvalid.last place _ (Source.getElem?_item hplace) heof hmistake

lemma Source.Valid.behind_of_kind (hvalid : source.Valid) (hplace : place < source.items.length) {kind : Kind}
    (hkind : (source.item place).kind = kind) (hlast : kind ≠ .eof ∧ kind ≠ .mistake) :
    place + 1 < source.items.length :=
  hvalid.behind hplace (hkind ▸ hlast.1) (hkind ▸ hlast.2)

lemma backup_agrees (hsound : source.Sound cursor) (hplace : cursor.place = place + 1)
    (hready : place < source.items.length) :
    Agrees source (fun _ after => after.place = place) (backup source cursor)
      (unread (source.item place) source.name (source.view cursor)) := by
  have hguarded : backup source cursor = .ok ((), { cursor with place }) := by
    change (if cursor.place = 0 then fall .position else set { cursor with place := cursor.place - 1 } : Strict Unit)
      source cursor = _
    rw [if_neg (by omega), hplace]
    rfl
  have hmodel : unread (source.item place) source.name (source.view cursor) =
      .ok ((), source.view { cursor with place }) := by
    simp only [Source.view, Source.drop_eq hready, ← hplace]
    rfl
  rw [hguarded, hmodel]
  exact .done ⟨hsound.seen, hsound.counted⟩ rfl

lemma set_agrees {before : Cursor} (hsound : source.Sound cursor) :
    Agrees source (fun _ after => after = cursor) ((set cursor : Strict Unit) source before)
      ((set (source.view cursor) : Check Unit) source.name (source.view before)) :=
  .done hsound rfl

lemma goTo_agrees (hsound : source.Sound cursor) (start : Cursor) :
    Agrees source (fun _ after => after.place = start.place) (goTo start.place source cursor)
      ((modify fun reached => { reached with items := (source.view start).items } : Check Unit) source.name
        (source.view cursor)) := by
  have hthere : source.Sound { cursor with place := start.place } := ⟨hsound.seen, hsound.counted⟩
  exact .done hthere rfl

/-- The first item from a place on that is not blank stands at another. -/
structure Source.FirstWord (source : Source) (start place : Nat) : Prop where
  le : start ≤ place
  lt : place < source.items.length
  blank : ∀ between, start ≤ between → between < place → (source.item between).kind = .space
  word : (source.item place).kind ≠ .space

lemma Source.FirstWord.of_succ {start : Nat} (h : source.FirstWord (start + 1) place)
    (hspace : (source.item start).kind = .space) : source.FirstWord start place := by
  refine ⟨(Nat.le_succ start).trans h.le, h.lt, fun between hle hlt => ?_, h.word⟩
  rcases hle.eq_or_lt with rfl | hlt'
  · exact hspace
  · exact h.blank between hlt' hlt

lemma Source.FirstWord.eq_of_word {start : Nat} (h : source.FirstWord start place)
    (hword : (source.item start).kind ≠ .space) : place = start := by
  by_contra hne
  exact hword (h.blank start le_rfl (by have := h.le; omega))

/-- A state behind the items of a kind that come next. -/
def behindRun (kind : Kind) (state : State) : State :=
  let run := state.items.takeWhile (·.kind = kind)
  { state with
    items := state.items.drop run.length
    reached := run.foldl (fun line item => max line item.line) state.reached }

section Run

variable {name : String} {kind : Kind} {item : Item} {items : List Item} {reached : Nat} {vars : List String}
  {loops actionLine : Nat} {frames : List Frame}

lemma behindRun_cons_of_eq (h : item.kind = kind) :
    behindRun kind ⟨item :: items, reached, vars, loops, actionLine, frames⟩ =
      behindRun kind ⟨items, max reached item.line, vars, loops, actionLine, frames⟩ := by
  simp [behindRun, h]

lemma behindRun_cons_of_ne (h : item.kind ≠ kind) :
    behindRun kind ⟨item :: items, reached, vars, loops, actionLine, frames⟩ =
      ⟨item :: items, reached, vars, loops, actionLine, frames⟩ := by
  simp [behindRun, h]

lemma skipSpaces_eq (state : State) : skipSpaces name state = .ok ((), behindRun .space state) :=
  rfl

/-- Blanks are skipped one by one. -/
lemma nextWord_eq : Template.nextWord name ⟨item :: items, reached, vars, loops, actionLine, frames⟩ =
    (Template.next >>= fun item => if item.kind = .space then Template.nextWord else Pure.pure item) name
      ⟨item :: items, reached, vars, loops, actionLine, frames⟩ := by
  rw [bind_of_ok (x := Template.next) rfl, Template.nextWord, bind_of_ok (skipSpaces_eq _)]
  split_ifs with hspace
  · rw [behindRun_cons_of_eq hspace, bind_of_ok (skipSpaces_eq _)]
  · rw [behindRun_cons_of_ne hspace]
    rfl

/-- Fields are skipped one by one. -/
lemma skipFields_eq : Template.skipFields name ⟨item :: items, reached, vars, loops, actionLine, frames⟩ =
    (Template.peek >>= fun item =>
      if item.kind = .field then discard Template.next >>= fun _ => Template.skipFields else Pure.pure ()) name
      ⟨item :: items, reached, vars, loops, actionLine, frames⟩ := by
  have hskip (state : State) : Template.skipFields name state = discard Template.peek name (behindRun .field state) :=
    rfl
  rw [hskip, bind_of_ok (x := Template.peek) rfl]
  split_ifs with hfield
  · rw [bind_of_ok (x := discard Template.next) rfl, hskip, behindRun_cons_of_eq hfield]
    simp only [max_self, max_assoc]
  · rw [behindRun_cons_of_ne hfield]
    rfl

end Run

/-- The check stands before an item and not before a place. -/
structure Source.Reaches (source : Source) (low : Nat) (cursor : Cursor) : Prop where
  le : low ≤ cursor.place
  lt : cursor.place < source.items.length

lemma Source.Reaches.mono {low low' : Nat} (h : source.Reaches low' cursor) (hle : low ≤ low') :
    source.Reaches low cursor :=
  ⟨hle.trans h.le, h.lt⟩

lemma Source.Reaches.of_place {low : Nat} {after : Cursor} (h : source.Reaches low cursor)
    (hplace : after.place = cursor.place) : source.Reaches low after :=
  ⟨hplace ▸ h.le, hplace ▸ h.lt⟩

end Reading

section Words

variable {source : Source} {cursor : Cursor} (hvalid : source.Valid) (hsound : source.Sound cursor)
  (hready : cursor.place < source.items.length)

include hvalid hsound hready

lemma next_agrees :
    Agrees source (fun item after => item = source.item cursor.place ∧ after.place = cursor.place + 1)
      (next source cursor) (Template.next source.name (source.view cursor)) := by
  have hmodel : Template.next source.name (source.view cursor) = .ok (source.item cursor.place, source.view
      { cursor with place := cursor.place + 1, seen := max cursor.seen cursor.place }) := by
    simp only [Source.view, hvalid.line_max hsound.seen hready, Source.drop_eq hready]
    rfl
  rw [hmodel]
  exact .done ⟨max_lt hsound.seen hready, hsound.counted⟩ ⟨rfl, rfl⟩

lemma peek_agrees :
    Agrees source (fun item after => item = source.item cursor.place ∧ after.place = cursor.place)
      (peek source cursor) (Template.peek source.name (source.view cursor)) := by
  unfold peek Template.peek
  refine (next_agrees hvalid hsound hready).bind fun item after hafter hitem => ?_
  obtain ⟨rfl, hplace⟩ := hitem
  refine (backup_agrees hafter hplace hready).bind fun _ back hback hplace => ?_
  exact .pure hback ⟨rfl, hplace⟩

lemma wordWithin_agrees {turns : Nat} (hturns : source.items.length - cursor.place ≤ turns) :
    Agrees source (fun item after => ∃ place, source.FirstWord cursor.place place ∧ item = source.item place ∧
        after.place = place + 1)
      (wordWithin turns source cursor) (Template.nextWord source.name (source.view cursor)) := by
  induction turns generalizing cursor with
  | zero => omega
  | succ turns ih =>
    rw [wordWithin, Source.view, Source.drop_eq hready, nextWord_eq, ← Source.drop_eq hready]
    refine (next_agrees hvalid hsound hready).bind fun item after hafter hitem => ?_
    obtain ⟨rfl, hplace⟩ := hitem
    refine .ite (fun hspace => ?_) fun hword => ?_
    · have hbehind := hvalid.behind_of_kind hready hspace (by decide)
      refine (ih hafter (by omega) (by omega)).mono fun item last hitem => ?_
      obtain ⟨place, hfirst, hitem⟩ := hitem
      rw [hplace] at hfirst
      exact ⟨place, hfirst.of_succ hspace, hitem⟩
    · exact .pure hafter ⟨cursor.place, ⟨le_rfl, hready, fun _ _ _ => by omega, hword⟩, rfl, hplace⟩

lemma nextWord_agrees :
    Agrees source (fun item after => ∃ place, source.FirstWord cursor.place place ∧ item = source.item place ∧
        after.place = place + 1)
      (nextWord source cursor) (Template.nextWord source.name (source.view cursor)) :=
  wordWithin_agrees hvalid hsound hready (by have := hvalid.turns; omega)

lemma peekWord_agrees :
    Agrees source (fun item after => ∃ place, source.FirstWord cursor.place place ∧ item = source.item place ∧
        after.place = place)
      (peekWord source cursor) (Template.peekWord source.name (source.view cursor)) := by
  have hmodel : Template.peekWord = Template.nextWord >>= fun item => unread item >>= fun _ => Pure.pure item :=
    (bind_assoc ..).symm
  rw [hmodel]
  refine (nextWord_agrees hvalid hsound hready).bind fun item after hafter hitem => ?_
  obtain ⟨place, hfirst, rfl, hplace⟩ := hitem
  refine (backup_agrees hafter hplace hfirst.lt).bind fun _ back hback hplace => ?_
  exact .pure hback ⟨place, hfirst, rfl, hplace⟩

lemma expectClosing_agrees (context : String) :
    Agrees source (fun _ after => source.Reaches (cursor.place + 1) after) (expectClosing context source cursor)
      (Template.expectClosing context source.name (source.view cursor)) := by
  unfold expectClosing Template.expectClosing
  refine (nextWord_agrees hvalid hsound hready).bind fun item after hafter hitem => ?_
  obtain ⟨place, hfirst, rfl, hplace⟩ := hitem
  refine .ite (fun _ => .unexpected hafter _ _) fun hkind => .pure hafter ?_
  have hbehind := hvalid.behind_of_kind hfirst.lt (not_not.1 hkind) (by decide)
  have hle := hfirst.le
  exact ⟨by omega, by omega⟩

end Words

/-! ## Operands -/

section Operands

variable {source : Source} {cursor : Cursor} {place : Nat} {item : Item}

lemma guarded_bind {α β : Type} {x : Except Breach α} {a : α} (h : x = .ok a) (f : α → Strict β) :
    (guarded x >>= f) source cursor = f a source cursor := by
  subst h
  rfl

lemma firstWord_eq {start turns : Nat} (h : source.FirstWord start place) (hturns : place - start < turns) :
    firstWord turns start source cursor = .ok (place, cursor) := by
  have hread (turns start : Nat) : firstWord (turns + 1) start source cursor =
      (if (source.item start).kind = .space then firstWord turns (start + 1) else Pure.pure start) source cursor := rfl
  induction turns generalizing start with
  | zero => omega
  | succ turns ih =>
    rw [hread]
    rcases h.le.eq_or_lt with rfl | hlt
    · rw [if_neg h.word]
      rfl
    · rw [if_pos (h.blank start le_rfl hlt)]
      exact ih ⟨hlt, h.lt, fun between hle => h.blank between (by omega), h.word⟩ (by omega)

variable (hvalid : source.Valid) (hsound : source.Sound cursor)

include hvalid hsound

lemma checkString_agrees (hitem : item ∈ source.items) :
    Agrees source (fun _ after => after.place = cursor.place) (checkString item source cursor)
      (Template.checkString item source.name (source.view cursor)) := by
  unfold checkString Template.checkString
  by_cases hkind : item.kind = .string
  · obtain ⟨⟨body, hbody⟩, hlength⟩ := hvalid.strings item hitem hkind
    simp only [hkind, if_true, decide_true, Bool.true_and]
    change Agrees source _ ((guarded (stringVerdict source.turns item.text) >>= fun valid =>
      if !valid then complain "invalid syntax" else Pure.pure ()) source cursor) _
    rw [guarded_bind (stringVerdict_eq hbody hlength)]
    exact .ite (fun _ => .complain hsound _) fun _ => .pure hsound rfl
  · simp only [hkind, if_false, decide_false, Bool.false_and, Bool.false_eq_true]
    exact .pure hsound rfl

lemma checkConstant_agrees (hitem : item ∈ source.items) (hkind : item.kind = .charConstant) :
    Agrees source (fun _ after => after.place = cursor.place) (checkConstant item source cursor)
      (Template.checkConstant item source.name (source.view cursor)) := by
  obtain ⟨body, hbody⟩ := hvalid.constants item hitem hkind
  unfold checkConstant Template.checkConstant
  rw [guarded_bind (constantVerdict_eq hbody)]
  cases constantFault? item.text with
  | none => exact .pure hsound rfl
  | some fault =>
    cases fault with
    | invalid => exact .complain hsound _
    | malformed => exact .complain hsound _

/-- An item that is an operand by itself is taken, and another one is put back. -/
lemma simpleTerm_agrees (hready : place < source.items.length) (hplace : cursor.place = place + 1) :
    Agrees source (fun term after => term = none ∧ after.place = place ∧
          (startsCommand (source.item place).kind → (source.item place).kind = .leftParen) ∨
        term ≠ none ∧ source.Reaches (place + 1) after)
      (simpleTerm (source.item place) source cursor)
      (Template.simpleTerm (source.item place) source.name (source.view cursor)) := by
  have hbehind {kind : Kind} (hkind : (source.item place).kind = kind) (hlast : kind ≠ .eof ∧ kind ≠ .mistake) :
      source.Reaches (place + 1) cursor := by
    have := hvalid.behind_of_kind hready hkind hlast
    exact ⟨by omega, by omega⟩
  unfold simpleTerm Template.simpleTerm
  cases hkind : (source.item place).kind with
  | identifier => exact .guard (.complain hsound _) fun _ => .pure hsound (.inr ⟨by simp, hbehind hkind (by decide)⟩)
  | var => exact .guard (.complain hsound _) fun _ => .pure hsound (.inr ⟨by simp, hbehind hkind (by decide)⟩)
  | number => exact .guard (.complain hsound _) fun _ => .pure hsound (.inr ⟨by simp, hbehind hkind (by decide)⟩)
  | charConstant =>
    refine (checkConstant_agrees hvalid hsound (Source.item_mem hready) hkind).bind fun _ after hafter hsame => ?_
    exact .pure hafter (.inr ⟨by simp, (hbehind hkind (by decide)).of_place hsame⟩)
  | string | rawString =>
    refine (checkString_agrees hvalid hsound (Source.item_mem hready)).bind fun _ after hafter hsame => ?_
    exact .pure hafter (.inr ⟨by simp, (hbehind hkind (by decide)).of_place hsame⟩)
  | dot | nil | field | bool => exact .pure hsound (.inr ⟨by simp, hbehind hkind (by decide)⟩)
  | _ =>
    refine (backup_agrees hsound hplace hready).bind fun _ after hafter hback => .pure hafter (.inl ⟨rfl, hback, ?_⟩)
    simp [startsCommand]

lemma skipFields_agrees {turns : Nat} (hready : cursor.place < source.items.length)
    (hturns : source.items.length - cursor.place ≤ turns) :
    Agrees source (fun _ after => source.Reaches cursor.place after) (skipFields turns source cursor)
      (Template.skipFields source.name (source.view cursor)) := by
  induction turns generalizing cursor with
  | zero => omega
  | succ turns ih =>
    rw [skipFields, Source.view, Source.drop_eq hready, skipFields_eq, ← Source.drop_eq hready]
    refine (peek_agrees hvalid hsound hready).bind fun item after hafter hitem => ?_
    obtain ⟨rfl, hplace⟩ := hitem
    refine .ite (fun hfield => ?_) fun _ => .pure hafter ⟨hplace.ge, by omega⟩
    have hbehind := hvalid.behind_of_kind hready hfield (by decide)
    refine (next_agrees hvalid hafter (by omega)).discard.bind fun _ last hlast hitem => ?_
    obtain ⟨_, -, hlastPlace⟩ := hitem
    exact (ih hlast (by omega) (by omega)).mono fun _ _ hfinal => hfinal.mono (by omega)

lemma strayField_agrees {post : Unit → Cursor → Prop} {start : Nat} (hfirst : source.FirstWord start place) :
    Agrees source post (strayField start source cursor)
      (Template.complain ("unexpected . after term " ++ Text.escaped (String.ofList (source.item place).text))
        source.name (source.view cursor)) := by
  have hfound : firstWord source.turns start source cursor = .ok (place, cursor) :=
    firstWord_eq hfirst (by have := hvalid.turns; have := hfirst.lt; omega)
  change Agrees source _ (firstWord source.turns start source cursor >>= _) _
  rw [hfound]
  exact .complain hsound _

lemma withFields_agrees {start : Nat} (hfirst : source.FirstWord start place)
    (hready : cursor.place < source.items.length) (term : Operand) :
    Agrees source (fun _ after => source.Reaches cursor.place after) (withFields start term source cursor)
      (Template.withFields (source.item place) term source.name (source.view cursor)) := by
  have hturns := hvalid.turns
  unfold withFields Template.withFields
  refine (peek_agrees hvalid hsound hready).bind fun item after hafter hitem => ?_
  obtain ⟨rfl, hplace⟩ := hitem
  refine .ite (fun _ => .pure hafter ⟨hplace.ge, by omega⟩) fun _ => ?_
  refine .guard (strayField_agrees hvalid hafter hfirst) fun _ => .read ?_
  refine (skipFields_agrees hvalid hafter (by omega) (by omega)).bind fun _ last hlast hreaches => ?_
  exact .pure hlast (hreaches.mono hplace.ge)

end Operands

/-! ## Pipelines -/

section Declarations

variable {source : Source} {cursor : Cursor}

lemma declareVar_agrees (hsound : source.Sound cursor) (item : Item) :
    Agrees source (fun _ after => after.place = cursor.place) (declareVar item source cursor)
      (Template.declareVar item source.name (source.view cursor)) := by
  have hthere : source.Sound { cursor with vars := String.ofList item.text :: cursor.vars } :=
    ⟨hsound.seen, hsound.counted⟩
  exact .done hthere rfl

variable (hvalid : source.Valid) (hsound : source.Sound cursor) (hready : cursor.place < source.items.length)

include hvalid hsound hready

/-- The item behind a variable is taken. -/
lemma sign_agrees (hword : (source.item cursor.place).kind ≠ .space) (heof : (source.item cursor.place).kind ≠ .eof)
    (hmistake : (source.item cursor.place).kind ≠ .mistake) :
    Agrees source (fun _ after => source.Reaches cursor.place after) (discard nextWord source cursor)
      (discard Template.nextWord source.name (source.view cursor)) := by
  refine (nextWord_agrees hvalid hsound hready).discard.mono fun _ after hafter => ?_
  obtain ⟨_, place, hfirst, -, hplace⟩ := hafter
  obtain rfl := hfirst.eq_of_word hword
  have hlt := hvalid.behind hready heof hmistake
  exact ⟨by omega, by omega⟩

lemma declarations_agrees {turns bound declared : Nat} (hturns : bound + 1 ≤ turns)
    (hdeclared : bound + 1 + declared = 2) (context : String) :
    Agrees source (fun _ after => source.Reaches cursor.place after)
      (declarations context turns declared source cursor)
      (Template.declarations context (bound + 1) source.name (source.view cursor)) := by
  induction turns generalizing cursor bound declared with
  | zero => omega
  | succ turns ih =>
    unfold declarations Template.declarations
    refine (peekWord_agrees hvalid hsound hready).bind fun item start hstart hitem => ?_
    obtain ⟨place, hfirst, rfl, rfl⟩ := hitem
    have hle := hfirst.le
    refine .ite (fun _ => .pure hstart ⟨hle, hfirst.lt⟩) fun hvar => .getCursor (.getState ?_)
    have hbehind := hvalid.behind_of_kind hfirst.lt (not_not.1 hvar) (by decide)
    refine (next_agrees hvalid hstart hfirst.lt).discard.bind fun _ after hafter hplace => ?_
    obtain ⟨_, -, hplace⟩ := hplace
    refine (peekWord_agrees hvalid hafter (by omega)).bind fun sign before hbefore hsign => ?_
    obtain ⟨place, hnext, rfl, rfl⟩ := hsign
    have hnextLe := hnext.le
    refine .ite (fun hkind => ?_) fun _ => .ite (fun hkind => ?_) fun _ => ?_
    · refine (sign_agrees hvalid hbefore hnext.lt hnext.word ?_ ?_).bind fun _ last hlast hreaches => ?_
      · rcases hkind with hkind | hkind <;> simp [hkind]
      · rcases hkind with hkind | hkind <;> simp [hkind]
      · exact (declareVar_agrees hlast _).mono fun _ _ hsame => (hreaches.of_place hsame).mono (by omega)
    · refine (sign_agrees hvalid hbefore hnext.lt hnext.word (by simp [hkind]) (by simp [hkind])).bind
        fun _ last hlast hreaches => ?_
      refine (declareVar_agrees hlast _).bind fun _ final hfinal hsame => ?_
      have hreachesLe := hreaches.le
      refine .ite_iff (and_congr_right fun _ => by omega) (fun hrange => ?_) fun _ => .complain hfinal _
      obtain ⟨bound, rfl⟩ : ∃ count, bound = count + 1 := ⟨bound - 1, by omega⟩
      refine (peekWord_agrees hvalid hfinal (by have := hreaches.lt; omega)).bind fun item next hnext hitem => ?_
      obtain ⟨place, hword, rfl, rfl⟩ := hitem
      have hwordLe := hword.le
      cases (source.item next.place).kind with
      | var | closing | rightParen =>
        exact (ih hnext hword.lt (by omega) (by omega)).mono fun _ _ hend => hend.mono (by omega)
      | _ => exact .complain hnext _
    · refine (goTo_agrees hbefore start).mono fun _ final hfinal => ?_
      exact ⟨by omega, by omega⟩

end Declarations

section Pipelines

variable {source : Source} {cursor : Cursor} {low : Nat} {inner : Strict Unit} {inner' : Check Unit}

lemma checkStages_agrees (hsound : source.Sound cursor) (context : String) (found : List Operand) :
    Agrees source (fun _ after => after.place = cursor.place) (checkStages context found source cursor)
      (Template.checkStages context found source.name (source.view cursor)) := by
  unfold checkStages Template.checkStages
  refine .guard (.complain hsound _) fun _ => ?_
  dsimp only
  cases plainStage? found with
  | some stage => exact .complain hsound _
  | none => exact .pure hsound rfl

lemma startsCommand_ne_space {kind : Kind} (h : startsCommand kind = true) : kind ≠ .space := by
  rintro rfl
  simp [startsCommand] at h

/-- The checks of what stands in parentheses agree behind a place. -/
def Source.AgreesBehind (source : Source) (low : Nat) (inner : Strict Unit) (inner' : Check Unit) : Prop :=
  ∀ cursor, source.Sound cursor → source.Reaches (low + 1) cursor →
    Agrees source (fun _ after => source.Reaches cursor.place after) (inner source cursor)
      (inner' source.name (source.view cursor))

section Commands

variable (hvalid : source.Valid) (hinner : source.AgreesBehind low inner inner') (hsound : source.Sound cursor)
  (hreaches : source.Reaches low cursor)

include hvalid hinner hsound hreaches

lemma operand_agrees :
    Agrees source (fun _ after => source.Reaches cursor.place after ∧
        (startsCommand (source.item cursor.place).kind → cursor.place < after.place))
      (operand inner source cursor) (Template.operand inner' source.name (source.view cursor)) := by
  unfold operand Template.operand
  refine .getCursor ((nextWord_agrees hvalid hsound hreaches.lt).bind fun item after hafter hitem => ?_)
  obtain ⟨place, hfirst, rfl, hplace⟩ := hitem
  have hle := hfirst.le
  have hlow := hreaches.le
  refine .ite (fun hparen => ?_) fun hparen => ?_
  · have hbehind := hvalid.behind_of_kind hfirst.lt hparen (by decide)
    refine (hinner after hafter ⟨by omega, by omega⟩).bind fun _ last hlast hreaches => ?_
    refine (withFields_agrees hvalid hlast hfirst hreaches.lt _).map some fun _ final hfinal => ?_
    have hpassed := hreaches.le.trans hfinal.le
    exact ⟨⟨by omega, hfinal.lt⟩, fun _ => by omega⟩
  · refine (simpleTerm_agrees hvalid hafter hfirst.lt hplace).bind fun term last hlast hterm => ?_
    rcases hterm with ⟨rfl, hback, hcommand⟩ | ⟨hterm, hreaches⟩
    · refine .pure hlast ⟨⟨by omega, by have := hfirst.lt; omega⟩, fun hstarts => ?_⟩
      -- An item that starts a command is not blank, so it was the one that was put back.
      obtain rfl := hfirst.eq_of_word (startsCommand_ne_space hstarts)
      exact absurd (hcommand hstarts) hparen
    · obtain ⟨term, rfl⟩ := Option.ne_none_iff_exists'.1 hterm
      refine (withFields_agrees hvalid hlast hfirst hreaches.lt _).map some fun _ final hfinal => ?_
      have hpassed := hreaches.le.trans hfinal.le
      exact ⟨⟨by omega, hfinal.lt⟩, fun _ => by omega⟩

lemma command_agrees {turns bound : Nat} (hturns : source.items.length - cursor.place ≤ turns)
    (hbound : source.items.length - cursor.place ≤ bound) (first : Option Operand) :
    Agrees source (fun _ after => source.Reaches cursor.place after ∧
        (startsCommand (source.item cursor.place).kind → cursor.place < after.place))
      (command inner turns first source cursor)
      (Template.command inner' bound first source.name (source.view cursor)) := by
  induction turns generalizing cursor bound first with
  | zero => have := hreaches.lt; omega
  | succ turns ih =>
    obtain ⟨bound, rfl⟩ : ∃ count, bound = count + 1 := ⟨bound - 1, by have := hreaches.lt; omega⟩
    unfold command Template.command
    refine (peekWord_agrees hvalid hsound hreaches.lt).discard.bind fun _ after hafter hword => ?_
    obtain ⟨_, place, hfirst, -, rfl⟩ := hword
    have hle := hfirst.le
    have hlow := hreaches.le
    refine (operand_agrees hvalid hinner hafter ⟨by omega, hfirst.lt⟩).bind fun found last hlast hfound => ?_
    obtain ⟨hback, hstarts⟩ := hfound
    have hpassed := hback.le
    have hprogress : startsCommand (source.item cursor.place).kind → cursor.place < last.place := by
      intro h
      have hsame := hfirst.eq_of_word (startsCommand_ne_space h)
      rw [hsame] at hstarts
      exact hstarts h
    refine (next_agrees hvalid hlast hback.lt).bind fun item behind hbehind hitem => ?_
    obtain ⟨rfl, hplace⟩ := hitem
    dsimp only
    cases hkind : (source.item last.place).kind with
    | space =>
      have hlt := hvalid.behind_of_kind hback.lt hkind (by decide)
      refine (ih hbehind ⟨by omega, by omega⟩ (by omega) (by omega) _).mono fun _ final hfinal => ?_
      have hfinalLe := hfinal.1.le
      exact ⟨⟨by omega, hfinal.1.lt⟩, fun _ => by omega⟩
    | closing | rightParen | pipe =>
      have hlt := hvalid.behind_of_kind hback.lt hkind (by decide)
      refine .ite (fun _ => (backup_agrees hbehind hplace hback.lt).bind fun _ final hfinal hthere => ?_) fun _ => ?_
      · cases first.or found with
        | none => exact .complain hfinal _
        | some operand => exact .pure hfinal ⟨⟨by omega, by omega⟩, fun h => by have := hprogress h; omega⟩
      · cases first.or found with
        | none => exact .complain hbehind _
        | some operand => exact .pure hbehind ⟨⟨by omega, by omega⟩, fun _ => by omega⟩
    | _ => exact .unexpected hbehind _ _

lemma commands_agrees {turns bound : Nat} (hturns : source.items.length - cursor.place ≤ turns)
    (hbound : source.items.length - cursor.place ≤ bound) (context : String) {ending : Kind}
    (hending : ending ≠ .eof ∧ ending ≠ .mistake) :
    Agrees source (fun _ after => source.Reaches (cursor.place + 1) after)
      (commands inner context ending turns source cursor)
      (Template.commands inner' context ending bound source.name (source.view cursor)) := by
  induction turns generalizing cursor bound with
  | zero => have := hreaches.lt; omega
  | succ turns ih =>
    obtain ⟨bound, rfl⟩ : ∃ count, bound = count + 1 := ⟨bound - 1, by have := hreaches.lt; omega⟩
    unfold commands Template.commands
    refine (nextWord_agrees hvalid hsound hreaches.lt).bind fun item after hafter hitem => ?_
    obtain ⟨place, hfirst, rfl, hplace⟩ := hitem
    have hle := hfirst.le
    have hlow := hreaches.le
    refine .ite (fun hkind => ?_) fun _ => .ite (fun hstarts => ?_) fun _ => .unexpected hafter _ _
    · have hlt := hvalid.behind_of_kind hfirst.lt hkind hending
      exact .pure hafter ⟨by omega, by omega⟩
    · refine (backup_agrees hafter hplace hfirst.lt).bind fun _ back hback hthere => .read (.getState ?_)
      subst hthere
      have hlength := source.length_view back
      refine (command_agrees hvalid hinner hback ⟨by omega, hfirst.lt⟩ (by have := hvalid.turns; omega)
        (by omega) none).bind fun found last hlast hfound => ?_
      have hprogress := hfound.2 hstarts
      refine (ih hlast ⟨by omega, hfound.1.lt⟩ (by omega) (by omega)).bind fun _ final hfinal hend => ?_
      exact .pure hfinal (hend.mono (by omega))

lemma pipelineWith_agrees (context : String) {ending : Kind} (hending : ending ≠ .eof ∧ ending ≠ .mistake) :
    Agrees source (fun _ after => source.Reaches (cursor.place + 1) after)
      (pipelineWith inner context ending source cursor)
      (Template.pipelineWith inner' context ending source.name (source.view cursor)) := by
  have hturns := hvalid.turns
  have hready := hreaches.lt
  have hlow := hreaches.le
  unfold pipelineWith Template.pipelineWith
  refine .read ((declarations_agrees hvalid hsound hready (by omega) rfl context).bind
    fun _ after hafter hdeclared => .read (.getState ?_))
  have hle := hdeclared.le
  have hlength := source.length_view after
  refine (commands_agrees hvalid hinner hafter ⟨by omega, hdeclared.lt⟩ (by omega) (by omega) context hending).bind
    fun found last hlast hfound => ?_
  exact (checkStages_agrees hlast context found).mono fun _ _ hsame => (hfound.of_place hsame).mono (by omega)

end Commands

/-- Each pipeline in parentheses is behind one of them more. -/
lemma parenthesized_agrees (hvalid : source.Valid) {turns depth : Nat}
    (hturns : source.items.length - (low + 1) ≤ turns) (hdepth : source.items.length - (low + 1) ≤ depth) :
    source.AgreesBehind low (parenthesized turns) (Template.parenthesized depth) := by
  induction turns generalizing low depth with
  | zero =>
    intro cursor _ hreaches
    have := hreaches.le.trans_lt hreaches.lt
    omega
  | succ turns ih =>
    intro cursor hsound hreaches
    have hle := hreaches.le
    have hlt := hreaches.lt
    obtain ⟨depth, rfl⟩ : ∃ count, depth = count + 1 := ⟨depth - 1, by omega⟩
    have hinner : source.AgreesBehind cursor.place (parenthesized turns) (Template.parenthesized depth) :=
      ih (by omega) (by omega)
    refine (pipelineWith_agrees hvalid hinner hsound ⟨le_rfl, hlt⟩ _ (by decide)).mono fun _ after hafter => ?_
    exact hafter.mono (Nat.le_succ _)

lemma pipeline_agrees (hvalid : source.Valid) (hsound : source.Sound cursor)
    (hready : cursor.place < source.items.length) (context : String) :
    Agrees source (fun _ after => source.Reaches cursor.place after) (pipeline context source cursor)
      (Template.pipeline context source.name (source.view cursor)) := by
  have hlength := source.length_view cursor
  have hinner : source.AgreesBehind cursor.place (parenthesized source.turns)
      (Template.parenthesized (source.view cursor).items.length) :=
    parenthesized_agrees hvalid (by have := hvalid.turns; omega) (by omega)
  refine .read (.getState ?_)
  refine (pipelineWith_agrees hvalid hinner hsound ⟨le_rfl, hready⟩ context (by decide)).mono fun _ after hafter => ?_
  exact hafter.mono (Nat.le_succ _)

end Pipelines

end QueryScope.Template.Guarded
