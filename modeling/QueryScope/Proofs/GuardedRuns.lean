import QueryScope.Proofs.GuardedSteps

/-!
# Runs of checks with a position

Structures count loops, one more in each, and count them back where they are closed, where an `else` follows and where
a mistake ends the check inside of them. Each round of a check takes an item at least, so a check ends.
-/

namespace QueryScope.Template.Guarded

section Structures

variable {source : Source} {cursor : Cursor}

lemma openNamed_agrees (hsound : source.Sound cursor) (kind : Named) :
    Agrees source (fun _ after => after.place = cursor.place) (openNamed kind source cursor)
      (Template.openNamed kind source.name (source.view cursor)) := by
  have hopen : source.Sound { cursor with
      vars := ["$"], loops := 0, frames := .named kind cursor.vars cursor.loops :: cursor.frames } :=
    ⟨hsound.seen, rfl, hsound.counted⟩
  exact .done hopen rfl

lemma setActionLine_agrees (hsound : source.Sound cursor) (line : Nat) :
    Agrees source (fun _ after => after.place = cursor.place) (setActionLine line source cursor)
      ((modify fun state => { state with actionLine := line } : Check Unit) source.name (source.view cursor)) := by
  have hset : source.Sound { cursor with actionLine := line } := ⟨hsound.seen, hsound.counted⟩
  exact .done hset rfl

/-- Behind the first body of a control structure there is a loop less, if it was one. -/
lemma loopsOutside_eq {kind : Control} {vars : List String} {frames : List Frame} {loops : Nat}
    (h : Counted (.main kind vars :: frames) loops) :
    loopsOutside kind loops = .ok (loopsBehind kind loops) ∧ Counted frames (loopsBehind kind loops) := by
  obtain ⟨outer, rfl, houter⟩ := h
  rw [loopsBehind_loopsInside]
  refine ⟨?_, houter⟩
  by_cases hkind : kind = .rangeLoop
  · simp [loopsOutside, loopsInside, hkind]
  · simp [loopsOutside, loopsInside, hkind]

lemma unwind_eq {frames : List Frame} {loops : Nat} (h : Counted frames loops) : unwind frames loops = .ok 0 := by
  induction frames generalizing loops with
  | nil => exact congrArg Except.ok h
  | cons frame frames ih =>
    cases frame with
    | named kind vars outer => exact ih h.2
    | main kind vars =>
      obtain ⟨houtside, houter⟩ := loopsOutside_eq h
      rw [unwind, houtside]
      exact ih houter
    | other vars => exact ih h

lemma close_agrees (hsound : source.Sound cursor) :
    Agrees source (fun _ after => after.place = cursor.place) (close source cursor)
      (Template.close source.name (source.view cursor)) := by
  obtain ⟨place, seen, vars, loops, actionLine, frames⟩ := cursor
  refine .getCursor (.getState ?_)
  cases frames with
  | nil => exact .complain hsound _
  | cons frame frames =>
    cases frame with
    | named kind outerVars outer =>
      have houter : source.Sound ⟨place, seen, outerVars, outer, actionLine, frames⟩ := ⟨hsound.seen, hsound.counted.2⟩
      exact .done houter rfl
    | main kind outerVars =>
      obtain ⟨houtside, hcounted⟩ := loopsOutside_eq hsound.counted
      have houter : source.Sound ⟨place, seen, outerVars, loopsBehind kind loops, actionLine, frames⟩ :=
        ⟨hsound.seen, hcounted⟩
      dsimp only
      rw [guarded_bind houtside]
      exact .done houter rfl
    | other outerVars =>
      have houter : source.Sound ⟨place, seen, outerVars, loops, actionLine, frames⟩ := ⟨hsound.seen, hsound.counted⟩
      exact .done houter rfl

/-- An action that has come to its end says what it does to the structure around it. -/
lemma Agrees.flow {low place : Nat} {flow : Flow} {x : Strict Unit} {y : Check Unit}
    (h : Agrees source (fun _ after => source.Reaches place after) (x source cursor)
      (y source.name (source.view cursor))) (hle : low ≤ place) :
    Agrees source (fun _ after => source.Reaches low after) ((x >>= fun _ => Pure.pure flow) source cursor)
      ((y >>= fun _ => Pure.pure flow) source.name (source.view cursor)) :=
  h.bind fun _ _ hafter hreaches => .pure hafter ⟨hle.trans hreaches.le, hreaches.lt⟩

end Structures

/-! ## Actions -/

section Actions

variable {source : Source} {cursor : Cursor} (hvalid : source.Valid) (hsound : source.Sound cursor)
  (hready : cursor.place < source.items.length)

include hvalid hsound hready

lemma clauseName_agrees (context : String) :
    Agrees source (fun _ after => source.Reaches cursor.place after) (clauseName context source cursor)
      (Template.clauseName context source.name (source.view cursor)) := by
  unfold clauseName Template.clauseName
  refine (nextWord_agrees hvalid hsound hready).bind fun item after hafter hitem => ?_
  obtain ⟨place, hfirst, rfl, hplace⟩ := hitem
  refine .guard (.unexpected hafter _ _) fun hkind => ?_
  have hbehind : place + 1 < source.items.length := by
    refine hvalid.behind hfirst.lt (fun h => hkind ?_) fun h => hkind ?_ <;> simp [h]
  refine (checkString_agrees hvalid hafter (Source.item_mem hfirst.lt)).mono fun _ last hlast => ?_
  exact ⟨by have := hfirst.le; omega, by omega⟩

lemma openMain_agrees (kind : Control) (vars : List String) :
    Agrees source (fun _ after => source.Reaches cursor.place after) (openMain kind vars source cursor)
      (Template.openMain kind vars source.name (source.view cursor)) := by
  refine (pipeline_agrees hvalid hsound hready kind.word).bind fun _ after hafter hreaches => ?_
  have hopen : source.Sound { after with
      loops := if kind = .rangeLoop then after.loops + 1 else after.loops
      frames := .main kind vars :: after.frames } :=
    ⟨hafter.seen, after.loops, rfl, hafter.counted⟩
  exact .done hopen ⟨hreaches.le, hreaches.lt⟩

lemma loopControl_agrees (word : String) :
    Agrees source (fun _ after => source.Reaches cursor.place after) (loopControl word source cursor)
      (Template.loopControl word source.name (source.view cursor)) := by
  unfold loopControl Template.loopControl
  refine (nextWord_agrees hvalid hsound hready).bind fun item after hafter hitem => ?_
  obtain ⟨place, hfirst, rfl, hplace⟩ := hitem
  refine .guard (.unexpected hafter _ _) fun hkind => .getCursor (.getState ?_)
  have hbehind := hvalid.behind_of_kind hfirst.lt (not_not.1 hkind) (by decide)
  exact .ite (fun _ => .complain hafter _) fun _ => .pure hafter ⟨by have := hfirst.le; omega, by omega⟩

lemma templateCall_agrees :
    Agrees source (fun _ after => source.Reaches cursor.place after) (templateCall source cursor)
      (Template.templateCall source.name (source.view cursor)) := by
  unfold templateCall Template.templateCall
  refine (clauseName_agrees hvalid hsound hready _).bind fun _ name hname hreaches => ?_
  refine (nextWord_agrees hvalid hname hreaches.lt).bind fun item after hafter hitem => ?_
  obtain ⟨place, hfirst, rfl, hplace⟩ := hitem
  have hle := hreaches.le.trans hfirst.le
  refine .ite (fun _ => ?_) fun hkind => ?_
  · refine (backup_agrees hafter hplace hfirst.lt).bind fun _ back hback hthere => ?_
    exact (pipeline_agrees hvalid hback (hthere ▸ hfirst.lt) _).mono fun _ _ hlast => hlast.mono (hthere ▸ hle)
  · have hbehind := hvalid.behind_of_kind hfirst.lt (not_not.1 hkind) (by decide)
    exact .pure hafter ⟨by omega, by omega⟩

lemma action_agrees :
    Agrees source (fun _ after => source.Reaches cursor.place after) (action source cursor)
      (Template.action source.name (source.view cursor)) := by
  unfold action Template.action
  refine (nextWord_agrees hvalid hsound hready).bind fun item after hafter hitem => ?_
  obtain ⟨place, hfirst, rfl, hplace⟩ := hitem
  have hlt := hfirst.lt
  have hle : cursor.place ≤ after.place := by have := hfirst.le; omega
  have hbehind {word : Keyword} (hkind : (source.item place).kind = .keyword word) :
      after.place < source.items.length :=
    hplace ▸ hvalid.behind hlt (by simp [hkind]) (by simp [hkind])
  cases hkind : (source.item place).kind with
  | keyword word =>
    have hword := hbehind hkind
    cases word with
    | block =>
      refine (clauseName_agrees hvalid hafter hword _).bind fun _ name hname hnameReaches => ?_
      refine (pipeline_agrees hvalid hname hnameReaches.lt _).bind fun _ body hbody hbodyReaches => ?_
      refine (openNamed_agrees hbody .block).bind fun _ last hlast hsame => .pure hlast ?_
      exact (hbodyReaches.of_place hsame).mono (hle.trans hnameReaches.le)
    | breakLoop => exact (loopControl_agrees hvalid hafter hword _).flow hle
    | continueLoop => exact (loopControl_agrees hvalid hafter hword _).flow hle
    | elseBranch =>
      refine (peekWord_agrees hvalid hafter hword).bind fun item before hbefore hitem => ?_
      obtain ⟨_, hnext, rfl, rfl⟩ := hitem
      have hnextLe := hle.trans hnext.le
      refine .ite (fun _ => ?_) fun _ => .pure hbefore ⟨hnextLe, hnext.lt⟩
      exact (expectClosing_agrees hvalid hbefore hnext.lt _).flow (hnextLe.trans (Nat.le_succ _))
    | endMark => exact (expectClosing_agrees hvalid hafter hword _).flow (hle.trans (Nat.le_succ _))
    | ifBranch => exact .getCursor (.getState ((openMain_agrees hvalid hafter hword _ _).flow hle))
    | rangeLoop => exact .getCursor (.getState ((openMain_agrees hvalid hafter hword _ _).flow hle))
    | withScope => exact .getCursor (.getState ((openMain_agrees hvalid hafter hword _ _).flow hle))
    | template => exact (templateCall_agrees hvalid hafter hword).flow hle
    | define =>
      refine (backup_agrees hafter hplace hlt).bind fun _ back hback hthere => ?_
      exact (pipeline_agrees hvalid hback (hthere ▸ hlt) _).flow (hthere ▸ hfirst.le)
  | _ =>
    refine (backup_agrees hafter hplace hlt).bind fun _ back hback hthere => ?_
    exact (pipeline_agrees hvalid hback (hthere ▸ hlt) _).flow (hthere ▸ hfirst.le)

lemma alternate_agrees :
    Agrees source (fun _ after => source.Reaches cursor.place after) (alternate source cursor)
      (Template.alternate source.name (source.view cursor)) := by
  obtain ⟨place, seen, vars, loops, actionLine, frames⟩ := cursor
  refine .getCursor (.getState ?_)
  cases frames with
  | nil => exact .complain hsound _
  | cons frame frames =>
    cases frame with
    | named kind outerVars outer => exact .complain hsound _
    | other outerVars => exact .complain hsound _
    | main kind outerVars =>
      obtain ⟨houtside, hcounted⟩ := loopsOutside_eq hsound.counted
      have houter : source.Sound ⟨place, seen, vars, loopsBehind kind loops, actionLine, frames⟩ :=
        ⟨hsound.seen, hcounted⟩
      dsimp only
      rw [guarded_bind houtside]
      refine (set_agrees houter).bind fun _ body hbody hsame => ?_
      subst hsame
      refine (peek_agrees hvalid hbody hready).bind fun item after hafter hitem => ?_
      obtain ⟨rfl, hplace⟩ := hitem
      have hthere : after.place < source.items.length := hplace ▸ hready
      refine .ite (fun hkind => ?_) fun _ => ?_
      · have hbehind : place + 1 < source.items.length := by
          rcases hkind with ⟨hkind, -⟩ | ⟨hkind, -⟩
          · exact hvalid.behind_of_kind hready hkind (by decide)
          · exact hvalid.behind_of_kind hready hkind (by decide)
        refine (next_agrees hvalid hafter hthere).discard.bind fun _ last hlast hnext => ?_
        obtain ⟨_, -, hnext⟩ := hnext
        have hlastPlace : last.place = place + 1 := by rw [hnext, hplace]
        refine (openMain_agrees hvalid hlast (hlastPlace ▸ hbehind) _ _).mono fun _ final hfinal => ?_
        exact hfinal.mono ((Nat.le_succ place).trans hlastPlace.ge)
      · have hopen : source.Sound { after with frames := .other outerVars :: after.frames } :=
          ⟨hafter.seen, hafter.counted⟩
        exact .done hopen ⟨hplace.ge, hthere⟩

lemma textOrAction_agrees :
    Agrees source (fun _ after => source.Reaches (cursor.place + 1) after) (textOrAction source cursor)
      (Template.textOrAction source.name (source.view cursor)) := by
  unfold textOrAction Template.textOrAction
  refine (nextWord_agrees hvalid hsound hready).bind fun item after hafter hitem => ?_
  obtain ⟨place, hfirst, rfl, hplace⟩ := hitem
  have hle : cursor.place + 1 ≤ after.place := hplace ▸ Nat.succ_le_succ hfirst.le
  cases hkind : (source.item place).kind with
  | text => exact .pure hafter ⟨hle, hplace ▸ hvalid.behind_of_kind hfirst.lt hkind (by decide)⟩
  | opening =>
    have hbehind := hvalid.behind_of_kind hfirst.lt hkind (by decide)
    refine (setActionLine_agrees hafter _).bind fun _ start hstart hsame => .getCursor (.getState ?_)
    refine (action_agrees hvalid hstart (by omega)).bind fun flow last hlast hreaches => ?_
    have hbehindItem : source.Reaches (cursor.place + 1) last := hreaches.mono (by omega)
    cases flow with
    | stays =>
      refine .getCursor (.getState (.ite (fun _ => ?_) fun _ => .pure hlast hbehindItem))
      exact (setActionLine_agrees hlast 0).mono fun _ _ hsame => hbehindItem.of_place hsame
    | closes =>
      refine (setActionLine_agrees hlast 0).bind fun _ before hbefore hbeforePlace => ?_
      exact (close_agrees hbefore).mono fun _ _ hsame => hbehindItem.of_place (hsame.trans hbeforePlace)
    | alternates =>
      refine (setActionLine_agrees hlast 0).bind fun _ before hbefore hbeforePlace => ?_
      have hbeforeReaches := hbehindItem.of_place hbeforePlace
      exact (alternate_agrees hvalid hbefore hbeforeReaches.lt).mono fun _ _ hfinal => hfinal.mono hbeforeReaches.le
  | _ => exact .unexpected hafter _ _

/-- A definition is entered behind its keyword. Otherwise the check goes back to where it stood. -/
lemma startsDefinition_agrees :
    Agrees source (fun found after => found = true ∧ source.Reaches (cursor.place + 1) after ∨
        found = false ∧ after.place = cursor.place)
      (startsDefinition source cursor) (Template.startsDefinition source.name (source.view cursor)) := by
  unfold startsDefinition Template.startsDefinition
  refine .getCursor (.getState ((next_agrees hvalid hsound hready).bind fun item after hafter hitem => ?_))
  obtain ⟨rfl, hplace⟩ := hitem
  cases hkind : (source.item cursor.place).kind with
  | opening =>
    have hbehind := hvalid.behind_of_kind hready hkind (by decide)
    refine (nextWord_agrees hvalid hafter (by omega)).bind fun item last hlast hitem => ?_
    obtain ⟨place, hfirst, rfl, hlastPlace⟩ := hitem
    refine .ite (fun hdefine => ?_) fun _ => ?_
    · have hdefineBehind := hvalid.behind_of_kind hfirst.lt hdefine (by decide)
      exact .pure hlast (.inl ⟨rfl, by have := hfirst.le; omega, by omega⟩)
    · exact (goTo_agrees hlast cursor).bind fun _ _ hback hsame => .pure hback (.inr ⟨rfl, hsame⟩)
  | _ => exact (goTo_agrees hafter cursor).bind fun _ _ hback hsame => .pure hback (.inr ⟨rfl, hsame⟩)

lemma openDefinition_agrees :
    Agrees source (fun _ after => source.Reaches cursor.place after) (openDefinition source cursor)
      (Template.openDefinition source.name (source.view cursor)) := by
  unfold openDefinition Template.openDefinition
  refine (clauseName_agrees hvalid hsound hready _).bind fun _ name hname hnameReaches => ?_
  refine (expectClosing_agrees hvalid hname hnameReaches.lt _).bind fun _ body hbody hreaches => ?_
  refine (openNamed_agrees hbody .define).mono fun _ after hsame => ?_
  exact (hreaches.of_place hsame).mono (hnameReaches.le.trans (Nat.le_succ _))

/-- Each round of a check takes an item. -/
lemma checkRest_agrees {turns bound : Nat} (hturns : source.items.length - cursor.place ≤ turns)
    (hbound : source.items.length - cursor.place ≤ bound) :
    Agrees source (fun _ _ => True) (checkRest turns source cursor)
      (Template.checkRest bound source.name (source.view cursor)) := by
  induction turns generalizing cursor bound with
  | zero => omega
  | succ turns ih =>
    obtain ⟨bound, rfl⟩ : ∃ count, bound = count + 1 := ⟨bound - 1, by omega⟩
    unfold checkRest Template.checkRest
    refine .getCursor (.getState (.ite (fun _ => ?_) fun _ => ?_))
    · refine (peek_agrees hvalid hsound hready).bind fun item after hafter hitem => ?_
      obtain ⟨rfl, hplace⟩ := hitem
      refine .ite (fun _ => .pure hafter trivial) fun _ => ?_
      refine (startsDefinition_agrees hvalid hafter (by omega)).bind fun found start hstart hfound => ?_
      rcases hfound with ⟨rfl, hreaches⟩ | ⟨rfl, hsame⟩
      · refine (openDefinition_agrees hvalid hstart hreaches.lt).bind fun _ last hlast hopen => ?_
        have hle := hreaches.le.trans hopen.le
        exact ih hlast hopen.lt (by omega) (by omega)
      · refine (textOrAction_agrees hvalid hstart (by omega)).bind fun _ last hlast hreaches => ?_
        have hle := hreaches.le
        exact ih hlast hreaches.lt (by omega) (by omega)
    · refine (peekWord_agrees hvalid hsound hready).bind fun item after hafter hitem => ?_
      obtain ⟨place, hfirst, rfl, rfl⟩ := hitem
      have hle := hfirst.le
      refine .guard (.complain hafter _) fun _ => ?_
      refine (textOrAction_agrees hvalid hafter hfirst.lt).bind fun _ last hlast hreaches => ?_
      have hlastLe := hreaches.le
      exact ih hlast hreaches.lt (by omega) (by omega)

end Actions

/-! ## Whole runs -/

/-- What the lexer gives is what a check relies on. -/
lemma valid_lex (name : String) {text : List Char} {turns : Nat} (hturns : text.length + 1 < turns) :
    Source.Valid ⟨name, lex text, turns⟩ where
  last := by
    intro place item hitem heof hmistake
    obtain ⟨inner, last, hlex, hlast⟩ := lex_eq_append text
    dsimp only at hitem ⊢
    rw [hlex] at hitem ⊢
    have hplace := (List.getElem?_eq_some_iff.1 hitem).1
    rw [List.length_append, List.length_singleton] at hplace ⊢
    rcases (Nat.le_of_lt_succ hplace).eq_or_lt with rfl | hlt
    · obtain rfl : last = item := by simpa using hitem
      exact (hlast.elim heof hmistake).elim
    · exact Nat.succ_lt_succ hlt
  lines := lines_itemsFrom
  strings := by
    intro item hitem hkind
    have hlength := length_text_le_of_mem_lex hitem (by simp [hkind])
    exact ⟨quotes_of_mem_lex hitem (.inl ⟨rfl, hkind⟩), hlength.trans_lt (Nat.lt_of_succ_lt hturns)⟩
  constants := by
    intro item hitem hkind
    obtain ⟨body, hbody⟩ := quotes_of_mem_lex hitem (.inr ⟨rfl, hkind⟩)
    exact ⟨body ++ ['\''], hbody⟩
  turns := by
    have hlength : (lex text).length ≤ text.length + 1 := length_itemsFrom_le
    exact hlength.trans_lt hturns

lemma view_start (name : String) {items : List Item} (hitems : items ≠ []) (turns : Nat) :
    Source.view ⟨name, items, turns⟩ ⟨0, 0, ["$"], 0, 0, []⟩ = start ["$"] items := by
  obtain ⟨first, rest, rfl⟩ := List.exists_cons_of_ne_nil hitems
  have hfirst : Source.item ⟨name, first :: rest, turns⟩ 0 = first := Source.item_eq rfl
  simp only [Source.view, hfirst]
  rfl

lemma checkRest_lex (name : String) {text : List Char} {turns : Nat} (hturns : text.length + 1 < turns) :
    Agrees ⟨name, lex text, turns⟩ (fun _ _ => True)
      (checkRest turns ⟨name, lex text, turns⟩ ⟨0, 0, ["$"], 0, 0, []⟩)
      (Template.checkRest ((lex text).length + 1) name (start ["$"] (lex text))) := by
  have hvalid := valid_lex name hturns
  have hne : lex text ≠ [] := by
    obtain ⟨inner, last, hlex, -⟩ := lex_eq_append text
    simp [hlex]
  have hready := List.length_pos_of_ne_nil hne
  have hsound : Source.Sound ⟨name, lex text, turns⟩ ⟨0, 0, ["$"], 0, 0, []⟩ := ⟨hready, rfl⟩
  rw [← view_start name hne turns]
  exact checkRest_agrees hvalid hsound hready hvalid.turns.le (Nat.le_succ _)

lemma outcome_eq {source : Source} {post : Unit → Cursor → Prop} {x : Except Stop (Unit × Cursor)}
    {y : Except TemplateError (Unit × State)} (h : Agrees source post x y) : outcome x = .ok (y.map (·.1)) := by
  cases h with
  | done => rfl
  | mistake hcounted _ =>
    rw [outcome, unwind_eq hcounted]
    rfl

/-- With enough turns a check with a position gives what the check gives. -/
lemma check_eq (name text : String) {turns : Nat} (hturns : text.toList.length + 1 < turns) :
    check turns name text = .ok (Template.check name text) := by
  have hlex : guardedFrom .text 0 1 text.toList = .ok (lex text.toList) := guardedFrom_eq .text 0 1 text.toList
  rw [check, hlex]
  exact outcome_eq (checkRest_lex name hturns)

/-- An error stands on the line of an item. -/
lemma Agrees.exists_item {source : Source} {post : Unit → Cursor → Prop} {x : Except Stop (Unit × Cursor)}
    {y : Except TemplateError (Unit × State)} {error : TemplateError} (h : Agrees source post x y)
    (herror : y.map (·.1) = .error error) : ∃ item ∈ source.items, error.line = item.line := by
  cases h with
  | done => cases herror
  | mistake _ hline =>
    obtain rfl := Except.error.inj herror
    exact hline

end QueryScope.Template.Guarded

namespace QueryScope.Template

/-- A check of a template ends with a result, whatever its name and its text are. In no loop does it turn more often
than there are characters, apart from two turns; no count falls below zero and no cut is without a meaning, neither in
the lexer nor in the check. An error stands on a line of the text. -/
theorem check_meets_no_breach (name text : String) :
    (∀ turns, text.toList.length + 1 < turns → Guarded.check turns name text = .ok (check name text)) ∧
      ∀ error, check name text = .error error → 1 ≤ error.line ∧ error.line ≤ 1 + lineEnds text.toList := by
  refine ⟨fun turns hturns => Guarded.check_eq name text hturns, fun error herror => ?_⟩
  have hrun := Guarded.checkRest_lex name (Nat.lt_succ_self (text.toList.length + 1))
  obtain ⟨item, hitem, hline⟩ := hrun.exists_item herror
  rw [hline]
  exact line_of_mem_lex hitem

/-- A loop that is not closed, with letters of two bytes in its body. -/
def openLoopSample : String :=
  "\x7b\x7brange .\x7d\x7d\n\x7b\x7b\"\\u00e9é\" | ('é')\x7d\x7d"

theorem open_loop_meets_no_breach :
    check "page" openLoopSample = .error ⟨"page", 2, "unexpected EOF"⟩ ∧
      Guarded.check 40 "page" openLoopSample = .ok (check "page" openLoopSample) ∧
      2 ≤ 1 + lineEnds openLoopSample.toList := by
  have hcheck : check "page" openLoopSample = .error ⟨"page", 2, "unexpected EOF"⟩ := by
    decide +kernel
  obtain ⟨hruns, hlines⟩ := check_meets_no_breach "page" openLoopSample
  exact ⟨hcheck, hruns 40 (by decide +kernel), (hlines _ hcheck).2⟩

end QueryScope.Template
