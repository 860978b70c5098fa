import QueryScope.Proofs.TemplateItems
import QueryScope.Proofs.TemplateNesting

/-!
# Runs of template checks

A check goes past one text, action or definition after another. Each of them does what its mark says to the open
structures and to the variables that may be used, and a check that ends well is outside of all structures then.
-/

namespace QueryScope.Template

/-! ## Items of actions -/

lemma marks_eq_of_passes {items rest : List Item} (h : Passes items rest) : marks items = marks rest := by
  induction h with
  | refl => rfl
  | skip hkind _ ih => rw [marks, if_neg hkind, ih, Option.toList_none, List.nil_append]
  | finish => rfl

lemma InOrder.passes {items rest : List Item} (h : Passes items rest) (horder : InOrder items) : InOrder rest := by
  induction h with
  | refl => exact horder
  | skip _ _ ih => exact ih horder.tail
  | finish line => exact List.isChain_singleton _

/-- How many items there are before the end. -/
def weight (items : List Item) : Nat :=
  items.countP (·.kind ≠ .eof)

lemma weight_le_of_passes {items rest : List Item} (h : Passes items rest) : weight rest ≤ weight items := by
  induction h with
  | refl => exact le_rfl
  | @skip item items rest _ _ ih =>
    have hcons : weight items ≤ weight (item :: items) := (List.sublist_cons_self item items).countP_le
    exact ih.trans hcons
  | finish => exact le_rfl

lemma weight_lt_cons {item : Item} (hkind : item.kind ≠ .eof) (items : List Item) :
    weight items < weight (item :: items) := by
  rw [weight, weight, List.countP_cons_of_pos (by simpa using hkind)]
  exact Nat.lt_succ_self _

/-- The keyword of a control structure. -/
def Control.keyword : Control → Keyword
  | ifBranch => .ifBranch
  | withScope => .withScope
  | rangeLoop => .rangeLoop

lemma Control.keyword_inj {kind other : Control} (h : kind.keyword = other.keyword) : kind = other := by
  cases kind <;> cases other <;> simp_all [Control.keyword]

lemma mark?_keyword (kind : Control) (behind : List Item) : kind.keyword.mark? behind = some (.control kind) := by
  cases kind <;> rfl

lemma keyword?_cons_keyword {item : Item} {word : Keyword} (h : item.kind = .keyword word) (items : List Item) :
    keyword? (item :: items) = some (word, items) := by
  rw [keyword?, afterSpaces_cons (by simp [h])]
  simp [h]

lemma keyword?_cons_none {item : Item} (hspace : item.kind ≠ .space) (h : ∀ word, item.kind ≠ .keyword word)
    (items : List Item) : keyword? (item :: items) = none := by
  rw [keyword?, afterSpaces_cons hspace]
  dsimp only
  split
  · exact absurd ‹_› (h _)
  · rfl

lemma mark?_cons_keyword {item : Item} {word : Keyword} (h : item.kind = .keyword word) (items : List Item) :
    mark? (item :: items) = word.mark? items := by
  rw [mark?, keyword?_cons_keyword h, Option.bind_some]

lemma TakesWord.kind_ne_space {s s' : State} {item : Item} (h : TakesWord s item s') : item.kind ≠ .space := by
  rcases h.items with hitems | ⟨-, -, line, rfl⟩
  · exact Template.kind_ne_space hitems
  · simp

/-- Blanks in front of an item do not matter to the keyword that comes next. -/
lemma TakesWord.keyword?_eq {s s' : State} {item : Item} (h : TakesWord s item s') :
    keyword? s.items = keyword? (item :: s'.items) := by
  have hspace := h.kind_ne_space
  rcases h.items with hitems | ⟨hnil, hafter, line, rfl⟩
  · rw [keyword?, keyword?, afterSpaces_cons hspace, show afterSpaces s.items = item :: s'.items from hitems]
  · rw [keyword?, keyword?, afterSpaces_cons hspace, show afterSpaces s.items = [] from hnil]

/-! ## Steps -/

/-- An action with the mark is the header of a loop. -/
def startsLoop (mark : Option Mark) : Bool :=
  decide (mark = some (.control .rangeLoop))

section Steps

variable {name : String} {s s' : State} {u : Unit}

lemma openMain_eq_ok {kind : Control} {saved : List String} (h : openMain kind saved name s = .ok (u, s')) :
    Walks (decide (kind = .rangeLoop)) s.items s.vars s'.items s'.vars ∧
      s'.frames = .main kind saved :: s.frames ∧ s'.loops = loopsInside kind s.loops := by
  obtain ⟨_, m, hpipeline, h⟩ := bind_eq_ok_iff.1 h
  obtain rfl := modify_eq_ok_iff.1 h
  have hword : decide (kind.word = "range") = decide (kind = .rangeLoop) := by cases kind <;> rfl
  have hkeeps := keeps_pipeline _ hpipeline
  refine ⟨hword ▸ hkeeps.walks, by rw [← hkeeps.frames], ?_⟩
  rw [← hkeeps.loops]
  rfl

lemma openNamed_eq_ok {kind : Named} (h : openNamed kind name s = .ok (u, s')) :
    s'.items = s.items ∧ s'.vars = ["$"] ∧ s'.frames = .named kind s.vars s.loops :: s.frames ∧ s'.loops = 0 := by
  obtain ⟨state, m, hget, h⟩ := bind_eq_ok_iff.1 h
  obtain ⟨rfl, rfl⟩ := get_eq_ok_iff.1 hget
  obtain rfl := set_eq_ok_iff.1 h
  exact ⟨rfl, rfl, rfl, rfl⟩

lemma close_eq_ok {outer : List String} (h : close name s = .ok (u, s')) :
    s'.items = s.items ∧ Turns outer s.vars (some .closes) s.frames s.loops s'.frames s'.loops s'.vars := by
  obtain ⟨state, m, hget, h⟩ := bind_eq_ok_iff.1 h
  obtain ⟨rfl, rfl⟩ := get_eq_ok_iff.1 hget
  cases hframes : s.frames with
  | nil =>
    rw [hframes] at h
    exact absurd h complain_ne_ok
  | cons frame frames =>
    rw [hframes] at h
    cases frame with
    | named kind saved loops =>
      obtain rfl := set_eq_ok_iff.1 h
      exact ⟨rfl, .closesNamed kind saved⟩
    | main kind saved =>
      obtain rfl := set_eq_ok_iff.1 h
      exact ⟨rfl, .closesMain kind saved⟩
    | other saved =>
      obtain rfl := set_eq_ok_iff.1 h
      exact ⟨rfl, .closesOther saved⟩

/-- The item that comes next decides whether `else` leads to the second body or to a further condition. -/
lemma alternate_eq_ok (h : alternate name s = .ok (u, s')) :
    ∃ kind saved frames item m, s.frames = .main kind saved :: frames ∧ Takes s item m ∧
      (kind ≠ .rangeLoop ∧ item.kind = .keyword kind.keyword ∧ Walks false m.items s.vars s'.items s'.vars ∧
          s'.frames = .main kind saved :: frames ∧ s'.loops = s.loops ∨
        (kind = .rangeLoop ∨ item.kind ≠ .keyword kind.keyword) ∧ s'.items = item :: m.items ∧ s'.vars = s.vars ∧
          s'.frames = .other saved :: frames ∧ s'.loops = loopsBehind kind s.loops) := by
  obtain ⟨state, m, hget, h⟩ := bind_eq_ok_iff.1 h
  obtain ⟨rfl, rfl⟩ := get_eq_ok_iff.1 hget
  cases hframes : s.frames with
  | nil =>
    rw [hframes] at h
    exact absurd h complain_ne_ok
  | cons frame frames =>
    rw [hframes] at h
    cases frame with
    | named => exact absurd h complain_ne_ok
    | other => exact absurd h complain_ne_ok
    | main kind saved =>
      obtain ⟨_, m, hset, h⟩ := bind_eq_ok_iff.1 h
      obtain rfl := set_eq_ok_iff.1 hset
      obtain ⟨item, m, hpeek, h⟩ := bind_eq_ok_iff.1 h
      obtain ⟨m, htakes, rfl⟩ := takes_of_peek hpeek
      have htaken : Takes s item ⟨m.items, m.reached, s.vars, s.loops, m.actionLine, s.frames⟩ :=
        ⟨htakes.items, rfl, rfl, rfl⟩
      refine ⟨kind, saved, frames, item, _, rfl, htaken, ?_⟩
      by_cases hchained : item.kind = .keyword .ifBranch ∧ kind = .ifBranch ∨
          item.kind = .keyword .withScope ∧ kind = .withScope
      · rw [if_pos hchained] at h
        obtain ⟨_, place, hnext, hopen⟩ := bind_eq_ok_iff.1 h
        obtain ⟨again, hagain, -⟩ := map_eq_ok_iff.1 hnext
        have hpast := takes_of_next hagain
        obtain ⟨rfl, hplace⟩ := hpast.eq rfl
        obtain ⟨hwalks, hframes', hloops⟩ := openMain_eq_ok hopen
        have hkind : kind ≠ .rangeLoop ∧ again.kind = .keyword kind.keyword := by
          rcases hchained with ⟨hitem, rfl⟩ | ⟨hitem, rfl⟩
          · exact ⟨by decide, hitem⟩
          · exact ⟨by decide, hitem⟩
        rw [decide_eq_false hkind.1, hplace, hpast.vars, htakes.vars] at hwalks
        refine .inl ⟨hkind.1, hkind.2, hwalks, ?_, ?_⟩
        · rw [hframes', hpast.frames, htakes.frames]
        · rw [hloops, hpast.loops, htakes.loops, loopsInside, if_neg hkind.1, loopsBehind, if_neg hkind.1]
      · rw [if_neg hchained] at h
        obtain rfl := modify_eq_ok_iff.1 h
        refine .inr ⟨?_, rfl, htakes.vars, by rw [htakes.frames], htakes.loops⟩
        cases kind with
        | ifBranch => exact .inr fun hitem => hchained (.inl ⟨hitem, rfl⟩)
        | withScope => exact .inr fun hitem => hchained (.inr ⟨hitem, rfl⟩)
        | rangeLoop => exact .inl rfl

end Steps

/-- What an action with a mark has done to open structures, a count of loops and the variables `outer`, its flow
apart. Behind its pipeline the variables are `vars`. -/
inductive Does (outer : List String) (mark : Option Mark) (frames : List Frame) (loops : Nat) :
    Flow → (vars : List String) → State → Prop
  | turns {vars : List String} {s : State} (h : Turns outer vars mark frames loops s.frames s.loops s.vars) :
      Does outer mark frames loops .stays vars s
  | closes {s : State} (hmark : mark = some .closes) (hframes : s.frames = frames) (hloops : s.loops = loops) :
      Does outer mark frames loops .closes s.vars s
  | otherwise {s : State} (hmark : mark = some .plainElse)
      (hhead : ∀ item ∈ s.items.head?, ∀ word, item.kind ≠ .keyword word) (hframes : s.frames = frames)
      (hloops : s.loops = loops) : Does outer mark frames loops .alternates s.vars s
  | chained {s : State} (kind : Control) {item : Item} (hmark : mark = some (.elseControl kind))
      (hhead : s.items.head? = some item) (hitem : item.kind = .keyword kind.keyword)
      (hframes : s.frames = frames) (hloops : s.loops = loops) : Does outer mark frames loops .alternates s.vars s

/-- How a check passes over the inside of an action that has the mark. An end holds no variables. -/
structure Inside (mark : Option Mark) (items : List Item) (vars : List String) (rest : List Item)
    (vars' : List String) : Prop where
  walks : Walks (startsLoop mark) items vars rest vars'
  ends : mark = some .closes → Walks false items [] rest []

section Inside

variable {mark : Option Mark} {items items' rest : List Item} {vars vars' vars'' : List String}

lemma Inside.of_ne (hmark : mark ≠ some .closes) (h : Walks (startsLoop mark) items vars rest vars') :
    Inside mark items vars rest vars' :=
  ⟨h, fun hends => absurd hends hmark⟩

lemma Inside.trans (h : Inside mark items vars items' vars') (hmark : mark ≠ some .closes)
    (hrest : Walks false items' vars' rest vars'') : Inside mark items vars rest vars'' :=
  .of_ne hmark (h.walks.trans hrest.mono)

end Inside

/-- Where the check succeeds behind the first item of an action, it does what the mark of the action says. -/
def Acts (item : Item) (x : Check Flow) : Prop :=
  ∀ ⦃name : String⦄ ⦃s : State⦄ ⦃flow : Flow⦄ ⦃s' : State⦄, InOrder s.items → x name s = .ok (flow, s') →
    ∃ vars, Inside (mark? (item :: s.items)) (item :: s.items) s.vars s'.items vars ∧
      Does s.vars (mark? (item :: s.items)) s.frames s.loops flow vars s'

section Acts

variable {item : Item}

lemma walks_keyword {inRange : Bool} {word : Keyword} {items rest : List Item} {vars vars' : List String}
    (hitem : item.kind = .keyword word) (h : Walks inRange items vars rest vars') :
    Walks inRange (item :: items) vars rest vars' :=
  .skip (by simp [hitem]) (by simp [hitem]) h

lemma acts_of_keeps {x : Check Unit} (hx : Keeps false x) {word : Keyword} (hitem : item.kind = .keyword word)
    (hword : ∀ items, word.mark? items = none) : Acts item (x >>= fun _ => pure .stays) := by
  intro name s flow s' _ h
  obtain ⟨_, m, hm, h⟩ := bind_eq_ok_iff.1 h
  obtain ⟨rfl, rfl⟩ := pure_eq_ok_iff.1 h
  have hkeeps := hx hm
  rw [mark?_cons_keyword hitem, hword]
  refine ⟨m.vars, .of_ne nofun (walks_keyword hitem hkeeps.walks), .turns ?_⟩
  rw [hkeeps.frames, hkeeps.loops]
  exact .stays

lemma acts_block (hitem : item.kind = .keyword .block) : Acts item (do
    clauseName "block clause"
    pipeline "block clause"
    openNamed .block
    return .stays) := by
  intro name s flow s' _ h
  obtain ⟨_, place, hname, h⟩ := bind_eq_ok_iff.1 h
  obtain ⟨_, m, hpipeline, h⟩ := bind_eq_ok_iff.1 h
  obtain ⟨_, behind, hopen, h⟩ := bind_eq_ok_iff.1 h
  obtain ⟨rfl, rfl⟩ := pure_eq_ok_iff.1 h
  have hkeeps : Advances false s m := (keeps_clauseName _ hname).trans (keeps_pipeline "block clause" hpipeline)
  obtain ⟨hitems, hvars, hframes, hloops⟩ := openNamed_eq_ok hopen
  rw [mark?_cons_keyword hitem]
  refine ⟨m.vars, .of_ne (by simp [Keyword.mark?]) (walks_keyword hitem (hitems ▸ hkeeps.walks)), .turns ?_⟩
  rw [hframes, hloops, hvars, hkeeps.frames, hkeeps.loops]
  exact .block

lemma acts_loopControl {word : Keyword} {goesOn : Bool} (hitem : item.kind = .keyword word)
    (hword : ∀ items, word.mark? items = some (.jump goesOn)) (text : String) :
    Acts item (loopControl text >>= fun _ => pure .stays) := by
  intro name s flow s' _ h
  obtain ⟨_, m, hcontrol, h⟩ := bind_eq_ok_iff.1 h
  obtain ⟨rfl, rfl⟩ := pure_eq_ok_iff.1 h
  obtain ⟨hadvances, hloops⟩ := loopControl_eq_ok hcontrol
  rw [mark?_cons_keyword hitem, hword]
  refine ⟨m.vars, .of_ne (by simp) (walks_keyword hitem hadvances.walks), .turns ?_⟩
  rw [hadvances.frames, hadvances.loops]
  exact .jumps goesOn hloops

lemma acts_openMain (kind : Control) (hitem : item.kind = .keyword kind.keyword) : Acts item (do
    openMain kind (← get).vars
    return .stays) := by
  intro name s flow s' _ h
  obtain ⟨state, m, hget, h⟩ := bind_eq_ok_iff.1 h
  obtain ⟨rfl, rfl⟩ := get_eq_ok_iff.1 hget
  obtain ⟨_, m, hopen, h⟩ := bind_eq_ok_iff.1 h
  obtain ⟨rfl, rfl⟩ := pure_eq_ok_iff.1 h
  obtain ⟨hwalks, hframes, hloops⟩ := openMain_eq_ok hopen
  have hloop : startsLoop (some (.control kind)) = decide (kind = .rangeLoop) := by simp [startsLoop]
  rw [mark?_cons_keyword hitem, mark?_keyword]
  refine ⟨m.vars, .of_ne (by simp) (hloop ▸ walks_keyword hitem hwalks), .turns ?_⟩
  rw [hframes, hloops]
  exact .control kind

lemma acts_end (hitem : item.kind = .keyword .endMark) : Acts item (do
    expectClosing "end"
    return .closes) := by
  intro name s flow s' _ h
  obtain ⟨_, m, hclosing, h⟩ := bind_eq_ok_iff.1 h
  obtain ⟨rfl, rfl⟩ := pure_eq_ok_iff.1 h
  obtain ⟨closing, htakes, hkind⟩ := expectClosing_eq_ok hclosing
  have hwalks (vars : List String) : Walks false (item :: s.items) vars m.items vars :=
    walks_keyword hitem (htakes.walks (by simp [hkind]) (by simp [hkind]) vars)
  refine ⟨m.vars, ⟨?_, fun _ => hwalks []⟩, .closes (mark?_cons_keyword hitem _) htakes.frames htakes.loops⟩
  rw [htakes.vars]
  exact (hwalks s.vars).mono

lemma acts_else (hitem : item.kind = .keyword .elseBranch) : Acts item (do
    let word ← peekWord
    if word.kind ≠ .keyword .ifBranch ∧ word.kind ≠ .keyword .withScope then expectClosing "else"
    return .alternates) := by
  intro name s flow s' horder h
  obtain ⟨word, m, hpeek, h⟩ := bind_eq_ok_iff.1 h
  have hlook : Advances false s m := keeps_peekWord hpeek
  obtain ⟨m, htakes, rfl⟩ := takesWord_of_peekWord hpeek
  have hkeyword := htakes.keyword?_eq
  have hmark := mark?_cons_keyword hitem s.items
  by_cases hplain : word.kind ≠ .keyword .ifBranch ∧ word.kind ≠ .keyword .withScope
  · rw [if_pos hplain] at h
    obtain ⟨_, behind, hclosing, h⟩ := bind_eq_ok_iff.1 h
    obtain ⟨rfl, rfl⟩ := pure_eq_ok_iff.1 h
    have hkeeps := hlook.trans (keeps_expectClosing _ hclosing)
    obtain ⟨closing, hclosing, hkind⟩ := expectClosing_eq_ok hclosing
    obtain ⟨rfl, hitems⟩ := hclosing.eq rfl htakes.kind_ne_space
    -- The end of the action stands right before what follows, so that is no keyword.
    have hfollows := (List.isChain_cons.1 (horder.passes hlook.items)).1
    have helse : mark? (item :: s.items) = some .plainElse := by
      rw [hmark, Keyword.mark?, hkeyword, keyword?_cons_none htakes.kind_ne_space (by simp [hkind])]
      rfl
    rw [helse]
    refine ⟨behind.vars, .of_ne nofun (walks_keyword hitem hkeeps.walks), .otherwise rfl ?_ hkeeps.frames hkeeps.loops⟩
    rw [hitems]
    exact fun next hnext => (hfollows next hnext).2 hkind
  · rw [if_neg hplain] at h
    obtain ⟨rfl, rfl⟩ := pure_eq_ok_iff.1 h
    obtain ⟨kind, hkind, helse⟩ : ∃ kind : Control, word.kind = .keyword kind.keyword ∧
        mark? (item :: s.items) = some (.elseControl kind) := by
      by_cases hif : word.kind = .keyword .ifBranch
      · refine ⟨.ifBranch, hif, ?_⟩
        rw [hmark, Keyword.mark?, hkeyword, keyword?_cons_keyword hif]
        rfl
      · have hwith : word.kind = .keyword .withScope := by tauto
        refine ⟨.withScope, hwith, ?_⟩
        rw [hmark, Keyword.mark?, hkeyword, keyword?_cons_keyword hwith]
        rfl
    rw [helse]
    exact ⟨m.vars, .of_ne (by simp) (walks_keyword hitem hlook.walks.mono),
      .chained kind rfl rfl hkind hlook.frames hlook.loops⟩

/-- A definition inside another structure is no pipeline, so it is refused with the other commands. -/
lemma acts_command (hspace : item.kind ≠ .space) : Acts item (do
    unread item
    pipeline "command"
    return .stays) := by
  intro name s flow s' _ h
  obtain ⟨_, m, hunread, h⟩ := bind_eq_ok_iff.1 h
  obtain rfl := unread_eq_ok_iff.1 hunread
  obtain ⟨_, m, hpipeline, h⟩ := bind_eq_ok_iff.1 h
  obtain ⟨rfl, rfl⟩ := pure_eq_ok_iff.1 h
  have hkeeps := keeps_pipeline _ hpipeline
  have hkeyword := kind_ne_keyword_of_pipeline hpipeline (afterSpaces_cons hspace s.items)
  rw [mark?, keyword?_cons_none hspace hkeyword]
  refine ⟨m.vars, .of_ne nofun hkeeps.walks, .turns ?_⟩
  rw [hkeeps.frames, hkeeps.loops]
  exact .stays

/-- The item that decides what an action does stands behind blanks. -/
lemma Acts.word {f : Item → Check Flow} (hf : ∀ item, item.kind ≠ .space → Acts item (f item)) {name : String}
    {s s' : State} {flow : Flow} (horder : InOrder s.items) (h : (nextWord >>= f) name s = .ok (flow, s')) :
    ∃ vars, Inside (mark? s.items) s.items s.vars s'.items vars ∧
      Does s.vars (mark? s.items) s.frames s.loops flow vars s' := by
  obtain ⟨item, m, hitem, h⟩ := bind_eq_ok_iff.1 h
  have htakes := takesWord_of_nextWord hitem
  have hlead : Advances (startsLoop (mark? s.items)) s _ := htakes.unread
  obtain ⟨vars, hinside, hdoes⟩ := hf item htakes.kind_ne_space (horder.passes hlead.items).tail h
  rw [mark?, ← htakes.keyword?_eq, ← mark?, htakes.vars, htakes.frames, htakes.loops] at hdoes
  rw [mark?, ← htakes.keyword?_eq, ← mark?] at hinside
  exact ⟨vars, ⟨hlead.walks.trans hinside.walks, fun hends => (htakes.lead []).trans (hinside.ends hends)⟩, hdoes⟩

end Acts

lemma action_eq_ok {name : String} {s s' : State} {flow : Flow} (h : action name s = .ok (flow, s'))
    (horder : InOrder s.items) :
    ∃ vars, Inside (mark? s.items) s.items s.vars s'.items vars ∧
      Does s.vars (mark? s.items) s.frames s.loops flow vars s' := by
  unfold action at h
  refine Acts.word (fun item hspace => ?_) horder h
  dsimp only
  split
  case h_1 hitem => exact acts_block hitem
  case h_2 hitem => exact acts_loopControl hitem (fun _ => rfl) _
  case h_3 hitem => exact acts_loopControl hitem (fun _ => rfl) _
  case h_4 hitem => exact acts_else hitem
  case h_5 hitem => exact acts_end hitem
  case h_6 hitem => exact acts_openMain .ifBranch hitem
  case h_7 hitem => exact acts_openMain .rangeLoop hitem
  case h_8 hitem => exact acts_openMain .withScope hitem
  case h_9 hitem => exact acts_of_keeps keeps_templateCall hitem fun _ => rfl
  case h_10 => exact acts_command hspace

/-! ## Texts, actions and definitions -/

/-- The items start with a text, or with an action that has the mark, and the rest is what is left. -/
inductive Leads : Option Mark → List Item → List String → List Item → List String → Prop
  | text {item : Item} {items rest : List Item} {vars : List String} (hlead : afterSpaces items = item :: rest)
      (hitem : item.kind = .text) : Leads none items vars rest vars
  | action {item : Item} {items inner rest : List Item} {vars vars' : List String}
      (hlead : afterSpaces items = item :: inner) (hitem : item.kind = .opening)
      (h : Inside (mark? inner) inner vars rest vars') : Leads (mark? inner) items vars rest vars'

section Leads

variable {mark : Option Mark} {items items' rest rest' : List Item} {vars vars' vars'' : List String}

lemma passes_afterSpaces (items : List Item) : Passes items (afterSpaces items) := by
  have hwalks : Walks false items [] (afterSpaces items) [] := walks_afterSpaces items
  exact hwalks.passes

lemma Leads.marks (h : Leads mark items vars rest vars') : marks items = mark.toList ++ Template.marks rest := by
  rw [marks_eq_of_passes (passes_afterSpaces items)]
  cases h with
  | text hlead hitem => rw [hlead, Template.marks, if_neg (by simp [hitem])]
  | action hlead hitem h => rw [hlead, Template.marks, if_pos hitem, marks_eq_of_passes h.walks.passes]

lemma Leads.order (h : Leads mark items vars rest vars') (horder : InOrder items) : InOrder rest := by
  have hbehind := horder.passes (passes_afterSpaces items)
  cases h with
  | text hlead =>
    rw [hlead] at hbehind
    exact hbehind.tail
  | action hlead _ h =>
    rw [hlead] at hbehind
    exact InOrder.passes h.walks.passes hbehind.tail

/-- A round uses up an item before the end. -/
lemma Leads.weight_lt (h : Leads mark items vars rest vars') : weight rest < weight items := by
  have hbehind := weight_le_of_passes (passes_afterSpaces items)
  cases h with
  | text hlead hitem =>
    rw [hlead] at hbehind
    exact (weight_lt_cons (by simp [hitem]) rest).trans_le hbehind
  | action hlead hitem h =>
    rw [hlead] at hbehind
    exact (weight_le_of_passes h.walks.passes).trans_lt ((weight_lt_cons (by simp [hitem]) _).trans_le hbehind)

lemma Leads.trans {wanted : Mark} (h : Leads (some wanted) items vars rest vars') (hwanted : wanted ≠ .closes)
    (hrest : Walks false rest vars' rest' vars'') : Leads (some wanted) items vars rest' vars'' := by
  generalize hmark : some wanted = mark at h
  cases h with
  | text => cases hmark
  | action hlead hitem h =>
    exact hmark ▸ .action hlead hitem (h.trans (by rw [← hmark]; simpa using hwanted) hrest)

end Leads

/-- A check has looked at what comes next, blanks apart. -/
structure Looks (before after : State) : Prop where
  items : afterSpaces after.items = afterSpaces before.items ∨ ∃ line, after.items = [⟨.eof, [], line⟩]
  vars : after.vars = before.vars
  frames : after.frames = before.frames
  loops : after.loops = before.loops

lemma Takes.looks {s m : State} {item : Item} (h : Takes s item m) : Looks s { m with items := item :: m.items } := by
  refine ⟨?_, h.vars, h.frames, h.loops⟩
  rcases h.items with hitems | ⟨-, hm, line, rfl⟩
  · exact .inl (by rw [hitems])
  · exact .inr ⟨line, by rw [hm]⟩

lemma TakesWord.looks {s m : State} {item : Item} (h : TakesWord s item m) :
    Looks s { m with items := item :: m.items } := by
  refine ⟨?_, h.vars, h.frames, h.loops⟩
  rcases h.items with hitems | ⟨-, hm, line, rfl⟩
  · exact .inl ((afterSpaces_cons h.kind_ne_space m.items).trans (Eq.symm hitems))
  · exact .inr ⟨line, by rw [hm]⟩

/-- A keyword outside of actions comes next inside a structure, where no check goes on. -/
def Stuck (s : State) : Prop :=
  s.frames ≠ [] ∧ ∃ item word, s.items.head? = some item ∧ item.kind = .keyword word

/-- A text, an action or a definition has been gone past, and the structures are open that its mark leaves open;
or no check goes on. -/
def Moves (s s' : State) : Prop :=
  ∃ mark vars, Leads mark s.items s.vars s'.items vars ∧
    (Turns s.vars vars mark s.frames s.loops s'.frames s'.loops s'.vars ∨ Stuck s')

lemma Moves.behind {s m s' : State} (hlooks : Looks s m) (h : Moves m s') : Moves s s' := by
  obtain ⟨mark, vars, hleads, hturns⟩ := h
  rw [hlooks.frames, hlooks.loops, hlooks.vars] at hturns
  rw [hlooks.vars] at hleads
  -- Behind the end there is neither a text nor an action.
  have hsame {item : Item} {rest : List Item} (hlead : afterSpaces m.items = item :: rest)
      (hitem : item.kind ≠ .eof) : afterSpaces s.items = item :: rest := by
    rcases hlooks.items with hsame | ⟨line, hend⟩
    · rw [← hsame, hlead]
    · rw [hend, afterSpaces_cons (by simp)] at hlead
      rw [← (List.cons.inj hlead).1] at hitem
      exact absurd rfl hitem
  refine ⟨mark, vars, ?_, hturns⟩
  cases hleads with
  | text hlead hitem => exact .text (hsame hlead (by simp [hitem])) hitem
  | action hlead hitem h => exact .action (hsame hlead (by simp [hitem])) hitem h

section Runs

variable {name : String} {s s' : State} {u : Unit}

/-- Behind `else` a check goes to the second body or to a further condition of the same kind. Behind a
condition of another kind it is stuck. -/
lemma turns_of_alternate {outer vars : List String} {mark : Option Mark} {frames : List Frame} {loops : Nat}
    (hdoes : Does outer mark frames loops .alternates vars s) (h : alternate name s = .ok (u, s')) :
    ∃ vars', Walks false s.items vars s'.items vars' ∧
      (Turns outer vars' mark frames loops s'.frames s'.loops s'.vars ∨ Stuck s') := by
  obtain ⟨kind, saved, below, item, m, hmain, htakes, hnext⟩ := alternate_eq_ok h
  have hlead : Advances false s _ := htakes.unread
  cases hdoes with
  | otherwise hmark hhead hframes hloops =>
    obtain ⟨-, hitem, -⟩ | ⟨-, hitems, hvars, hframes', hloops'⟩ := hnext
    · rcases htakes.items with hitems | ⟨-, -, line, rfl⟩
      · exact absurd hitem (hhead item (by simp [hitems]) _)
      · cases hitem
    · refine ⟨s.vars, hitems ▸ htakes.vars ▸ hlead.walks, .inl ?_⟩
      rw [hmark, ← hframes, ← hloops, hmain, hframes', hloops', hvars]
      exact .otherwise kind saved
  | chained wanted hmark hhead hfirst hframes hloops =>
    obtain ⟨rest, hrest⟩ := List.head?_eq_some_iff.1 hhead
    obtain ⟨rfl, hbehind⟩ := htakes.eq hrest
    obtain ⟨hkind, hitem, hwalks, hframes', hloops'⟩ | ⟨-, hitems, hvars, hframes', -⟩ := hnext
    · have hwanted : wanted = kind := by
        rw [hfirst] at hitem
        exact Control.keyword_inj (Kind.keyword.inj hitem)
      have hpast : Walks false s.items s.vars m.items s.vars :=
        (htakes.vars ▸ hlead.walks).trans (.skip (by simp [hitem]) (by simp [hitem]) (.refl _ _))
      refine ⟨s'.vars, hpast.trans hwalks, .inl ?_⟩
      rw [hmark, ← hframes, ← hloops, hmain, hframes', hloops', hwanted]
      exact .chained saved hkind
    · refine ⟨s.vars, hitems ▸ htakes.vars ▸ hlead.walks, .inr ⟨by simp [hframes'], item, _, by simp [hitems], hfirst⟩⟩

lemma textOrAction_eq_ok (h : textOrAction name s = .ok (u, s')) (horder : InOrder s.items) : Moves s s' := by
  obtain ⟨item, m, hitem, h⟩ := bind_eq_ok_iff.1 h
  have htakes := takesWord_of_nextWord hitem
  have hlead : Advances false s { m with items := item :: m.items } := htakes.unread
  have horder' := horder.passes hlead.items
  have hspace := htakes.kind_ne_space
  refine Moves.behind htakes.looks ?_
  cases hkind : item.kind with
  | text =>
    rw [hkind] at h
    obtain ⟨-, rfl⟩ := pure_eq_ok_iff.1 h
    exact ⟨none, m.vars, .text (afterSpaces_cons hspace _) hkind, .inl .stays⟩
  | opening =>
    rw [hkind] at h
    obtain ⟨_, place, hline, h⟩ := bind_eq_ok_iff.1 h
    obtain rfl := modify_eq_ok_iff.1 hline
    obtain ⟨state, place, hget, h⟩ := bind_eq_ok_iff.1 h
    obtain ⟨rfl, rfl⟩ := get_eq_ok_iff.1 hget
    obtain ⟨flow, behind, haction, h⟩ := bind_eq_ok_iff.1 h
    obtain ⟨vars, hinside, hdoes⟩ := action_eq_ok haction horder'.tail
    dsimp only at hinside hdoes
    refine ⟨mark? m.items, ?_⟩
    cases flow with
    | stays =>
      cases hdoes with
      | turns hturns =>
        refine ⟨vars, ?_⟩
        obtain ⟨state, place, hget, h⟩ := bind_eq_ok_iff.1 h
        obtain ⟨rfl, rfl⟩ := get_eq_ok_iff.1 hget
        split_ifs at h
        · obtain rfl := modify_eq_ok_iff.1 h
          exact ⟨.action (afterSpaces_cons hspace _) hkind hinside, .inl hturns⟩
        · obtain ⟨-, rfl⟩ := pure_eq_ok_iff.1 h
          exact ⟨.action (afterSpaces_cons hspace _) hkind hinside, .inl hturns⟩
    | closes =>
      cases hdoes with
      | closes hmark hframes hloops =>
        obtain ⟨_, place, hline, h⟩ := bind_eq_ok_iff.1 h
        obtain rfl := modify_eq_ok_iff.1 hline
        obtain ⟨hsame, hturns⟩ := close_eq_ok h
        refine ⟨behind.vars, .action (afterSpaces_cons hspace _) hkind (hsame ▸ hinside), .inl ?_⟩
        dsimp only
        rw [← hframes, ← hloops, hmark]
        exact hturns
    | alternates =>
      obtain ⟨_, place, hline, h⟩ := bind_eq_ok_iff.1 h
      obtain rfl := modify_eq_ok_iff.1 hline
      have hdoes' : Does m.vars (mark? m.items) m.frames m.loops .alternates vars { behind with actionLine := 0 } := by
        cases hdoes with
        | otherwise hmark hhead hframes hloops =>
          exact .otherwise (s := { behind with actionLine := 0 }) hmark hhead hframes hloops
        | chained kind hmark hhead hitem hframes hloops =>
          exact .chained (s := { behind with actionLine := 0 }) kind hmark hhead hitem hframes hloops
      have hmark : mark? m.items ≠ some .closes := by
        cases hdoes with
        | otherwise hmark => simp [hmark]
        | chained kind hmark => simp [hmark]
      obtain ⟨vars', hrest, hturns⟩ := turns_of_alternate hdoes' h
      exact ⟨vars', .action (afterSpaces_cons hspace _) hkind (hinside.trans hmark hrest), hturns⟩
  | _ =>
    rw [hkind] at h
    exact absurd h unexpected_ne_ok

lemma Stuck.textOrAction_ne_ok (hstuck : Stuck s) : textOrAction name s ≠ .ok (u, s') := by
  intro h
  obtain ⟨-, item, word, hhead, hkind⟩ := hstuck
  obtain ⟨items, hitems⟩ := List.head?_eq_some_iff.1 hhead
  obtain ⟨first, m, hfirst, h⟩ := bind_eq_ok_iff.1 h
  obtain ⟨rfl, -⟩ := (takesWord_of_nextWord hfirst).eq hitems (by simp [hkind])
  rw [hkind] at h
  exact unexpected_ne_ok h

lemma startsDefinition_eq_ok {found : Bool} (h : startsDefinition name s = .ok (found, s')) :
    s'.vars = s.vars ∧ s'.frames = s.frames ∧ s'.loops = s.loops ∧
      if found then Leads (some (.named .define)) s.items s.vars s'.items s.vars else s'.items = s.items := by
  obtain ⟨state, place, hget, h⟩ := bind_eq_ok_iff.1 h
  obtain ⟨rfl, rfl⟩ := get_eq_ok_iff.1 hget
  obtain ⟨item, m, hitem, h⟩ := bind_eq_ok_iff.1 h
  have htakes := takes_of_next hitem
  cases hkind : item.kind with
  | opening =>
    rw [hkind] at h
    obtain ⟨word, behind, hword, h⟩ := bind_eq_ok_iff.1 h
    have hbehind := takesWord_of_nextWord hword
    by_cases hdefine : word.kind = .keyword .define
    · rw [if_pos hdefine] at h
      obtain ⟨rfl, rfl⟩ := pure_eq_ok_iff.1 h
      have hitems : s.items = item :: m.items := by
        rcases htakes.items with hitems | ⟨-, -, line, rfl⟩
        · exact hitems
        · cases hkind
      have hmark : mark? m.items = some (.named .define) := by
        rw [mark?, hbehind.keyword?_eq, ← mark?, mark?_cons_keyword hdefine]
        rfl
      have hwalks : Walks (startsLoop (mark? m.items)) m.items s.vars behind.items s.vars :=
        hbehind.walks (by simp [hdefine]) (by simp [hdefine]) s.vars
      refine ⟨hbehind.vars.trans htakes.vars, hbehind.frames.trans htakes.frames,
        hbehind.loops.trans htakes.loops, ?_⟩
      rw [if_pos rfl, ← hmark, hitems]
      exact .action (afterSpaces_cons (by simp [hkind]) _) hkind (.of_ne (by simp [hmark]) hwalks)
    · rw [if_neg hdefine] at h
      obtain ⟨_, place, hback, h⟩ := bind_eq_ok_iff.1 h
      obtain rfl := modify_eq_ok_iff.1 hback
      obtain ⟨rfl, rfl⟩ := pure_eq_ok_iff.1 h
      exact ⟨hbehind.vars.trans htakes.vars, hbehind.frames.trans htakes.frames, hbehind.loops.trans htakes.loops, rfl⟩
  | _ =>
    rw [hkind] at h
    obtain ⟨_, place, hback, h⟩ := bind_eq_ok_iff.1 h
    obtain rfl := modify_eq_ok_iff.1 hback
    obtain ⟨rfl, rfl⟩ := pure_eq_ok_iff.1 h
    exact ⟨htakes.vars, htakes.frames, htakes.loops, rfl⟩

lemma openDefinition_eq_ok (h : openDefinition name s = .ok (u, s')) :
    ∃ vars, Walks false s.items s.vars s'.items vars ∧ s'.vars = ["$"] ∧
      s'.frames = .named .define vars s.loops :: s.frames ∧ s'.loops = 0 := by
  obtain ⟨_, place, hname, h⟩ := bind_eq_ok_iff.1 h
  obtain ⟨_, m, hclosing, h⟩ := bind_eq_ok_iff.1 h
  have hkeeps : Advances false s m := (keeps_clauseName _ hname).trans (keeps_expectClosing _ hclosing)
  obtain ⟨hitems, hvars, hframes, hloops⟩ := openNamed_eq_ok h
  refine ⟨m.vars, hitems ▸ hkeeps.walks, hvars, ?_, hloops⟩
  rw [hframes, hkeeps.frames, hkeeps.loops]

/-- No item is left, or only the one that says so. -/
def AtEnd (items : List Item) : Prop :=
  items = [] ∨ ∃ item, items = [item] ∧ item.kind = .eof

lemma AtEnd.marks {items : List Item} (h : AtEnd items) : marks items = [] := by
  rcases h with rfl | ⟨item, rfl, hkind⟩
  · rfl
  · simp [Template.marks, hkind]

/-- Nothing follows the end. -/
lemma atEnd_of_takes {item : Item} (horder : InOrder s.items) (h : Takes s item s') (hkind : item.kind = .eof) :
    AtEnd s.items := by
  rcases h.items with hitems | ⟨hitems, -⟩
  · rw [hitems] at horder ⊢
    cases hrest : s'.items with
    | nil => exact .inr ⟨item, rfl, hkind⟩
    | cons next rest =>
      rw [hrest] at horder
      exact absurd hkind ((List.isChain_cons_cons.1 horder).1).1
  · exact .inl hitems

/-- One round of a check: whether it goes on, behind a text, an action or a definition. -/
def round : Check Bool := do
  if (← get).frames.isEmpty then
    if (← peek).kind = .eof then return false
    if ← startsDefinition then openDefinition else textOrAction
  else
    if (← peekWord).kind = .eof then complain "unexpected EOF"
    textOrAction
  return true

lemma ite_bind {α β : Type} {c : Prop} [Decidable c] (x y : Check α) (f : α → Check β) :
    (if c then x else y) >>= f = if c then x >>= f else y >>= f :=
  apply_ite (· >>= f) c x y

lemma checkRest_succ (bound : Nat) :
    checkRest (bound + 1) = round >>= fun goesOn => if goesOn then checkRest bound else pure () := by
  unfold round
  rw [checkRest]
  simp only [bind_assoc, ite_bind, pure_bind, if_true, Bool.false_eq_true, if_false]

lemma round_eq_ok {goesOn : Bool} (h : round name s = .ok (goesOn, s')) (horder : InOrder s.items) :
    if goesOn then Moves s s' else s.frames = [] ∧ AtEnd s.items := by
  have hgoes {m : State} (horder' : InOrder m.items) (hlooks : Looks s m)
      (hm : (textOrAction >>= fun _ => pure true) name m = .ok (goesOn, s')) : goesOn = true ∧ Moves s s' := by
    obtain ⟨_, behind, htext, hpure⟩ := bind_eq_ok_iff.1 hm
    obtain ⟨rfl, rfl⟩ := pure_eq_ok_iff.1 hpure
    exact ⟨rfl, (textOrAction_eq_ok htext horder').behind hlooks⟩
  obtain ⟨state, place, hget, h⟩ := bind_eq_ok_iff.1 h
  obtain ⟨rfl, rfl⟩ := get_eq_ok_iff.1 hget
  by_cases hframes : s.frames = []
  · rw [if_pos (by simp [hframes])] at h
    obtain ⟨item, m, hpeek, h⟩ := bind_eq_ok_iff.1 h
    have hlook : Advances false s m := keeps_peek hpeek
    obtain ⟨place, htakes, rfl⟩ := takes_of_peek hpeek
    by_cases heof : item.kind = .eof
    · rw [if_pos heof] at h
      obtain ⟨rfl, rfl⟩ := pure_eq_ok_iff.1 h
      exact ⟨hframes, atEnd_of_takes horder htakes heof⟩
    · rw [if_neg heof] at h
      obtain ⟨found, m, hstarts, h⟩ := bind_eq_ok_iff.1 h
      obtain ⟨hvars, hsame, hloops, hfound⟩ := startsDefinition_eq_ok hstarts
      cases found with
      | true =>
        obtain ⟨_, behind, hopen, h⟩ := bind_eq_ok_iff.1 h
        obtain ⟨rfl, rfl⟩ := pure_eq_ok_iff.1 h
        obtain ⟨vars, hwalks, hvars', hdefine, hnone⟩ := openDefinition_eq_ok hopen
        have hleads : Leads (some (.named .define)) (item :: place.items) place.vars m.items place.vars := hfound
        refine Moves.behind htakes.looks ⟨_, vars, hleads.trans nofun (hvars ▸ hwalks), .inl ?_⟩
        rw [hdefine, hnone, hvars', hsame, hloops, hlook.frames, hframes]
        exact .define
      | false =>
        have hitems : m.items = item :: place.items := hfound
        have hlooks : Looks s m := ⟨hitems ▸ htakes.looks.items, hvars.trans htakes.vars,
          hsame.trans htakes.frames, hloops.trans htakes.loops⟩
        obtain ⟨rfl, hmoves⟩ := hgoes (hitems ▸ horder.passes hlook.items) hlooks h
        exact hmoves
  · rw [if_neg (by simpa using hframes)] at h
    obtain ⟨item, m, hpeek, h⟩ := bind_eq_ok_iff.1 h
    have hlook : Advances false s m := keeps_peekWord hpeek
    obtain ⟨place, htakes, rfl⟩ := takesWord_of_peekWord hpeek
    obtain ⟨-, h⟩ := (guard_eq_ok_iff fun _ => complain_ne_ok).1 h
    obtain ⟨rfl, hmoves⟩ := hgoes (horder.passes hlook.items) htakes.looks h
    exact hmoves

lemma Stuck.round_ne_ok {goesOn : Bool} (hstuck : Stuck s) : round name s ≠ .ok (goesOn, s') := by
  intro h
  obtain ⟨state, place, hget, h⟩ := bind_eq_ok_iff.1 h
  obtain ⟨rfl, rfl⟩ := get_eq_ok_iff.1 hget
  rw [if_neg (by simpa using hstuck.1)] at h
  obtain ⟨item, m, hpeek, h⟩ := bind_eq_ok_iff.1 h
  obtain ⟨-, h⟩ := (guard_eq_ok_iff fun _ => complain_ne_ok).1 h
  obtain ⟨_, behind, htext, -⟩ := bind_eq_ok_iff.1 h
  obtain ⟨place, htakes, rfl⟩ := takesWord_of_peekWord hpeek
  refine Stuck.textOrAction_ne_ok ?_ htext
  obtain ⟨hframes, first, word, hhead, hkind⟩ := hstuck
  obtain ⟨items, hitems⟩ := List.head?_eq_some_iff.1 hhead
  obtain ⟨rfl, -⟩ := htakes.eq hitems (by simp [hkind])
  exact ⟨htakes.frames ▸ hframes, item, word, rfl, hkind⟩

end Runs

/-! ## Whole checks -/

/-- A check that ends well goes past the items, one text or action after another, and is at their end outside of
all structures. -/
inductive Run : State → Prop
  | done {s : State} (hframes : s.frames = []) (hend : AtEnd s.items) : Run s
  | step {s m : State} {mark : Option Mark} {vars : List String} (hleads : Leads mark s.items s.vars m.items vars)
      (hturns : Turns s.vars vars mark s.frames s.loops m.frames m.loops m.vars) (hrest : Run m) : Run s

section Whole

variable {name : String} {s s' : State} {u : Unit}

lemma run_of_checkRest {bound : Nat} (h : checkRest bound name s = .ok (u, s')) (hbound : weight s.items < bound)
    (horder : InOrder s.items) : Run s := by
  induction bound generalizing s with
  | zero => exact absurd hbound (Nat.not_lt_zero _)
  | succ bound ih =>
    rw [checkRest_succ] at h
    obtain ⟨goesOn, m, hround, h⟩ := bind_eq_ok_iff.1 h
    have hstep := round_eq_ok hround horder
    cases goesOn with
    | false => exact .done hstep.1 hstep.2
    | true =>
      obtain ⟨mark, vars, hleads, hturns⟩ := hstep
      have hless : weight m.items < bound := Nat.lt_of_lt_of_le hleads.weight_lt (Nat.le_of_lt_succ hbound)
      rcases hturns with hturns | hstuck
      · exact .step hleads hturns (ih h hless (hleads.order horder))
      · obtain ⟨bound, rfl⟩ := Nat.exists_eq_succ_of_ne_zero (Nat.ne_zero_of_lt hless)
        rw [if_pos rfl, checkRest_succ] at h
        obtain ⟨_, place, hnext, -⟩ := bind_eq_ok_iff.1 h
        exact absurd hnext hstuck.round_ne_ok

end Whole

/-- Where a check of items begins. -/
def start (vars : List String) (items : List Item) : State :=
  { items, reached := (items.head?.map Item.line).getD 1, vars, loops := 0, actionLine := 0, frames := [] }

lemma checkItems_eq (name : String) (vars : List String) (items : List Item) :
    checkItems name vars items = (checkRest (items.length + 1) name (start vars items)).map (·.1) :=
  rfl

lemma run_of_checkItems {name : String} {vars : List String} {items : List Item}
    (h : checkItems name vars items = .ok ()) (horder : InOrder items) : Run (start vars items) := by
  -- Each round of the check uses up an item before the end, so the bound is never reached.
  have hbound : weight items < items.length + 1 := Nat.lt_succ_of_le List.countP_le_length
  cases hrest : checkRest (items.length + 1) name (start vars items) with
  | error e =>
    rw [checkItems_eq, hrest] at h
    cases h
  | ok result => exact run_of_checkRest hrest hbound horder

end QueryScope.Template
