import QueryScope.Proofs.RenamedQueries
import QueryScope.Proofs.StandInTable

/-!
# The names of variables do not matter

Two runs over a query and over the query with other names for its variables: each looks at the parts around a
variable, never into one, so that both find the same places.
-/

namespace QueryScope.Variable

/-! ## Places -/

section Places

variable (f : Variable → Variable)

@[simp]
lemma Piece.isWordChar_rename (p : Piece) : (p.rename f).isWordChar = p.isWordChar := by
  cases p <;> rfl

@[simp]
lemma Piece.isVariable_rename (p : Piece) : (p.rename f).isVariable = p.isVariable := by
  cases p <;> rfl

@[simp]
lemma Piece.isGlue_rename (p : Piece) : (p.rename f).isGlue = p.isGlue := by
  cases p <;> rfl

@[simp]
lemma Piece.isBlank_rename (p : Piece) : (p.rename f).isBlank = p.isBlank := by
  cases p <;> rfl

lemma Piece.rename_eq_char_iff {p : Piece} {c : Char} : p.rename f = .char c ↔ p = .char c := by
  cases p <;> simp [Piece.rename]

@[simp]
lemma Piece.is_rename (c : Char) (p : Piece) : (p.rename f).is c = p.is c := by
  simp [Piece.is, Piece.rename_eq_char_iff]

lemma dropBlankPieces_rename (parts : List Piece) :
    dropBlankPieces (parts.map (Piece.rename f)) = (dropBlankPieces parts).map (Piece.rename f) := by
  rw [dropBlankPieces, List.dropWhile_map]
  congr 2
  funext p
  exact Piece.isBlank_rename f p

lemma map_rename_eq_chars_iff {parts : List Piece} {word : List Char} :
    parts.map (Piece.rename f) = word.map Piece.char ↔ parts = word.map Piece.char := by
  induction parts generalizing word with
  | nil => cases word <;> simp
  | cons p parts ih => cases word <;> simp [Piece.rename_eq_char_iff, ih]

lemma endsWithWord_rename (word : String) (before : List Piece) :
    endsWithWord word (before.map (Piece.rename f)) = endsWithWord word before := by
  have hglue : Piece.isWordChar ∘ Piece.rename f = Piece.isWordChar := funext (Piece.isWordChar_rename f)
  rw [endsWithWord, endsWithWord, dropBlankPieces_rename, List.takeWhile_map, hglue]
  exact decide_eq_decide.2 (map_rename_eq_chars_iff f)

lemma endsWithMatcher_rename (before : List Piece) :
    endsWithMatcher (before.map (Piece.rename f)) = endsWithMatcher before := by
  have hname (rest : List Piece) : (dropBlankPieces (rest.map (Piece.rename f))).head?.any Piece.isWordChar =
      (dropBlankPieces rest).head?.any Piece.isWordChar := by
    rw [dropBlankPieces_rename, List.head?_map, Option.any_map]
    simp only [Piece.isWordChar_rename]
  -- Only code characters are compared, and renaming keeps them: by cases on the last two parts.
  rw [endsWithMatcher, endsWithMatcher, dropBlankPieces_rename]
  generalize dropBlankPieces before = parts
  rcases parts with _ | ⟨_ | _ | _, rest⟩
  · rfl
  · next c =>
    by_cases hequal : c = '='
    · subst hequal
      rcases rest with _ | ⟨_ | _ | _, rest⟩
      · rfl
      · next d =>
        by_cases hd : d ∈ ['!', '=', '<', '>', '|']
        · simp only [List.mem_cons, List.not_mem_nil, or_false] at hd
          rcases hd with rfl | rfl | rfl | rfl | rfl
          · exact hname rest
          · rfl
          · rfl
          · rfl
          · rfl
        · simp only [List.mem_cons, List.not_mem_nil, or_false, not_or] at hd
          simpa [Piece.rename, hd] using hname (.char d :: rest)
      · exact hname (_ :: rest)
      · exact hname (_ :: rest)
    · by_cases htilde : c = '~'
      · subst htilde
        rcases rest with _ | ⟨_ | _ | _, rest⟩
        · rfl
        · next d =>
          by_cases hd : d ∈ ['!', '=']
          · simp only [List.mem_cons, List.not_mem_nil, or_false] at hd
            rcases hd with rfl | rfl
            · exact hname rest
            · exact hname rest
          · simp only [List.mem_cons, List.not_mem_nil, or_false, not_or] at hd
            simp [Piece.rename, hd]
        · rfl
        · rfl
      · simp [Piece.rename, hequal, htilde]
  · rfl
  · rfl

lemma any_is_rename (c : Char) (parts : List Piece) :
    (parts.map (Piece.rename f)).any (Piece.is c) = parts.any (Piece.is c) := by
  rw [List.any_map]
  congr 1
  exact funext (Piece.is_rename f c)

lemma clauseHeader?_rename (keyword : String) (parts : List Piece) :
    clauseHeader? keyword (parts.map (Piece.rename f)) = clauseHeader? keyword parts := by
  have hblank : Piece.isBlank ∘ Piece.rename f = Piece.isBlank := funext (Piece.isBlank_rename f)
  have htake : (parts.map (Piece.rename f)).take keyword.toList.length = keyword.toList.map Piece.char ↔
      parts.take keyword.toList.length = keyword.toList.map Piece.char := by
    rw [← List.map_take, map_rename_eq_chars_iff]
  simp only [clauseHeader?, ← List.map_drop, List.takeWhile_map, hblank, List.head?_map, Option.any_map,
    Piece.isWordChar_rename, List.length_map, List.drop_drop, htake]
  congr 1
  generalize parts.drop _ = behind
  rcases behind with _ | ⟨_ | _ | _, rest⟩
  · rfl
  · next c =>
    by_cases hc : c = '('
    · subst hc
      simp only [List.map_cons, Piece.rename, any_is_rename]
    · simp [Piece.rename, hc]
  · rfl
  · rfl

lemma grouped_rename (state : ClauseState) (parts : List Piece) :
    grouped state (parts.map (Piece.rename f)) = grouped state parts := by
  induction parts generalizing state with
  | nil => cases state <;> rfl
  | cons p parts ih =>
    cases state with
    | inside => simp only [List.map_cons, grouped, Piece.is_rename, ih]
    | header left => simp only [List.map_cons, grouped, ih]
    | outside glued =>
      have hheader (keyword : String) :
          clauseHeader? keyword (p.rename f :: parts.map (Piece.rename f)) = clauseHeader? keyword (p :: parts) :=
        clauseHeader?_rename f keyword (p :: parts)
      simp only [List.map_cons, grouped, hheader, Piece.isGlue_rename, ih]

lemma codeVerdict_rename (inGrouping : Bool) (before after : List Piece) :
    codeVerdict inGrouping (before.map (Piece.rename f)) (after.map (Piece.rename f)) =
      codeVerdict inGrouping before after := by
  have hglue : Piece.isGlue ∘ Piece.rename f = Piece.isGlue := funext (Piece.isGlue_rename f)
  have hword : Piece.isWordChar ∘ Piece.rename f = Piece.isWordChar := funext (Piece.isWordChar_rename f)
  simp only [codeVerdict, List.takeWhile_map, List.dropWhile_map, hglue, dropBlankPieces_rename, List.head?_map,
    List.any_map, hword, Option.any_map, List.getLast?_map, Option.all_map, Piece.is_rename, Piece.isVariable_rename,
    Piece.isBlank_rename, endsWithWord_rename, endsWithMatcher_rename]

lemma literalContext_rename (body : List Inner) (closed : Bool) (before : List Piece) :
    literalContext (body.map (Inner.rename f)) closed (before.map (Piece.rename f)) =
      literalContext body closed before := by
  rcases body with _ | ⟨_ | v, _ | ⟨part, body⟩⟩
  · rfl
  · rfl
  · rfl
  · simp only [List.map_cons, List.map_nil, Inner.rename, literalContext, endsWithMatcher_rename]
  · rfl

end Places

/-! ## Two runs -/

/-- The use of the variable with its other name in the same place. -/
def Occurrence.Renamed (f : Variable → Variable) (o o' : Occurrence) : Prop :=
  o'.var = f o.var ∧ o'.context = o.context

/-- The error of the same kind about the same variable of the parts, which has its other name and starts behind the
other names of the variables before it. -/
def PositionError.Renamed (f : Variable → Variable) (parts : List Piece) (e e' : PositionError) : Prop :=
  ∃ before after, parts = before ++ .var e.var :: after ∧ e.offset = byteLength (before.flatMap Piece.chars) ∧
    e' = ⟨e.misplacement, f e.var, byteLength ((before.map (Piece.rename f)).flatMap Piece.chars)⟩

/-- Two runs both succeed, or both fail. -/
inductive Corresponds {α : Type} (result : α → α → Prop) (error : PositionError → PositionError → Prop) :
    Except PositionError α → Except PositionError α → Prop
  | ok {a a' : α} (h : result a a') : Corresponds result error (.ok a) (.ok a')
  | error {e e' : PositionError} (h : error e e') : Corresponds result error (.error e) (.error e')

section Corresponds

variable {α β : Type} {result : α → α → Prop} {error : PositionError → PositionError → Prop}
  {run run' : Except PositionError α}

lemma Corresponds.map {result' : β → β → Prop} {g g' : α → β} (h : Corresponds result error run run')
    (hg : ∀ a a', run = .ok a → result a a' → result' (g a) (g' a')) :
    Corresponds result' error (do return g (← run)) (do return g' (← run')) := by
  cases h with
  | ok h => exact .ok (hg _ _ rfl h)
  | error h => exact .error h

lemma Corresponds.exists_ok {a : α} (h : Corresponds result error (.ok a) run) : ∃ a', run = .ok a' ∧ result a a' := by
  cases h with
  | ok h => exact ⟨_, rfl, h⟩

lemma Corresponds.exists_error {e : PositionError} (h : Corresponds result error (.error e) run) :
    ∃ e', run = .error e' ∧ error e e' := by
  cases h with
  | error h => exact ⟨_, rfl, h⟩

end Corresponds

section Runs

variable {f : Variable → Variable}

lemma byteLength_flatMap_reverse (parts : List Piece) :
    byteLength (parts.reverse.flatMap Piece.chars) = byteLength (parts.flatMap Piece.chars) := by
  induction parts with
  | nil => rfl
  | cons p parts ih =>
    rw [List.reverse_cons, List.flatMap_append, byteLength_append, ih, List.flatMap_singleton, List.flatMap_cons,
      byteLength_append, Nat.add_comm]

lemma literalOccurrences_rename (context : Context) (offset offset' : Nat) (body : List Inner) :
    List.Forall₂ (Occurrence.Renamed f) (literalOccurrences context offset body)
      (literalOccurrences context offset' (body.map (Inner.rename f))) := by
  induction body generalizing offset offset' with
  | nil => exact .nil
  | cons part body ih =>
    cases part with
    | char c => exact ih _ _
    | var v => exact .cons ⟨rfl, rfl⟩ (ih _ _)

lemma byteLength_sub_takeWhile (q : Piece → Bool) (parts : List Piece) :
    byteLength (parts.flatMap Piece.chars) - byteLength ((parts.takeWhile q).flatMap Piece.chars) =
      byteLength ((parts.dropWhile q).flatMap Piece.chars) := by
  have hparts : byteLength (parts.flatMap Piece.chars) = byteLength ((parts.takeWhile q).flatMap Piece.chars) +
      byteLength ((parts.dropWhile q).flatMap Piece.chars) := by
    rw [← byteLength_append, ← List.flatMap_append, List.takeWhile_append_dropWhile]
  omega

/-- The variable that leads a name is a part of the query, and the parts before it give its place. -/
lemma leadOf_rename (v : Variable) (before after : List Piece) :
    ∃ lead front back, before.reverse ++ .var v :: after = front ++ .var lead :: back ∧
      leadOf v (byteLength (before.flatMap Piece.chars)) before = (lead, byteLength (front.flatMap Piece.chars)) ∧
      leadOf (f v) (byteLength ((before.map (Piece.rename f)).flatMap Piece.chars)) (before.map (Piece.rename f)) =
        (f lead, byteLength ((front.map (Piece.rename f)).flatMap Piece.chars)) := by
  have hglue : Piece.isGlue ∘ Piece.rename f = Piece.isGlue := funext (Piece.isGlue_rename f)
  simp only [leadOf, byteLength_sub_takeWhile]
  simp only [List.takeWhile_map, List.dropWhile_map, hglue, List.getLast?_map]
  by_cases hlast : ∃ lead, (before.takeWhile Piece.isGlue).getLast? = some (.var lead)
  · obtain ⟨lead, hlast⟩ := hlast
    obtain ⟨left, hleft⟩ := List.getLast?_eq_some_iff.1 hlast
    refine ⟨lead, (before.dropWhile Piece.isGlue).reverse, left.reverse ++ .var v :: after, ?_, ?_⟩
    · have hbefore : left ++ [.var lead] ++ before.dropWhile Piece.isGlue = before := by
        rw [← hleft, List.takeWhile_append_dropWhile]
      nth_rewrite 1 [← hbefore]
      simp
    · rw [hlast, List.map_reverse, byteLength_flatMap_reverse, byteLength_flatMap_reverse]
      exact ⟨rfl, rfl⟩
  · refine ⟨v, before.reverse, after, rfl, ?_⟩
    rw [List.map_reverse, byteLength_flatMap_reverse, byteLength_flatMap_reverse]
    rcases h : (before.takeWhile Piece.isGlue).getLast? with _ | ⟨c⟩ | ⟨lead⟩ | ⟨quote, body, closed⟩
    · exact ⟨rfl, rfl⟩
    · exact ⟨rfl, rfl⟩
    · exact absurd ⟨lead, h⟩ hlast
    · exact ⟨rfl, rfl⟩

/-- By induction on the parts that are still to come: both runs are at the same part, with the same verdict on it, and
only the bytes that are behind them differ. -/
lemma occurrencesFrom_rename (before parts : List Piece) (marks : List Bool) :
    Corresponds (List.Forall₂ (Occurrence.Renamed f)) (PositionError.Renamed f (before.reverse ++ parts))
      (occurrencesFrom before (byteLength (before.flatMap Piece.chars)) parts marks)
      (occurrencesFrom (before.map (Piece.rename f)) (byteLength ((before.map (Piece.rename f)).flatMap Piece.chars))
        (parts.map (Piece.rename f)) marks) := by
  induction parts generalizing before marks with
  | nil => exact .ok .nil
  | cons p parts ih =>
    have hrest := ih (p :: before) marks.tail
    rw [List.reverse_cons, List.append_assoc, List.singleton_append, List.flatMap_cons, byteLength_append,
      List.map_cons, List.flatMap_cons, byteLength_append, Nat.add_comm, Nat.add_comm (byteLength (p.rename f).chars)]
      at hrest
    cases p with
    | char c => exact hrest
    | literal quote body closed =>
      rw [List.map_cons]
      simp only [occurrencesFrom, Piece.rename, literalContext_rename] at hrest ⊢
      have hinside := literalOccurrences_rename (f := f) (literalContext body closed before)
        (byteLength (before.flatMap Piece.chars) + 1)
        (byteLength ((before.map (Piece.rename f)).flatMap Piece.chars) + 1) body
      exact hrest.map fun _ _ _ hfound => List.rel_append hinside hfound
    | var v =>
      rw [List.map_cons]
      simp only [occurrencesFrom, Piece.rename, codeVerdict_rename] at hrest ⊢
      cases codeVerdict (marks.head?.getD false) before parts with
      | refused misplacement =>
        refine .error ⟨before.reverse, parts, rfl, (byteLength_flatMap_reverse before).symm, ?_⟩
        rw [List.map_reverse, byteLength_flatMap_reverse]
      | refusedLead =>
        obtain ⟨lead, front, back, hparts, hlead, hlead'⟩ := leadOf_rename (f := f) v before parts
        simp only [hlead, hlead']
        exact .error ⟨front, back, hparts, rfl, rfl⟩
      | context context =>
        exact hrest.map fun _ _ _ hfound => .cons ⟨rfl, rfl⟩ hfound

end Runs

/-! ## Tables -/

/-- The entry of the variable with its other name. -/
def Entry.rename (f : Variable → Variable) (e : Entry) : Entry :=
  { e with var := f e.var }

/-- The encoded query with other names for the variables. -/
def Encoded.rename (f : Variable → Variable) (encoded : Encoded) : Encoded :=
  { encoded with table := encoded.table.map (Entry.rename f) }

section Tables

variable {f : Variable → Variable} {found found' : List Occurrence}

lemma map_var_rename (h : List.Forall₂ (Occurrence.Renamed f) found found') :
    found'.map Occurrence.var = (found.map Occurrence.var).map f := by
  induction h with
  | nil => rfl
  | cons ho _ ih => rw [List.map_cons, List.map_cons, List.map_cons, ho.1, ih]

lemma byRank_rename (h : List.Forall₂ (Occurrence.Renamed f) found found') :
    List.Forall₂ (Occurrence.Renamed f) (byRank found) (byRank found') := by
  refine List.rel_flatMap (R := Eq) (List.forall₂_refl _) ?_
  rintro rank _ rfl
  refine List.rel_filter ?_ h
  intro o o' ho
  simp only [ho.2]

lemma eraseDups_map {vs : List Variable} (h : ∀ v ∈ vs, ∀ w ∈ vs, f v = f w → v = w) :
    (vs.map f).eraseDups = vs.eraseDups.map f := by
  induction vs using List.reverseRecOn with
  | nil => rfl
  | append_singleton vs v ih =>
    have hmem : f v ∈ vs.map f ↔ v ∈ vs := by
      refine ⟨fun hfv => ?_, List.mem_map_of_mem⟩
      obtain ⟨w, hw, heq⟩ := List.mem_map.1 hfv
      exact h w (List.mem_append_left _ hw) v (by simp) heq ▸ hw
    have hvs := ih fun v hv w hw => h v (List.mem_append_left _ hv) w (List.mem_append_left _ hw)
    rw [List.map_append, List.map_singleton, eraseDups_concat, eraseDups_concat, hvs]
    simp only [hmem]
    split_ifs
    · rfl
    · rw [List.map_append, List.map_singleton]

lemma allocation_rename (h : List.Forall₂ (Occurrence.Renamed f) found found')
    (hinj : ∀ o ∈ found, ∀ o' ∈ found, f o.var = f o'.var → o.var = o'.var) :
    allocation found' = (allocation found).map f := by
  rw [allocation, map_var_rename (byRank_rename h), allocation, eraseDups_map]
  intro v hv w hw heq
  obtain ⟨o, ho, rfl⟩ := List.mem_map.1 hv
  obtain ⟨o', ho', rfl⟩ := List.mem_map.1 hw
  exact hinj o (mem_byRank.1 ho) o' (mem_byRank.1 ho') heq

lemma contexts_rename (h : List.Forall₂ (Occurrence.Renamed f) found found') {v : Variable}
    (hinj : ∀ o ∈ found, f o.var = f v → o.var = v) :
    (found'.filter (·.var = f v)).map Occurrence.context = (found.filter (·.var = v)).map Occurrence.context := by
  induction h with
  | nil => rfl
  | @cons o o' found found' ho _ ih =>
    have hrest := ih fun o ho => hinj o (List.mem_cons_of_mem _ ho)
    have hvar : o'.var = f v ↔ o.var = v := by
      rw [ho.1]
      exact ⟨hinj o List.mem_cons_self, congrArg f⟩
    by_cases hv : o.var = v
    · simp [hvar, hv, ho.2, hrest]
    · simp [hvar, hv, hrest]

lemma tableOf_rename (h : List.Forall₂ (Occurrence.Renamed f) found found')
    (hinj : ∀ o ∈ found, ∀ o' ∈ found, f o.var = f o'.var → o.var = o'.var) :
    tableOf found' = (tableOf found).map (Entry.rename f) := by
  rw [tableOf, allocation_rename h hinj, tableOf]
  apply List.ext_getElem?
  intro index
  rw [List.getElem?_mapIdx, List.getElem?_map, List.getElem?_map, List.getElem?_mapIdx]
  rcases hv : (allocation found)[index]? with _ | v
  · rfl
  · obtain ⟨o, ho, rfl⟩ := mem_allocation.1 (List.mem_of_getElem? hv)
    have huses := contexts_rename h fun o' ho' => hinj o' ho' o ho
    simp only [Option.map_some, entryOf, huses, Entry.rename]

lemma tokenOf_rename (h : List.Forall₂ (Occurrence.Renamed f) found found')
    (hinj : ∀ o ∈ found, ∀ o' ∈ found, f o.var = f o'.var → o.var = o'.var) {o : Occurrence} (ho : o ∈ found) :
    tokenOf (tableOf found') (f o.var) = tokenOf (tableOf found) o.var := by
  have hfind : (tableOf found).find? ((fun e : Entry => decide (e.var = f o.var)) ∘ Entry.rename f) =
      (tableOf found).find? (·.var = o.var) := by
    refine List.find?_congr fun e he => ?_
    obtain ⟨index, v, hindex, rfl⟩ := mem_tableOf.1 he
    obtain ⟨o', ho', rfl⟩ := mem_allocation.1 (List.mem_of_getElem? hindex)
    rw [Function.comp_apply, decide_eq_decide]
    exact ⟨hinj o' ho' o ho, congrArg f⟩
  obtain ⟨e, -, hentry, -⟩ := find?_tableOf ho
  rw [tokenOf, tokenOf, tableOf_rename h hinj, List.find?_map, hfind, hentry]
  rfl

end Tables

/-! ## Encoded queries -/

lemma map_var_literalOccurrences (context : Context) (offset : Nat) (body : List Inner) :
    (literalOccurrences context offset body).map Occurrence.var = body.flatMap Inner.variables := by
  induction body generalizing offset with
  | nil => rfl
  | cons part body ih => cases part <;> simp [literalOccurrences, Inner.variables, ih]

/-- The occurrences are those of all variables of the parts. -/
lemma Finds.map_var {offset : Nat} {parts : List Piece} {found : List Occurrence} (h : Finds offset parts found) :
    found.map Occurrence.var = parts.flatMap Piece.variables := by
  induction h with
  | nil offset => rfl
  | @cons offset p parts here found hhere _ ih =>
    rw [List.map_append, ih, List.flatMap_cons]
    congr 1
    cases p with
    | char c => rw [hhere]; rfl
    | var v =>
      obtain ⟨context, rfl⟩ := hhere
      rfl
    | literal quote body closed =>
      obtain ⟨context, -, rfl⟩ := hhere
      exact map_var_literalOccurrences context (offset + 1) body

section Encoded

variable {f : Variable → Variable} {table table' : Table}

lemma encodeInner_rename {body : List Inner}
    (htoken : ∀ v ∈ body.flatMap Inner.variables, tokenOf table' (f v) = tokenOf table v) :
    (body.map (Inner.rename f)).flatMap (encodeInner table') = body.flatMap (encodeInner table) := by
  rw [List.flatMap_map]
  refine List.flatMap_congr fun part hpart => ?_
  cases part with
  | char c => rfl
  | var v => exact htoken v (List.mem_flatMap.2 ⟨.var v, hpart, List.mem_singleton_self v⟩)

/-- A literal takes as many occurrences as it has variables. -/
lemma encodePieces_literal_eq (quote : Char) (body : List Inner) (closed : Bool) (parts : List Piece)
    (found : List Occurrence) :
    encodePieces table (.literal quote body closed :: parts) found =
      quote :: body.flatMap (encodeInner table) ++ (if closed then [quote] else []) ++
        encodePieces table parts (found.drop (body.flatMap Inner.variables).length) := by
  rw [encodePieces]
  congr 3
  induction body with
  | nil => rfl
  | cons part body ih => cases part <;> simp [Inner.variables, ih]

lemma length_variables_rename (body : List Inner) :
    ((body.map (Inner.rename f)).flatMap Inner.variables).length = (body.flatMap Inner.variables).length := by
  induction body with
  | nil => rfl
  | cons part body ih => cases part <;> simp [Inner.rename, Inner.variables, ih]

/-- The parts are written alike if the stand-ins are the same and the occurrences stand in the same places. -/
lemma encodePieces_rename {parts : List Piece} {found found' : List Occurrence}
    (h : List.Forall₂ (Occurrence.Renamed f) found found')
    (htoken : ∀ v ∈ parts.flatMap Piece.variables, tokenOf table' (f v) = tokenOf table v) :
    encodePieces table' (parts.map (Piece.rename f)) found' = encodePieces table parts found := by
  induction parts generalizing found found' with
  | nil => rfl
  | cons p parts ih =>
    rw [List.flatMap_cons] at htoken
    have hrest : ∀ v ∈ parts.flatMap Piece.variables, tokenOf table' (f v) = tokenOf table v := fun v hv =>
      htoken v (List.mem_append_right _ hv)
    cases p with
    | char c => exact congrArg (c :: ·) (ih h hrest)
    | var v =>
      have hv := htoken v (List.mem_append_left _ (List.mem_singleton_self v))
      rw [List.map_cons, Piece.rename]
      cases h with
      | nil => exact congrArg₂ (· ++ ·) hv (ih .nil hrest)
      | cons ho h => rw [encodePieces_var, encodePieces_var, hv, ho.2, ih h hrest]
    | literal quote body closed =>
      have hbody := encodeInner_rename fun v hv => htoken v (List.mem_append_left _ hv)
      rw [List.map_cons, Piece.rename, encodePieces_literal_eq, encodePieces_literal_eq, hbody,
        length_variables_rename, ih (List.forall₂_drop _ h) hrest]

end Encoded

/-- The names of the variables make no difference. A query with other names for its variables is refused exactly if
the query is, with the same error about the same variable; otherwise it is encoded as the same text, with the same
entries for the new names. -/
theorem encode_renamed {f : Variable → Variable} {query : String} (h : Renaming f (variablesOf query)) :
    Corresponds (fun encoded encoded' => encoded' = encoded.rename f) (PositionError.Renamed f (piecesOf query))
      (encode query) (encode (renamed f query)) := by
  have hparts := piecesOf_renamed h
  have hrun : Corresponds (List.Forall₂ (Occurrence.Renamed f)) (PositionError.Renamed f (piecesOf query))
      (occurrences (piecesOf query)) (occurrences (piecesOf (renamed f query))) := by
    rw [hparts, occurrences, occurrences, grouped_rename]
    exact occurrencesFrom_rename [] (piecesOf query) _
  refine hrun.map fun found found' hfound hrenamed => ?_
  have hvars : found.map Occurrence.var = variablesOf query := (finds_of_occurrencesFrom hfound).map_var
  have hmem : ∀ o ∈ found, o.var ∈ variablesOf query := fun o ho => hvars ▸ List.mem_map_of_mem ho
  have hinj : ∀ o ∈ found, ∀ o' ∈ found, f o.var = f o'.var → o.var = o'.var := fun o ho o' ho' =>
    h.injective o.var (hmem o ho) o'.var (hmem o' ho')
  have htoken : ∀ v ∈ variablesOf query, tokenOf (tableOf found') (f v) = tokenOf (tableOf found) v := by
    intro v hv
    rw [← hvars] at hv
    obtain ⟨o, ho, rfl⟩ := List.mem_map.1 hv
    exact tokenOf_rename hrenamed hinj ho
  rw [Encoded.rename, ← tableOf_rename hrenamed hinj, hparts, encodePieces_rename hrenamed htoken]

/-- Two variables get keywords for names. -/
def keyworded (v : Variable) : Variable :=
  { v with name := if v.name = ['a'] then "offset".toList else if v.name = ['b'] then "by".toList else v.name }

/-- The first variable stands where the word of its new name would announce a duration. -/
def renamingSample : String :=
  "$a $c + up_$c\x7be=$a, f='$\x7bb\x7d'\x7d[$d]"

/-- The second variable stands where the word of its new name would announce a list of labels. -/
def misplacedSample : String :=
  "$a + $b ($c)"

theorem encode_renamed_sample :
    (∃ encoded, encode renamingSample = .ok encoded ∧
      encode "$offset $c + up_$c\x7be=$offset, f='$\x7bby\x7d'\x7d[$d]" = .ok (encoded.rename keyworded)) ∧
    ∃ e e', encode misplacedSample = .error e ∧ encode "$offset + $by ($c)" = .error e' ∧
      PositionError.Renamed keyworded (piecesOf misplacedSample) e e' := by
  have hencode : encode renamingSample = .ok _ := rfl
  have hrefused : encode misplacedSample = .error _ := rfl
  have hnames : Renaming keyworded (variablesOf renamingSample) := ⟨by decide, by decide, by decide⟩
  have hnames' : Renaming keyworded (variablesOf misplacedSample) := ⟨by decide, by decide, by decide⟩
  have haccepted := encode_renamed hnames
  have hmisplaced := encode_renamed hnames'
  rw [hencode] at haccepted
  rw [hrefused] at hmisplaced
  obtain ⟨encoded', hrun, rfl⟩ := haccepted.exists_ok
  obtain ⟨e', hrun', he⟩ := hmisplaced.exists_error
  exact ⟨⟨_, hencode, hrun⟩, _, e', hrefused, hrun', he⟩

end QueryScope.Variable
