import QueryScope.Injection
import QueryScope.Proofs.ListText

/-!
# Where the selectors stand in print

A printed query is listed as plain texts and blocks of matchers, one block for each selector in the order
of the selectors. A change of the matchers changes the blocks and leaves the plain texts.
-/

namespace QueryScope

/-- A part of a printed query. -/
inductive Chunk where
  /-- text that does not depend on matchers -/
  | plain (chars : List Char)
  /-- the matchers of a metric selector, which has a name or not -/
  | series (named : Bool) (matchers : List Matcher)
  /-- the matchers of a stream selector -/
  | stream (matchers : List Matcher)

namespace Chunk

/-- The matchers of a block. -/
def matchers? : Chunk → Option (List Matcher)
  | plain _ => none
  | series _ matchers | stream matchers => some matchers

/-- The written form of a part. -/
def chars : Chunk → List Char
  | plain chars => chars
  | series named matchers =>
    if named && matchers.isEmpty then []
    else '\x7b' :: joinChars "," ((Metric.printOrder matchers).map Matcher.chars) ++ ['\x7d']
  | stream matchers => Log.selectorChars matchers

/-- The part with its matchers changed. -/
def update (f : List Matcher → List Matcher) : Chunk → Chunk
  | plain chars => plain chars
  | series named matchers => series named (f matchers)
  | stream matchers => stream (f matchers)

@[simp]
lemma chars_plain (text : List Char) : (plain text).chars = text := rfl

@[simp]
lemma update_plain (f : List Matcher → List Matcher) (text : List Char) :
    (plain text).update f = plain text := rfl

@[simp]
lemma filterMap_plain_cons (text : List Char) (chunks : List Chunk) :
    (plain text :: chunks).filterMap matchers? = chunks.filterMap matchers? := rfl

lemma matchers?_update (f : List Matcher → List Matcher) (chunk : Chunk) :
    (chunk.update f).matchers? = chunk.matchers?.map f := by
  cases chunk <;> rfl

lemma filterMap_map_update (f : List Matcher → List Matcher) (chunks : List Chunk) :
    (chunks.map (update f)).filterMap matchers? = (chunks.filterMap matchers?).map f := by
  simp only [List.filterMap_map, List.map_filterMap, Function.comp_def, matchers?_update]

end Chunk

/-- The text of parts one after another. -/
def textOf (chunks : List Chunk) : List Char :=
  chunks.flatMap Chunk.chars

@[simp]
lemma textOf_nil : textOf [] = [] := rfl

@[simp]
lemma textOf_append (left right : List Chunk) : textOf (left ++ right) = textOf left ++ textOf right :=
  List.flatMap_append

@[simp]
lemma textOf_cons (chunk : Chunk) (chunks : List Chunk) :
    textOf (chunk :: chunks) = chunk.chars ++ textOf chunks :=
  List.flatMap_cons

/-! ## Metric queries -/

namespace Metric

/-- The parts of a printed selector. -/
def Selector.layout (s : Selector) : List Chunk :=
  [.plain ((s.name.map String.toList).getD []), .series s.name.isSome s.matchers]

lemma Selector.textOf_layout (s : Selector) : textOf s.layout = s.seriesChars := by
  cases hname : s.name <;> simp [layout, Chunk.chars, seriesChars, hname]

namespace Expr

mutual

/-- The parts of a printed query. -/
def layout : Expr → List Chunk
  | number value => [.plain value.queryChars]
  | text value => [.plain (Text.quoteChars value.toList)]
  | vector selector => selector.layout ++ [.plain selector.frame.chars]
  | matrix selector range =>
    selector.layout ++ [.plain ('[' :: range.chars ++ ']' :: selector.frame.chars)]
  | subquery body range step frame =>
    body.layout ++
      [.plain ('[' :: range.chars ++ ':' :: (step.map Duration.chars).getD [] ++ ']' :: frame.chars)]
  | call function arguments => .plain (function.toList ++ ['(']) :: argumentLayout arguments ++ [.plain [')']]
  | aggregate op parameter body grouping =>
    let clause :=
      match grouping with
      | some g => ' ' :: g.keyword ++ ' ' :: labelListChars g.labels ++ [' ']
      | none => []
    .plain (op.symbol.toList ++ clause ++ ['(']) :: parameterLayout parameter ++ body.layout ++ [.plain [')']]
  | binary op modifiers left right =>
    left.layout ++ .plain (' ' :: op.symbol.toList ++ modifiers.chars ++ [' ']) :: right.layout
  | unary negative body => .plain [if negative then '-' else '+'] :: body.layout
  | paren body => .plain ['('] :: body.layout ++ [.plain [')']]

/-- The parts of printed arguments. -/
def argumentLayout : List Expr → List Chunk
  | [] => []
  | e :: rest => e.layout ++ furtherLayout rest

/-- The parts of printed arguments with a comma before each. -/
def furtherLayout : List Expr → List Chunk
  | [] => []
  | e :: rest => .plain ", ".toList :: e.layout ++ furtherLayout rest

/-- The parts of a printed parameter with the comma behind it. -/
def parameterLayout : Option Expr → List Chunk
  | none => []
  | some e => e.layout ++ [.plain [',', ' ']]

end

mutual

lemma textOf_layout (e : Expr) : textOf e.layout = e.chars := by
  match e with
  | number _ | text _ => simp [layout, chars]
  | vector selector | matrix selector _ =>
    simp [layout, selector.textOf_layout, chars]
  | subquery body _ _ _ | unary _ body | paren body =>
    have ih := textOf_layout body
    simp [layout, ih, chars]
  | call _ arguments =>
    have ih := textOf_argumentLayout arguments
    simp [layout, ih, chars]
  | aggregate _ parameter body grouping =>
    have ihp := textOf_parameterLayout parameter
    have ihb := textOf_layout body
    cases grouping <;> simp [layout, ihp, ihb, chars]
  | binary _ _ left right =>
    have ihl := textOf_layout left
    have ihr := textOf_layout right
    simp [layout, ihl, ihr, chars]

lemma textOf_argumentLayout (es : List Expr) : textOf (argumentLayout es) = joinChars ", " (charsOfAll es) := by
  match es with
  | [] => rfl
  | e :: rest =>
    have ih := textOf_layout e
    have ihs := textOf_furtherLayout rest
    rw [argumentLayout, textOf_append, ih, ihs, charsOfAll, joinChars_cons]

lemma textOf_furtherLayout (es : List Expr) :
    textOf (furtherLayout es) = (charsOfAll es).flatMap (", ".toList ++ ·) := by
  match es with
  | [] => rfl
  | e :: rest =>
    have ih := textOf_layout e
    have ihs := textOf_furtherLayout rest
    rw [furtherLayout, textOf_append, textOf_cons, ih, ihs, charsOfAll, List.flatMap_cons, Chunk.chars]

lemma textOf_parameterLayout (p : Option Expr) : textOf (parameterLayout p) = parameterChars p := by
  match p with
  | none => rfl
  | some e =>
    have ih := textOf_layout e
    simp [parameterLayout, parameterChars, ih]

end

mutual

lemma layout_mapMatchers (f : List Matcher → List Matcher) (e : Expr) :
    (e.mapMatchers f).layout = e.layout.map (Chunk.update f) := by
  match e with
  | number _ | text _ | vector _ | matrix _ _ => rfl
  | subquery body _ _ _ | unary _ body | paren body =>
    have ih := layout_mapMatchers f body
    simp [mapMatchers, layout, ih]
  | call _ arguments =>
    have ih := argumentLayout_mapMatchers f arguments
    simp [mapMatchers, layout, ih]
  | aggregate _ parameter body _ =>
    have ihp := parameterLayout_mapMatchers f parameter
    have ihb := layout_mapMatchers f body
    simp [mapMatchers, layout, ihp, ihb]
  | binary _ _ left right =>
    have ihl := layout_mapMatchers f left
    have ihr := layout_mapMatchers f right
    simp [mapMatchers, layout, ihl, ihr]

lemma argumentLayout_mapMatchers (f : List Matcher → List Matcher) (es : List Expr) :
    argumentLayout (mapMatchersOfAll f es) = (argumentLayout es).map (Chunk.update f) := by
  match es with
  | [] => rfl
  | e :: rest =>
    have ih := layout_mapMatchers f e
    have ihs := furtherLayout_mapMatchers f rest
    simp [mapMatchersOfAll, argumentLayout, ih, ihs]

lemma furtherLayout_mapMatchers (f : List Matcher → List Matcher) (es : List Expr) :
    furtherLayout (mapMatchersOfAll f es) = (furtherLayout es).map (Chunk.update f) := by
  match es with
  | [] => rfl
  | e :: rest =>
    have ih := layout_mapMatchers f e
    have ihs := furtherLayout_mapMatchers f rest
    simp [mapMatchersOfAll, furtherLayout, ih, ihs]

lemma parameterLayout_mapMatchers (f : List Matcher → List Matcher) (p : Option Expr) :
    parameterLayout (mapMatchersOfOption f p) = (parameterLayout p).map (Chunk.update f) := by
  match p with
  | none => rfl
  | some e =>
    have ih := layout_mapMatchers f e
    simp [mapMatchersOfOption, parameterLayout, ih]

end

mutual

lemma layout_filterMap (e : Expr) : e.layout.filterMap Chunk.matchers? = e.matcherLists := by
  match e with
  | number _ | text _ | vector _ | matrix _ _ => rfl
  | subquery body _ _ _ | unary _ body | paren body =>
    have ih := layout_filterMap body
    simp [layout, matcherLists, ih]
  | call _ arguments =>
    have ih := argumentLayout_filterMap arguments
    simp [layout, matcherLists, ih]
  | aggregate _ parameter body _ =>
    have ihp := parameterLayout_filterMap parameter
    have ihb := layout_filterMap body
    simp [layout, matcherLists, ihp, ihb]
  | binary _ _ left right =>
    have ihl := layout_filterMap left
    have ihr := layout_filterMap right
    simp [layout, matcherLists, ihl, ihr]

lemma argumentLayout_filterMap (es : List Expr) :
    (argumentLayout es).filterMap Chunk.matchers? = matcherListsOfAll es := by
  match es with
  | [] => rfl
  | e :: rest =>
    have ih := layout_filterMap e
    have ihs := furtherLayout_filterMap rest
    simp [argumentLayout, matcherListsOfAll, ih, ihs]

lemma furtherLayout_filterMap (es : List Expr) :
    (furtherLayout es).filterMap Chunk.matchers? = matcherListsOfAll es := by
  match es with
  | [] => rfl
  | e :: rest =>
    have ih := layout_filterMap e
    have ihs := furtherLayout_filterMap rest
    simp [furtherLayout, matcherListsOfAll, ih, ihs]

lemma parameterLayout_filterMap (p : Option Expr) :
    (parameterLayout p).filterMap Chunk.matchers? = matcherListsOfOption p := by
  match p with
  | none => rfl
  | some e =>
    have ih := layout_filterMap e
    simp [parameterLayout, matcherListsOfOption, ih]

end

end Expr

end Metric

/-! ## Log queries -/

namespace Log

/-- The parts of a printed stream. -/
def Stream.layout (s : Stream) : List Chunk :=
  [.stream s.matchers, .plain (s.stages.flatMap fun stage => ' ' :: stage.chars)]

/-- The parts of a printed range of log lines. -/
def LogRange.layout (r : LogRange) : List Chunk :=
  r.stream.layout ++ [.plain ((r.unwrap.map Unwrap.chars).getD [] ++ '[' :: r.range.chars ++
    ']' :: (r.offset.map fun offset => " offset ".toList ++ offset.chars).getD [])]

/-- The parts of a printed metric query over logs. -/
def Sample.layout : Sample → List Chunk
  | range op parameter logs grouping =>
    .plain (op.symbol.toList ++ '(' :: (parameter.map fun p => p.queryChars ++ [',']).getD []) ::
      logs.layout ++ [.plain (')' :: groupingChars grouping)]
  | aggregate op parameter body grouping =>
    .plain (op.symbol.toList ++ groupingChars grouping ++
      '(' :: (parameter.map fun p => Number.decimalDigits p ++ [',']).getD []) :: body.layout ++ [.plain [')']]
  | binary op modifiers left right =>
    .plain ['('] :: left.layout ++
      .plain (' ' :: op.symbol.toList ++ modifierChars modifiers ++ [' ']) :: right.layout ++ [.plain [')']]
  | literal value => [.plain value.queryChars]
  | vector value => [.plain ("vector(".toList ++ value.queryChars ++ [')'])]
  | labelReplace body target replacement source expression =>
    .plain "label_replace(".toList :: body.layout ++
      [.plain ([quoted target, quoted replacement, quoted source, quoted expression].flatMap
        (",".toList ++ ·) ++ [')'])]

/-- The parts of a printed query. -/
def Query.layout : Query → List Chunk
  | log stream => stream.layout
  | sample s => s.layout

lemma Stream.textOf_layout (s : Stream) : textOf s.layout = s.chars := by
  simp [layout, Chunk.chars, chars]

lemma LogRange.textOf_layout (r : LogRange) : textOf r.layout = r.chars := by
  simp [layout, r.stream.textOf_layout, chars]

lemma Sample.textOf_layout (s : Sample) : textOf s.layout = s.chars := by
  induction s with
  | range op parameter logs grouping => simp [layout, logs.textOf_layout, chars_range]
  | aggregate op parameter body grouping ih => simp [layout, ih, chars_aggregate]
  | binary op modifiers left right ihl ihr => simp [layout, ihl, ihr, chars_binary]
  | literal value => simp [layout, chars_literal]
  | vector value => simp only [layout, chars_vector, textOf_cons, textOf_nil, Chunk.chars_plain, List.append_nil]
  | labelReplace body target replacement source expression ih =>
    rw [chars_labelReplace, joinChars_cons]
    simp only [layout, textOf_append, textOf_cons, textOf_nil, ih, Chunk.chars_plain, List.append_assoc,
      List.append_nil]

lemma Sample.layout_mapMatchers (f : List Matcher → List Matcher) (s : Sample) :
    (s.mapMatchers f).layout = s.layout.map (Chunk.update f) := by
  induction s with
  | range | literal | vector => rfl
  | aggregate _ _ _ _ ih | labelReplace _ _ _ _ _ ih => simp [mapMatchers, layout, ih]
  | binary _ _ _ _ ihl ihr => simp [mapMatchers, layout, ihl, ihr]

lemma Sample.layout_filterMap (s : Sample) : s.layout.filterMap Chunk.matchers? = s.matcherLists := by
  induction s with
  | range | literal | vector => rfl
  | aggregate _ _ _ _ ih | labelReplace _ _ _ _ _ ih => simp [layout, matcherLists, ih]
  | binary _ _ _ _ ihl ihr => simp [layout, matcherLists, ihl, ihr]

end Log

/-! ## Either dialect -/

namespace Query

/-- The parts of a printed query. -/
def layout : Query → List Chunk
  | metric e => e.layout
  | log q => q.layout

lemma textOf_layout (query : Query) : textOf query.layout = query.print.toList := by
  cases query with
  | metric e => simpa [layout, print, Metric.Expr.print] using e.textOf_layout
  | log q =>
    cases q with
    | log stream => simpa [layout, Log.Query.layout, print, Log.Query.print, Log.Query.chars] using stream.textOf_layout
    | sample s => simpa [layout, Log.Query.layout, print, Log.Query.print, Log.Query.chars] using s.textOf_layout

lemma layout_mapMatchers (f : List Matcher → List Matcher) (query : Query) :
    (query.mapMatchers f).layout = query.layout.map (Chunk.update f) := by
  cases query with
  | metric e => exact e.layout_mapMatchers f
  | log q =>
    cases q with
    | log stream => rfl
    | sample s => exact s.layout_mapMatchers f

lemma layout_filterMap (query : Query) : query.layout.filterMap Chunk.matchers? = query.matcherLists := by
  cases query with
  | metric e => exact e.layout_filterMap
  | log q =>
    cases q with
    | log stream => rfl
    | sample s => exact s.layout_filterMap

end Query

end QueryScope
