import BslLint.Proofs.Outline.Gap
import BslLint.Proofs.Syntax.Spans

/-!
Printed expressions and their places. An expression of names, members, calls and literals is printed
in one way, and placing its description in a text where it is printed finds every node exactly where
it stands: nothing between the cursor and a node can be taken for the node, since only separators
stand there, and a scan for a closing parenthesis passes over everything that is printed.
-/

namespace BslLint

/-- A name that an expression can be written with. -/
abbrev Identifier := {t : Text // t.IsName}

/-- A whole number as it is written. -/
abbrev Digits := {t : Text // t ≠ [] ∧ ∀ c ∈ t, c.isDigit = true}

/-- An expression of names, members, calls and literals; an omitted argument is `none`. -/
inductive PlainExpression where
  | ident (name : Identifier)
  | member (object : PlainExpression) (name : Identifier)
  | call (name : Identifier) (params : List (Option PlainExpression))
  | methodCall (receiver : PlainExpression) (name : Identifier)
      (params : List (Option PlainExpression))
  | string (value : Text)
  | number (digits : Digits)

namespace PlainExpression

open Outline

def separator : Text := [',', ' ']

mutual

def print : PlainExpression → Text
  | .ident name => name.1
  | .member object name => object.print ++ '.' :: name.1
  | .call name params => name.1 ++ '(' :: (printParams [] params ++ [')'])
  | .methodCall receiver name params =>
    receiver.print ++ '.' :: (name.1 ++ '(' :: (printParams [] params ++ [')']))
  | .string value => quoted value
  | .number digits => digits.1

def printParams (lead : Text) : List (Option PlainExpression) → Text
  | [] => []
  | none :: params => lead ++ printParams separator params
  | some param :: params => lead ++ param.print ++ printParams separator params

end

mutual

def outline : PlainExpression → ExpressionOutline
  | .ident name => .ident name.1
  | .member object name => .member object.outline name.1
  | .call name params => .call name.1 (outlineParams params)
  | .methodCall receiver name params =>
    .methodCall receiver.outline name.1 (outlineParams params)
  | .string value => .string (quoted value)
  | .number digits => .number digits.1

def outlineParams : List (Option PlainExpression) → List (Option ExpressionOutline)
  | [] => []
  | none :: params => none :: outlineParams params
  | some param :: params => some param.outline :: outlineParams params

end

/-- The span of a text that stands behind another one. -/
def spanBehind (before text : Text) : Option Span :=
  some ⟨Text.byteLength before, Text.byteLength text⟩

mutual

/-- The expression where it is printed behind a text: the span of every node is that of its own
text. -/
def located (before : Text) : PlainExpression → Expression
  | .ident name => .access name.1 none (spanBehind before name.1)
  | .member object name =>
    .access name.1 (some (object.located before)) (spanBehind before (print (.member object name)))
  | .call name params =>
    .invocation name.1 none (locatedParams (before ++ name.1 ++ ['(']) [] params)
      (spanBehind before (print (.call name params)))
  | .methodCall receiver name params =>
    .invocation name.1 (some (receiver.located before))
      (locatedParams (before ++ receiver.print ++ ['.'] ++ name.1 ++ ['(']) [] params)
      (spanBehind before (print (.methodCall receiver name params)))
  | .string value => .literal (.string value) (spanBehind before (quoted value))
  | .number digits => .literal (.number digits.1) (spanBehind before digits.1)

def locatedParams (before lead : Text) :
    List (Option PlainExpression) → List (Option Expression)
  | [] => []
  | none :: params => none :: locatedParams (before ++ lead) separator params
  | some param :: params =>
    some (param.located (before ++ lead)) ::
      locatedParams (before ++ lead ++ param.print) separator params

end

mutual

/-- The texts of an expression and of its parts at every depth. -/
def texts : PlainExpression → List Text
  | .ident name => [name.1]
  | .member object name => print (.member object name) :: object.texts
  | .call name params => print (.call name params) :: textsParams params
  | .methodCall receiver name params =>
    print (.methodCall receiver name params) :: (receiver.texts ++ textsParams params)
  | .string value => [quoted value]
  | .number digits => [digits.1]

def textsParams : List (Option PlainExpression) → List Text
  | [] => []
  | none :: params => textsParams params
  | some param :: params => param.texts ++ textsParams params

end

lemma isName_digits (digits : Digits) : Text.IsName digits.1 :=
  ⟨digits.2.1, fun c hc => Text.isIdentifier_of_isDigit (digits.2.2 c hc)⟩

/-! ### Parentheses -/

lemma balanced_of_isName {name : Text} (h : name.IsName) : Balanced name := by
  refine balanced_of_forall fun c hc => ?_
  have hident := h.2 c hc
  refine ⟨?_, ?_, ?_⟩ <;>
  · rintro rfl
    revert hident
    decide +kernel

lemma mem_separator {c : Char} : c ∈ separator ↔ c = ',' ∨ c = ' ' := by simp [separator]

lemma balanced_separator : Balanced separator := by
  refine balanced_of_forall fun c hc => ?_
  rcases mem_separator.1 hc with rfl | rfl <;> decide

mutual

/-- **What is printed is balanced.** -/
lemma balanced_print : ∀ t : PlainExpression, Balanced t.print
  | .ident name => balanced_of_isName name.2
  | .member object name =>
    object.balanced_print.append (balanced_point.append (balanced_of_isName name.2))
  | .call name params =>
    (balanced_of_isName name.2).append (balanced_printParams balanced_nil params).parenthesized
  | .methodCall receiver name params =>
    receiver.balanced_print.append (balanced_point.append
      ((balanced_of_isName name.2).append (balanced_printParams balanced_nil params).parenthesized))
  | .string value => balanced_quoted value
  | .number digits => balanced_of_isName (isName_digits digits)

lemma balanced_printParams : ∀ {lead : Text}, Balanced lead →
    ∀ params : List (Option PlainExpression), Balanced (printParams lead params)
  | _, _, [] => balanced_nil
  | _, hlead, none :: params => hlead.append (balanced_printParams balanced_separator params)
  | _, hlead, some param :: params =>
    (hlead.append param.balanced_print).append (balanced_printParams balanced_separator params)

end

/-! ### Placing -/

lemma separates_separator : ∀ c ∈ separator, Separates c := by
  intro c hc
  rcases mem_separator.1 hc with rfl | rfl <;> decide

lemma separates_point : ∀ c ∈ ['.'], Separates c := List.forall_mem_singleton.2 (by decide)

lemma opens_separator (t : Text) : Opens (t ++ separator) := by
  rw [separator, List.append_cons]
  exact opens_concat (by decide +kernel) _

lemma opens_arguments (t : Text) : Opens (t ++ ['('] ++ [] ++ []) := by
  rw [List.append_nil, List.append_nil]
  exact opens_concat (by decide +kernel) t

lemma closes_printParams {after : Text} (h : Closes after) :
    ∀ params : List (Option PlainExpression), Closes (printParams separator params ++ after)
  | [] => h
  | none :: _ | some _ :: _ => closes_cons (by decide +kernel) _

lemma span_located (before : Text) (t : PlainExpression) :
    (t.located before).span = spanBehind before t.print := by
  cases t <;> rfl

lemma join_spanBehind (before text name : Text) :
    Span.join (spanBehind before text)
        (some ⟨Text.byteLength (before ++ text ++ ['.']), Text.byteLength name⟩) =
      spanBehind before (text ++ '.' :: name) := by
  simp only [Span.join, spanBehind, Span.between, Span.stop, Text.byteLength_append,
    Text.byteLength_cons, Text.byteLength_nil, Option.pure_def, Option.bind_eq_bind,
    Option.bind_some, Option.some.injEq, Span.mk.injEq, true_and]
  omega

lemma callSpan_eq (before text : Text) :
    callSpan (some (Text.byteLength before)) (some (Text.byteLength (before ++ text))) =
      spanBehind before (text ++ [')']) := by
  have hsize : ')'.utf8Size = 1 := rfl
  simp only [callSpan, spanBehind, Span.between, Text.byteLength_append, Text.byteLength_cons,
    Text.byteLength_nil, hsize, Option.pure_def, Option.bind_eq_bind, Option.bind_some,
    Option.some.injEq, Span.mk.injEq, true_and]
  omega

lemma behind_opening (before : Text) (cursor : Nat) :
    behind (some (Text.byteLength before)) cursor = Text.byteLength (before ++ ['(']) :=
  (Text.byteLength_append before ['(']).symm

lemma behind_closing (before args : Text) (cursor : Nat) :
    behind (some (Text.byteLength (before ++ '(' :: args))) cursor =
      Text.byteLength (before ++ '(' :: args ++ [')']) :=
  (Text.byteLength_append (before ++ '(' :: args) [')']).symm

/-- The text stands in the source as a word of its own, behind the text before it and a gap. -/
structure StandsIn (source before gap text after : Text) : Prop where
  source_eq : source = before ++ gap ++ text ++ after
  separates : ∀ c ∈ gap, Separates c
  opens : Opens (before ++ gap)
  closes : Closes after

/-- Wherever the expression is printed, placing it finds it there. -/
def IsFound (t : PlainExpression) : Prop :=
  ∀ {source before gap after : Text}, StandsIn source before gap t.print after →
    t.outline.place source (Text.byteLength before) =
      .ok (t.located (before ++ gap), Text.byteLength (before ++ gap ++ t.print))

def AreFound (params : List (Option PlainExpression)) : Prop :=
  ∀ {source before gap lead after : Text},
    source = before ++ gap ++ printParams lead params ++ after → (∀ c ∈ gap, Separates c) →
    (∀ c ∈ lead, Separates c) → Opens (before ++ gap ++ lead) → Closes after →
      ∃ cursor, ExpressionOutline.placeParams source (outlineParams params)
        (Text.byteLength before) = .ok (locatedParams (before ++ gap) lead params, cursor)

lemma isFound_ident (name : Identifier) : IsFound (.ident name) := by
  intro source before gap after h
  rw [print] at h
  rw [outline, ExpressionOutline.place, seek_gap h.source_eq h.separates name.2 h.opens h.closes]
  rfl

lemma isFound_string (value : Text) : IsFound (.string value) := by
  intro source before gap after h
  rw [outline, ExpressionOutline.place, stringValue_quoted, quoted,
    seekText_gap h.source_eq h.separates]
  rfl

lemma isFound_number (digits : Digits) : IsFound (.number digits) := by
  intro source before gap after h
  rw [print] at h
  rw [outline, ExpressionOutline.place,
    seek_gap h.source_eq h.separates (isName_digits digits) h.opens h.closes]
  rfl

/-- Behind the object stands the point, which is the gap before the name. -/
lemma isFound_member {object : PlainExpression} (hobject : object.IsFound) (name : Identifier) :
    IsFound (.member object name) := by
  intro source before gap after h
  have hhead : source = before ++ gap ++ object.print ++ '.' :: (name.1 ++ after) := by
    simpa [print] using h.source_eq
  have htail : source = before ++ gap ++ object.print ++ ['.'] ++ name.1 ++ after := by
    simpa using hhead
  have hname := seek_gap htail separates_point name.2 (opens_point _) h.closes
  have hspan := join_spanBehind (before ++ gap) object.print name.1
  rw [← span_located] at hspan
  rw [outline, ExpressionOutline.place, hobject ⟨hhead, h.separates, h.opens, closes_point _⟩,
    Outcome.ok_bind]
  simp only [hname, hspan, Outcome.pure_eq, located]
  rw [print]
  simp only [List.append_assoc, List.singleton_append]

lemma isFound_call (name : Identifier) {params : List (Option PlainExpression)}
    (hparams : AreFound params) : IsFound (.call name params) := by
  intro source before gap after h
  have hhead : source =
      before ++ gap ++ name.1 ++ '(' :: (printParams [] params ++ ')' :: after) := by
    simpa [print] using h.source_eq
  have htail : source =
      before ++ gap ++ name.1 ++ ['('] ++ [] ++ printParams [] params ++ ')' :: after := by
    simpa using hhead
  obtain ⟨hfound, hopening, hclosing⟩ :=
    call_gap hhead h.separates name.2 h.opens (balanced_printParams balanced_nil params)
  obtain ⟨c, hparams⟩ := hparams htail (by simp) (by simp) (opens_arguments _) (closes_closing _)
  have hspan := callSpan_eq (before ++ gap) (name.1 ++ '(' :: printParams [] params)
  rw [← List.append_assoc] at hspan
  rw [outline, ExpressionOutline.place]
  simp only [hfound, hopening, Option.map_some, Option.bind_some, hclosing, hspan,
    behind_opening (before ++ gap ++ name.1), behind_closing, hparams, Outcome.ok_bind]
  simp only [Outcome.pure_eq, located, print, List.append_assoc, List.cons_append, List.append_nil]

lemma isFound_methodCall {receiver : PlainExpression} (hreceiver : receiver.IsFound)
    (name : Identifier) {params : List (Option PlainExpression)} (hparams : AreFound params) :
    IsFound (.methodCall receiver name params) := by
  intro source before gap after h
  have hstart : source = before ++ gap ++ receiver.print ++
      '.' :: (name.1 ++ '(' :: (printParams [] params ++ ')' :: after)) := by
    simpa [print] using h.source_eq
  have hhead : source = before ++ gap ++ receiver.print ++ ['.'] ++ name.1 ++
      '(' :: (printParams [] params ++ ')' :: after) := by
    simpa using hstart
  have htail : source = before ++ gap ++ receiver.print ++ ['.'] ++ name.1 ++ ['('] ++ [] ++
      printParams [] params ++ ')' :: after := by
    simpa using hhead
  obtain ⟨hfound, hopening, hclosing⟩ := call_gap hhead separates_point name.2
    (opens_point _) (balanced_printParams balanced_nil params)
  obtain ⟨c, hparams⟩ := hparams htail (by simp) (by simp) (opens_arguments _) (closes_closing _)
  have hspan := callSpan_eq (before ++ gap)
    (receiver.print ++ ['.'] ++ name.1 ++ '(' :: printParams [] params)
  simp only [← List.append_assoc] at hspan
  have hoffset : (receiver.located (before ++ gap)).span.map Span.offset =
      some (Text.byteLength (before ++ gap)) := by
    rw [span_located]
    rfl
  rw [outline, ExpressionOutline.place, hreceiver ⟨hstart, h.separates, h.opens, closes_point _⟩,
    Outcome.ok_bind]
  simp only [hfound, hopening, Option.bind_some, hclosing, hoffset, hspan,
    behind_opening (before ++ gap ++ receiver.print ++ ['.'] ++ name.1), behind_closing, hparams,
    Outcome.ok_bind]
  simp only [Outcome.pure_eq, located, print, List.append_assoc, List.cons_append,
    List.append_nil, List.nil_append]

/-- An omitted argument does not move the cursor, so that what leads to the next one widens the
gap. -/
lemma areFound_none {params : List (Option PlainExpression)} (hparams : AreFound params) :
    AreFound (none :: params) := by
  intro source before gap lead after hsource hgap hlead hopens hafter
  have htail : source = before ++ (gap ++ lead) ++ printParams separator params ++ after := by
    simpa [printParams] using hsource
  obtain ⟨c, hparams⟩ := hparams htail (fun c hc => (List.mem_append.1 hc).elim (hgap c) (hlead c))
    separates_separator (opens_separator _) hafter
  refine ⟨c, ?_⟩
  rw [outlineParams, ExpressionOutline.placeParams, hparams, Outcome.ok_bind, locatedParams,
    List.append_assoc]
  rfl

lemma areFound_some {param : PlainExpression} {params : List (Option PlainExpression)}
    (hparam : param.IsFound) (hparams : AreFound params) : AreFound (some param :: params) := by
  intro source before gap lead after hsource hgap hlead hopens hafter
  have hhead : source =
      before ++ (gap ++ lead) ++ param.print ++ (printParams separator params ++ after) := by
    simpa [printParams] using hsource
  have hplace := hparam ⟨hhead, fun c hc => (List.mem_append.1 hc).elim (hgap c) (hlead c),
    by simpa using hopens, closes_printParams hafter params⟩
  have htail : source =
      before ++ (gap ++ lead) ++ param.print ++ [] ++ printParams separator params ++ after := by
    simpa using hhead
  obtain ⟨c, hparams⟩ := hparams htail (by simp) separates_separator (opens_separator _) hafter
  refine ⟨c, ?_⟩
  rw [outlineParams, ExpressionOutline.placeParams, hplace, Outcome.ok_bind]
  simp only [hparams, Outcome.ok_bind]
  simp only [locatedParams, List.append_assoc, List.append_nil, Outcome.pure_eq]

mutual

/-- **A printed expression is found where it stands.** -/
lemma place_located : ∀ t : PlainExpression, t.IsFound
  | .ident name => isFound_ident name
  | .member object name => isFound_member (place_located object) name
  | .call name params => isFound_call name (placeParams_located params)
  | .methodCall receiver name params =>
    isFound_methodCall (place_located receiver) name (placeParams_located params)
  | .string value => isFound_string value
  | .number digits => isFound_number digits

lemma placeParams_located : ∀ params : List (Option PlainExpression), AreFound params
  | [] => fun _ _ _ _ _ => ⟨_, rfl⟩
  | none :: params => areFound_none (placeParams_located params)
  | some param :: params => areFound_some (place_located param) (placeParams_located params)

end

/-! ### The texts of the nodes -/

lemma slice?_behind {source before text after : Text} (h : source = before ++ text ++ after) :
    Text.slice? source (Text.byteLength before) (Span.stop ⟨Text.byteLength before,
      Text.byteLength text⟩) = some text :=
  Text.slice?_eq_some_iff.2 ⟨before, after, h, rfl, rfl⟩

mutual

/-- **The span of every node is that of its text.** -/
lemma slices_located : ∀ (t : PlainExpression) {source before after : Text},
    source = before ++ t.print ++ after →
      (t.located before).spans.map (fun s => Text.slice? source s.offset s.stop) =
        t.texts.map some
  | .ident name, source, before, after, hsource => by
    have hspan := slice?_behind hsource
    rw [print] at hspan
    simp [located, Expression.spans, Expression.spansOption, spanBehind, texts, hspan]
  | .member object name, source, before, after, hsource => by
    have hobject : source = before ++ object.print ++ '.' :: (name.1 ++ after) := by
      simpa [print] using hsource
    have hspan := slice?_behind hsource
    simp [located, Expression.spans, Expression.spansOption, spanBehind, texts, hspan,
      slices_located object hobject]
  | .call name params, source, before, after, hsource => by
    have hparams : source =
        before ++ name.1 ++ ['('] ++ printParams [] params ++ ')' :: after := by
      simpa [print] using hsource
    have hspan := slice?_behind hsource
    simp only [located, Expression.spans, Expression.spansOption, spanBehind, texts,
      Option.toList_some, List.map_append, List.map_cons, List.map_nil, hspan,
      slices_locatedParams params hparams]
    rfl
  | .methodCall receiver name params, source, before, after, hsource => by
    have hreceiver : source = before ++ receiver.print ++
        '.' :: (name.1 ++ '(' :: (printParams [] params ++ ')' :: after)) := by
      simpa [print] using hsource
    have hparams : source = before ++ receiver.print ++ ['.'] ++ name.1 ++ ['('] ++
        printParams [] params ++ ')' :: after := by
      simpa using hreceiver
    have hspan := slice?_behind hsource
    simp only [located, Expression.spans, Expression.spansOption, spanBehind, texts,
      Option.toList_some, List.map_append, List.map_cons, List.map_nil, hspan,
      slices_located receiver hreceiver, slices_locatedParams params hparams]
    rfl
  | .string value, source, before, after, hsource => by
    have hspan := slice?_behind hsource
    rw [print] at hspan
    simp [located, Expression.spans, spanBehind, texts, hspan]
  | .number digits, source, before, after, hsource => by
    have hspan := slice?_behind hsource
    rw [print] at hspan
    simp [located, Expression.spans, spanBehind, texts, hspan]

lemma slices_locatedParams : ∀ (params : List (Option PlainExpression))
    {source before lead after : Text}, source = before ++ printParams lead params ++ after →
      (Expression.spansList (locatedParams before lead params)).map
        (fun s => Text.slice? source s.offset s.stop) = (textsParams params).map some
  | [], source, before, lead, after, hsource => rfl
  | none :: params, source, before, lead, after, hsource => by
    have htail : source = before ++ lead ++ printParams separator params ++ after := by
      simpa [printParams] using hsource
    exact slices_locatedParams params htail
  | some param :: params, source, before, lead, after, hsource => by
    have hparam : source =
        before ++ lead ++ param.print ++ (printParams separator params ++ after) := by
      simpa [printParams] using hsource
    have htail : source =
        before ++ lead ++ param.print ++ printParams separator params ++ after := by
      simpa using hparam
    simp only [locatedParams, Expression.spansList, Expression.spansOption, textsParams,
      List.map_append, slices_located param hparam, slices_locatedParams params htail]

end

/-- **Printed expressions are located exactly.** Where an expression is printed as a word of its
own, placing its description from the end of the text before it gives the expression with the span
of every node where its text is printed, and leaves the cursor at the end of the whole. -/
theorem place_print (t : PlainExpression) {before after : Text} (hbefore : Opens before)
    (hafter : Closes after) :
    t.outline.place (before ++ t.print ++ after) (Text.byteLength before) =
        .ok (t.located before, Text.byteLength (before ++ t.print)) ∧
      (t.located before).spans.map
          (fun s => Text.slice? (before ++ t.print ++ after) s.offset s.stop) =
        t.texts.map some := by
  have hstands : StandsIn (before ++ t.print ++ after) before [] t.print after :=
    ⟨by rw [List.append_nil], by simp, by rwa [List.append_nil], hafter⟩
  have hplace := t.place_located hstands
  rw [List.append_nil] at hplace
  exact ⟨hplace, t.slices_located rfl⟩

def one : Digits := ⟨['1'], List.cons_ne_nil _ _, List.forall_mem_singleton.2 rfl⟩

/-- The call `a.m(")""(", , f(1))`: a quote and parentheses in a string, an omitted argument and a
call among the arguments. -/
def nestedCall : PlainExpression :=
  .methodCall (.ident ⟨['a'], by decide +kernel⟩) ⟨['m'], by decide +kernel⟩
    [some (.string [')', '"', '(']), none,
      some (.call ⟨['f'], by decide +kernel⟩ [some (.number one)])]

theorem place_print_nestedCall :
    (Opens ['x', ' ', '=', ' '] ∧ Closes [';'] ∧
      nestedCall.print = ['a', '.', 'm', '(', '"', ')', '"', '"', '(', '"', ',', ' ', ',', ' ',
        'f', '(', '1', ')', ')']) ∧
    nestedCall.outline.place (['x', ' ', '=', ' '] ++ nestedCall.print ++ [';']) 4 =
      .ok (nestedCall.located ['x', ' ', '=', ' '], 23) := by
  have hbefore : Opens ['x', ' ', '=', ' '] := by
    rintro c ⟨⟩
    decide +kernel
  have hafter : Closes [';'] := by
    rintro c ⟨⟩
    decide +kernel
  exact ⟨⟨hbefore, hafter, by decide +kernel⟩, (place_print nestedCall hbefore hafter).1⟩

end PlainExpression

end BslLint
