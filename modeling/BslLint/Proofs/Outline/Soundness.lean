import BslLint.Proofs.Outline.Search
import BslLint.Proofs.Syntax.Spans

/-!
Placing expressions and statements is sound: from a cursor on a boundary of the text, whatever is
described, the work does not break off, the cursor moves on to a boundary, and every span that a
node gets lies on the text. An expression that gets a span begins no earlier than the cursor and
ends where the cursor is afterwards.
-/

namespace BslLint

/-- The expression was placed from the first cursor on, and the second one was left. -/
structure Expression.Placed (source : Text) (cursor : Nat) (e : Expression) (cursor' : Nat) :
    Prop where
  sought : Outline.Sought source cursor e.span cursor'
  spans : ∀ s ∈ e.spans, s.On source

lemma Expression.Placed.of_operands {source : Text} {cursor cursor' : Nat} {e : Expression}
    {operands : List Span} (h : Outline.Sought source cursor e.span cursor')
    (hspans : e.spans = e.span.toList ++ operands) (hoperands : ∀ s ∈ operands, s.On source) :
    e.Placed source cursor cursor' := by
  refine ⟨h, fun s hs => ?_⟩
  rw [hspans, List.mem_append, Option.mem_toList] at hs
  rcases hs with hs | hs
  · exact (h.found s hs).1
  · exact hoperands s hs

lemma Expression.Placed.of_leaf {source : Text} {cursor cursor' : Nat} {e : Expression}
    (h : Outline.Sought source cursor e.span cursor') (hspans : e.spans = e.span.toList) :
    e.Placed source cursor cursor' :=
  .of_operands h (by rw [hspans, List.append_nil]) (by simp)

lemma Expression.Placed.carried {source : Text} {cursor cursor' : Nat} {e : Expression}
    (h : e.Placed source cursor cursor') : Outline.Carried source cursor e.spans cursor' :=
  ⟨h.sought.advances, h.spans⟩

namespace Outline

variable {source : Text} {cursor cursor' : Nat}

/-- The span of a call and the cursor behind it. Its arguments may have led the cursor past the
closing parenthesis, to which it then returns, but never before the opening one. -/
lemma sought_call {start : Option Nat} {found : Option Span} {first : Nat}
    (hfirst : first ≤ cursor) (hfound : ∀ s ∈ found, cursor ≤ s.offset)
    (hstart : ∀ p ∈ start,
      Text.isBoundary source p = true ∧ first ≤ p ∧ ∀ s ∈ found, p ≤ s.offset)
    (hopening : cursor ≤ behind (openingParen source found) cursor)
    (hparams : Advances source (behind (openingParen source found) cursor) cursor') :
    Sought source first
      (callSpan start ((openingParen source found).bind (matchingParen source)))
      (behind ((openingParen source found).bind (matchingParen source)) cursor') := by
  cases hclosing : (openingParen source found).bind (matchingParen source) with
  | none =>
    have hspan : callSpan start none = none := by cases start <;> rfl
    rw [hspan]
    exact .none ⟨Nat.le_trans hfirst (Nat.le_trans hopening hparams.le), hparams.boundary⟩
  | some closing =>
    obtain ⟨opening, hopen, hmatch⟩ := Option.bind_eq_some_iff.1 hclosing
    obtain ⟨s, hs, hstop, -⟩ := exists_of_openingParen hopen
    have hclose := matchingParen_advances hmatch
    have hcursor := hfound s hs
    have hle : first ≤ closing + 1 := by
      have := hclose.le
      simp only [Span.stop] at hstop
      omega
    refine ⟨⟨hle, hclose.boundary⟩, ?_⟩
    intro s' hs'
    obtain ⟨p, hp, hs'⟩ := Option.bind_eq_some_iff.1 hs'
    cases hs'
    obtain ⟨hboundary, hfirst', hname⟩ := hstart p hp
    have hp' : p ≤ closing + 1 := by
      have h₁ := hname s hs
      have h₂ := hclose.le
      simp only [Span.stop] at hstop
      omega
    exact ⟨Span.on_between hboundary hclose.boundary, hfirst', Span.stop_between hp'⟩

end Outline

namespace ExpressionOutline

open Outline

variable {source : Text}

/-- Placing the expression from a boundary on finds it behind the cursor, with its spans on the
way. -/
def IsSafe (source : Text) (o : ExpressionOutline) : Prop :=
  ∀ {cursor : Nat}, Text.isBoundary source cursor = true →
    (o.place source cursor).Safe fun r => r.1.Placed source cursor r.2

def AreSafe (source : Text) (os : List (Option ExpressionOutline)) : Prop :=
  ∀ {cursor : Nat}, Text.isBoundary source cursor = true →
    (placeParams source os cursor).Safe fun r =>
      Carried source cursor (Expression.spansList r.1) r.2

lemma isSafe_member {object : ExpressionOutline} (hobject : IsSafe source object) (name : Text) :
    IsSafe source (.member object name) := by
  intro cursor h
  refine (hobject h).bind fun ⟨e, c⟩ he => ?_
  exact .of_operands (he.sought.join (seek_sought _ he.sought.advances.boundary)) rfl he.spans

lemma isSafe_call (name : Text) {params : List (Option ExpressionOutline)}
    (hparams : AreSafe source params) : IsSafe source (.call name params) := by
  intro cursor h
  have hfound : ∀ s ∈ search source [name] cursor, s.On source ∧ cursor ≤ s.offset :=
    fun s hs => exists_of_search hs
  have hopening := openingParen_advances h fun s hs => (hfound s hs).2
  refine (hparams hopening.boundary).bind fun ⟨es, c⟩ hes => ?_
  refine .of_operands (sought_call (Nat.le_refl _) (fun s hs => (hfound s hs).2) ?_ hopening.le
    hes.advances) (by simp [Expression.spans, Expression.span, Expression.spansOption]) hes.spans
  intro p hp
  obtain ⟨s, hs, rfl⟩ := Option.map_eq_some_iff.1 hp
  obtain ⟨hon, hle⟩ := hfound s hs
  exact ⟨hon.offset, hle, by simp [hs]⟩

lemma isSafe_methodCall {receiver : ExpressionOutline} (hreceiver : IsSafe source receiver)
    (name : Text) {params : List (Option ExpressionOutline)} (hparams : AreSafe source params) :
    IsSafe source (.methodCall receiver name params) := by
  intro cursor h
  refine (hreceiver h).bind fun ⟨e, c⟩ he => ?_
  have hfound : ∀ s ∈ search source [name] c, c ≤ s.offset :=
    fun s hs => (exists_of_search hs).2
  have hopening := openingParen_advances he.sought.advances.boundary hfound
  refine (hparams hopening.boundary).bind fun ⟨es, c'⟩ hes => ?_
  refine .of_operands (sought_call he.sought.advances.le hfound ?_ hopening.le hes.advances)
    (List.append_assoc ..) ?_
  · intro p hp
    obtain ⟨s, hs, rfl⟩ := Option.map_eq_some_iff.1 hp
    obtain ⟨hon, hle, hstop⟩ := he.sought.found s hs
    refine ⟨hon.offset, hle, fun s' hs' => ?_⟩
    have := hfound s' hs'
    simp only [Span.stop] at hstop
    omega
  · simp only [List.mem_append]
    rintro s (hs | hs)
    · exact he.spans s hs
    · exact hes.spans s hs

lemma isSafe_string (text : Text) : IsSafe source (.string text) := by
  intro cursor h
  refine (seekText_safe h).bind fun ⟨span, c⟩ hseek => ?_
  exact .of_leaf hseek rfl

lemma isSafe_binary (op : BinaryOp) {left right : ExpressionOutline} (hleft : IsSafe source left)
    (hright : IsSafe source right) : IsSafe source (.binary op left right) := by
  intro cursor h
  refine (hleft h).bind fun ⟨l, c⟩ hl => ?_
  refine (hright hl.sought.advances.boundary).bind fun ⟨r, c'⟩ hr => ?_
  refine .of_operands (hl.sought.join hr.sought) (List.append_assoc ..) ?_
  simp only [List.mem_append]
  rintro s (hs | hs)
  · exact hl.spans s hs
  · exact hr.spans s hs

lemma isSafe_not {operand : ExpressionOutline} (hoperand : IsSafe source operand) :
    IsSafe source (.not operand) := by
  intro cursor h
  have hseek : Sought source cursor _ _ := seek_sought (spellings notWord) h
  refine (hoperand hseek.advances.boundary).bind fun ⟨e, c⟩ he => ?_
  exact .of_operands (hseek.join he.sought) rfl he.spans

lemma areSafe_none {os : List (Option ExpressionOutline)} (hos : AreSafe source os) :
    AreSafe source (none :: os) := fun h =>
  (hos h).bind fun _ hes => hes.mono (by simp [Expression.spansList, Expression.spansOption])

lemma areSafe_some {o : ExpressionOutline} {os : List (Option ExpressionOutline)}
    (ho : IsSafe source o) (hos : AreSafe source os) : AreSafe source (some o :: os) := fun h =>
  (ho h).bind fun _ he => (hos he.sought.advances.boundary).bind fun _ hes => he.carried.trans hes

mutual

/-- **Placing an expression is sound.** -/
lemma place_safe : ∀ o : ExpressionOutline, IsSafe source o
  | .ident _ => fun h =>
    .of_leaf (seek_sought _ h) (by simp [Expression.spans, Expression.span, Expression.spansOption])
  | .member object name => isSafe_member (place_safe object) name
  | .call name params => isSafe_call name (placeParams_safe params)
  | .methodCall receiver name params =>
    isSafe_methodCall (place_safe receiver) name (placeParams_safe params)
  | .boolean _ | .number _ | .undefined _ => fun h => .of_leaf (seek_sought _ h) rfl
  | .string text => isSafe_string text
  | .binary op left right => isSafe_binary op (place_safe left) (place_safe right)
  | .not operand => isSafe_not (place_safe operand)

lemma placeParams_safe : ∀ os : List (Option ExpressionOutline), AreSafe source os
  | [] => fun h => .nil h
  | none :: os => areSafe_none (placeParams_safe os)
  | some o :: os => areSafe_some (place_safe o) (placeParams_safe os)

end

end ExpressionOutline

/-! ### Statements -/

namespace Outline

variable {source : Text} {cursor : Nat}

lemma seekWord_sought (word : Spelling) (h : Text.isBoundary source cursor = true) :
    Sought source cursor (seekWord source word cursor).1 (seekWord source word cursor).2 :=
  seek_sought _ h

lemma statementStop_safe {stop : Nat} (h : Text.isBoundary source stop = true) :
    (statementStop source stop).Safe fun n => Text.isBoundary source n = true := by
  have hnext := skipBlanks_advances h
  refine (standsAt_safe rfl hnext.boundary).bind fun b hb => ?_
  cases b with
  | false => exact h
  | true => exact hb rfl

lemma statementSpan_safe {start : Option Nat} {last : Option Span}
    (h : Text.isBoundary source cursor = true)
    (hstart : ∀ p ∈ start, Text.isBoundary source p = true) (hlast : ∀ s ∈ last, s.On source) :
    (statementSpan source start last cursor).Safe fun r =>
      Carried source cursor r.1.toList r.2 := by
  unfold statementSpan
  split
  · rename_i p s
    refine (statementStop_safe (hlast s rfl).stop).bind fun n hn => ?_
    exact ⟨.to_max h hn, by simpa using Span.on_between (hstart p rfl) hn⟩
  · exact .nil h

lemma parenBehind_safe {keyword : Option Span} (h : Text.isBoundary source cursor = true)
    (hkeyword : ∀ s ∈ keyword, s.On source ∧ s.stop = cursor) :
    (parenBehind source keyword).Safe fun opening =>
      Advances source cursor (behind opening cursor) ∧ ∀ p ∈ opening, cursor ≤ p := by
  unfold parenBehind
  split
  · exact ⟨.refl h, by simp⟩
  · rename_i s
    obtain ⟨hon, rfl⟩ := hkeyword s rfl
    have hnext := skipBlanks_advances hon.stop
    refine (standsAt_safe rfl hnext.boundary).bind fun b hb => ?_
    cases b with
    | false => exact ⟨.refl h, by simp⟩
    | true => exact ⟨⟨Nat.le_succ_of_le hnext.le, hb rfl⟩, by simpa using hnext.le⟩

/-- The closing parenthesis that matches an opening one, and the place behind it. What stands
between the two may have led the cursor further. -/
lemma closing_advances {opening : Option Nat} {first : Nat} (h : Advances source first cursor)
    (hopening : ∀ p ∈ opening, first ≤ p) :
    Advances source first (behind (opening.bind (matchingParen source)) cursor) := by
  cases hclosing : opening.bind (matchingParen source) with
  | none => exact h
  | some closing =>
    obtain ⟨p, hp, hmatch⟩ := Option.bind_eq_some_iff.1 hclosing
    have hclose := matchingParen_advances hmatch
    exact ⟨Nat.le_trans (hopening p hp) hclose.le, hclose.boundary⟩

end Outline

namespace StatementOutline

open Outline

variable {source : Text}

lemma placeValue_safe (o : Option ExpressionOutline) {cursor : Nat}
    (h : Text.isBoundary source cursor = true) :
    (placeValue source o cursor).Safe fun r =>
      Carried source cursor (Expression.spansOption r.1) r.2 := by
  cases o with
  | none => exact .nil h
  | some o => exact (o.place_safe h).bind fun ⟨e, c⟩ he => he.carried

/-- Placing the statement from a boundary on moves the cursor on, and its spans lie on the way. -/
def IsSafe (source : Text) (o : StatementOutline) : Prop :=
  ∀ {cursor : Nat}, Text.isBoundary source cursor = true →
    (o.place source cursor).Safe fun r => Carried source cursor r.1.spans r.2

def AreSafe (source : Text) (os : List StatementOutline) : Prop :=
  ∀ {cursor : Nat}, Text.isBoundary source cursor = true →
    (placeList source os cursor).Safe fun r =>
      Carried source cursor (Statement.spansList r.1) r.2

def BranchIsSafe (source : Text) (o : BranchOutline) : Prop :=
  ∀ {cursor : Nat}, Text.isBoundary source cursor = true →
    (placeBranch source o cursor).Safe fun r => Carried source cursor r.1.spans r.2

def BranchesAreSafe (source : Text) (os : List BranchOutline) : Prop :=
  ∀ {cursor : Nat}, Text.isBoundary source cursor = true →
    (placeBranches source os cursor).Safe fun r =>
      Carried source cursor (Branch.spansList r.1) r.2

def ElseIsSafe (source : Text) (o : Option (List StatementOutline)) : Prop :=
  ∀ {cursor : Nat}, Text.isBoundary source cursor = true →
    (placeElse source o cursor).Safe fun r =>
      Carried source cursor (Statement.spansElse r.1) r.2

lemma isSafe_simple (expression : ExpressionOutline) : IsSafe source (.simple expression) := by
  intro cursor h
  refine (expression.place_safe h).bind fun ⟨e, c⟩ he => ?_
  refine (statementSpan_safe he.sought.advances.boundary he.sought.isBoundary_offset
    he.sought.on).bind fun ⟨span, c'⟩ hspan => ?_
  refine (he.carried.trans hspan).mono fun s hs => ?_
  simpa [Statement.spans, Expression.spansOption, or_comm] using hs

lemma isSafe_assign (left right : ExpressionOutline) : IsSafe source (.assign left right) := by
  intro cursor h
  refine (left.place_safe h).bind fun ⟨l, c⟩ hl => ?_
  refine (right.place_safe hl.sought.advances.boundary).bind fun ⟨r, c'⟩ hr => ?_
  refine (statementSpan_safe hr.sought.advances.boundary hl.sought.isBoundary_offset
    hr.sought.on).bind fun ⟨span, c''⟩ hspan => ?_
  refine ((hl.carried.trans hr.carried).trans hspan).mono fun s hs => ?_
  simp only [Statement.spans, Expression.spansOption, List.mem_append] at hs ⊢
  tauto

lemma isSafe_ifChain {first : BranchOutline} {elseIfs : List BranchOutline}
    {otherwise : Option (List StatementOutline)} (hfirst : BranchIsSafe source first)
    (helseIfs : BranchesAreSafe source elseIfs) (hotherwise : ElseIsSafe source otherwise) :
    IsSafe source (.ifChain first elseIfs otherwise) := by
  intro cursor h
  have hstart := seekWord_sought ifWord h
  refine (hfirst hstart.advances.boundary).bind fun ⟨b, c₁⟩ hb => ?_
  refine (helseIfs hb.advances.boundary).bind fun ⟨bs, c₂⟩ hbs => ?_
  refine (hotherwise hbs.advances.boundary).bind fun ⟨o, c₃⟩ ho => ?_
  have hlast := seekWord_sought endIfWord ho.advances.boundary
  refine (statementSpan_safe hlast.advances.boundary hstart.isBoundary_offset hlast.on).bind
    fun ⟨span, c₄⟩ hspan => ?_
  refine ((((hb.behind hstart.advances).trans hbs).trans ho).trans
    (hspan.behind hlast.advances)).mono fun s hs => ?_
  simp only [Statement.spans, List.mem_append] at hs ⊢
  tauto

lemma isSafe_whileLoop (predicate : ExpressionOutline) {body : List StatementOutline}
    (hbody : AreSafe source body) : IsSafe source (.whileLoop predicate body) := by
  intro cursor h
  have hstart := seekWord_sought whileWord h
  refine (predicate.place_safe hstart.advances.boundary).bind fun ⟨e, c⟩ he => ?_
  have hdo := seekWord_sought doWord he.sought.advances.boundary
  refine (hbody hdo.advances.boundary).bind fun ⟨ss, c'⟩ hss => ?_
  have hlast := seekWord_sought endDoWord hss.advances.boundary
  refine (statementSpan_safe hlast.advances.boundary hstart.isBoundary_offset hlast.on).bind
    fun ⟨span, c''⟩ hspan => ?_
  refine (((he.carried.behind hstart.advances).trans (hss.behind hdo.advances)).trans
    (hspan.behind hlast.advances)).mono fun s hs => ?_
  simp only [Statement.spans, List.mem_append] at hs ⊢
  tauto

lemma isSafe_forEach (loopVar : Text) (collection : ExpressionOutline)
    {body : List StatementOutline} (hbody : AreSafe source body) :
    IsSafe source (.forEach loopVar collection body) := by
  intro cursor h
  have hstart := seekWord_sought forWord h
  have hvar := seek_sought [loopVar] hstart.advances.boundary
  refine (collection.place_safe hvar.advances.boundary).bind fun ⟨e, c⟩ he => ?_
  have hdo := seekWord_sought doWord he.sought.advances.boundary
  refine (hbody hdo.advances.boundary).bind fun ⟨ss, c'⟩ hss => ?_
  have hlast := seekWord_sought endDoWord hss.advances.boundary
  refine (statementSpan_safe hlast.advances.boundary hstart.isBoundary_offset hlast.on).bind
    fun ⟨span, c''⟩ hspan => ?_
  refine (((he.carried.behind (hstart.advances.trans hvar.advances)).trans
    (hss.behind hdo.advances)).trans (hspan.behind hlast.advances)).mono fun s hs => ?_
  simp only [Statement.spans, List.mem_append] at hs ⊢
  tauto

lemma isSafe_tryExcept {body handler : List StatementOutline} (hbody : AreSafe source body)
    (hhandler : AreSafe source handler) : IsSafe source (.tryExcept body handler) := by
  intro cursor h
  have hstart := seekWord_sought tryWord h
  refine (hbody hstart.advances.boundary).bind fun ⟨ss, c⟩ hss => ?_
  have hexcept := seekWord_sought exceptWord hss.advances.boundary
  refine (hhandler hexcept.advances.boundary).bind fun ⟨ss', c'⟩ hss' => ?_
  have hlast := seekWord_sought endTryWord hss'.advances.boundary
  refine (statementSpan_safe hlast.advances.boundary hstart.isBoundary_offset hlast.on).bind
    fun ⟨span, c''⟩ hspan => ?_
  refine (((hss.behind hstart.advances).trans (hss'.behind hexcept.advances)).trans
    (hspan.behind hlast.advances)).mono fun s hs => ?_
  simp only [Statement.spans, List.mem_append] at hs ⊢
  tauto

lemma isSafe_execute (code : ExpressionOutline) : IsSafe source (.execute code) := by
  intro cursor h
  have hstart := seekWord_sought executeWord h
  refine (parenBehind_safe hstart.advances.boundary fun s hs =>
    ⟨hstart.on s hs, (hstart.found s hs).2.2⟩).bind fun opening hopening => ?_
  refine (code.place_safe hopening.1.boundary).bind fun ⟨e, c⟩ he => ?_
  -- Behind the closing parenthesis, if there is one, else behind the expression.
  have hclosing := closing_advances (hopening.1.trans he.sought.advances) hopening.2
  have hlast : ∀ s ∈ ((opening.bind (matchingParen source)).map fun pos => Span.mk pos 1).or
      e.span, s.On source := by
    cases hmatch : opening.bind (matchingParen source) with
    | none => exact he.sought.on
    | some closing =>
      rintro s ⟨⟩
      obtain ⟨p, -, hp⟩ := Option.bind_eq_some_iff.1 hmatch
      exact on_of_matchingParen hp
  refine (statementSpan_safe hclosing.boundary hstart.isBoundary_offset hlast).bind
    fun ⟨span, c'⟩ hspan => ?_
  have hcode : Carried source cursor e.spans _ := ⟨hstart.advances.trans hclosing, he.spans⟩
  refine (hcode.trans hspan).mono fun s hs => ?_
  simpa [Statement.spans, or_comm] using hs

lemma isSafe_returnValue (value : Option ExpressionOutline) :
    IsSafe source (.returnValue value) := by
  intro cursor h
  have hstart := seekWord_sought returnWord h
  refine (placeValue_safe value hstart.advances.boundary).bind fun ⟨v, c⟩ hv => ?_
  have hlast : ∀ s ∈ (v.bind Expression.span).or (seekWord source returnWord cursor).1,
      s.On source := by
    intro s hs
    rcases Option.or_eq_some_iff.1 hs with hs | ⟨-, hs⟩
    · obtain ⟨e, rfl, hs⟩ := Option.bind_eq_some_iff.1 hs
      exact hv.spans s (Expression.mem_spans_of_mem_span hs)
    · exact hstart.on s hs
  refine (statementSpan_safe hv.advances.boundary hstart.isBoundary_offset hlast).bind
    fun ⟨span, c'⟩ hspan => ?_
  refine ((hv.behind hstart.advances).trans hspan).mono fun s hs => ?_
  simpa [Statement.spans, or_comm] using hs

lemma branchIsSafe_mk (predicate : ExpressionOutline) {body : List StatementOutline}
    (hbody : AreSafe source body) : BranchIsSafe source (.mk predicate body) := by
  intro cursor h
  refine (predicate.place_safe h).bind fun ⟨e, c⟩ he => ?_
  have hthen := seekWord_sought thenWord he.sought.advances.boundary
  refine (hbody hthen.advances.boundary).bind fun ⟨ss, c'⟩ hss => ?_
  exact he.carried.trans (hss.behind hthen.advances)

lemma elseIsSafe_some {body : List StatementOutline} (hbody : AreSafe source body) :
    ElseIsSafe source (some body) := by
  intro cursor h
  have helse := seekWord_sought elseWord h
  refine (hbody helse.advances.boundary).bind fun ⟨ss, c⟩ hss => ?_
  exact hss.behind helse.advances

mutual

/-- **Placing a statement is sound.** -/
lemma place_safe : ∀ o : StatementOutline, IsSafe source o
  | .simple expression => isSafe_simple expression
  | .assign left right => isSafe_assign left right
  | .ifChain first elseIfs otherwise =>
    isSafe_ifChain (placeBranch_safe first) (placeBranches_safe elseIfs) (placeElse_safe otherwise)
  | .whileLoop predicate body => isSafe_whileLoop predicate (placeList_safe body)
  | .forEach loopVar collection body => isSafe_forEach loopVar collection (placeList_safe body)
  | .tryExcept body handler => isSafe_tryExcept (placeList_safe body) (placeList_safe handler)
  | .execute code => isSafe_execute code
  | .returnValue value => isSafe_returnValue value

lemma placeList_safe : ∀ os : List StatementOutline, AreSafe source os
  | [] => fun h => .nil h
  | o :: os => fun h =>
    (place_safe o h).bind fun _ hs => (placeList_safe os hs.advances.boundary).bind fun _ hss =>
      hs.trans hss

lemma placeBranch_safe : ∀ o : BranchOutline, BranchIsSafe source o
  | .mk predicate body => branchIsSafe_mk predicate (placeList_safe body)

lemma placeBranches_safe : ∀ os : List BranchOutline, BranchesAreSafe source os
  | [] => fun h => .nil h
  | o :: os => fun h =>
    (placeBranch_safe o h).bind fun _ hb => (placeBranches_safe os hb.advances.boundary).bind
      fun _ hbs => hb.trans hbs

lemma placeElse_safe : ∀ o : Option (List StatementOutline), ElseIsSafe source o
  | none => fun h => .nil h
  | some body => elseIsSafe_some (placeList_safe body)

end

end StatementOutline

end BslLint
