import BslLint.Extension
import BslLint.Proofs.Located
import BslLint.Proofs.Syntax.Descent
import BslLint.Proofs.Syntax.Places

/-!
The spans that occur in a module, as one list, and where the parts of the module that the checks
look at have theirs: what the walk meets, the methods, and the regions around them bring no span
that is not one of the module's.
-/

namespace BslLint

namespace Expression

mutual

def spans : Expression → List Span
  | .literal _ span => span.toList
  | .access _ source span => span.toList ++ spansOption source
  | .invocation _ receiver params span => span.toList ++ spansOption receiver ++ spansList params
  | .binary _ left right span => span.toList ++ left.spans ++ right.spans
  | .unary _ operand span => span.toList ++ operand.spans

def spansOption : Option Expression → List Span
  | none => []
  | some e => e.spans

def spansList : List (Option Expression) → List Span
  | [] => []
  | e :: es => spansOption e ++ spansList es

end

lemma mem_spans_of_mem_span {e : Expression} {s : Span} (h : s ∈ e.span) : s ∈ e.spans := by
  cases e <;> simp_all [span, spans]

lemma mem_spans_of_mem_receiver {name : Text} {receiver : Option Expression}
    {params : List (Option Expression)} {span : Option Span} {s : Span}
    (h : s ∈ receiver.bind Expression.span) :
    s ∈ (invocation name receiver params span).spans := by
  obtain ⟨e, rfl, hs⟩ := Option.bind_eq_some_iff.1 h
  simp [spans, spansOption, mem_spans_of_mem_span hs]

lemma spansOption_eq_flatMap (e : Option Expression) :
    spansOption e = e.toList.flatMap spans := by
  cases e <;> simp [spansOption]

lemma spansList_eq_flatMap (es : List (Option Expression)) :
    spansList es = (es.filterMap id).flatMap spans := by
  induction es with
  | nil => rfl
  | cons e es ih => cases e <;> simp [spansList, spansOption, ih]

lemma spans_eq (e : Expression) : e.spans = e.span.toList ++ e.children.flatMap spans := by
  cases e <;> simp [spans, span, children, spansOption_eq_flatMap, spansList_eq_flatMap]

lemma spans_subset_of_mem_children {e c : Expression} (h : c ∈ e.children) :
    c.spans ⊆ e.spans := by
  intro x hx
  rw [spans_eq]
  exact List.mem_append_right _ (List.mem_flatMap.2 ⟨c, h, hx⟩)

lemma spans_subset_of_mem_calls {e c : Expression} (h : c ∈ e.calls) : c.spans ⊆ e.spans := by
  induction e using induction_children with
  | step e ih =>
    rw [calls_eq, List.mem_append] at h
    rcases h with h | h
    · split at h
      · obtain rfl := List.mem_singleton.1 h
        exact List.Subset.refl _
      · cases h
    · obtain ⟨operand, hoperand, hc⟩ := List.mem_flatMap.1 h
      exact List.Subset.trans (ih operand hoperand hc) (spans_subset_of_mem_children hoperand)

end Expression

mutual

def Statement.spans : Statement → List Span
  | .simple left right span => span.toList ++ left.spans ++ Expression.spansOption right
  | .ifChain first elseIfs otherwise span =>
    span.toList ++ first.spans ++ Branch.spansList elseIfs ++ Statement.spansElse otherwise
  | .whileLoop predicate body span => span.toList ++ predicate.spans ++ Statement.spansList body
  | .forEach _ collection body span => span.toList ++ collection.spans ++ Statement.spansList body
  | .tryExcept body handler span =>
    span.toList ++ Statement.spansList body ++ Statement.spansList handler
  | .execute code span => span.toList ++ code.spans
  | .returnValue value span => span.toList ++ Expression.spansOption value

def Branch.spans : Branch → List Span
  | .mk predicate body => predicate.spans ++ Statement.spansList body

def Branch.spansList : List Branch → List Span
  | [] => []
  | b :: bs => b.spans ++ Branch.spansList bs

def Statement.spansElse : Option (List Statement) → List Span
  | none => []
  | some body => Statement.spansList body

def Statement.spansList : List Statement → List Span
  | [] => []
  | s :: ss => s.spans ++ Statement.spansList ss

end

lemma Statement.mem_spans_of_mem_span {s : Statement} {x : Span} (h : x ∈ s.span) :
    x ∈ s.spans := by
  cases s <;> simp_all [Statement.span, Statement.spans]

lemma Statement.spansList_eq_flatMap (ss : List Statement) :
    Statement.spansList ss = ss.flatMap Statement.spans := by
  induction ss with
  | nil => rfl
  | cons s ss ih => rw [Statement.spansList, ih, List.flatMap_cons]

lemma Branch.spansList_eq_flatMap (bs : List Branch) :
    Branch.spansList bs = bs.flatMap Branch.spans := by
  induction bs with
  | nil => rfl
  | cons b bs ih => rw [Branch.spansList, ih, List.flatMap_cons]

lemma Branch.spans_eq (b : Branch) :
    b.spans = b.predicate.spans ++ Statement.spansList b.body := by
  cases b
  rfl

namespace Statement

lemma spans_subset_of_mem_expressions {s : Statement} {e : Expression} (h : e ∈ s.expressions) :
    e.spans ⊆ s.spans := by
  intro x hx
  cases s with
  | ifChain first elseIfs otherwise span =>
    obtain ⟨b, hb, rfl⟩ := List.mem_map.1 h
    have hmem : x ∈ Branch.spansList (first :: elseIfs) := by
      rw [Branch.spansList_eq_flatMap]
      exact List.mem_flatMap.2 ⟨b, hb, by simp [Branch.spans_eq, hx]⟩
    rw [Branch.spansList, List.mem_append] at hmem
    rcases hmem with hmem | hmem <;> simp [spans, hmem]
  | simple left right span =>
    rcases List.mem_cons.1 h with rfl | h
    · simp [spans, hx]
    · obtain rfl := Option.mem_toList.1 h
      simp [spans, Expression.spansOption, hx]
  | returnValue value span =>
    obtain rfl := Option.mem_toList.1 h
    simp [spans, Expression.spansOption, hx]
  | whileLoop | forEach | execute =>
    obtain rfl := List.mem_singleton.1 h
    simp [spans, hx]
  | tryExcept => cases h

lemma spansList_subset_of_mem_bodies {s : Statement} {body : List Statement}
    (h : body ∈ s.bodies) : spansList body ⊆ s.spans := by
  intro x hx
  cases s with
  | ifChain first elseIfs otherwise span =>
    rcases List.mem_append.1 h with h | h
    · obtain ⟨b, hb, rfl⟩ := List.mem_map.1 h
      have hmem : x ∈ Branch.spansList (first :: elseIfs) := by
        rw [Branch.spansList_eq_flatMap]
        exact List.mem_flatMap.2 ⟨b, hb, by simp [Branch.spans_eq, hx]⟩
      rw [Branch.spansList, List.mem_append] at hmem
      rcases hmem with hmem | hmem <;> simp [spans, hmem]
    · obtain rfl := Option.mem_toList.1 h
      simp [spans, spansElse, hx]
  | whileLoop | forEach =>
    obtain rfl := List.mem_singleton.1 h
    simp [spans, hx]
  | tryExcept body handler span =>
    simp only [bodies, List.mem_cons, List.not_mem_nil, or_false] at h
    rcases h with rfl | rfl <;> simp [spans, hx]
  | simple | execute | returnValue => cases h

end Statement

/-- The spans of a declared method: its own, those of its marks, and those of its statements. -/
def Method.spans (m : Method) : List Span :=
  m.span.toList ++ m.nameSpan.toList ++ m.docComment.toList ++
    m.annotations.flatMap (·.span.toList) ++ Statement.spansList m.statements

namespace Item

mutual

def spans : Item → List Span
  | .method m => m.spans
  | .region r items => r.span.toList ++ r.conditionSpan.toList ++ spansList items

def spansList : List Item → List Span
  | [] => []
  | item :: items => item.spans ++ spansList items

end

lemma spansList_eq_flatMap (items : List Item) : spansList items = items.flatMap spans := by
  induction items with
  | nil => rfl
  | cons item items ih => rw [spansList, ih, List.flatMap_cons]

end Item

namespace Module

def spans (m : Module) : List Span := Item.spansList m.items ++ Statement.spansList m.statements

/-- Every span that occurs in the module ends at an offset; nothing else is asked of it. -/
def SpansFit (m : Module) : Prop := ∀ s ∈ m.spans, s.Fits

instance (m : Module) : Decidable m.SpansFit := inferInstanceAs (Decidable (∀ s ∈ m.spans, s.Fits))

end Module

/-! ### What the walk meets -/

namespace Event

def scope : Event → Scope
  | .method _ scope | .statement _ scope | .execute _ scope | .call _ scope => scope

def spans : Event → List Span
  | .method m _ => m.spans
  | .statement s _ | .execute s _ => s.spans
  | .call e _ => e.spans

/-- The event is met in the module, and its spans are among the given ones. -/
structure Within (m : Module) (spans : List Span) (e : Event) : Prop where
  module_eq : e.scope.module = m
  subset : e.spans ⊆ spans

lemma Within.mono {m : Module} {a b : List Span} {e : Event} (h : e.Within m a) (hab : a ⊆ b) :
    e.Within m b :=
  ⟨h.module_eq, List.Subset.trans h.subset hab⟩

/-- The method that an event brings to the visitor, with its scope. -/
def method? : Event → Option (Method × Scope)
  | .method f scope => some (f, scope)
  | .statement _ _ | .execute _ _ | .call _ _ => none

/-- The event belongs to the statements of the routine with the given scope. -/
structure Inside (scope : Scope) (e : Event) : Prop where
  scope_eq : e.scope = scope
  method?_eq : e.method? = none

/-- **What the walk shows of a statement** is inside the scope that is handed down to it, and brings
no spans but those of the statement. -/
lemma mem_ofStatement {scope : Scope} {s : Statement} {ev : Event}
    (h : ev ∈ ofStatement scope s) : ev.Inside scope ∧ ev.spans ⊆ s.spans := by
  induction s using Statement.induction_bodies with
  | step s ih =>
    rw [ofStatement_eq, List.mem_cons, List.mem_append, List.mem_append] at h
    rcases h with rfl | (h | h) | h
    · exact ⟨⟨rfl, rfl⟩, List.Subset.refl _⟩
    · split at h
      · obtain rfl := List.mem_singleton.1 h
        exact ⟨⟨rfl, rfl⟩, List.Subset.refl _⟩
      · cases h
    · obtain ⟨c, hc, rfl⟩ := List.mem_map.1 h
      obtain ⟨e, he, hc⟩ := List.mem_flatMap.1 hc
      exact ⟨⟨rfl, rfl⟩, List.Subset.trans (Expression.spans_subset_of_mem_calls hc)
        (Statement.spans_subset_of_mem_expressions he)⟩
    · obtain ⟨body, hbody, hev⟩ := List.mem_flatMap.1 h
      rw [ofStatements_eq_flatMap] at hev
      obtain ⟨t, ht, hev⟩ := List.mem_flatMap.1 hev
      obtain ⟨hinside, hspans⟩ := ih body hbody t ht hev
      refine ⟨hinside, fun x hx => Statement.spansList_subset_of_mem_bodies hbody ?_⟩
      rw [Statement.spansList_eq_flatMap]
      exact List.mem_flatMap.2 ⟨t, ht, hspans hx⟩

lemma mem_ofStatements {scope : Scope} {ss : List Statement} {ev : Event}
    (h : ev ∈ ofStatements scope ss) : ev.Inside scope ∧ ev.spans ⊆ Statement.spansList ss := by
  rw [ofStatements_eq_flatMap] at h
  obtain ⟨s, hs, hev⟩ := List.mem_flatMap.1 h
  obtain ⟨hinside, hspans⟩ := mem_ofStatement hev
  refine ⟨hinside, fun x hx => ?_⟩
  rw [Statement.spansList_eq_flatMap]
  exact List.mem_flatMap.2 ⟨s, hs, hspans hx⟩

lemma within_of_mem_ofStatements {scope : Scope} {ss : List Statement} {ev : Event}
    (h : ev ∈ ofStatements scope ss) : ev.Within scope.module (Statement.spansList ss) :=
  have ⟨hinside, hspans⟩ := mem_ofStatements h
  ⟨by rw [hinside.scope_eq], hspans⟩

mutual

lemma within_of_mem_ofItem {scope : Scope} {ev : Event} :
    ∀ {item : Item}, ev ∈ ofItem scope item → ev.Within scope.module item.spans
  | .method m, h => by
    simp only [ofItem, List.mem_cons] at h
    rcases h with rfl | h
    · exact ⟨rfl, List.Subset.refl _⟩
    · exact (within_of_mem_ofStatements h).mono fun x hx => by simp [Item.spans, Method.spans, hx]
  | .region r items, h => by
    simp only [ofItem] at h
    exact (within_of_mem_ofItems h).mono (by simp [Item.spans])

lemma within_of_mem_ofItems {scope : Scope} {ev : Event} :
    ∀ {items : List Item}, ev ∈ ofItems scope items →
      ev.Within scope.module (Item.spansList items)
  | [], h => by simp [ofItems] at h
  | item :: items, h => by
    simp only [ofItems, List.mem_append] at h
    rcases h with h | h
    · exact (within_of_mem_ofItem h).mono (by simp [Item.spansList])
    · exact (within_of_mem_ofItems h).mono (by simp [Item.spansList])

end

/-- **The walk stays in its module**: whatever it meets has the module in its scope and no spans but
the module's. -/
theorem within_of_mem_ofModule {m : Module} {ev : Event} (h : ev ∈ ofModule m) :
    ev.Within m m.spans := by
  rcases List.mem_append.1 h with h | h
  · exact (within_of_mem_ofItems h).mono (by simp [Module.spans])
  · exact (within_of_mem_ofStatements h).mono (by simp [Module.spans])

end Event

/-! ### Declared methods -/

namespace Item

mutual

lemma spans_subset_of_mem_methods {m : Method} :
    ∀ {item : Item}, m ∈ item.methods → m.spans ⊆ item.spans
  | .method _, h => by
    simp only [methods, List.mem_singleton] at h
    exact h ▸ List.Subset.refl _
  | .region r items, h => by
    simp only [methods] at h
    exact List.Subset.trans (spans_subset_of_mem_methodsList h) (by simp [spans])

lemma spans_subset_of_mem_methodsList {m : Method} :
    ∀ {items : List Item}, m ∈ methodsList items → m.spans ⊆ spansList items
  | [], h => by simp [methodsList] at h
  | item :: items, h => by
    simp only [methodsList, List.mem_append] at h
    rcases h with h | h
    · exact List.Subset.trans (spans_subset_of_mem_methods h) (by simp [spansList])
    · exact List.Subset.trans (spans_subset_of_mem_methodsList h) (by simp [spansList])

end

mutual

lemma map_method_declarations (place : List Nat) :
    ∀ item : Item, (item.declarations place).map Declaration.method = item.methods
  | .method m => by simp [declarations, methods]
  | .region r items => by
    simp only [declarations, methods]
    exact map_method_declarationsFrom place 0 items

lemma map_method_declarationsFrom (place : List Nat) (index : Nat) :
    ∀ items : List Item,
      (declarationsFrom place index items).map Declaration.method = methodsList items
  | [] => by simp [declarationsFrom, methodsList]
  | item :: items => by
    simp only [declarationsFrom, methodsList, List.map_append]
    rw [map_method_declarations, map_method_declarationsFrom]

end

lemma conditionSpan_subset_of_getElem? {items inner : List Item} {r : Region} {i : Nat}
    (h : items[i]? = some (.region r inner)) :
    r.conditionSpan.toList ⊆ spansList items ∧ spansList inner ⊆ spansList items := by
  induction items generalizing i with
  | nil => simp at h
  | cons item items ih =>
    cases i with
    | zero =>
      simp only [List.getElem?_cons_zero, Option.some.injEq] at h
      subst h
      exact ⟨fun x hx => by simp [spansList, spans, hx], fun x hx => by simp [spansList, spans, hx]⟩
    | succ i =>
      rw [List.getElem?_cons_succ] at h
      obtain ⟨hr, hinner⟩ := ih h
      exact ⟨fun x hx => by simp [spansList, hr hx], fun x hx => by simp [spansList, hinner hx]⟩

lemma conditionSpan_subset_of_scopeAt? {items : List Item} {path : List Nat} {scope s : Scope}
    (h : scopeAt? scope items path = some s) {r : Region} (hr : s.region = some r) :
    scope.region = some r ∨ r.conditionSpan.toList ⊆ spansList items := by
  fun_induction scopeAt? scope items path with
  | case1 => cases h
  | case2 scope items index m hitem =>
    cases h
    exact Or.inl hr
  | case3 scope items index rest r' inner hitem ih =>
    obtain ⟨hcond, hinner⟩ := conditionSpan_subset_of_getElem? hitem
    rcases ih h with hsame | hsub
    · cases hsame
      exact Or.inr hcond
    · exact Or.inr (List.Subset.trans hsub hinner)
  | case4 => cases h

end Item

namespace Module

variable {m : Module}

lemma spans_subset_of_mem_methods {method : Method} (h : method ∈ m.methods) :
    method.spans ⊆ m.spans :=
  List.Subset.trans (Item.spans_subset_of_mem_methodsList h) (by simp [spans])

lemma method_mem_methods {d : Declaration} (h : d ∈ m.declarations) : d.method ∈ m.methods := by
  rw [methods, ← Item.map_method_declarationsFrom [] 0]
  exact List.mem_map_of_mem h

lemma SpansFit.of_subset (h : m.SpansFit) {span : Option Span} (hs : span.toList ⊆ m.spans) :
    SpanFits span :=
  fun s hs' => h s (hs (by simpa using hs'))

lemma SpansFit.of_mem_methods (h : m.SpansFit) {f : Method} (hf : f ∈ m.methods) :
    SpanFits f.span ∧ SpanFits f.nameSpan ∧ SpanFits f.docComment := by
  have hspans := spans_subset_of_mem_methods hf
  refine ⟨?_, ?_, ?_⟩
  all_goals exact h.of_subset fun s hs => hspans (by simp [Method.spans, List.mem_append, hs])

lemma SpansFit.conditionSpan (h : m.SpansFit) {d : Declaration} {s : Scope} {r : Region}
    (hs : Scope.ofDeclaration m d = .ok s) (hr : s.region = some r) : SpanFits r.conditionSpan := by
  rw [Scope.ofDeclaration_eq] at hs
  split at hs
  · rename_i s' hplace
    cases hs
    rcases Item.conditionSpan_subset_of_scopeAt? hplace hr with hnone | hsub
    · cases hnone
    · exact h.of_subset (List.Subset.trans hsub (by simp [spans]))
  · cases hs

end Module

/-! ### Call sites -/

namespace CallSite

variable {scope : Scope}

lemma ofInvocation_safe {e : Expression} (h : ∀ s ∈ e.spans, s.Fits) :
    (ofInvocation scope e).Safe fun site => site.text.Located scope.module.source := by
  cases e with
  | invocation name receiver params span =>
    have hspan : SpanFits span := fun s hs => h s (Expression.mem_spans_of_mem_span hs)
    have hreceiver : SpanFits (receiver.bind Expression.span) :=
      fun s hs => h s (Expression.mem_spans_of_mem_receiver hs)
    refine (locate_safe hspan).bind fun text htext => ?_
    exact (receiverEndIn_safe hreceiver).bind fun receiverEnd _ => htext
  | _ => trivial

lemma ofExecute_safe {s : Statement} (h : ∀ x ∈ s.spans, x.Fits) :
    (ofExecute scope s).Safe fun site => site.text.Located scope.module.source := by
  cases s with
  | execute code span =>
    have hspan : SpanFits span := fun x hx => h x (Statement.mem_spans_of_mem_span hx)
    refine (locate_safe hspan).bind fun text htext => ?_
    rw [Text.cut_lengthUntil]
    exact htext
  | _ => trivial

end CallSite

end BslLint
