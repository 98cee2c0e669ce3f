import BslLint.Proofs.Syntax.Occurrences
import BslLint.Proofs.Syntax.Spans

/-!
The sites of executed code and of invocations. A site is worked out exactly when the text of its
node is found, and it carries the text, the environments and the statements that belong to the
node.
-/

namespace BslLint

namespace CallSite

/-- The site is the one of the node: its text is found behind the span of the node, and it belongs
to the routine of the node. -/
structure Of (o : Occurrence) (site : CallSite) : Prop where
  located : locate o.scope.module.source o.node.span = .ok site.text
  environments_eq : site.environments = o.scope.environments
  statements_eq : site.statements = o.scope.statements

/-- The site of a node is worked out exactly when its text is found. -/
structure Resolves (o : Occurrence) (site : Analysis CallSite) : Prop where
  safe : site.Safe (Of o)
  succeeds : (locate o.scope.module.source o.node.span).Succeeds → site.Succeeds
  ne_cancelled : site ≠ .error .cancelled

lemma resolves_of_locate (o : Occurrence) (h : SpanFits o.node.span)
    {f : SourceText → Analysis CallSite}
    (hf : ∀ t, locate o.scope.module.source o.node.span = .ok t →
      ∃ site, f t = .ok site ∧ site.Of o) :
    Resolves o (locate o.scope.module.source o.node.span >>= f) := by
  rcases locate_cases o.scope.module.source h with ⟨t, ht⟩ | ⟨e, he, hne⟩
  · obtain ⟨site, hsite, hof⟩ := hf t ht
    rw [ht, Outcome.ok_bind, hsite]
    exact ⟨hof, fun _ => ⟨site, rfl⟩, by simp⟩
  · rw [he]
    refine ⟨trivial, ?_, by simpa using hne⟩
    rintro ⟨t, ht⟩
    cases he.symm.trans ht

lemma resolves_ofExecute (scope : Scope) (code : Expression) {span : Option Span}
    (h : SpanFits span) :
    Resolves ⟨scope, .statement (.execute code span)⟩ (ofExecute scope (.execute code span)) :=
  resolves_of_locate ⟨scope, .statement (.execute code span)⟩ h fun t ht =>
    ⟨_, by rw [Text.cut_lengthUntil]; rfl, ht, rfl, rfl⟩

lemma resolves_ofInvocation (scope : Scope) (name : Text) {receiver : Option Expression}
    (params : List (Option Expression)) {span : Option Span} (h : SpanFits span)
    (hreceiver : SpanFits (receiver.bind Expression.span)) :
    Resolves ⟨scope, .expression (.invocation name receiver params span)⟩
      (ofInvocation scope (.invocation name receiver params span)) := by
  refine resolves_of_locate ⟨scope, .expression (.invocation name receiver params span)⟩ h
    fun t ht => ?_
  obtain ⟨stop, hstop⟩ : ∃ stop, receiverEndIn t receiver = .ok stop :=
    exists_receiverEndIn hreceiver
  rw [hstop]
  exact ⟨_, rfl, ht, rfl, rfl⟩

end CallSite

end BslLint
