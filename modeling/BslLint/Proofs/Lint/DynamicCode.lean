import BslLint.Proofs.Call.Site
import BslLint.Proofs.Lint.Findings

/-!
The rule on evaluated code is exact: its findings are the executed code and the evaluating calls of
the module, at whatever depth, that may run on the server in a routine without guard, each once.

What is to be reported is said on the occurrences of the module (`Occurrence.Unguarded`), without
the walk and without the visitor.
-/

namespace BslLint

/-! ### The guard -/

namespace GuardState

lemma scanFrom_cases {c : Cancellation} (hc : c.Lasts) (state : GuardState)
    (ss : List Statement) :
    ∃ c', c.Before c' ∧
      (scanFrom state ss c = (.ok (ss.foldl (fun st s => st.merge (ofStatement s)) state), c') ∨
        scanFrom state ss c = (.error .cancelled, c') ∧ c'.isRequested = true) := by
  induction ss generalizing state c with
  | nil => exact ⟨c, .refl c, Or.inl rfl⟩
  | cons s ss ih =>
    have hbefore := c.before_poll
    unfold scanFrom Cancellation.poll
    cases hreq : c.isRequested with
    | true => exact ⟨_, hbefore, Or.inr ⟨rfl, hbefore.isRequested hc hreq⟩⟩
    | false =>
      obtain ⟨c', hafter, h⟩ := ih (c := c.poll.2) hc (state.merge (ofStatement s))
      exact ⟨c', hbefore.trans hafter, h⟩

lemma scan_never (ss : List Statement) :
    (scan ss .never).1 = .ok (ss.foldl (fun st s => st.merge (ofStatement s)) .unknown) := by
  obtain ⟨c', hbefore, h | ⟨-, hreq⟩⟩ := scanFrom_cases Cancellation.lasts_never .unknown ss
  · rw [scan, h]
  · rw [Cancellation.isRequested, hbefore.answers_eq] at hreq
    cases hreq

end GuardState

lemma CallSite.isGuarded_cases (site : CallSite) {c : Cancellation} (hc : c.Lasts) :
    ∃ c', c.Before c' ∧
      ((∃ b, site.isGuarded c = (.ok b, c') ∧
          (b = true ↔ (GuardState.scan site.statements .never).1 = .ok .enabled)) ∨
        site.isGuarded c = (.error .cancelled, c') ∧ c'.isRequested = true) := by
  obtain ⟨c', hbefore, h⟩ := GuardState.scanFrom_cases hc .unknown site.statements
  refine ⟨c', hbefore, h.imp (fun h => ?_) fun ⟨h, hreq⟩ => ⟨?_, hreq⟩⟩
  · refine ⟨_, by rw [CallSite.isGuarded, GuardState.scan, h], ?_⟩
    rw [GuardState.scan_never, beq_iff_eq, Except.ok.injEq]
  · rw [CallSite.isGuarded, GuardState.scan, h]

/-! ### What is to be reported -/

/-- Whether the node evaluates code at run time: it executes code, or it calls the evaluation. -/
def Node.isDynamic : Node → Bool
  | .statement (.execute _ _) => true
  | .expression (.invocation name _ _ _) => CallId.lookup? name == some .eval
  | _ => false

lemma Node.isCall_of_isDynamic {n : Node} (h : n.isDynamic = true) : n.isCall = true := by
  unfold Node.isDynamic at h
  split at h <;> simp_all [Node.isCall]

/-- The node evaluates code, its text is found in the module, its routine may run on the server,
and the statements of its routine do not switch the safe mode on. -/
structure Occurrence.Unguarded (o : Occurrence) : Prop where
  dynamic : o.node.isDynamic = true
  located : (locate o.scope.module.source o.node.span).Succeeds
  onServer : Environment.server ∈ o.scope.environments
  notEnabled : (GuardState.scan o.scope.statements .never).1 ≠ .ok .enabled

instance : DecidablePred Occurrence.Unguarded := fun o =>
  decidable_of_iff (o.node.isDynamic = true ∧
      (locate o.scope.module.source o.node.span).Succeeds ∧
      Environment.server ∈ o.scope.environments ∧
      (GuardState.scan o.scope.statements .never).1 ≠ .ok .enabled)
    ⟨fun ⟨h₁, h₂, h₃, h₄⟩ => ⟨h₁, h₂, h₃, h₄⟩, fun ⟨h₁, h₂, h₃, h₄⟩ => ⟨h₁, h₂, h₃, h₄⟩⟩

/-- The finding is one of the rule, and its range is the span of the node. -/
structure Occurrence.IsUnguardedFinding (o : Occurrence) (d : Diagnostic) : Prop where
  lint_eq : d.lint = Rules.dynamicCodeLint
  span_eq : o.node.span = some ⟨d.extent.offset, d.extent.length⟩

/-! ### The rule -/

namespace Rules

variable {input : LintInput} {o : Occurrence}

lemma adds_behind_guard (site : CallSite) {step : LintContext → Checked LintContext}
    {ds : List Diagnostic} (hstep : Adds step ds) :
    Adds (fun ctx => match site.isGuarded ctx.cancellation with
        | (.error e, c) => return (ctx.withCancellation c).skip e
        | (.ok true, c) => return ctx.withCancellation c
        | (.ok false, c) => step (ctx.withCancellation c))
      (if (GuardState.scan site.statements .never).1 = .ok .enabled then [] else ds) := by
  intro ctx hctx
  beta_reduce
  obtain ⟨c, hbefore, ⟨b, hguard, hb⟩ | ⟨hguard, hreq⟩⟩ := site.isGuarded_cases hctx.lasts
  · have hcont : ctx.Continues [] (ctx.withCancellation c) := hctx.withCancellation hbefore
    rw [hguard, if_congr hb.symm rfl rfl]
    cases b with
    | true => exact hcont
    | false =>
      refine (hstep _ (hcont.honest hctx)).mono fun ctx' hcont' => ?_
      exact hcont.trans hcont' hctx
  · rw [hguard]
    exact LintContext.continues_skip_cancelled hbefore hreq _

lemma exists_adds_checkSite (hdynamic : o.node.isDynamic = true) {site : CallSite}
    (hsite : site.Of o) :
    ∃ ds, Adds (fun ctx => checkDynamicCode input ctx (.ok site)) ds ∧
      Reports (input.settings.levelFor dynamicCodeLint.name) Occurrence.Unguarded
        Occurrence.IsUnguardedFinding o ds := by
  obtain ⟨hlocated, henvironments, hstatements⟩ := hsite
  by_cases hserver : site.requiresGuard = true
  · have hlt := (located_of_locate hlocated).lt
    obtain ⟨ds, hadds, hreport⟩ := exists_adds_report input dynamicCodeLint hlt
      ("`" ++ String.ofList site.callee ++ "` may run on the server without safe mode enabled")
      none
    have hcheck : Adds (fun ctx => checkDynamicCode input ctx (.ok site))
        (if (GuardState.scan site.statements .never).1 = .ok .enabled then [] else ds) := by
      intro ctx hctx
      simp only [checkDynamicCode, Outcome.attempt, Outcome.ok_bind, hserver]
      exact adds_behind_guard site hadds ctx hctx
    rw [hstatements] at hcheck
    by_cases hon : (GuardState.scan o.scope.statements .never).1 = .ok .enabled
    · rw [if_pos hon] at hcheck
      exact ⟨[], hcheck, Reports.of_not fun h => h.notEnabled hon⟩
    · rw [if_neg hon] at hcheck
      have hserver' : Environment.server ∈ o.scope.environments := henvironments ▸ hserver
      refine ⟨ds, hcheck, Reports.of_report ⟨hdynamic, ⟨_, hlocated⟩, hserver', hon⟩ ?_⟩
      intro hlevel
      obtain ⟨d, rfl, hd⟩ := hreport hlevel
      refine ⟨d, rfl, hd.lint_eq, ?_⟩
      rw [hd.offset_eq, hd.length_eq]
      exact span_eq_of_locate hlocated
  · refine ⟨[], fun ctx hctx => ?_, Reports.of_not fun h => ?_⟩
    · simp only [checkDynamicCode, Outcome.attempt, Outcome.ok_bind, hserver]
      exact hctx.refl
    · rw [CallSite.requiresGuard, henvironments] at hserver
      exact hserver h.onServer

lemma exists_adds_checkDynamicCode (hdynamic : o.node.isDynamic = true)
    {site : Analysis CallSite} (hsite : CallSite.Resolves o site) :
    ∃ ds, Adds (fun ctx => checkDynamicCode input ctx site) ds ∧
      Reports (input.settings.levelFor dynamicCodeLint.name) Occurrence.Unguarded
        Occurrence.IsUnguardedFinding o ds := by
  obtain ⟨hsafe, hsucceeds, hne⟩ := hsite
  cases site with
  | ok site => exact exists_adds_checkSite hdynamic hsafe
  | error e =>
    refine ⟨[], (adds_skip (by simpa using hne)).congr fun ctx => rfl, Reports.of_not fun h => ?_⟩
    obtain ⟨site, hsite⟩ := hsucceeds h.located
    cases hsite
  | abort c => exact hsafe.elim

lemma exists_adds_visitDynamicCode (hfit : input.module.SpansFit) {e : Event}
    (he : e.Within input.module input.module.spans) :
    ∃ ds, Adds (fun ctx => visitDynamicCode input ctx e) ds ∧
      e.Reports (input.settings.levelFor dynamicCodeLint.name) Occurrence.Unguarded
        Occurrence.IsUnguardedFinding ds := by
  have hspans : ∀ s ∈ e.spans, s.Fits := fun s hs => hfit s (he.subset hs)
  cases e with
  | method m scope => exact ⟨[], adds_nil, rfl⟩
  | statement s scope => exact ⟨[], adds_nil, rfl⟩
  | execute s scope =>
    cases s with
    | execute code span =>
      have hspan : SpanFits span := fun x hx => hspans x (Statement.mem_spans_of_mem_span hx)
      exact exists_adds_checkDynamicCode rfl (CallSite.resolves_ofExecute scope code hspan)
    | _ => exact ⟨[], adds_nil, Reports.of_not fun h => by cases h.dynamic⟩
  | call c scope =>
    cases c with
    | invocation name receiver params span =>
      have hspans : ∀ s ∈ (Expression.invocation name receiver params span).spans, s.Fits := hspans
      have hspan : SpanFits span := fun x hx => hspans x (Expression.mem_spans_of_mem_span hx)
      have hreceiver : SpanFits (receiver.bind Expression.span) :=
        fun x hx => hspans x (Expression.mem_spans_of_mem_receiver hx)
      by_cases heval : CallId.lookup? name = some .eval
      · simp only [visitDynamicCode, Expression.isEval, heval, decide_true, if_true]
        exact exists_adds_checkDynamicCode (by simpa [Node.isDynamic] using heval)
          (CallSite.resolves_ofInvocation scope name params hspan hreceiver)
      · simp only [visitDynamicCode, Expression.isEval, heval, decide_false, Bool.false_eq_true,
          if_false]
        refine ⟨[], adds_nil, Reports.of_not fun h => heval ?_⟩
        simpa [Node.isDynamic] using h.dynamic
    | _ => exact ⟨[], adds_nil, Reports.of_not fun h => by cases h.dynamic⟩

/-- **The findings of the rule** are those of the unguarded nodes, each once. -/
theorem exists_adds_dynamicCode (hfit : input.module.SpansFit) :
    ∃ ds, Adds (dynamicCode.check input) ds ∧
      (input.settings.levelFor dynamicCodeLint.name ≠ .allow →
        ∃ found, found.Perm (input.module.occurrences.filter Occurrence.Unguarded) ∧
          List.Forall₂ Occurrence.IsUnguardedFinding found ds) :=
  Event.exists_adds_walk (fun _ h => Node.isCall_of_isDynamic h.dynamic) fun _ he =>
    exists_adds_visitDynamicCode hfit (Event.within_of_mem_ofModule he)

end Rules

/-- **The rule on evaluated code is exact.** In a run without cancellation, with the lint not
switched off, the rule adds one finding for each node of the module that evaluates code in a routine
of the server without guard, and nothing else; the range of the finding is the span of the node. -/
theorem dynamicCode_reports_unguarded (input : LintInput) (ctx : LintContext)
    (hfit : input.module.SpansFit)
    (hlevel : input.settings.levelFor "restriction_execute_eval_server" ≠ .allow)
    (hctx : ctx.Uncancelled) :
    ∃ ctx' found ds, Rules.dynamicCode.check input ctx = .ok ctx' ∧ ctx'.Uncancelled ∧
      ctx'.diagnostics = ctx.diagnostics ++ ds ∧
      found.Perm (input.module.occurrences.filter Occurrence.Unguarded) ∧
      List.Forall₂ Occurrence.IsUnguardedFinding found ds := by
  obtain ⟨ds, hadds, hexact⟩ := Rules.exists_adds_dynamicCode hfit
  obtain ⟨found, hperm, hfound⟩ := hexact hlevel
  obtain ⟨ctx', hcheck, hctx', hds⟩ := hadds.of_uncancelled hctx
  exact ⟨ctx', found, ds, hcheck, hctx', hds, hperm, hfound⟩

/-- Executed code in a handler of the server, an evaluation in an argument of a call in the body,
the same behind a guard, and one that runs on the client only. -/
theorem dynamicCode_reports_unguarded_nested :
    let eval (span : Span) : Expression := .invocation "eval".toList none [] (some span)
    let execute (span : Span) : Statement := .execute (.access "К".toList none none) (some span)
    let guarded : Statement := .simple (.invocation "SetSafeMode".toList none
      [some (.literal (.boolean true) none)] none) none none
    let method (directives : List Directive) (statements : List Statement) : Item :=
      .method ⟨"П".toList, .procedure, false, directives, [], statements, none, none, none⟩
    let m : Module := {
      name := "М".toList
      source := "Выполнить(К) Ф(eval())".toList
      items := [
        .region ⟨.symbol .server, none, none⟩ [
          .region ⟨.not (.symbol .thinClient), none, none⟩
            [method [] [.tryExcept [] [execute ⟨0, 22⟩, execute ⟨1, 5⟩] none]],
          method [] [.ifChain (.mk (eval ⟨26, 6⟩) [guarded]) [] none none]],
        method [.atClient] [execute ⟨0, 22⟩]]
      statements := [.simple (.invocation "Ф".toList none [none, some (eval ⟨26, 6⟩)] none) none
        none] }
    let input : LintInput := { module := m }
    ∃ ctx' found ds, Rules.dynamicCode.check input {} = .ok ctx' ∧ ctx'.Uncancelled ∧
      ctx'.diagnostics = ds ∧ found.Perm (m.occurrences.filter Occurrence.Unguarded) ∧
      List.Forall₂ Occurrence.IsUnguardedFinding found ds ∧
      (m.occurrences.filter Occurrence.Unguarded).map (fun o => o.node.span) =
        [some ⟨0, 22⟩, some ⟨26, 6⟩] := by
  intro eval execute guarded method m input
  obtain ⟨ctx', found, ds, hcheck, hctx', hds, hperm, hfound⟩ :=
    dynamicCode_reports_unguarded input {} (by decide +kernel) (by decide) ⟨rfl, fun _ => rfl⟩
  exact ⟨ctx', found, ds, hcheck, hctx', hds, hperm, hfound, by decide +kernel⟩

end BslLint
