import BslLint.Lint.Engine
import BslLint.Proofs.Call.Replacement
import BslLint.Proofs.Lint.LinkSpacing
import BslLint.Proofs.Syntax.Spans

/-!
The findings of a run lie in the text of the module, and the edits they suggest can be carried out.

The spans of a syntax tree come from outside. They may be stale, overlap, end inside a character or
point past the text; all that is asked of them is that their ends are offsets. Every check resolves
a span before it uses it, and reports a slice of what it found; so the run keeps the invariant that
its findings are well placed (`LintContext.WellPlaced`), and it does not break off.
-/

namespace BslLint

/-- The range of the finding lies in the text, with both ends on character boundaries, and the edit
that it suggests, if any, passes the check against the text. -/
structure Diagnostic.WellPlaced (source : Text) (d : Diagnostic) : Prop where
  stop_le : d.extent.offset + d.extent.length ≤ Text.byteLength source
  start_boundary : Text.isBoundary source d.extent.offset = true
  stop_boundary : Text.isBoundary source (d.extent.offset + d.extent.length) = true
  edit : ∀ s ∈ d.suggestion, s.edit.validate source = .ok ()

namespace LintContext

variable {input : LintInput} {source : Text} {ctx ctx' : LintContext}

/-- The findings so far are well placed. -/
def WellPlaced (source : Text) (ctx : LintContext) : Prop :=
  ∀ d ∈ ctx.diagnostics, d.WellPlaced source

lemma WellPlaced.skip (h : ctx.WellPlaced source) (e : AnalysisError) :
    (ctx.skip e).WellPlaced source := by
  unfold LintContext.skip
  split
  · exact h
  · exact h

lemma WellPlaced.withCancellation (h : ctx.WellPlaced source) (c : Cancellation) :
    (ctx.withCancellation c).WellPlaced source := h

lemma WellPlaced.of_checkpoint (h : ctx.WellPlaced source) {r : Except AnalysisError Unit}
    (hc : ctx.checkpoint = (r, ctx')) : ctx'.WellPlaced source := by
  unfold checkpoint at hc
  split at hc
  · cases hc
    exact h
  · split at hc <;> (cases hc; exact h)

lemma WellPlaced.report (h : ctx.WellPlaced input.module.source) {lint : LintDescriptor}
    {offset length : Nat} {message : String} {suggestion : Option Suggestion} {m : Text}
    (hrange : Text.slice? input.module.source offset (offset + length) = some m)
    (hlt : offset + length < offsetLimit)
    (hfix : ∀ s ∈ suggestion, s.edit.validate input.module.source = .ok ()) :
    (ctx.report input lint offset length message suggestion).Safe
      (WellPlaced input.module.source) := by
  unfold LintContext.report Extent.of
  simp only [addOffsets_of_lt hlt, Outcome.ok_bind, Outcome.pure_eq, Outcome.safe_ok, add]
  split
  · exact h
  · intro d hd
    rcases List.mem_append.1 hd with hd | hd
    · exact h d hd
    · obtain rfl := List.mem_singleton.1 hd
      obtain ⟨hstart, hstop⟩ := Text.isBoundary_of_slice? hrange
      exact ⟨(Text.byteLength_of_slice? hrange).2, hstart, hstop, hfix⟩

end LintContext

lemma walk_safe {ε σ : Type} {isCancelled : σ → Bool} {visit : σ → Event → Outcome ε σ}
    {I : σ → Prop} {events : List Event}
    (hvisit : ∀ s, I s → ∀ e ∈ events, (visit s e).Safe I) {s : σ} (hs : I s) :
    (walk isCancelled visit s events).Safe I := by
  induction events generalizing s with
  | nil => exact hs
  | cons e events ih =>
    rw [walk]
    split
    · exact hs
    · refine (hvisit s hs e (by simp)).bind fun s' hs' => ?_
      exact ih (fun s hs e he => hvisit s hs e (by simp [he])) hs'

namespace Rules

variable {input : LintInput} {ctx : LintContext}

/-! ### Modal calls -/

lemma replacementEdit_validate {source : Text} {site : CallSite}
    (hsite : site.text.Located source) (call : CallId) (variant : ScriptVariant) :
    (site.replacementEdit call variant).Safe fun e => e.validate source = .ok () := by
  cases hr : call.replacement? with
  | none =>
    unfold CallSite.replacementEdit
    rw [hr]
    trivial
  | some r =>
    refine (CallSite.replacementEdit_safe hsite hr variant).mono ?_
    rintro e ⟨lead, dot, name, gap, kept, rest, hraw, -, -, -, -, rfl⟩
    have hslice : Text.slice? site.text.raw (Text.byteLength lead)
        (Text.byteLength lead + Text.byteLength (dot ++ name ++ gap ++ '(' :: kept)) =
          some (dot ++ name ++ gap ++ '(' :: kept) :=
      Text.slice?_eq_some_iff.2 ⟨lead, rest, hraw, rfl, rfl⟩
    obtain ⟨hsource, hlt⟩ := hsite.slice_of_raw hslice
    exact Edit.validate_of_slice? hsource hlt

lemma modalitySuggestion_safe {source : Text} {site : CallSite} (hsite : site.text.Located source)
    (call : CallId) (variant : ScriptVariant) :
    (modalitySuggestion site call variant).Safe fun fix =>
      ∀ s ∈ fix, s.edit.validate source = .ok () := by
  refine (replacementEdit_validate hsite call variant).attempt.bind fun r hr => ?_
  cases r with
  | error e => simp
  | ok edit => simpa using hr edit rfl

lemma reportModal_safe (hctx : ctx.WellPlaced input.module.source) {site : CallSite}
    (hsite : site.text.Located input.module.source) (call : CallId) {n : Nat}
    (hn : site.nameStart = .ok n) :
    (reportModal input ctx site call n).Safe (LintContext.WellPlaced input.module.source) := by
  obtain ⟨before, name, after, hraw, rfl, hname⟩ := CallSite.exists_of_nameStart hn
  have hslice : Text.slice? site.text.raw (Text.byteLength before)
      (Text.byteLength before + site.nameLength) = some name :=
    Text.slice?_eq_some_iff.2 ⟨before, after, hraw, rfl, by rw [hname]⟩
  obtain ⟨hsource, hlt⟩ := hsite.slice_of_raw hslice
  refine (modalitySuggestion_safe hsite call _).bind fun fix hfix => ?_
  rw [addOffsets_of_lt (by omega), Outcome.ok_bind]
  exact hctx.report hsource hlt hfix

lemma visitModal_safe (hfit : input.module.SpansFit) (hctx : ctx.WellPlaced input.module.source)
    {ev : Event} (hev : ev.Within input.module input.module.spans) :
    (visitModal input ctx ev).Safe (LintContext.WellPlaced input.module.source) := by
  unfold visitModal
  split
  · rename_i name receiver params span scope
    split
    · -- the name stands for no modal call
      exact hctx
    · rename_i call hcall
      split
      · -- the run was cancelled
        rename_i e ctx' hc
        exact (hctx.of_checkpoint hc).skip e
      · rename_i ctx' hc
        have hctx' := hctx.of_checkpoint hc
        have hsite : (CallSite.ofInvocation scope (.invocation name receiver params span)).Safe
            fun site => site.text.Located input.module.source :=
          hev.module_eq ▸ CallSite.ofInvocation_safe fun s hs => hfit s (hev.subset hs)
        have hnamed : (CallSite.ofInvocation scope (.invocation name receiver params span) >>=
            fun site => site.nameStart >>= fun n => pure (site, n)).Safe fun p =>
              p.1.text.Located input.module.source ∧ p.1.nameStart = .ok p.2 :=
          hsite.bind fun site h => site.nameStart_safe.bind fun n hn => ⟨h, hn⟩
        refine hnamed.attempt.bind fun r hr => ?_
        cases r with
        | error e => exact hctx'.skip e
        | ok p => exact reportModal_safe hctx' (hr p rfl).1 call (hr p rfl).2
  · exact hctx

lemma modality_safe (hfit : input.module.SpansFit) (hctx : ctx.WellPlaced input.module.source) :
    (modality.check input ctx).Safe (LintContext.WellPlaced input.module.source) := by
  dsimp only [modality]
  split
  · refine walk_safe (fun _ hctx _ hev => ?_) hctx
    exact visitModal_safe hfit hctx (Event.within_of_mem_ofModule hev)
  · exact hctx

/-! ### Evaluated code -/

lemma checkDynamicCode_safe (hctx : ctx.WellPlaced input.module.source) {site : Analysis CallSite}
    (hsite : site.Safe fun s => s.text.Located input.module.source) :
    (checkDynamicCode input ctx site).Safe (LintContext.WellPlaced input.module.source) := by
  refine hsite.attempt.bind fun r hr => ?_
  cases r with
  | error e => exact hctx.skip e
  | ok site =>
    have hlocated := hr site rfl
    dsimp only
    split
    · exact hctx
    · split
      · rename_i e c hguard
        exact (hctx.withCancellation c).skip e
      · exact hctx
      · -- the routine is not guarded: the whole text of the call is reported
        rename_i c hguard
        exact (hctx.withCancellation c).report hlocated.slice hlocated.lt (by simp)

lemma visitDynamicCode_safe (hfit : input.module.SpansFit)
    (hctx : ctx.WellPlaced input.module.source) {ev : Event}
    (hev : ev.Within input.module input.module.spans) :
    (visitDynamicCode input ctx ev).Safe (LintContext.WellPlaced input.module.source) := by
  cases ev with
  | execute s scope =>
    refine checkDynamicCode_safe hctx ?_
    exact hev.module_eq ▸ CallSite.ofExecute_safe fun x hx => hfit x (hev.subset hx)
  | call e scope =>
    dsimp only [visitDynamicCode]
    split
    · refine checkDynamicCode_safe hctx ?_
      exact hev.module_eq ▸ CallSite.ofInvocation_safe fun x hx => hfit x (hev.subset hx)
    · exact hctx
  | method m scope => exact hctx
  | statement s scope => exact hctx

lemma dynamicCode_safe (hfit : input.module.SpansFit) (hctx : ctx.WellPlaced input.module.source) :
    (dynamicCode.check input ctx).Safe (LintContext.WellPlaced input.module.source) := by
  refine walk_safe (fun _ hctx _ hev => ?_) hctx
  exact visitDynamicCode_safe hfit hctx (Event.within_of_mem_ofModule hev)

/-! ### Documentation comments -/

lemma reportIssue_safe (hctx : ctx.WellPlaced input.module.source) {comment : SourceText}
    (hcomment : comment.Located input.module.source) {i : LinkSpacing.Issue}
    (hi : i.Placed comment.raw) :
    (reportIssue input comment.start ctx i).Safe
      (LintContext.WellPlaced input.module.source) := by
  obtain ⟨⟨m, hrange⟩, ⟨m', hedit⟩⟩ := hi
  obtain ⟨hsource, hlt⟩ := hcomment.slice_of_raw hrange
  obtain ⟨hsource', hlt'⟩ := hcomment.slice_of_raw hedit
  unfold reportIssue
  rw [addOffsets_of_lt (by omega), Outcome.ok_bind, addOffsets_of_lt (by omega), Outcome.ok_bind]
  refine hctx.report hsource hlt ?_
  rintro s ⟨⟩
  exact Edit.validate_of_slice? hsource' hlt'

lemma reportIssues_eq (input : LintInput) (comment : SourceText) (ctx : LintContext) :
    reportIssues input comment ctx =
      Outcome.foldList (reportIssue input comment.start) ctx (LinkSpacing.issues comment.raw) := by
  rw [reportIssues, LinkSpacing.scan_eq, Outcome.ok_bind]

lemma reportIssues_safe (hctx : ctx.WellPlaced input.module.source) {comment : SourceText}
    (hcomment : comment.Located input.module.source) :
    (reportIssues input comment ctx).Safe (LintContext.WellPlaced input.module.source) := by
  rw [reportIssues_eq]
  exact Outcome.Safe.foldList (fun ctx hctx i hi =>
    reportIssue_safe hctx hcomment (LinkSpacing.placed_of_mem_issues hi)) hctx

lemma checkComments_safe (hctx : ctx.WellPlaced input.module.source) {methods : List Method}
    (hfit : ∀ m ∈ methods, SpanFits m.docComment) :
    (checkComments input ctx methods).Safe (LintContext.WellPlaced input.module.source) := by
  induction methods generalizing ctx with
  | nil => exact hctx
  | cons m methods ih =>
    have hrest : ∀ m' ∈ methods, SpanFits m'.docComment := fun m' hm' => hfit m' (by simp [hm'])
    rw [checkComments]
    split
    · -- no comment
      exact ih hctx hrest
    · split
      · rename_i e ctx' hc
        exact (hctx.of_checkpoint hc).skip e
      · rename_i ctx' hc
        have hctx' := hctx.of_checkpoint hc
        refine (locate_safe (hfit m (by simp))).attempt.bind fun r hr => ?_
        cases r with
        | error e => exact ih (hctx'.skip e) hrest
        | ok comment =>
          have hcomment := hr comment rfl
          exact (reportIssues_safe hctx' hcomment).bind fun _ h => ih h hrest

lemma linkSpacing_safe (hfit : input.module.SpansFit) (hctx : ctx.WellPlaced input.module.source) :
    (linkSpacing.check input ctx).Safe (LintContext.WellPlaced input.module.source) := by
  refine checkComments_safe hctx fun m hm => hfit.of_subset fun s hs => ?_
  exact Module.spans_subset_of_mem_methods hm (by simp [Method.spans, List.mem_append, hs])

/-! ### Extension methods -/

lemma ofDeclaration_safe {m : Module} (hfit : m.SpansFit) (d : Declaration) :
    (Scope.ofDeclaration m d).Safe fun s => ∀ r, s.region = some r → SpanFits r.conditionSpan := by
  cases hs : Scope.ofDeclaration m d with
  | ok s => exact fun r hr => hfit.conditionSpan hs hr
  | error e => trivial
  | abort c =>
    rw [Scope.ofDeclaration_eq] at hs
    split at hs <;> cases hs

lemma environmentsOf_safe {m : Module} (hfit : m.SpansFit) (d : Declaration) :
    (environmentsOf m d).Safe fun _ => True :=
  (ofDeclaration_safe hfit d).bind fun _ _ => trivial

lemma wrapInSourceRegion_safe {derived : Module} {method : Method} {source : BaseIndex.Source}
    (hmethod : SpanFits method.span) (hsource : source.module.SpansFit)
    (variant : ScriptVariant) :
    (wrapInSourceRegion derived method source variant).Safe fun fix =>
      ∀ e ∈ fix, e.validate derived.source = .ok () := by
  have hregion : (enclosingRegion source.module source.declaration).Safe fun region =>
      ∀ r, region = some r → SpanFits r.conditionSpan :=
    (ofDeclaration_safe hsource source.declaration).bind fun s hs => hs
  refine hregion.bind fun region hr => ?_
  cases region with
  | none => simp
  | some region =>
    refine (locate_safe (hr region rfl)).bind fun condition _ => ?_
    refine (locate_safe hmethod).bind fun body hbody => ?_
    rintro e ⟨⟩
    exact Edit.validate_of_slice? hbody.slice hbody.lt

lemma modeConflict?_safe (hfit : input.module.SpansFit) {d : Declaration}
    (hd : d ∈ input.module.declarations) {source : BaseIndex.Source}
    (hsource : source.module.SpansFit) :
    (modeConflict? input d source).Safe fun conflict => ∀ c ∈ conflict,
      c.name.Located input.module.source ∧
        ∀ e ∈ c.fix, e.validate input.module.source = .ok () := by
  have hspans := Module.spans_subset_of_mem_methods (Module.method_mem_methods hd)
  have hname : SpanFits d.method.nameSpan :=
    hfit.of_subset fun s hs => hspans (by simp [Method.spans, List.mem_append, hs])
  have hmethod : SpanFits d.method.span :=
    hfit.of_subset fun s hs => hspans (by simp [Method.spans, List.mem_append, hs])
  refine (environmentsOf_safe hfit d).bind fun derived _ => ?_
  refine (environmentsOf_safe hsource source.declaration).bind fun allowed _ => ?_
  split
  · simp
  · refine (locate_safe hname).bind fun name hlocated => ?_
    refine (wrapInSourceRegion_safe hmethod hsource _).attempt.bind fun wrap hwrap => ?_
    rintro c ⟨⟩
    refine ⟨hlocated, ?_⟩
    cases wrap with
    | error e => simp
    | ok fix => exact hwrap fix rfl

lemma module_mem_of_source? {base : BaseIndex} {m : Module} {method : Method}
    {source : BaseIndex.Source} (h : base.source? m method = some source) :
    source.module ∈ base.modules := by
  simp only [BaseIndex.source?, Option.bind_eq_bind, Option.bind_eq_some_iff] at h
  obtain ⟨target, -, owner, howner, declaration, -, ⟨⟩⟩ := h
  exact List.mem_reverse.1 (List.mem_of_find?_eq_some howner)

variable {base : BaseIndex}

lemma checkMode_safe (hfit : input.module.SpansFit) (hbase : ∀ m ∈ base.modules, m.SpansFit)
    (hctx : ctx.WellPlaced input.module.source) {d : Declaration}
    (hd : d ∈ input.module.declarations) :
    (checkMode input base ctx d).Safe (LintContext.WellPlaced input.module.source) := by
  unfold checkMode
  split
  · rename_i e ctx' hc
    exact (hctx.of_checkpoint hc).skip e
  · rename_i ctx' hc
    have hctx' := hctx.of_checkpoint hc
    split
    · exact hctx'
    · rename_i source hsource
      have hfit' := hbase _ (module_mem_of_source? hsource)
      refine (modeConflict?_safe hfit hd hfit').attempt.bind fun r hr => ?_
      match r, hr with
      | .error e, _ => exact hctx'.skip e
      | .ok none, _ => exact hctx'
      | .ok (some c), hr =>
        obtain ⟨hname, hfix⟩ := hr (some c) rfl c rfl
        refine hctx'.report hname.slice hname.lt ?_
        intro s hs
        obtain ⟨e, he, rfl⟩ := Option.map_eq_some_iff.1 hs
        exact hfix e he

lemma checkModes_safe (hfit : input.module.SpansFit) (hbase : ∀ m ∈ base.modules, m.SpansFit)
    (hctx : ctx.WellPlaced input.module.source) {ds : List Declaration}
    (hds : ∀ d ∈ ds, d ∈ input.module.declarations) :
    (checkModes input base ctx ds).Safe (LintContext.WellPlaced input.module.source) := by
  induction ds generalizing ctx with
  | nil => exact hctx
  | cons d ds ih =>
    rw [checkModes]
    refine (checkMode_safe hfit hbase hctx (hds d (by simp))).bind fun ctx' hctx' => ?_
    split
    · exact hctx'
    · exact ih hctx' fun d' hd' => hds d' (by simp [hd'])

lemma extensionMode_safe (hfit : input.module.SpansFit)
    (hbase : ∀ b ∈ input.base, ∀ m ∈ b.modules, m.SpansFit)
    (hctx : ctx.WellPlaced input.module.source) :
    (extensionMode.check input ctx).Safe (LintContext.WellPlaced input.module.source) := by
  dsimp only [extensionMode]
  split
  · rename_i base hext hsome
    exact checkModes_safe hfit (hbase base hsome) hctx fun d hd => hd
  · exact hctx

end Rules

/-! ### The run -/

lemma runRules_safe {input : LintInput} {I : LintContext → Prop} {rules : List Rule}
    (hrules : ∀ r ∈ rules, ∀ ctx, I ctx → (r.check input ctx).Safe I) {ctx : LintContext}
    (hctx : I ctx) : (runRules input ctx rules).Safe I := by
  induction rules generalizing ctx with
  | nil => exact hctx
  | cons r rules ih =>
    rw [runRules]
    split
    · exact hctx
    · refine (hrules r (by simp) ctx hctx).bind fun ctx' hctx' => ?_
      exact ih (fun r' hr' => hrules r' (by simp [hr'])) hctx'

lemma LintContext.mem_diagnostics_of_mem_finish {ctx : LintContext} {d : Diagnostic}
    (h : d ∈ ctx.finish) : d ∈ ctx.diagnostics := by
  unfold LintContext.finish at h
  split at h
  · simp at h
  · exact h

/-- **A run emits no bad range.** If every span of the module and of the base configuration ends at
an offset, then the default rules come to a list of findings, whatever the settings, the project and
the moment of a cancellation; and every finding of it lies in the text of the module, on character
boundaries, with an edit that passes the check. -/
theorem lintModule_wellPlaced (input : LintInput) (c : Cancellation)
    (hfit : input.module.SpansFit)
    (hbase : ∀ b ∈ input.base, ∀ m ∈ b.modules, m.SpansFit) :
    ∃ ds, lintModule defaultRules input c = .ok ds ∧
      ∀ d ∈ ds, d.WellPlaced input.module.source := by
  refine Outcome.safe_checked_iff.1 ?_
  have hrules : ∀ r ∈ defaultRules, ∀ ctx : LintContext, ctx.WellPlaced input.module.source →
      (r.check input ctx).Safe (LintContext.WellPlaced input.module.source) := by
    intro r hr ctx hctx
    simp only [defaultRules, List.mem_cons, List.not_mem_nil, or_false] at hr
    rcases hr with rfl | rfl | rfl | rfl
    · exact Rules.modality_safe hfit hctx
    · exact Rules.dynamicCode_safe hfit hctx
    · exact Rules.extensionMode_safe hfit hbase hctx
    · exact Rules.linkSpacing_safe hfit hctx
  have hstart : LintContext.WellPlaced input.module.source { cancellation := c } := by
    intro d hd
    simp at hd
  refine (runRules_safe hrules hstart).bind fun ctx hctx => ?_
  exact fun d hd => hctx d (LintContext.mem_diagnostics_of_mem_finish hd)

/-- Three rules report in a module whose other spans end inside a character or past the text. -/
theorem lintModule_wellPlaced_stale :
    let method : Method := ⟨"А".toList, .procedure, false, [], [⟨.around, "Б".toList, none⟩], [],
      some ⟨0, 9⟩, some ⟨7, 2⟩, some ⟨0, 9⟩⟩
    let extended : Method := ⟨"Б".toList, .procedure, false, [], [], [], none, some ⟨0, 99⟩, none⟩
    let m : Module := {
      name := "М".toList
      source := "//См.Б\nВопрос();".toList
      items := [.method method]
      statements := [
        .simple (.invocation "вопрос".toList none [] (some ⟨10, 14⟩)) none (some ⟨11, 3⟩),
        .execute (.invocation "Eval".toList none [] (some ⟨3, 1⟩)) (some ⟨20, 80⟩)] }
    let base : Module := {
      name := "М".toList
      source := "Клиент".toList
      items := [.region ⟨.symbol .client, some ⟨0, 12⟩, none⟩ [.method extended]] }
    let input : LintInput := ⟨m, {}, ⟨.primary, .dontUse, true⟩, some ⟨[base]⟩⟩
    ∃ ds, lintModule defaultRules input .never = .ok ds ∧
      ds.map (fun d => (d.extent.offset, d.extent.length)) = [(10, 12), (7, 2), (6, 3)] ∧
      ∀ d ∈ ds, d.WellPlaced m.source := by
  intro method extended m base input
  obtain ⟨ds, hds, hplaced⟩ := lintModule_wellPlaced input .never (by decide +kernel) (by
    rintro b ⟨⟩ m hm
    obtain rfl := List.mem_singleton.1 hm
    decide +kernel)
  have hranges : (match lintModule defaultRules input .never with
      | .ok ds => ds.map fun d => (d.extent.offset, d.extent.length)
      | .abort _ => []) = [(10, 12), (7, 2), (6, 3)] := by decide +kernel
  rw [hds] at hranges
  exact ⟨ds, hds, hranges, hplaced⟩

end BslLint
