import BslLint.Proofs.Lint.Findings
import BslLint.Proofs.Lint.Placement

/-!
Settings grade the findings of a run and do nothing else.

A run with settings is compared with the same run without any, where every lint is a warning. The
two go through the same states, except that the findings of the one are those of the other at the
levels that are set, without those of the lints that are switched off. The comparison holds for any
module and any cancellation, also when the run breaks off; so no rule can tell which lints are
reported.

On the way each rule is seen to report its own lint only, and what edits it suggests.
-/

namespace BslLint

/-- The input with other settings. -/
def LintInput.withSettings (input : LintInput) (s : LintSettings) : LintInput :=
  { input with settings := s }

namespace LintSettings

/-- A finding at the level of its lint, unless the lint is switched off. -/
def grade? (s : LintSettings) (d : Diagnostic) : Option Diagnostic :=
  if s.levelFor d.lint.name = .allow then none
  else some { d with level := s.levelFor d.lint.name }

/-- Findings at the levels of their lints, without those of lints that are switched off. -/
def grade (s : LintSettings) (ds : List Diagnostic) : List Diagnostic := ds.filterMap s.grade?

@[simp] lemma levelFor_empty (name : String) : levelFor {} name = .warn := rfl

lemma grade?_eq_some_iff {s : LintSettings} {d d' : Diagnostic} :
    s.grade? d = some d' ↔ s.levelFor d.lint.name ≠ .allow ∧
      d' = { d with level := s.levelFor d.lint.name } := by
  unfold grade?
  split
  · rename_i hoff
    simp [hoff]
  · rename_i hon
    simp [hon, eq_comm]

lemma mem_grade {s : LintSettings} {ds : List Diagnostic} {d : Diagnostic} :
    d ∈ s.grade ds ↔ ∃ d₀ ∈ ds, s.levelFor d₀.lint.name ≠ .allow ∧
      d = { d₀ with level := s.levelFor d₀.lint.name } := by
  simp only [grade, List.mem_filterMap, grade?_eq_some_iff]

end LintSettings

namespace LintContext

/-- The state with its findings at the levels of their lints. -/
def graded (s : LintSettings) (ctx : LintContext) : LintContext :=
  { ctx with diagnostics := s.grade ctx.diagnostics }

@[simp] lemma isCancelled_graded (s : LintSettings) (ctx : LintContext) :
    (ctx.graded s).isCancelled = ctx.isCancelled := rfl

@[simp] lemma cancellation_graded (s : LintSettings) (ctx : LintContext) :
    (ctx.graded s).cancellation = ctx.cancellation := rfl

lemma skip_graded (s : LintSettings) (ctx : LintContext) (e : AnalysisError) :
    (ctx.graded s).skip e = (ctx.skip e).graded s := by
  unfold skip
  split <;> rfl

lemma checkpoint_graded (s : LintSettings) (ctx : LintContext) :
    (ctx.graded s).checkpoint = (ctx.checkpoint.1, ctx.checkpoint.2.graded s) := by
  cases hc : ctx.isCancelled <;> cases hreq : ctx.cancellation.isRequested <;>
    simp [checkpoint, Cancellation.poll, graded, hc, hreq]

lemma finish_graded (s : LintSettings) (ctx : LintContext) :
    (ctx.graded s).finish = s.grade ctx.finish := by
  cases hc : ctx.isCancelled <;> cases hreq : ctx.cancellation.isRequested <;>
    simp [finish, graded, hc, hreq, LintSettings.grade]

lemma add_graded (s : LintSettings) (ctx : LintContext) (d : Diagnostic) :
    (ctx.graded s).add s d = (ctx.add {} d).graded s := by
  by_cases hoff : s.levelFor d.lint.name = .allow <;>
    simp [add, graded, LintSettings.grade, LintSettings.grade?, hoff]

end LintContext

/-! ### Steps -/

/-- With the settings the step does what it does plainly, except that findings are graded; and every
finding that the plain step adds has the property. -/
structure Grades (P : Diagnostic → Prop) (s : LintSettings)
    (step plain : LintContext → Checked LintContext) : Prop where
  eq : ∀ ctx, step (ctx.graded s) = plain ctx >>= fun ctx' => .ok (ctx'.graded s)
  adds : ∀ ctx ctx', plain ctx = .ok ctx' →
    ∃ ds, ctx'.diagnostics = ctx.diagnostics ++ ds ∧ ∀ d ∈ ds, P d

namespace Grades

variable {P : Diagnostic → Prop} {s : LintSettings} {α : Type}
  {step plain next nextPlain : LintContext → Checked LintContext}

lemma of_eq {f : LintContext → LintContext} (hf : ∀ ctx, f (ctx.graded s) = (f ctx).graded s)
    (hds : ∀ ctx, (f ctx).diagnostics = ctx.diagnostics) :
    Grades P s (fun ctx => .ok (f ctx)) (fun ctx => .ok (f ctx)) where
  eq ctx := by rw [hf, Outcome.ok_bind]
  adds ctx ctx' heq := by
    cases heq
    exact ⟨[], by rw [hds, List.append_nil], by simp⟩

lemma mono {Q : Diagnostic → Prop} (h : Grades P s step plain) (hPQ : ∀ d, P d → Q d) :
    Grades Q s step plain where
  eq := h.eq
  adds ctx ctx' heq := by
    obtain ⟨ds, hds, hP⟩ := h.adds ctx ctx' heq
    exact ⟨ds, hds, fun d hd => hPQ d (hP d hd)⟩

lemma nothing : Grades P s (fun ctx => .ok ctx) (fun ctx => .ok ctx) :=
  of_eq (fun _ => rfl) (fun _ => rfl)

lemma skip (e : AnalysisError) :
    Grades P s (fun ctx => .ok (ctx.skip e)) (fun ctx => .ok (ctx.skip e)) :=
  of_eq (fun ctx => ctx.skip_graded s e) (fun ctx => ctx.diagnostics_skip e)

lemma bind (h : Grades P s step plain) (h' : Grades P s next nextPlain) :
    Grades P s (fun ctx => step ctx >>= next) (fun ctx => plain ctx >>= nextPlain) where
  eq ctx := by simp only [h.eq, bind_assoc, Outcome.ok_bind, h'.eq]
  adds ctx ctx' heq := by
    obtain ⟨ctx₁, hplain, hnext⟩ := Outcome.bind_eq_ok_iff.1 heq
    obtain ⟨ds, hds, hP⟩ := h.adds ctx ctx₁ hplain
    obtain ⟨ds', hds', hP'⟩ := h'.adds ctx₁ ctx' hnext
    refine ⟨ds ++ ds', by rw [hds', hds, List.append_assoc], fun d hd => ?_⟩
    exact (List.mem_append.1 hd).elim (hP d) (hP' d)

lemma bind_value {x : Checked α} {f g : α → LintContext → Checked LintContext}
    (h : ∀ a, x = .ok a → Grades P s (f a) (g a)) :
    Grades P s (fun ctx => x >>= fun a => f a ctx) (fun ctx => x >>= fun a => g a ctx) := by
  cases x with
  | ok a => exact h a rfl
  | error e => exact e.elim
  | abort c => exact ⟨fun _ => rfl, fun _ _ => nofun⟩

lemma behind_checkpoint (h : Grades P s step plain) :
    Grades P s
      (fun ctx => match ctx.checkpoint with
        | (.error e, ctx) => return ctx.skip e
        | (.ok _, ctx) => step ctx)
      (fun ctx => match ctx.checkpoint with
        | (.error e, ctx) => return ctx.skip e
        | (.ok _, ctx) => plain ctx) where
  eq ctx := by
    rw [ctx.checkpoint_graded]
    rcases ctx.checkpoint with ⟨e | _, ctx'⟩
    · exact (skip (P := P) e).eq ctx'
    · exact h.eq ctx'
  adds ctx ctx' heq := by
    rw [← ctx.diagnostics_checkpoint]
    rcases hcheck : ctx.checkpoint with ⟨e | _, ctx₁⟩ <;> rw [hcheck] at heq
    · exact (skip (s := s) e).adds ctx₁ ctx' heq
    · exact h.adds ctx₁ ctx' heq

lemma behind_guard (site : CallSite) (h : Grades P s step plain) :
    Grades P s
      (fun ctx => match site.isGuarded ctx.cancellation with
        | (.error e, c) => return (ctx.withCancellation c).skip e
        | (.ok true, c) => return ctx.withCancellation c
        | (.ok false, c) => step (ctx.withCancellation c))
      (fun ctx => match site.isGuarded ctx.cancellation with
        | (.error e, c) => return (ctx.withCancellation c).skip e
        | (.ok true, c) => return ctx.withCancellation c
        | (.ok false, c) => plain (ctx.withCancellation c)) where
  eq ctx := by
    rw [LintContext.cancellation_graded]
    rcases site.isGuarded ctx.cancellation with ⟨e | _ | _, c⟩
    · exact (skip (P := P) e).eq (ctx.withCancellation c)
    · exact h.eq (ctx.withCancellation c)
    · rfl
  adds ctx ctx' heq := by
    rcases hguard : site.isGuarded ctx.cancellation with ⟨e | _ | _, c⟩ <;> rw [hguard] at heq
    · exact (skip (s := s) e).adds (ctx.withCancellation c) ctx' heq
    · exact h.adds (ctx.withCancellation c) ctx' heq
    · exact (nothing (s := s)).adds (ctx.withCancellation c) ctx' heq

lemma unless_cancelled (h : Grades P s step plain) :
    Grades P s (fun ctx => if ctx.isCancelled then return ctx else step ctx)
      (fun ctx => if ctx.isCancelled then return ctx else plain ctx) where
  eq ctx := by
    cases hc : ctx.isCancelled
    · simpa [hc] using h.eq ctx
    · simp [hc]
  adds ctx ctx' heq := by
    cases hc : ctx.isCancelled
    · exact h.adds ctx ctx' (by simpa [hc] using heq)
    · exact (nothing (s := s)).adds ctx ctx' (by simpa [hc] using heq)

lemma report (input : LintInput) {lint : LintDescriptor} {offset length : Nat} {message : String}
    {suggestion : Option Suggestion}
    (h : ∀ d : Diagnostic, d.lint = lint → d.suggestion = suggestion → P d) :
    Grades P s
      (fun ctx => ctx.report (input.withSettings s) lint offset length message suggestion)
      (fun ctx => ctx.report (input.withSettings {}) lint offset length message suggestion) where
  eq ctx := by
    unfold LintContext.report
    cases hext : (Extent.of input.module.source offset length : Checked Extent) with
    | ok extent =>
      simp only [LintInput.withSettings, hext, Outcome.ok_bind, Outcome.pure_eq]
      rw [LintContext.add_graded]
    | error e => exact e.elim
    | abort c => simp [LintInput.withSettings, hext]
  adds ctx ctx' heq := by
    obtain ⟨extent, -, heq⟩ := Outcome.bind_eq_ok_iff.1 heq
    cases heq
    refine ⟨_, rfl, fun d hd => ?_⟩
    obtain rfl := List.mem_singleton.1 hd
    exact h _ rfl rfl

/-! ### Loops -/

lemma foldList {f g : LintContext → α → Checked LintContext} {l : List α}
    (h : ∀ a ∈ l, Grades P s (fun ctx => f ctx a) (fun ctx => g ctx a)) :
    Grades P s (fun ctx => Outcome.foldList f ctx l) (fun ctx => Outcome.foldList g ctx l) := by
  induction l with
  | nil => exact nothing
  | cons a l ih => exact (h a (by simp)).bind (ih fun b hb => h b (by simp [hb]))

lemma walk {visit plainVisit : LintContext → Event → Checked LintContext} {events : List Event}
    (h : ∀ e ∈ events, Grades P s (fun ctx => visit ctx e) (fun ctx => plainVisit ctx e)) :
    Grades P s (fun ctx => BslLint.walk LintContext.isCancelled visit ctx events)
      (fun ctx => BslLint.walk LintContext.isCancelled plainVisit ctx events) := by
  induction events with
  | nil => exact nothing
  | cons e events ih =>
    have hrest := (h e (by simp)).bind (ih fun b hb => h b (by simp [hb]))
    cases hstop : e.isStop with
    | false => simpa [BslLint.walk, hstop] using hrest
    | true => simpa [BslLint.walk, hstop] using hrest.unless_cancelled

end Grades

/-! ### Rules -/

/-- What is known of a finding of a lint, whatever its level: the edit that it offers to a machine
takes something away. Of an edit that mends a link, the text tells whether it does. -/
structure Diagnostic.Of (source : Text) (lint : LintDescriptor) (d : Diagnostic) : Prop where
  lint_eq : d.lint = lint
  edit : ∀ fix ∈ d.suggestion, fix.applicability = .machineApplicable →
    if lint = Rules.linkSpacingLint then LinkSpacing.Mends source fix.edit else 0 < fix.edit.length

namespace Rules

variable (input : LintInput) (s : LintSettings)

lemma grades_reportModal {site : CallSite} (hsite : site.text.Located input.module.source)
    (call : CallId) (start : Nat) :
    Grades (Diagnostic.Of input.module.source modalityLint) s
      (fun ctx => reportModal (input.withSettings s) ctx site call start)
      (fun ctx => reportModal (input.withSettings {}) ctx site call start) := by
  refine Grades.bind_value fun fix hfix => Grades.bind_value fun offset _ => Grades.report input ?_
  rintro d hlint hsuggestion
  refine ⟨hlint, fun f hf _ => ?_⟩
  rw [if_neg (by decide)]
  obtain ⟨r, hr, hfix⟩ := Outcome.bind_eq_ok_iff.1 hfix
  rcases Outcome.attempt_cases hr with ⟨edit, hedit, rfl⟩ | ⟨e, -, rfl⟩
  · cases hfix
    rw [hsuggestion] at hf
    cases hf
    obtain ⟨r, -, hform⟩ := CallSite.exists_rewritesHead hsite hedit
    exact hform.length_pos
  · cases hfix
    rw [hsuggestion] at hf
    cases hf

lemma grades_visitModal {e : Event} (he : e.Within input.module input.module.spans) :
    Grades (Diagnostic.Of input.module.source modalityLint) s
      (fun ctx => visitModal (input.withSettings s) ctx e)
      (fun ctx => visitModal (input.withSettings {}) ctx e) := by
  unfold visitModal
  split
  · rename_i name receiver params span scope
    split
    · exact Grades.nothing
    · rename_i call hcall
      refine Grades.behind_checkpoint (Grades.bind_value fun r hr => ?_)
      rcases Outcome.attempt_cases hr with ⟨⟨site, start⟩, hnamed, rfl⟩ | ⟨e, -, rfl⟩
      · obtain ⟨site', hsite, hnamed⟩ := Outcome.bind_eq_ok_iff.1 hnamed
        obtain ⟨start', -, hnamed⟩ := Outcome.bind_eq_ok_iff.1 hnamed
        cases hnamed
        exact grades_reportModal input s (he.module_eq ▸ CallSite.located_of_ofInvocation hsite)
          call start
      · exact Grades.skip e
  · exact Grades.nothing

lemma grades_modality :
    Grades (Diagnostic.Of input.module.source modalityLint) s
      (modality.check (input.withSettings s)) (modality.check (input.withSettings {})) := by
  dsimp only [modality, LintInput.withSettings]
  split
  · exact Grades.walk fun e he => grades_visitModal input s (Event.within_of_mem_ofModule he)
  · exact Grades.nothing

lemma grades_checkDynamicCode (site : Analysis CallSite) :
    Grades (Diagnostic.Of input.module.source dynamicCodeLint) s
      (fun ctx => checkDynamicCode (input.withSettings s) ctx site)
      (fun ctx => checkDynamicCode (input.withSettings {}) ctx site) := by
  refine Grades.bind_value fun r _ => ?_
  cases r with
  | error e => exact Grades.skip e
  | ok site =>
    dsimp only
    split
    · exact Grades.nothing
    · exact Grades.behind_guard site
        (Grades.report input fun d hlint hnone => ⟨hlint, by simp [hnone]⟩)

lemma grades_dynamicCode :
    Grades (Diagnostic.Of input.module.source dynamicCodeLint) s
      (dynamicCode.check (input.withSettings s)) (dynamicCode.check (input.withSettings {})) := by
  refine Grades.walk fun e _ => ?_
  cases e with
  | execute st scope => exact grades_checkDynamicCode input s _
  | call e scope =>
    dsimp only [visitDynamicCode]
    split
    · exact grades_checkDynamicCode input s _
    · exact Grades.nothing
  | method m scope => exact Grades.nothing
  | statement st scope => exact Grades.nothing

lemma grades_checkMode (base : BaseIndex) (d : Declaration) :
    Grades (Diagnostic.Of input.module.source extensionModeLint) s
      (fun ctx => checkMode (input.withSettings s) base ctx d)
      (fun ctx => checkMode (input.withSettings {}) base ctx d) := by
  refine Grades.behind_checkpoint ?_
  dsimp only [LintInput.withSettings]
  cases base.source? input.module d.method with
  | none => exact Grades.nothing
  | some source =>
    refine Grades.bind_value fun r _ => ?_
    match r with
    | .error e => exact Grades.skip e
    | .ok none => exact Grades.nothing
    | .ok (some c) =>
      refine Grades.report input fun d hlint hfix => ⟨hlint, fun f hf hmachine => ?_⟩
      rw [hfix] at hf
      obtain ⟨edit, -, rfl⟩ := Option.map_eq_some_iff.1 hf
      cases hmachine

lemma grades_checkModes (base : BaseIndex) (ds : List Declaration) :
    Grades (Diagnostic.Of input.module.source extensionModeLint) s
      (fun ctx => checkModes (input.withSettings s) base ctx ds)
      (fun ctx => checkModes (input.withSettings {}) base ctx ds) := by
  induction ds with
  | nil => exact Grades.nothing
  | cons d ds ih => exact (grades_checkMode input s base d).bind ih.unless_cancelled

lemma grades_extensionMode :
    Grades (Diagnostic.Of input.module.source extensionModeLint) s
      (extensionMode.check (input.withSettings s))
      (extensionMode.check (input.withSettings {})) := by
  dsimp only [extensionMode, LintInput.withSettings]
  split
  · exact grades_checkModes input s _ _
  · exact Grades.nothing

lemma grades_reportIssue {comment : SourceText} (hcomment : comment.Located input.module.source)
    {i : LinkSpacing.Issue} (hi : i ∈ LinkSpacing.issues comment.raw) :
    Grades (Diagnostic.Of input.module.source linkSpacingLint) s
      (fun ctx => reportIssue (input.withSettings s) comment.start ctx i)
      (fun ctx => reportIssue (input.withSettings {}) comment.start ctx i) := by
  refine Grades.bind_value fun anchor hanchor => Grades.bind_value fun offset _ =>
    Grades.report input fun d hlint hfix => ⟨hlint, fun f hf _ => ?_⟩
  rw [hfix] at hf
  cases hf
  rw [if_pos rfl]
  obtain ⟨before, after, hsource, hbefore, -⟩ := hcomment.exists_around
  have hmends := (LinkSpacing.mends_of_mem_issues hi).shift hsource
  rw [hbefore] at hmends
  obtain ⟨-, rfl⟩ := Outcome.addOffsets_eq_ok_iff.1 hanchor
  exact hmends

lemma grades_checkComments (methods : List Method) :
    Grades (Diagnostic.Of input.module.source linkSpacingLint) s
      (fun ctx => checkComments (input.withSettings s) ctx methods)
      (fun ctx => checkComments (input.withSettings {}) ctx methods) := by
  induction methods with
  | nil => exact Grades.nothing
  | cons m methods ih =>
    simp only [checkComments, reportIssues_eq]
    split
    · exact ih
    · refine Grades.behind_checkpoint (Grades.bind_value fun r hr => ?_)
      rcases Outcome.attempt_cases hr with ⟨comment, hlocated, rfl⟩ | ⟨e, -, rfl⟩
      · exact (Grades.foldList fun i hi =>
          grades_reportIssue input s (located_of_locate hlocated) hi).bind ih
      · exact (Grades.skip e).bind ih

/-- **Settings only grade** the findings of a rule, and all of them are findings of its lint. -/
theorem grades_of_mem_defaultRules {r : Rule} (hr : r ∈ defaultRules) :
    Grades (Diagnostic.Of input.module.source r.lint) s
      (r.check (input.withSettings s)) (r.check (input.withSettings {})) := by
  simp only [defaultRules, List.mem_cons, List.not_mem_nil, or_false] at hr
  rcases hr with rfl | rfl | rfl | rfl
  · exact grades_modality input s
  · exact grades_dynamicCode input s
  · exact grades_extensionMode input s
  · exact grades_checkComments input s _

end Rules

/-! ### The run -/

lemma grades_runRules (input : LintInput) (s : LintSettings) {rules : List Rule}
    (hrules : ∀ r ∈ rules, r ∈ defaultRules) :
    Grades (fun _ => True) s (fun ctx => runRules (input.withSettings s) ctx rules)
      (fun ctx => runRules (input.withSettings {}) ctx rules) := by
  induction rules with
  | nil => exact Grades.nothing
  | cons r rules ih =>
    have hr := Rules.grades_of_mem_defaultRules input s (hrules r (by simp))
    have hrest := ih fun r' hr' => hrules r' (by simp [hr'])
    exact ((hr.mono fun _ _ => trivial).bind hrest).unless_cancelled

/-- **Settings grade the findings of a run and do nothing else.** A run with settings is the run
without any, its findings graded; it breaks off exactly if that run does. -/
theorem lintModule_withSettings (input : LintInput) (s : LintSettings) (c : Cancellation)
    {rules : List Rule} (hrules : ∀ r ∈ rules, r ∈ defaultRules) :
    lintModule rules (input.withSettings s) c =
      lintModule rules (input.withSettings {}) c >>= fun ds => .ok (s.grade ds) := by
  have hrun := (grades_runRules input s hrules).eq { cancellation := c }
  have hstart : LintContext.graded s { cancellation := c } = { cancellation := c } := rfl
  rw [hstart] at hrun
  simp only [lintModule, hrun, bind_assoc, Outcome.ok_bind, Outcome.pure_eq,
    LintContext.finish_graded]

end BslLint
