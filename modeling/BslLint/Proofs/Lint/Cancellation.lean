import BslLint.Proofs.Lint.DynamicCode
import BslLint.Proofs.Lint.ExtensionMode
import BslLint.Proofs.Lint.Modality

/-!
Cancellation is all or nothing.

The rules poll the request at different places: for each call, for each statement that the search
for a guard passes, for each method, for each comment. Wherever the request is first seen, the run
may go on for a while, and what it finds then may be anything. But a request is never taken back,
so it still stands when the run is over, and the findings are dropped. Each rule adds its findings
in this sense (`Adds`), hence so does the run.
-/

namespace BslLint

namespace Rules

variable {input : LintInput}

/-! ### Documentation comments -/

lemma exists_adds_reportIssue {comment : SourceText}
    (hcomment : comment.Located input.module.source) {i : LinkSpacing.Issue}
    (hi : i.Placed comment.raw) :
    ∃ ds, Adds (fun ctx => reportIssue input comment.start ctx i) ds := by
  obtain ⟨⟨m, hrange⟩, ⟨m', hedit⟩⟩ := hi
  obtain ⟨-, hlt⟩ := hcomment.slice_of_raw hrange
  obtain ⟨-, hlt'⟩ := hcomment.slice_of_raw hedit
  obtain ⟨ds, hadds, -⟩ := exists_adds_report input linkSpacingLint hlt _ _
  refine ⟨ds, hadds.congr fun ctx => ?_⟩
  rw [reportIssue, addOffsets_of_lt (by omega), Outcome.ok_bind, addOffsets_of_lt (by omega),
    Outcome.ok_bind]

lemma exists_adds_checkComments {methods : List Method}
    (hfit : ∀ m ∈ methods, SpanFits m.docComment) :
    ∃ ds, Adds (fun ctx => checkComments input ctx methods) ds := by
  induction methods with
  | nil => exact ⟨[], adds_nil⟩
  | cons m methods ih =>
    obtain ⟨ds, hds⟩ := ih fun m' hm' => hfit m' (by simp [hm'])
    cases hnone : m.docComment.isNone with
    | true => exact ⟨ds, hds.congr fun ctx => by simp [checkComments, hnone]⟩
    | false =>
      rcases locate_cases input.module.source (hfit m (by simp)) with
        ⟨comment, hloc⟩ | ⟨e, hloc, hne⟩
      · obtain ⟨es, hes⟩ :=
          (isLoop_foldList (reportIssue input comment.start)).exists_adds_of_steps fun i hi =>
            exists_adds_reportIssue (located_of_locate hloc) (LinkSpacing.placed_of_mem_issues hi)
        refine ⟨es ++ ds, (hes.bind hds).behind_checkpoint.congr fun ctx => ?_⟩
        simp only [checkComments, hnone, hloc, Outcome.attempt, Outcome.ok_bind, reportIssues_eq]
        rfl
      · refine ⟨ds, hds.behind_checkpoint.congr fun ctx => ?_⟩
        simp only [checkComments, hnone, hloc, Outcome.attempt, Outcome.ok_bind,
          LintContext.skip_of_ne hne]
        rfl

lemma exists_adds_linkSpacing (hfit : input.module.SpansFit) :
    ∃ ds, Adds (linkSpacing.check input) ds :=
  exists_adds_checkComments fun _ hm => (hfit.of_mem_methods hm).2.2

/-! ### The run -/

lemma exists_adds_of_mem_defaultRules (hfit : input.module.SpansFit)
    (hbase : ∀ b ∈ input.base, ∀ m ∈ b.modules, m.SpansFit) {r : Rule} (hr : r ∈ defaultRules) :
    ∃ ds, Adds (r.check input) ds := by
  simp only [defaultRules, List.mem_cons, List.not_mem_nil, or_false] at hr
  rcases hr with rfl | rfl | rfl | rfl
  · obtain ⟨ds, hds, -⟩ := exists_adds_modality input hfit
    exact ⟨ds, hds⟩
  · obtain ⟨ds, hds, -⟩ := exists_adds_dynamicCode hfit
    exact ⟨ds, hds⟩
  · obtain ⟨ds, hds, -⟩ := exists_adds_extensionMode hfit hbase
    exact ⟨ds, hds⟩
  · exact exists_adds_linkSpacing hfit

end Rules

/-- Rules that add findings come to these findings, or to none once the request has come. -/
lemma lintModule_cases {rules : List Rule} {input : LintInput} {ds : List Diagnostic}
    (h : Adds (fun ctx => runRules input ctx rules) ds) {c : Cancellation} (hc : c.Lasts) :
    (∃ n, c.answers n = true) ∧ lintModule rules input c = .ok [] ∨
      lintModule rules input c = .ok ds := by
  have hstart : LintContext.Honest { cancellation := c } := ⟨hc, by simp⟩
  obtain ⟨ctx, hrun, hcont⟩ := Outcome.safe_checked_iff.1 (h _ hstart)
  have hresult : lintModule rules input c = .ok ctx.finish := by
    beta_reduce at hrun
    rw [lintModule, hrun]
    rfl
  rw [hresult]
  rcases hcont.finish_cases with ⟨hreq, hnil⟩ | hall
  · refine Or.inl ⟨⟨ctx.cancellation.polls, ?_⟩, by rw [hnil]⟩
    rwa [Cancellation.isRequested, hcont.before.answers_eq] at hreq
  · exact Or.inr (by rw [hall, List.nil_append])

/-- **Cancellation is all or nothing.** Take any of the default rules, in any order. Whenever the
request comes, the run returns the findings of the run that is not cancelled; or it returns none,
and then the request has come. -/
theorem lintModule_all_or_nothing (rules : List Rule) (input : LintInput) (c : Cancellation)
    (hrules : ∀ r ∈ rules, r ∈ defaultRules) (hfit : input.module.SpansFit)
    (hbase : ∀ b ∈ input.base, ∀ m ∈ b.modules, m.SpansFit) (hc : c.Lasts) :
    ∃ ds, lintModule rules input .never = .ok ds ∧
      ((∃ n, c.answers n = true) ∧ lintModule rules input c = .ok [] ∨
        lintModule rules input c = .ok ds) := by
  obtain ⟨ds, hadds⟩ := (isLoop_runRules input).exists_adds_of_steps fun r hr =>
    Rules.exists_adds_of_mem_defaultRules hfit hbase (hrules r hr)
  refine ⟨ds, ?_, lintModule_cases hadds hc⟩
  refine (lintModule_cases hadds Cancellation.lasts_never).resolve_left ?_
  rintro ⟨⟨n, hn⟩, -⟩
  cases hn

/-- A request that comes between the polls for two modal calls. -/
theorem lintModule_all_or_nothing_midway :
    let call (start : Nat) : Statement :=
      .simple (.invocation "Вопрос".toList none [] (some ⟨start, 14⟩)) none none
    let m : Module := {
      name := "М".toList
      source := "Вопрос();Вопрос();".toList
      items := []
      statements := [call 0, call 15] }
    let input : LintInput := { module := m, project := ⟨.primary, .dontUse, false⟩ }
    let midway : Cancellation := { answers := fun n => decide (1 ≤ n) }
    ∃ ds, lintModule defaultRules input .never = .ok ds ∧ ds.length = 2 ∧
      lintModule defaultRules input midway = .ok [] := by
  intro call m input midway
  have hlasts : midway.Lasts := by
    intro i j hij hi
    exact decide_eq_true (Nat.le_trans (of_decide_eq_true hi) hij)
  obtain ⟨ds, hnever, hmidway⟩ := lintModule_all_or_nothing defaultRules input midway
    (fun _ hr => hr) (by decide +kernel) nofun hlasts
  have hcount : [Cancellation.never, midway].map (fun c =>
      match lintModule defaultRules input c with
      | .ok ds => ds.length
      | .abort _ => 0) = [2, 0] := by decide +kernel
  rw [List.map_cons, List.map_singleton, hnever, List.cons.injEq, List.cons.injEq] at hcount
  obtain ⟨hall, hnone, -⟩ := hcount
  refine ⟨ds, hnever, hall, ?_⟩
  rcases hmidway with ⟨-, hnil⟩ | hds
  · exact hnil
  · rw [hds] at hnone
    simp [hall] at hnone

end BslLint
