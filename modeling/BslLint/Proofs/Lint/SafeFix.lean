import BslLint.Proofs.Lint.Levels
import BslLint.Proofs.Lint.Selection

/-!
Safe fixing of the findings of a run.

The suggestions are taken one after the other, and one that overlaps an earlier one is left out; so
those that are taken can be carried out together. That they are spliced as they stand also depends
on how they are listed, since an insertion at the start of a replaced range must not stand before
the replacement. It never does: the edits of modal calls take something away, those of links come
last, and two of them at one place do the same.
-/

namespace BslLint

/-! ### The findings of a run, rule by rule -/

lemma exists_blocks_runRules (input : LintInput) {rules : List Rule}
    (hrules : ∀ r ∈ rules, r ∈ defaultRules) {ctx ctx' : LintContext}
    (h : runRules (input.withSettings {}) ctx rules = .ok ctx') :
    ∃ dss, List.Forall₂ (fun r ds => ∀ d ∈ ds, d.Of input.module.source r.lint) rules dss ∧
      ctx'.diagnostics = ctx.diagnostics ++ dss.flatten := by
  induction rules generalizing ctx with
  | nil =>
    cases h
    exact ⟨[], .nil, by simp⟩
  | cons r rules ih =>
    have hrest := fun r' hr' => hrules r' (List.mem_cons_of_mem r hr')
    rw [runRules] at h
    split at h
    · -- The run is cancelled, and so it is before each of the rules that are left.
      rename_i hc
      have hrun : runRules (input.withSettings {}) ctx rules = .ok ctx' := by
        cases rules with
        | nil => exact h
        | cons r' rules => rw [runRules, if_pos hc, h]
      obtain ⟨dss, hdss, hflat⟩ := ih hrest hrun
      exact ⟨[] :: dss, .cons (by simp) hdss, hflat⟩
    · obtain ⟨ctx₁, hcheck, hrun⟩ := Outcome.bind_eq_ok_iff.1 h
      obtain ⟨ds, hds, hof⟩ :=
        (Rules.grades_of_mem_defaultRules input {} (hrules r (by simp))).adds ctx ctx₁ hcheck
      obtain ⟨dss, hdss, hflat⟩ := ih hrest hrun
      exact ⟨ds :: dss, .cons hof hdss, by rw [hflat, hds, List.flatten_cons, List.append_assoc]⟩

/-- **The findings of a run come rule by rule**, whatever the settings and the moment of a
cancellation. -/
lemma exists_blocks {rules : List Rule} {input : LintInput} {c : Cancellation}
    {ds : List Diagnostic} (hrules : ∀ r ∈ rules, r ∈ defaultRules)
    (h : lintModule rules input c = .ok ds) :
    ∃ dss, List.Forall₂ (fun r ds => ∀ d ∈ ds, d.Of input.module.source r.lint) rules dss ∧
      ds.Sublist (input.settings.grade dss.flatten) := by
  have hgraded := lintModule_withSettings input input.settings c hrules
  obtain ⟨ds₀, hplain, hds⟩ := Outcome.bind_eq_ok_iff.1 (hgraded.symm.trans h)
  obtain ⟨ctx, hrun, hfinish⟩ := Outcome.bind_eq_ok_iff.1 hplain
  cases hds
  cases hfinish
  obtain ⟨dss, hdss, hflat⟩ := exists_blocks_runRules input hrules hrun
  refine ⟨dss, hdss, ?_⟩
  rw [List.nil_append] at hflat
  unfold LintContext.finish
  split
  · exact List.nil_sublist _
  · rw [hflat]

/-- An edit for machines of the first finding does not insert at the start of what one of the second
finding replaces. -/
def Diagnostic.Precedes (d e : Diagnostic) : Prop :=
  ∀ fix ∈ d.suggestion, ∀ fix' ∈ e.suggestion, fix.applicability = .machineApplicable →
    fix'.applicability = .machineApplicable → ¬fix.edit.Touches fix'.edit

/-- Edits that take something away insert nothing, and of two edits of links at one place both take
something away or neither does. -/
lemma Diagnostic.Of.precedes {source : Text} {lint lint' : LintDescriptor} {d e : Diagnostic}
    (hd : d.Of source lint) (he : e.Of source lint')
    (hlint : lint = Rules.linkSpacingLint → lint' = Rules.linkSpacingLint) : d.Precedes e := by
  intro fix hfix fix' hfix' hmachine hmachine' htouch
  have hedit := hd.edit fix hfix hmachine
  have hedit' := he.edit fix' hfix' hmachine'
  obtain ⟨hinsert, hreplace, hanchor⟩ := htouch
  by_cases hlink : lint = Rules.linkSpacingLint
  · rw [if_pos hlink] at hedit
    rw [if_pos (hlint hlink)] at hedit'
    have hiff := hedit.length_pos_iff hedit' hanchor
    omega
  · rw [if_neg hlink] at hedit
    omega

lemma defaultRules_pairwise :
    defaultRules.Pairwise fun r r' =>
      r.lint = Rules.linkSpacingLint → r'.lint = Rules.linkSpacingLint := by decide

lemma pairwise_precedes {rules : List Rule} {input : LintInput} {c : Cancellation}
    {ds : List Diagnostic} (hrules : rules.Sublist defaultRules)
    (h : lintModule rules input c = .ok ds) : ds.Pairwise Diagnostic.Precedes := by
  obtain ⟨dss, hdss, hsub⟩ := exists_blocks (fun r hr => hrules.subset hr) h
  have hblocks : dss.flatten.Pairwise Diagnostic.Precedes := by
    rw [List.pairwise_flatten]
    refine ⟨fun ds hds => ?_, pairwise_of_forall₂ ?_ hdss (defaultRules_pairwise.sublist hrules)⟩
    · obtain ⟨r, -, hof⟩ := exists_of_forall₂ hdss hds
      exact List.pairwise_of_forall_mem_list fun d hd e he => (hof d hd).precedes (hof e he) id
    · intro r ds r' ds' hof hof' hlast d hd e he
      exact (hof d hd).precedes (hof' e he) hlast
  refine List.Pairwise.sublist hsub ?_
  rw [LintSettings.grade, List.pairwise_filterMap]
  refine hblocks.imp fun {d e} hde d' hd' e' he' => ?_
  obtain ⟨-, rfl⟩ := LintSettings.grade?_eq_some_iff.1 hd'
  obtain ⟨-, rfl⟩ := LintSettings.grade?_eq_some_iff.1 he'
  exact hde

/-! ### The fix -/

lemma eligibleEdits_safe (suggestions : List Suggestion) :
    eligibleEdits false suggestions =
      (suggestions.filter fun s => s.applicability = .machineApplicable).map Suggestion.edit := by
  have hiff : ∀ a : Applicability, a.eligibility false = .eligible ↔ a = .machineApplicable := by
    intro a
    cases a <;> decide
  simp only [eligibleEdits, hiff]

lemma pairwise_not_touches {ds : List Diagnostic} (h : ds.Pairwise Diagnostic.Precedes) :
    (eligibleEdits false (ds.filterMap Diagnostic.suggestion)).Pairwise
      fun d e => ¬d.Touches e := by
  rw [eligibleEdits_safe, List.pairwise_map, List.pairwise_filter, List.pairwise_filterMap]
  refine h.imp fun {d e} hde fix hfix fix' hfix' hmachine hmachine' => ?_
  exact hde fix hfix fix' hfix' (by simpa using hmachine) (by simpa using hmachine')

lemma Rules.check_safe {input : LintInput} (hfit : input.module.SpansFit)
    (hbase : ∀ b ∈ input.base, ∀ m ∈ b.modules, m.SpansFit) {r : Rule} (hr : r ∈ defaultRules)
    {ctx : LintContext} (hctx : ctx.WellPlaced input.module.source) :
    (r.check input ctx).Safe (LintContext.WellPlaced input.module.source) := by
  simp only [defaultRules, List.mem_cons, List.not_mem_nil, or_false] at hr
  rcases hr with rfl | rfl | rfl | rfl
  · exact modality_safe hfit hctx
  · exact dynamicCode_safe hfit hctx
  · exact extensionMode_safe hfit hbase hctx
  · exact linkSpacing_safe hfit hctx

lemma exists_lintModule {rules : List Rule} {input : LintInput} (c : Cancellation)
    (hrules : ∀ r ∈ rules, r ∈ defaultRules) (hfit : input.module.SpansFit)
    (hbase : ∀ b ∈ input.base, ∀ m ∈ b.modules, m.SpansFit) :
    ∃ ds, lintModule rules input c = .ok ds ∧
      ∀ allowUnsafe, ∀ e ∈ eligibleEdits allowUnsafe (ds.filterMap Diagnostic.suggestion),
        e.stop < offsetLimit := by
  have hstart : LintContext.WellPlaced input.module.source { cancellation := c } := by
    simp [LintContext.WellPlaced]
  obtain ⟨ctx, hrun, hplaced⟩ := Outcome.safe_checked_iff.1 (runRules_safe
    (fun r hr ctx hctx => Rules.check_safe hfit hbase (hrules r hr) hctx) hstart)
  refine ⟨ctx.finish, by rw [lintModule, hrun]; rfl, fun allowUnsafe e he => ?_⟩
  obtain ⟨fix, hfix, rfl⟩ := List.mem_map.1 he
  obtain ⟨d, hd, hsuggestion⟩ := List.mem_filterMap.1 (List.mem_of_mem_filter hfix)
  have hvalid :=
    (hplaced d (LintContext.mem_diagnostics_of_mem_finish hd)).edit fix hsuggestion
  exact (Edit.validate_eq_ok_iff.1 hvalid).1

/-- **Safe fixing of the findings of a run succeeds and is exact.** Take any of the default rules in
their order. Their findings are fixed without an error and without breaking off. The edits that are
carried out are some of those that are offered to machines, and the result is their simultaneous
splice: source and result have the same gaps in the same order, and each replacement stands where
the source has the range of its edit. -/
theorem applySuggestions_lintModule (rules : List Rule) (input : LintInput) (c : Cancellation)
    (hrules : rules.Sublist defaultRules) (hfit : input.module.SpansFit)
    (hbase : ∀ b ∈ input.base, ∀ m ∈ b.modules, m.SpansFit) :
    ∃ ds edits skippedUnsafe skippedOther fixed, lintModule rules input c = .ok ds ∧
      edits.Sublist (((ds.filterMap Diagnostic.suggestion).filter fun s =>
        s.applicability = .machineApplicable).map Suggestion.edit) ∧
      FixSelection.of input.module.source ds false =
        (.ok ⟨edits, skippedUnsafe, skippedOther⟩ : Outcome EditError FixSelection) ∧
      applySuggestions input.module.source ds false =
        .ok ⟨fixed, edits.length, skippedUnsafe, skippedOther⟩ ∧
      Edit.interleave input.module.source 0 (Edit.inOrder edits) = some fixed ∧
      (Edit.inOrder edits).Perm edits ∧
      Edit.Spliced 0 (Edit.inOrder edits) input.module.source fixed := by
  obtain ⟨ds, hlint, hlt⟩ := exists_lintModule c (fun r hr => hrules.subset hr) hfit hbase
  obtain ⟨sel, hsel, hsound, hsub⟩ :=
    FixSelection.exists_of (ε := EditError) input.module.source (hlt false)
  have htouch : sel.accepted.Pairwise fun d e => ¬d.Touches e :=
    (pairwise_not_touches (pairwise_precedes hrules hlint)).sublist hsub
  obtain ⟨fixed, hspliced, hrun⟩ :=
    Edit.exists_spliced_inOrder (ε := EditError) hsound.lt hsound.compatible
  have happly : Edit.applyAll input.module.source sel.accepted = .ok fixed := by
    rw [Edit.applyAll_of_compatible hsound.lt hsound.compatible,
      Edit.fromLast_eq hsound.compatible.apart htouch, hrun]
  refine ⟨ds, sel.accepted, sel.skippedUnsafe, sel.skippedOther, fixed, hlint, ?_, hsel, ?_,
    hspliced.interleave_eq [] rfl, Edit.inOrder_perm _, hspliced⟩
  · rwa [← eligibleEdits_safe]
  · rw [applySuggestions, hsel, Outcome.ok_bind, happly]
    rfl

/-- A modal call in an argument of another one, and a link that is attached to the outer call, in
the comments of two methods: the inner call and the second comment are left for a later run, and the
space in front of the link stands at the start of the call that is replaced. -/
theorem applySuggestions_lintModule_overlapping :
    let method (comment : Span) : Item :=
      .method ⟨"А".toList, .procedure, false, [], [], [], none, none, some comment⟩
    let inner : Expression := .invocation "Вопрос".toList none [] (some ⟨20, 14⟩)
    let outer : Expression := .invocation "Вопрос".toList none [some inner] (some ⟨7, 28⟩)
    let m : Module := {
      name := "М".toList
      source := "//См.Вопрос(Вопрос())".toList
      items := [method ⟨0, 35⟩, method ⟨2, 33⟩]
      statements := [.simple outer none none] }
    let input : LintInput := ⟨m, {}, ⟨.primary, .dontUse, false⟩, none⟩
    ∃ ds, lintModule defaultRules input .never = .ok ds ∧
      applySuggestions m.source ds false =
        .ok ⟨"//См. ПоказатьВопрос(,Вопрос())".toList, 2, 0, 2⟩ := by
  intro method inner outer m input
  obtain ⟨ds, edits, skippedUnsafe, skippedOther, fixed, hlint, -, hsel, happly, hfixed, -⟩ :=
    applySuggestions_lintModule defaultRules input .never (.refl _) (by decide +kernel) nofun
  have hchosen : (match lintModule defaultRules input .never with
      | .ok ds => FixSelection.of m.source ds false
      | .abort c => .abort c) = (.ok ⟨[⟨7, 28, "ПоказатьВопрос(,Вопрос())".toList⟩, ⟨7, 0, [' ']⟩],
        0, 2⟩ : Outcome EditError FixSelection) := by decide +kernel
  rw [hlint] at hchosen
  obtain ⟨rfl, rfl, rfl⟩ := FixSelection.mk.inj (Outcome.ok.inj (hsel.symm.trans hchosen))
  have horder : Edit.inOrder
      [⟨7, 28, "ПоказатьВопрос(,Вопрос())".toList⟩, ⟨7, 0, [' ']⟩] =
      [⟨7, 0, [' ']⟩, ⟨7, 28, "ПоказатьВопрос(,Вопрос())".toList⟩] := by
    rw [← List.reverse_inj, ← Edit.fromLast_eq (by decide) (by decide),
      Edit.fromLast_of_sorted (by decide)]
    rfl
  have hspliced : Edit.interleave m.source 0
      [⟨7, 0, [' ']⟩, ⟨7, 28, "ПоказатьВопрос(,Вопрос())".toList⟩] =
      some "//См. ПоказатьВопрос(,Вопрос())".toList := by decide +kernel
  rw [horder] at hfixed
  obtain rfl := Option.some.inj (hspliced.symm.trans hfixed)
  exact ⟨ds, hlint, happly⟩

end BslLint
