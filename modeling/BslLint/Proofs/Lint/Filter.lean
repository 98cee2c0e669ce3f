import BslLint.Proofs.Lint.Cancellation
import BslLint.Proofs.Lint.Levels
import BslLint.Proofs.Lint.Settings

/-!
Rules do not interfere. The findings of a run are those of its rules one after the other, and a rule
finds the same whichever rules run before it and whatever the settings are. So leaving a rule out of
the run leaves its findings out of the result and nothing else, and so does switching its lint off.
-/

namespace BslLint

/-! ### The findings of each rule -/

section Findings

variable {input : LintInput}

lemma Rules.exists_adds_graded (hfit : input.module.SpansFit)
    (hbase : ∀ b ∈ input.base, ∀ m ∈ b.modules, m.SpansFit) {r : Rule} (hr : r ∈ defaultRules) :
    ∃ ds, (∀ d ∈ ds, d.Of input.module.source r.lint) ∧
      ∀ s, Adds (r.check (input.withSettings s)) (LintSettings.grade s ds) := by
  have hadds (s : LintSettings) : ∃ ds, Adds (r.check (input.withSettings s)) ds := by
    have hfit' : (input.withSettings s).module.SpansFit := hfit
    exact exists_adds_of_mem_defaultRules hfit' hbase hr
  have hstart : LintContext.Uncancelled {} := ⟨rfl, fun _ => rfl⟩
  obtain ⟨ds, hds⟩ := hadds {}
  obtain ⟨ctx, hcheck, -, hfound⟩ := hds.of_uncancelled hstart
  refine ⟨ds, ?_, fun s => ?_⟩
  · obtain ⟨ds', hds', hof⟩ := (grades_of_mem_defaultRules input {} hr).adds {} ctx hcheck
    rw [hfound, List.append_cancel_left_eq] at hds'
    rwa [hds']
  · -- Both runs start from the state without findings, which the settings leave as it is.
    obtain ⟨es, hes⟩ := hadds s
    obtain ⟨ctx', hcheck', -, hfound'⟩ := hes.of_uncancelled hstart
    have heq := (grades_of_mem_defaultRules input s hr).eq {}
    rw [hcheck, Outcome.ok_bind] at heq
    have hgraded : ctx' = ctx.graded s := Outcome.ok.inj (hcheck'.symm.trans heq)
    have hgrade : s.grade ds = es := by
      rw [hgraded, LintContext.graded, hfound] at hfound'
      exact hfound'
    rwa [hgrade]

/-- **The findings of a run are those of its rules.** Each rule has its findings, and a run of any
of the rules with any settings adds these one after the other, graded by the settings. -/
lemma exists_findings (hfit : input.module.SpansFit)
    (hbase : ∀ b ∈ input.base, ∀ m ∈ b.modules, m.SpansFit) :
    ∃ findings : Rule → List Diagnostic,
      (∀ r ∈ defaultRules, ∀ d ∈ findings r, d.Of input.module.source r.lint) ∧
      ∀ rules : List Rule, (∀ r ∈ rules, r ∈ defaultRules) → ∀ s : LintSettings,
        Adds (fun ctx => runRules (input.withSettings s) ctx rules)
          (rules.flatMap fun r => s.grade (findings r)) := by
  choose! findings hof hadds using fun r (hr : r ∈ defaultRules) =>
    Rules.exists_adds_graded hfit hbase hr
  refine ⟨findings, hof, fun rules hrules s => ?_⟩
  obtain ⟨dss, hdss, hrun⟩ := (isLoop_runRules (input.withSettings s)).exists_adds
    (Q := fun r ds => s.grade (findings r) = ds) fun r hr => ⟨_, hadds r (hrules r hr) s, rfl⟩
  rw [← List.forall₂_map_left_iff (f := fun r => s.grade (findings r)), List.forall₂_eq_eq_eq]
    at hdss
  rwa [List.flatMap, hdss]

lemma lintModule_of_uncancelled {rules : List Rule} {ds : List Diagnostic}
    (h : Adds (fun ctx => runRules input ctx rules) ds) {c : Cancellation}
    (hc : ∀ n, c.answers n = false) : lintModule rules input c = .ok ds := by
  have hlasts : c.Lasts := by
    intro i j _ hi
    simp [hc] at hi
  refine (lintModule_cases h hlasts).resolve_left ?_
  rintro ⟨⟨n, hn⟩, -⟩
  simp [hc] at hn

end Findings

/-! ### The choice of rules -/

namespace RuleFilter

/-- The lint passes the filter: some name of `only` is resolved to its name, unless none is given,
and no name of `skip` or `disabled` is. -/
def Passes (f : RuleFilter) (lint : LintDescriptor) : Prop :=
  (f.only = [] ∨ ∃ name ∈ f.only, resolveLintAlias name = lint.name) ∧
    ∀ name ∈ f.skip ++ f.disabled, resolveLintAlias name ≠ lint.name

instance (f : RuleFilter) : DecidablePred f.Passes :=
  fun _ => inferInstanceAs (Decidable (_ ∧ _))

lemma passes_iff {f : RuleFilter} {r : Rule} : f.passes r = true ↔ f.Passes r.lint := by
  simp [passes, Passes, or_imp, forall_and]

lemma rules_of_known {f : RuleFilter}
    (h : ∀ name ∈ f.only ++ f.skip ++ f.disabled, isKnownLint name = true) :
    f.rules = .ok (defaultRules.filter f.passes) := by
  have hnone : (f.only ++ f.skip ++ f.disabled).find? (fun name => !isKnownLint name) = none := by
    rw [List.find?_eq_none]
    intro name hname
    simp [h name hname]
  rw [rules, hnone]

end RuleFilter

lemma flatMap_filter {α β : Type} (p : α → Bool) (g : α → List β) (l : List α) :
    (l.filter p).flatMap g = l.flatMap fun a => if p a then g a else [] := by
  induction l with
  | nil => rfl
  | cons a l ih =>
    cases hp : p a <;> simp [hp, ih]

/-! ### Levels -/

namespace LintSettings

variable {s t : LintSettings} {ds : List Diagnostic} {lint : LintDescriptor}

lemma grade_of_allow (hds : ∀ d ∈ ds, d.lint = lint) (h : s.levelFor lint.name = .allow) :
    s.grade ds = [] := by
  rw [grade, List.filterMap_eq_nil_iff]
  intro d hd
  rw [grade?, hds d hd, if_pos h]

lemma grade_congr (hds : ∀ d ∈ ds, d.lint = lint)
    (h : s.levelFor lint.name = t.levelFor lint.name) : s.grade ds = t.grade ds := by
  refine List.filterMap_congr fun d hd => ?_
  rw [grade?, grade?, hds d hd, h]

lemma levelFor_disable {name : String} (hname : resolveLintAlias name = name)
    (names : List String) (s : LintSettings) :
    (s.disable names).levelFor name =
      if name ∈ names.map resolveLintAlias then .allow else s.levelFor name := by
  have hiff : (Change.disabled names).Mentions name ↔ name ∈ names.map resolveLintAlias := by
    simp [Change.Mentions, Change.names]
  rw [levelFor_of_resolveLintAlias_eq hname, levelFor_of_resolveLintAlias_eq hname]
  split
  case isTrue h =>
    have hlookup : (s.disable names).levels.lookup name = some .allow :=
      lookup_apply_of_sets (c := .disabled names) trivial ⟨rfl, hiff.2 h⟩
    rw [hlookup, Option.getD_some]
  case isFalse h =>
    have hlookup : (s.disable names).levels.lookup name = s.levels.lookup name :=
      lookup_apply_of_not_mentions (c := .disabled names) (mt hiff.1 h)
    rw [hlookup]

end LintSettings

lemma resolveLintAlias_of_mem_defaultRules {r : Rule} (hr : r ∈ defaultRules) :
    resolveLintAlias r.lint.name = r.lint.name := by
  simp only [defaultRules, List.mem_cons, List.not_mem_nil, or_false] at hr
  rcases hr with rfl | rfl | rfl | rfl <;> decide

/-- **Rules do not interfere, and a lint is switched off in either way.** For a filter with names of
lints only, the rules that pass it find what all rules find in lints that pass it, in the same
order. A filter that only disables lints does the same as settings that switch them off. And every
finding has the level of its lint, which is not switched off. -/
theorem lintModule_filter (input : LintInput) (f : RuleFilter) (c : Cancellation)
    (hknown : ∀ name ∈ f.only ++ f.skip ++ f.disabled, isKnownLint name = true)
    (hc : ∀ n, c.answers n = false) (hfit : input.module.SpansFit)
    (hbase : ∀ b ∈ input.base, ∀ m ∈ b.modules, m.SpansFit) :
    ∃ rules ds, f.rules = .ok rules ∧ lintModule defaultRules input c = .ok ds ∧
      lintModule rules input c = .ok (ds.filter fun d => f.Passes d.lint) ∧
      (f.only = [] → f.skip = [] → lintModule rules input c =
        lintModule defaultRules (input.withSettings (input.settings.disable f.disabled)) c) ∧
      ∀ d ∈ ds, d.level = input.settings.levelFor d.lint.name ∧ d.level ≠ .allow := by
  obtain ⟨findings, hof, hadds⟩ := exists_findings hfit hbase
  have hlint : ∀ r ∈ defaultRules, ∀ d ∈ findings r, d.lint = r.lint :=
    fun r hr d hd => (hof r hr d hd).lint_eq
  have hsub : ∀ r ∈ defaultRules.filter f.passes, r ∈ defaultRules :=
    fun r hr => List.mem_of_mem_filter hr
  have hall := lintModule_of_uncancelled (hadds defaultRules (fun _ hr => hr) input.settings) hc
  have hsome := lintModule_of_uncancelled (hadds _ hsub input.settings) hc
  have hgraded : ∀ r ∈ defaultRules, ∀ d ∈ input.settings.grade (findings r),
      d.lint = r.lint ∧ d.level = input.settings.levelFor d.lint.name ∧ d.level ≠ .allow := by
    intro r hr d hd
    obtain ⟨d₀, hd₀, hon, rfl⟩ := LintSettings.mem_grade.1 hd
    exact ⟨hlint r hr d₀ hd₀, rfl, hon⟩
  refine ⟨_, _, RuleFilter.rules_of_known hknown, hall, ?_, fun honly hskip => ?_, ?_⟩
  · -- The findings of one rule pass the filter together, or none of them does.
    rw [List.filter_flatMap]
    refine hsome.trans (congrArg Outcome.ok ?_)
    rw [flatMap_filter]
    refine List.flatMap_congr fun r hr => ?_
    split
    · rename_i hpass
      refine (List.filter_eq_self.2 fun d hd => ?_).symm
      simpa [(hgraded r hr d hd).1] using RuleFilter.passes_iff.1 hpass
    · rename_i hpass
      refine (List.filter_eq_nil_iff.2 fun d hd => ?_).symm
      simpa [(hgraded r hr d hd).1] using fun h => hpass (RuleFilter.passes_iff.2 h)
  · have hoff := lintModule_of_uncancelled
      (hadds defaultRules (fun _ hr => hr) (input.settings.disable f.disabled)) hc
    refine hsome.trans (hoff.trans (congrArg Outcome.ok ?_)).symm
    rw [flatMap_filter]
    refine List.flatMap_congr fun r hr => ?_
    have hlevel := LintSettings.levelFor_disable (resolveLintAlias_of_mem_defaultRules hr)
      f.disabled input.settings
    split
    · rename_i hpass
      refine LintSettings.grade_congr (hlint r hr) (hlevel.trans (if_neg ?_))
      simpa [RuleFilter.passes, honly, hskip] using hpass
    · rename_i hpass
      refine LintSettings.grade_of_allow (hlint r hr) (hlevel.trans (if_pos ?_))
      simpa [RuleFilter.passes, honly, hskip] using hpass
  · intro d hd
    obtain ⟨r, hr, hd⟩ := List.mem_flatMap.1 hd
    exact (hgraded r hr d hd).2

/-- Two lints report, one of them as an error, and the other one is disabled by its second name. -/
theorem lintModule_filter_disabled :
    let method : Method := ⟨"А".toList, .procedure, false, [], [], [], none, none, some ⟨0, 9⟩⟩
    let m : Module := {
      name := "М".toList
      source := "//См.Б\nВопрос();".toList
      items := [.method method]
      statements := [.simple (.invocation "вопрос".toList none [] (some ⟨10, 14⟩)) none none] }
    let input : LintInput :=
      ⟨m, ⟨[("dont_use_modality_mode", .error)]⟩, ⟨.primary, .dontUse, false⟩, none⟩
    let f : RuleFilter := { disabled := ["link-part-comment-space"] }
    ∃ rules ds, f.rules = .ok rules ∧ lintModule defaultRules input .never = .ok ds ∧
      ds.map (fun d => (d.lint.name, d.level)) =
        [("dont_use_modality_mode", .error), ("link_part_comment_space", .warn)] ∧
      lintModule rules input .never = .ok (ds.take 1) ∧
      lintModule defaultRules (input.withSettings (input.settings.disable f.disabled)) .never =
        .ok (ds.take 1) := by
  intro method m input f
  obtain ⟨rules, ds, hrules, hall, hsome, hoff, -⟩ := lintModule_filter input f .never
    (by decide) (fun _ => rfl) (by decide +kernel) nofun
  have hfindings : (match lintModule defaultRules input .never with
      | .ok ds => (ds.map fun d => (d.lint.name, d.level),
        decide (ds.filter (fun d => f.Passes d.lint) = ds.take 1))
      | .abort _ => ([], false)) = ([("dont_use_modality_mode", .error),
        ("link_part_comment_space", .warn)], true) := by decide +kernel
  rw [hall, Prod.mk.injEq, decide_eq_true_eq] at hfindings
  rw [hfindings.2] at hsome
  exact ⟨rules, ds, hrules, hall, hfindings.1, hsome, (hoff rfl rfl).symm.trans hsome⟩

end BslLint
