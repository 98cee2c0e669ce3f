import BslLint.Proofs.Environment
import BslLint.Proofs.Lint.Findings
import BslLint.Proofs.Lint.Placement

/-!
The rule on extension methods is exact: it reports, in document order, the methods that claim an
environment which the method they extend lacks.

What is to be reported is said on the scopes of the methods (`Scope.Exceeds`): a scope knows the
environments and the innermost region of its method, so that the extension method and the method it
extends are two scopes, of two modules. The rule looks scopes up by place and finds the same ones
(`Module.forall₂_declarations`); this is why no look-up of it fails.
-/

namespace BslLint

/-! ### What is to be reported -/

namespace Scope

/-- The scope of the method that an extension method extends: of the last base module with the name
of its module, the first method with the name that its first annotation gives, both names up to
case. -/
def extended? (base : List Module) (s : Scope) : Option Scope := do
  let f ← s.method
  let a ← f.annotations.head?
  let b ← (base.filter fun b => Text.lowercase b.name = Text.lowercase s.module.name).getLast?
  (b.methodScopes.filter fun t =>
    t.method.map (fun g => Text.lowercase g.name) = some (Text.lowercase a.target)).head?

/-- The method extends a method that lacks some of its environments, and its name is found. -/
def Exceeds (base : List Module) (s : Scope) : Prop :=
  ∃ t ∈ s.extended? base, ¬s.environments ⊆ t.environments ∧
    ∃ f ∈ s.method, (locate s.module.source f.nameSpan).Succeeds

instance (base : List Module) : DecidablePred (Exceeds base) := fun s =>
  inferInstanceAs (Decidable (∃ t ∈ s.extended? base, _ ∧ _))

/-- The finding on a method `f` that claims more environments than the method `g`: it lies on the
name of `f`, its message names the environments that `g` lacks and no others, and it suggests to
wrap `f` if the condition of the region around `g` and the text of `f` are found. -/
structure IsExcessFinding (s t : Scope) (f g : Method) (name : SourceText) (d : Diagnostic) :
    Prop where
  method_eq : s.method = some f
  source_eq : t.method = some g
  located : locate s.module.source f.nameSpan = .ok name
  lint_eq : d.lint = Rules.extensionModeLint
  offset_eq : d.extent.offset = name.start
  length_eq : d.extent.length = name.length
  message_eq : d.message = "Method `" ++ String.ofList f.name ++
    "` is available in environments where `" ++ String.ofList g.name ++ "` is not: " ++
    (s.environments.diff t.environments).label
  named_iff : ∀ e : Environment, e.NamedIn (s.environments.diff t.environments).label ↔
    e ∈ s.environments ∧ ¬e ∈ t.environments
  nonempty : ∃ e, e ∈ s.environments.diff t.environments
  suggestion_iff : d.suggestion.isSome = true ↔
    (∃ r ∈ t.region, (locate t.module.source r.conditionSpan).Succeeds) ∧
      (locate s.module.source f.span).Succeeds

/-- The finding belongs to the extension method. -/
def ExcessFinding (base : List Module) (s : Scope) (d : Diagnostic) : Prop :=
  ∃ t f g name, s.extended? base = some t ∧ s.IsExcessFinding t f g name d

end Scope

/-! ### Scopes of declared methods -/

lemma Module.map_method_methodScopes (m : Module) :
    m.methodScopes.map Scope.method = m.methods.map some := by
  have hmethods : m.methods = m.declarations.map Declaration.method :=
    (Item.map_method_declarationsFrom [] 0 m.items).symm
  rw [hmethods, List.map_map, ← List.forall₂_eq_eq_eq, List.forall₂_map_left_iff,
    List.forall₂_map_right_iff]
  exact List.Forall₂.flip (m.forall₂_declarations.imp fun d s h => h.method_eq)

lemma forall₂_of_forall₂ {α β γ : Type} {R : α → β → Prop} {Q : α → γ → Prop} {T : β → γ → Prop}
    (hT : ∀ a b c, R a b → Q a c → T b c) {l : List α} {l' : List β} {l'' : List γ}
    (hR : List.Forall₂ R l l') (hQ : List.Forall₂ Q l l'') : List.Forall₂ T l' l'' := by
  induction hR generalizing l'' with
  | nil =>
    cases hQ
    exact .nil
  | cons hab _ ih =>
    cases hQ with
    | cons hac hQ => exact .cons (hT _ _ _ hab hac) (ih hQ)

lemma Item.exists_enterMethod_of_scopeAt? {scope s : Scope} {items : List Item} {path : List Nat}
    (h : scopeAt? scope items path = some s) : ∃ scope' f, s = Scope.enterMethod scope' f := by
  fun_induction scopeAt? scope items path with
  | case1 => cases h
  | case2 scope items index f hitem => exact ⟨scope, f, (Option.some.inj h).symm⟩
  | case3 scope items index rest g inner hitem ih => exact ih h
  | case4 => cases h

lemma Declaration.HasScope.clean {m : Module} {d : Declaration} {s : Scope} (h : d.HasScope m s) :
    s.environments.Clean := by
  obtain ⟨scope, f, rfl⟩ := Item.exists_enterMethod_of_scopeAt? h.scopeAt?_eq
  exact (Directive.clean_environmentsOf f.directives).inter_right

lemma rel_head?_of_forall₂ {α β : Type} {R : α → β → Prop} {l : List α} {l' : List β}
    (h : List.Forall₂ R l l') : Option.Rel R l.head? l'.head? := by
  cases h with
  | nil => exact .none
  | cons hab _ => exact .some hab

lemma Text.sameName_eq_decide (s t : Text) :
    Text.sameName s t = decide (Text.lowercase s = Text.lowercase t) := by
  rw [Text.sameName, Bool.beq_eq_decide_eq]

lemma Module.findDeclaration?_rel (b : Module) (name : Text) :
    Option.Rel (Declaration.HasScope b) (b.findDeclaration? name)
      (b.methodScopes.filter fun t =>
        t.method.map (fun g => Text.lowercase g.name) = some (Text.lowercase name)).head? := by
  rw [Module.findDeclaration?, ← List.head?_filter]
  refine rel_head?_of_forall₂ (List.rel_filter (fun d t hd => ?_) b.forall₂_declarations)
  simp [Text.sameName_eq_decide, hd.method_eq]

lemma BaseIndex.source?_cases (base : BaseIndex) {m : Module} {d : Declaration} {s : Scope}
    (hs : d.HasScope m s) :
    (base.source? m d.method = none ∧ s.extended? base.modules = none) ∨
      ∃ source t, base.source? m d.method = some source ∧ s.extended? base.modules = some t ∧
        source.declaration.HasScope source.module t := by
  have hmodule : base.module? m.name = (base.modules.filter fun b =>
      Text.lowercase b.name = Text.lowercase s.module.name).getLast? := by
    simp only [BaseIndex.module?, Text.sameName_eq_decide, List.getLast?_filter, hs.module_eq]
  simp only [BaseIndex.source?, Scope.extended?, Method.extensionTarget, hs.method_eq, hmodule,
    Option.bind_eq_bind, Option.bind_some]
  cases d.method.annotations.head? with
  | none => exact Or.inl ⟨rfl, rfl⟩
  | some a =>
    cases (base.modules.filter fun b =>
        Text.lowercase b.name = Text.lowercase s.module.name).getLast? with
    | none => exact Or.inl ⟨rfl, rfl⟩
    | some b =>
      simp only [Option.bind_some]
      have hfound := b.findDeclaration?_rel a.target
      revert hfound
      generalize b.findDeclaration? a.target = found
      generalize List.head? _ = scope
      rintro (⟨hd⟩ | _)
      · exact Or.inr ⟨_, _, rfl, rfl, hd⟩
      · exact Or.inl ⟨rfl, rfl⟩

/-! ### The conflict of a method -/

namespace Rules

variable {input : LintInput} {d : Declaration} {source : BaseIndex.Source} {s t : Scope}

lemma modeConflict?_of_subset (hs : d.HasScope input.module s)
    (ht : source.declaration.HasScope source.module t) (h : s.environments ⊆ t.environments) :
    modeConflict? input d source = .ok none := by
  simp [modeConflict?, environmentsOf, hs.lookup, ht.lookup, incompatibleEnvironments,
    hs.clean.isSubset_iff.2 h]

lemma modeConflict?_of_not_subset (hs : d.HasScope input.module s)
    (ht : source.declaration.HasScope source.module t) (h : ¬s.environments ⊆ t.environments) :
    modeConflict? input d source = (do
      let name ← locate input.module.source d.method.nameSpan
      let wrap ← (wrapInSourceRegion input.module d.method source input.project.variant).attempt
      return some ⟨name, s.environments.diff t.environments,
        match wrap with
        | .ok edit => edit
        | .error _ => none⟩) := by
  have hsubset : s.environments.isSubset t.environments = false := by
    simpa [← hs.clean.isSubset_iff] using h
  simp only [modeConflict?, environmentsOf, hs.lookup, ht.lookup, incompatibleEnvironments,
    hsubset, Outcome.ok_bind, Outcome.pure_eq]
  rfl

lemma exists_wrap {derived : Module} {method : Method}
    (ht : source.declaration.HasScope source.module t) (hsource : source.module.SpansFit)
    (hmethod : SpanFits method.span) (variant : ScriptVariant) :
    ∃ wrap, (wrapInSourceRegion derived method source variant).attempt = (.ok wrap : Analysis _) ∧
      ((∃ edit, wrap = .ok (some edit)) ↔
        (∃ r ∈ t.region, (locate t.module.source r.conditionSpan).Succeeds) ∧
          (locate derived.source method.span).Succeeds) := by
  have hregion : enclosingRegion source.module source.declaration = .ok t.region := by
    simp [enclosingRegion, ht.lookup]
  unfold wrapInSourceRegion
  rw [hregion, ht.module_eq]
  cases hr : t.region with
  | none => exact ⟨.ok none, rfl, by simp⟩
  | some r =>
    rcases locate_cases source.module.source (hsource.conditionSpan ht.lookup hr) with
      ⟨condition, hcondition⟩ | ⟨e, he, -⟩
    · rcases locate_cases derived.source hmethod with ⟨body, hbody⟩ | ⟨e, he, -⟩
      · exact ⟨_, by simp only [Outcome.ok_bind, hcondition, hbody]; rfl,
          by simp [Outcome.Succeeds, hcondition, hbody]⟩
      · exact ⟨.error e, by simp [hcondition, he, Outcome.attempt], by simp [Outcome.Succeeds, he]⟩
    · exact ⟨.error e, by simp [he, Outcome.attempt], by simp [Outcome.Succeeds, he]⟩

lemma exists_modeConflict? (hs : d.HasScope input.module s)
    (ht : source.declaration.HasScope source.module t) (hsource : source.module.SpansFit)
    (hmethod : SpanFits d.method.span) (h : ¬s.environments ⊆ t.environments) {name : SourceText}
    (hname : locate input.module.source d.method.nameSpan = .ok name) :
    ∃ fix, modeConflict? input d source =
        .ok (some ⟨name, s.environments.diff t.environments, fix⟩) ∧
      (fix.isSome = true ↔
        (∃ r ∈ t.region, (locate t.module.source r.conditionSpan).Succeeds) ∧
          (locate s.module.source d.method.span).Succeeds) := by
  obtain ⟨wrap, hwrap, hfix⟩ := exists_wrap ht hsource hmethod input.project.variant
  rw [hs.module_eq, ← hfix, modeConflict?_of_not_subset hs ht h, hname, Outcome.ok_bind, hwrap]
  cases wrap with
  | error e => exact ⟨none, rfl, by simp⟩
  | ok fix => exact ⟨fix, rfl, by simp [Option.isSome_iff_exists]⟩

/-! ### The run over the methods -/

variable {base : BaseIndex}

lemma exceeds_iff (hs : d.HasScope input.module s) (hextended : s.extended? base.modules = some t) :
    s.Exceeds base.modules ↔ ¬s.environments ⊆ t.environments ∧
      (locate input.module.source d.method.nameSpan).Succeeds := by
  simp [Scope.Exceeds, hextended, hs.method_eq, hs.module_eq]

lemma exists_adds_compare (hfit : input.module.SpansFit) (hd : d ∈ input.module.declarations)
    (hs : d.HasScope input.module s) (hsource : source.module.SpansFit)
    (ht : source.declaration.HasScope source.module t)
    (hextended : s.extended? base.modules = some t) :
    ∃ ds, Adds (fun ctx => do
        match ← (modeConflict? input d source).attempt with
        | .error e => return ctx.skip e
        | .ok none => return ctx
        | .ok (some c) => reportConflict input ctx d source c) ds ∧
      Reports (input.settings.levelFor extensionModeLint.name) (Scope.Exceeds base.modules)
        (Scope.ExcessFinding base.modules) s ds := by
  obtain ⟨hspan, hnameSpan, -⟩ := hfit.of_mem_methods (Module.method_mem_methods hd)
  have hexceeds := exceeds_iff hs hextended
  by_cases hsubset : s.environments ⊆ t.environments
  · refine ⟨[], ?_, Reports.of_not (by simp [hexceeds, hsubset])⟩
    rw [modeConflict?_of_subset hs ht hsubset]
    exact adds_nil
  · rcases locate_cases input.module.source hnameSpan with ⟨name, hname⟩ | ⟨e, hname, hne⟩
    · obtain ⟨fix, hconflict, hfix⟩ := exists_modeConflict? hs ht hsource hspan hsubset hname
      obtain ⟨ds, hadds, hreport⟩ := exists_adds_report input extensionModeLint
        (located_of_locate hname).lt _ _
      refine ⟨ds, ?_, Reports.of_report (hexceeds.2 ⟨hsubset, name, hname⟩) fun hlevel => ?_⟩
      · rw [hconflict]
        exact hadds
      · obtain ⟨r, rfl, hr⟩ := hreport hlevel
        have hlacks := EnvironmentSet.exists_mem_diff_of_not_subset hsubset
        exact ⟨r, rfl, t, d.method, source.declaration.method, name, hextended, hs.method_eq,
          ht.method_eq, hs.module_eq ▸ hname, hr.lint_eq, hr.offset_eq, hr.length_eq,
          hr.message_eq, EnvironmentSet.namedIn_label_diff_iff, hlacks,
          by simp [hr.suggestion_eq, hfix]⟩
    · refine ⟨[], ?_, Reports.of_not (by simp [hexceeds, hname, Outcome.Succeeds])⟩
      rw [modeConflict?_of_not_subset hs ht hsubset, hname]
      exact adds_skip hne

lemma exists_adds_checkMode (hfit : input.module.SpansFit)
    (hbase : ∀ m ∈ base.modules, m.SpansFit) (hd : d ∈ input.module.declarations)
    (hs : d.HasScope input.module s) :
    ∃ ds, Adds (fun ctx => checkMode input base ctx d) ds ∧
      Reports (input.settings.levelFor extensionModeLint.name) (Scope.Exceeds base.modules)
        (Scope.ExcessFinding base.modules) s ds := by
  rcases base.source?_cases hs with ⟨hsource, hextended⟩ | ⟨source, t, hsource, hextended, ht⟩
  · refine ⟨[], adds_nil.behind_checkpoint.congr fun ctx => ?_, Reports.of_not ?_⟩
    · simp only [checkMode, hsource]
      rfl
    · simp [Scope.Exceeds, hextended]
  · obtain ⟨ds, hadds, hreports⟩ := exists_adds_compare hfit hd hs
      (hbase _ (module_mem_of_source? hsource)) ht hextended
    refine ⟨ds, fun ctx hctx => ?_, hreports⟩
    simp only [checkMode, hsource]
    exact hadds.behind_checkpoint ctx hctx

lemma isLoop_checkModes (input : LintInput) (base : BaseIndex) :
    IsLoop (checkMode input base) (checkModes input base) where
  nil _ := rfl
  cons ctx d rest := by
    refine Or.inr ⟨_, rfl, fun ctx' => ?_⟩
    split
    · exact Or.inr ⟨‹_›, rfl⟩
    · exact Or.inl rfl

/-- The findings of the run are those of the methods that exceed their sources, in document
order. -/
lemma exists_adds_checkModes (hfit : input.module.SpansFit)
    (hbase : ∀ m ∈ base.modules, m.SpansFit) :
    ∃ ds, Adds (fun ctx => checkModes input base ctx input.module.declarations) ds ∧
      (input.settings.levelFor extensionModeLint.name ≠ .allow →
        List.Forall₂ (Scope.ExcessFinding base.modules)
          (input.module.methodScopes.filter (Scope.Exceeds base.modules)) ds) := by
  have hstep : ∀ d ∈ input.module.declarations, ∃ ds,
      Adds (fun ctx => checkMode input base ctx d) ds ∧ ∀ s, d.HasScope input.module s →
        Reports (input.settings.levelFor extensionModeLint.name) (Scope.Exceeds base.modules)
          (Scope.ExcessFinding base.modules) s ds := by
    intro d hd
    obtain ⟨s, hs⟩ := Module.exists_hasScope hd
    obtain ⟨ds, hadds, hreports⟩ := exists_adds_checkMode hfit hbase hd hs
    exact ⟨ds, hadds, fun s' hs' => hs.unique hs' ▸ hreports⟩
  obtain ⟨dss, hdss, hadds⟩ := (isLoop_checkModes input base).exists_adds hstep
  refine ⟨dss.flatten, hadds, fun hlevel => forall₂_filter_of_reports hlevel ?_⟩
  exact forall₂_of_forall₂ (fun d s ds hs h => h s hs) input.module.forall₂_declarations hdss

/-- **The findings of the rule** are those of the run over the methods; in a project that is no
extension, or without a base configuration, there are none. -/
theorem exists_adds_extensionMode (hfit : input.module.SpansFit)
    (hbase : ∀ b ∈ input.base, ∀ m ∈ b.modules, m.SpansFit) :
    ∃ ds, Adds (extensionMode.check input) ds ∧
      ∀ base, input.project.isExtension = true → input.base = some base →
        input.settings.levelFor extensionModeLint.name ≠ .allow →
        List.Forall₂ (Scope.ExcessFinding base.modules)
          (input.module.methodScopes.filter (Scope.Exceeds base.modules)) ds := by
  cases hextension : input.project.isExtension with
  | false =>
    refine ⟨[], adds_nil.congr fun ctx => ?_, by simp⟩
    simp only [extensionMode, hextension]
    rfl
  | true =>
    cases hsome : input.base with
    | none =>
      refine ⟨[], adds_nil.congr fun ctx => ?_, by simp⟩
      simp only [extensionMode, hextension, hsome]
      rfl
    | some base =>
      obtain ⟨ds, hadds, hexact⟩ := exists_adds_checkModes hfit (hbase base hsome)
      refine ⟨ds, hadds.congr fun ctx => ?_, ?_⟩
      · simp only [extensionMode, hextension, hsome]
      · rintro _ - ⟨⟩ hlevel
        exact hexact hlevel

end Rules

/-- **The rule on extension methods is exact.** In a run over a module of an extension, without
cancellation and with the lint not switched off, the rule adds one finding for each method that
exceeds the method it extends, in the order of the methods, and nothing else. The scope of every
method, and of every method that one extends, is found at its place. -/
theorem extensionMode_reports_excess (input : LintInput) (base : BaseIndex) (ctx : LintContext)
    (hextension : input.project.isExtension = true) (hsome : input.base = some base)
    (hfit : input.module.SpansFit) (hbase : ∀ m ∈ base.modules, m.SpansFit)
    (hlevel : input.settings.levelFor "extension_method_visible_mode" ≠ .allow)
    (hctx : ctx.Uncancelled) :
    (∃ ctx' ds, Rules.extensionMode.check input ctx = .ok ctx' ∧ ctx'.Uncancelled ∧
      ctx'.diagnostics = ctx.diagnostics ++ ds ∧
      List.Forall₂ (Scope.ExcessFinding base.modules)
        (input.module.methodScopes.filter (Scope.Exceeds base.modules)) ds) ∧
    input.module.methodScopes.map Scope.method = input.module.methods.map some ∧
    ∀ d ∈ input.module.declarations, (Scope.ofDeclaration input.module d).Succeeds ∧
      ∀ source ∈ base.source? input.module d.method,
        (Scope.ofDeclaration source.module source.declaration).Succeeds := by
  refine ⟨?_, input.module.map_method_methodScopes, fun d hd => ?_⟩
  · have hbases : ∀ b ∈ input.base, ∀ m ∈ b.modules, m.SpansFit := by
      intro b hb
      obtain rfl : base = b := Option.some.inj (hsome.symm.trans hb)
      exact hbase
    obtain ⟨ds, hadds, hexact⟩ := Rules.exists_adds_extensionMode hfit hbases
    obtain ⟨ctx', hcheck, hctx', hds⟩ := hadds.of_uncancelled hctx
    exact ⟨ctx', ds, hcheck, hctx', hds, hexact base hextension hsome hlevel⟩
  · obtain ⟨s, hs⟩ := Module.exists_hasScope hd
    refine ⟨⟨s, hs.lookup⟩, fun source hsource => ?_⟩
    rcases base.source?_cases hs with ⟨hnone, -⟩ | ⟨source', t, hsome', -, ht⟩
    · rw [hnone] at hsource
      cases hsource
    · obtain rfl : source' = source := Option.some.inj (hsome'.symm.trans hsource)
      exact ⟨t, ht.lookup⟩

/-- Of five methods that extend one of the server, two are reported, the second without a fix: one
stays on the server, one has no name in the text and one has no annotation. The first of the two
base modules would allow them all. -/
theorem extensionMode_reports_excess_nested :
    let method (name : String) (target : List String) (nameSpan span : Span) : Item :=
      .method ⟨name.toList, .procedure, false, [],
        target.map fun t => ⟨.around, t.toList, none⟩, [], some span, some nameSpan, none⟩
    let m : Module := {
      name := "М".toList
      source := "А Г".toList
      items := [
        method "А" ["б", "А"] ⟨0, 2⟩ ⟨0, 5⟩,
        .region ⟨.symbol .server, none, none⟩ [method "В" ["Б"] ⟨0, 2⟩ ⟨0, 2⟩],
        .region ⟨.not (.symbol .webClient), none, none⟩ [
          .region ⟨.not (.symbol .thinClient), none, none⟩ [method "Г" ["Б"] ⟨3, 2⟩ ⟨3, 9⟩]],
        method "Д" ["Б"] ⟨1, 1⟩ ⟨0, 5⟩,
        method "Е" [] ⟨0, 2⟩ ⟨0, 5⟩] }
    let allowing : Module := {
      name := "М".toList, source := [], items := [method "Б" [] ⟨0, 0⟩ ⟨0, 0⟩] }
    let extended : Module := {
      name := "м".toList
      source := "Сервер".toList
      items := [
        .region ⟨.not (.symbol .client), none, none⟩ [
          .region ⟨.symbol .server, some ⟨0, 12⟩, none⟩ [method "Б" [] ⟨0, 0⟩ ⟨0, 0⟩]],
        method "Б" [] ⟨0, 0⟩ ⟨0, 0⟩] }
    let base : BaseIndex := ⟨[allowing, extended]⟩
    let input : LintInput := ⟨m, {}, ⟨.primary, .dontUse, true⟩, some base⟩
    let messages : List String := [
      "Method `А` is available in environments where `Б` is not: thin client, web client, " ++
        "mobile client, thick client (ordinary application), " ++
        "thick client (managed application), external connection, mobile application client",
      "Method `Г` is available in environments where `Б` is not: mobile client, " ++
        "thick client (ordinary application), thick client (managed application), " ++
        "external connection, mobile application client"]
    (∃ ctx' ds, Rules.extensionMode.check input {} = .ok ctx' ∧ ctx'.diagnostics = ds ∧
      List.Forall₂ (Scope.ExcessFinding base.modules)
        (m.methodScopes.filter (Scope.Exceeds base.modules)) ds ∧
      ds.map Diagnostic.message = messages) ∧
    (m.methodScopes.filter (Scope.Exceeds base.modules)).map
      (fun s => s.method.map fun f => (f.name, decide (locate m.source f.span).Succeeds)) =
        [some ("А".toList, true), some ("Г".toList, false)] := by
  intro method m allowing extended base input messages
  have hbase : ∀ b ∈ base.modules, b.SpansFit := by decide +kernel
  obtain ⟨⟨ctx', ds, hcheck, -, hds, hexact⟩, -⟩ :=
    extensionMode_reports_excess input base {} rfl rfl (by decide +kernel) hbase (by decide)
      ⟨rfl, fun _ => rfl⟩
  have hmessages : (match Rules.extensionMode.check input {} with
      | .ok ctx => ctx.diagnostics.map Diagnostic.message
      | _ => []) = messages := by decide +kernel
  rw [hcheck] at hmessages
  simp only [hds, List.nil_append] at hmessages
  exact ⟨⟨ctx', ds, hcheck, hds, hexact, hmessages⟩, by decide +kernel⟩

end BslLint
