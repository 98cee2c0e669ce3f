import BslLint.Proofs.Lint.ExtensionMode

/-!
What the fix of the rule on extension methods achieves.

The fix wraps the method into a region with the condition of the innermost region around the method
that it extends. The environments of the wrapped method are those of the method in which this
condition holds (`Item.scopeAt?_wrapAt`), so that the wrap takes away just the excess in which the
condition fails. The extended method may be narrowed further, by the regions farther out, by its
directives and by its module: what these leave decides whether the wrapped method is still in
conflict.
-/

namespace BslLint

/-! ### Wrapping a method -/

namespace Item

/-- The items with a region around the given method in place of the item at the given place. -/
def wrapAt (r : Region) (f : Method) : List Nat → List Item → List Item
  | [], items => items
  | [index], items => items.set index (.region r [.method f])
  | index :: rest, items => items.modify index fun
    | .region g inner => .region g (wrapAt r f rest inner)
    | .method h => .method h

lemma getElem?_wrapAt_method {items : List Item} {index : Nat} {h : Method}
    (hitem : items[index]? = some (.method h)) (r : Region) (f : Method) :
    (wrapAt r f [index] items)[index]? = some (.region r [.method f]) := by
  obtain ⟨hlt, -⟩ := List.getElem?_eq_some_iff.1 hitem
  rw [wrapAt, List.getElem?_set_self hlt]

lemma getElem?_wrapAt_region {items inner : List Item} {index : Nat} {g : Region} {rest : List Nat}
    (hitem : items[index]? = some (.region g inner)) (hrest : rest ≠ []) (r : Region) (f : Method) :
    (wrapAt r f (index :: rest) items)[index]? = some (.region g (wrapAt r f rest inner)) := by
  cases rest with
  | nil => exact absurd rfl hrest
  | cons i rest =>
    rw [wrapAt, List.getElem?_modify_eq, hitem]
    · rfl
    · exact hrest

/-- **The scope of a wrapped method**: the environments of the method at the place in which the
condition of the new region holds. -/
theorem scopeAt?_wrapAt {scope s : Scope} {items : List Item} {path : List Nat} {g : Method}
    (h : scopeAt? scope items path = some s) (hg : s.method = some g) (m : Module) (r : Region)
    {f : Method} (hf : f.directives = g.directives) :
    scopeAt? { scope with module := m } (wrapAt r f path items) (path ++ [0]) =
      some ⟨m, some r, some f, s.environments.inter r.condition.environments⟩ := by
  fun_induction scopeAt? scope items path with
  | case1 => cases h
  | case2 scope items index g' hitem =>
    cases h
    cases hg
    rw [List.singleton_append, scopeAt?_region (getElem?_wrapAt_method hitem r f),
      scopeAt?_method rfl]
    simp only [Scope.enterMethod, Scope.enterRegion, hf]
    rw [EnvironmentSet.inter_right_comm]
  | case3 scope items index rest g' inner hitem ih =>
    have hrest : rest ≠ [] := by
      rintro rfl
      simp [scopeAt?] at h
    rw [List.cons_append, scopeAt?_region (getElem?_wrapAt_region hitem hrest r f)]
    exact ih h
  | case4 => cases h

lemma mem_declarationsFrom_of_getElem? {items : List Item} {item : Item} {i : Nat}
    (h : items[i]? = some item) {place : List Nat} {index : Nat} {d : Declaration}
    (hd : d ∈ item.declarations ((index + i) :: place)) :
    d ∈ declarationsFrom place index items := by
  induction items generalizing i index with
  | nil => simp at h
  | cons first items ih =>
    rw [declarationsFrom, List.mem_append]
    cases i with
    | zero =>
      rw [List.getElem?_cons_zero, Option.some.injEq] at h
      exact Or.inl (h ▸ hd)
    | succ i =>
      rw [List.getElem?_cons_succ] at h
      refine Or.inr (ih h ?_)
      rwa [Nat.add_assoc, Nat.add_comm 1]

lemma mem_declarationsFrom_of_scopeAt? {scope s : Scope} {items : List Item} {path : List Nat}
    {f : Method} (h : scopeAt? scope items path = some s) (hf : s.method = some f)
    (place : List Nat) : ⟨place.reverse ++ path, f⟩ ∈ declarationsFrom place 0 items := by
  fun_induction scopeAt? scope items path generalizing place with
  | case1 => cases h
  | case2 scope items index g hitem =>
    cases h
    cases hf
    refine mem_declarationsFrom_of_getElem? hitem ?_
    simp [declarations]
  | case3 scope items index rest g inner hitem ih =>
    refine mem_declarationsFrom_of_getElem? hitem ?_
    simpa [declarations] using ih h (index :: place)
  | case4 => cases h

end Item

namespace Declaration

variable {m : Module} {d : Declaration} {s : Scope}

lemma hasScope_of_scopeAt? (h : Item.scopeAt? (Scope.ofModule m) m.items d.path = some s)
    (hmodule : s.module = m) (hmethod : s.method = some d.method) : d.HasScope m s :=
  ⟨by rw [Scope.ofDeclaration_eq, h]; rfl, hmodule, hmethod⟩

lemma exists_routine (hd : d ∈ m.declarations) :
    ∃ regions, d.HasScope m (Routine.scope m ⟨regions, some d.method⟩) := by
  obtain ⟨s, hs, hscope⟩ := Module.exists_mem_methodScopes hd
  obtain ⟨⟨regions, f⟩, -, rfl⟩ := List.mem_map.1 hs
  obtain rfl : f = some d.method := hscope.method_eq
  exact ⟨regions, hscope⟩

end Declaration

/-- The module with the method at the place of the declaration wrapped: the method and the text are
those of the module that is read after the edit. -/
def Module.wrapAt (m : Module) (d : Declaration) (r : Region) (f : Method) (text : Text) : Module :=
  { m with source := text, items := Item.wrapAt r f d.path m.items }

/-- The wrapped method, at its place in the new region. -/
def Declaration.wrapped (d : Declaration) (f : Method) : Declaration := ⟨d.path ++ [0], f⟩

namespace Module

variable {m : Module} {d : Declaration} {s : Scope} {f : Method}

lemma hasScope_wrapped (hs : d.HasScope m s) (hf : f.directives = d.method.directives) (r : Region)
    (text : Text) :
    (d.wrapped f).HasScope (m.wrapAt d r f text)
      ⟨m.wrapAt d r f text, some r, some f, s.environments.inter r.condition.environments⟩ :=
  Declaration.hasScope_of_scopeAt?
    (Item.scopeAt?_wrapAt hs.scopeAt?_eq hs.method_eq (m.wrapAt d r f text) r hf) rfl rfl

lemma wrapped_mem_declarations (hs : d.HasScope m s) (hf : f.directives = d.method.directives)
    (r : Region) (text : Text) : d.wrapped f ∈ (m.wrapAt d r f text).declarations :=
  Item.mem_declarationsFrom_of_scopeAt? (hasScope_wrapped hs hf r text).scopeAt?_eq rfl []

end Module

lemma BaseIndex.source?_wrapAt (base : BaseIndex) (m : Module) (d : Declaration) (r : Region)
    {f : Method} (hf : f.annotations = d.method.annotations) (text : Text) :
    base.source? (m.wrapAt d r f text) f = base.source? m d.method := by
  simp only [BaseIndex.source?, Method.extensionTarget, hf, Module.wrapAt]

lemma BaseIndex.declaration_mem_of_source? {base : BaseIndex} {m : Module} {f : Method}
    {source : BaseIndex.Source} (h : base.source? m f = some source) :
    source.declaration ∈ source.module.declarations := by
  simp only [BaseIndex.source?, Option.bind_eq_bind, Option.bind_eq_some_iff] at h
  obtain ⟨target, -, owner, -, declaration, hfound, ⟨⟩⟩ := h
  exact List.mem_of_find?_eq_some hfound

/-! ### What a check reports -/

namespace Rules

variable {input : LintInput} {base : BaseIndex} {ctx ctx' : LintContext} {d : Declaration}

/-- The suggestion that goes with the edit of a conflict. -/
def wrapSuggestion (edit : Edit) : Suggestion :=
  ⟨"wrap the method in the condition of its source method", edit, .maybeIncorrect⟩

lemma checkMode_cases (h : checkMode input base ctx d = .ok ctx') :
    ctx'.diagnostics = ctx.diagnostics ∨
      ∃ source conflict diag, base.source? input.module d.method = some source ∧
        modeConflict? input d source = .ok (some conflict) ∧
        ctx'.diagnostics = ctx.diagnostics ++ [diag] ∧
        diag.suggestion = conflict.fix.map wrapSuggestion := by
  have hpolled := ctx.diagnostics_checkpoint
  unfold checkMode at h
  split at h
  · rename_i e polled hcheckpoint
    cases h
    rw [hcheckpoint] at hpolled
    exact Or.inl (by rw [LintContext.diagnostics_skip, hpolled])
  · rename_i polled hcheckpoint
    rw [hcheckpoint] at hpolled
    rw [← hpolled]
    split at h
    · cases h
      exact Or.inl rfl
    · rename_i source hsource
      obtain ⟨result, hresult, h⟩ := Outcome.bind_eq_ok_iff.1 h
      rcases Outcome.attempt_cases hresult with ⟨conflict, hconflict, rfl⟩ | ⟨e, -, rfl⟩
      · cases conflict with
        | none =>
          cases h
          exact Or.inl rfl
        | some conflict =>
          rcases LintContext.diagnostics_report h with hnone | ⟨diag, hdiag, hfix⟩
          · exact Or.inl hnone
          · exact Or.inr ⟨source, conflict, diag, hsource, hconflict, hdiag, hfix⟩
      · cases h
        exact Or.inl (LintContext.diagnostics_skip _ _)

lemma wrapInSourceRegion_eq_some {derived : Module} {method : Method} {source : BaseIndex.Source}
    {t : Scope} {variant : ScriptVariant} {edit : Edit}
    (ht : source.declaration.HasScope source.module t)
    (h : wrapInSourceRegion derived method source variant = .ok (some edit)) :
    ∃ r condition body, t.region = some r ∧
      locate source.module.source r.conditionSpan = .ok condition ∧
      locate derived.source method.span = .ok body ∧
      edit = ⟨body.start, body.length,
        (RegionWords.inVariant variant).wrap condition.raw body.raw⟩ := by
  have hregion : enclosingRegion source.module source.declaration = .ok t.region := by
    simp [enclosingRegion, ht.lookup]
  rw [wrapInSourceRegion, hregion, Outcome.ok_bind] at h
  cases hr : t.region with
  | none => simp [hr] at h
  | some r =>
    rw [hr] at h
    obtain ⟨condition, hcondition, h⟩ := Outcome.bind_eq_ok_iff.1 h
    obtain ⟨body, hbody, h⟩ := Outcome.bind_eq_ok_iff.1 h
    cases h
    exact ⟨r, condition, body, rfl, hcondition, hbody, rfl⟩

lemma of_modeConflict?_eq_some {source : BaseIndex.Source} {s t : Scope} {conflict : ModeConflict}
    (hs : d.HasScope input.module s) (ht : source.declaration.HasScope source.module t)
    (h : modeConflict? input d source = .ok (some conflict)) :
    ¬s.environments ⊆ t.environments ∧
      ∀ edit, conflict.fix = some edit →
        wrapInSourceRegion input.module d.method source input.project.variant =
          .ok (some edit) := by
  have hsubset : ¬s.environments ⊆ t.environments := by
    intro hsubset
    simp [modeConflict?_of_subset hs ht hsubset] at h
  rw [modeConflict?_of_not_subset hs ht hsubset] at h
  obtain ⟨name, -, h⟩ := Outcome.bind_eq_ok_iff.1 h
  obtain ⟨wrap, hwrap, h⟩ := Outcome.bind_eq_ok_iff.1 h
  cases h
  refine ⟨hsubset, fun edit hedit => ?_⟩
  rcases Outcome.attempt_cases hwrap with ⟨fix, hresult, rfl⟩ | ⟨e, -, rfl⟩
  · obtain rfl : fix = some edit := hedit
    exact hresult
  · cases hedit

/-- The check of the method adds no finding, from whatever state of the run. -/
def Silent (input : LintInput) (base : BaseIndex) (d : Declaration) : Prop :=
  ∀ ctx, ∃ ctx', checkMode input base ctx d = .ok ctx' ∧ ctx'.diagnostics = ctx.diagnostics

lemma silent_of_modeConflict? {source : BaseIndex.Source}
    (hsource : base.source? input.module d.method = some source)
    (h : modeConflict? input d source = .ok none) : Silent input base d := by
  intro ctx
  have hpolled := ctx.diagnostics_checkpoint
  unfold checkMode
  split
  · rename_i e polled hcheckpoint
    rw [hcheckpoint] at hpolled
    exact ⟨_, rfl, by rw [LintContext.diagnostics_skip, hpolled]⟩
  · rename_i polled hcheckpoint
    rw [hcheckpoint] at hpolled
    simp only [hsource, h]
    exact ⟨polled, rfl, hpolled⟩

lemma modeConflict?_eq_none_iff {source : BaseIndex.Source} {s t : Scope}
    (hs : d.HasScope input.module s) (ht : source.declaration.HasScope source.module t) :
    modeConflict? input d source = .ok none ↔ s.environments ⊆ t.environments := by
  refine ⟨fun h => ?_, modeConflict?_of_subset hs ht⟩
  by_contra hsubset
  rw [modeConflict?_of_not_subset hs ht hsubset] at h
  obtain ⟨name, -, h⟩ := Outcome.bind_eq_ok_iff.1 h
  obtain ⟨wrap, -, h⟩ := Outcome.bind_eq_ok_iff.1 h
  cases h

end Rules

lemma Routine.environments_append_region (m : Module) (outer : List Region) (r : Region)
    (f : Method) : Routine.environments m ⟨outer ++ [r], some f⟩ =
      (Routine.environments m ⟨outer, some f⟩).inter r.condition.environments := by
  simp only [Routine.environments, List.foldl_append, List.foldl_cons, List.foldl_nil]
  exact EnvironmentSet.inter_right_comm _ _ _

lemma exists_of_suggestions {x : Checked LintContext} {fix : Suggestion}
    (h : (fun ctx => ctx.diagnostics.map Diagnostic.suggestion) <$> x = .ok [some fix]) :
    ∃ ctx' diag, x = .ok ctx' ∧ ctx'.diagnostics = [] ++ [diag] ∧ diag.suggestion = some fix := by
  rw [map_eq_pure_bind, Outcome.bind_eq_ok_iff] at h
  obtain ⟨ctx', hx, hmap⟩ := h
  obtain ⟨diag, hdiag, hfix⟩ := List.map_eq_singleton_iff.1 (Outcome.ok.inj hmap)
  exact ⟨ctx', diag, hx, hdiag, hfix⟩

/-- **What the wrap resolves.** Let the check of an extension method report it with a suggestion.
The suggestion is to put the text of the method into a region with the text of the condition of the
innermost region around the extended method. Whatever module is read after that, the wrapped method
is declared in it, for the environments in which the condition holds, and extends the same method.
It is compatible with it, so that the check is silent, exactly if these environments are allowed by
all else that narrows the extended method: its module, the regions farther out and its
directives. -/
theorem extensionMode_wrap_resolves_iff (input : LintInput) (base : BaseIndex)
    (ctx ctx' : LintContext) (d : Declaration) (diag : Diagnostic) (fix : Suggestion)
    (hd : d ∈ input.module.declarations) (hcheck : Rules.checkMode input base ctx d = .ok ctx')
    (hdiag : ctx'.diagnostics = ctx.diagnostics ++ [diag]) (hfix : diag.suggestion = some fix) :
    ∃ (s : Scope) (source : BaseIndex.Source) (outer : List Region) (region : Region)
      (condition body : SourceText),
      let t := Routine.scope source.module ⟨outer ++ [region], some source.declaration.method⟩
      let others := Routine.environments source.module ⟨outer, some source.declaration.method⟩
      let narrowed := s.environments.inter region.condition.environments
      d.HasScope input.module s ∧ base.source? input.module d.method = some source ∧
      source.declaration.HasScope source.module t ∧ ¬s.environments ⊆ t.environments ∧
      locate source.module.source region.conditionSpan = .ok condition ∧
      locate input.module.source d.method.span = .ok body ∧
      fix = ⟨"wrap the method in the condition of its source method",
        ⟨body.start, body.length,
          (RegionWords.inVariant input.project.variant).wrap condition.raw body.raw⟩,
        .maybeIncorrect⟩ ∧
      (narrowed ⊆ t.environments ↔ narrowed ⊆ others) ∧
      ∀ (r : Region) (f : Method) (text : Text), r.condition = region.condition →
        f.directives = d.method.directives → f.annotations = d.method.annotations →
        let wrapped : LintInput := { input with module := input.module.wrapAt d r f text }
        d.wrapped f ∈ wrapped.module.declarations ∧
        environmentsOf wrapped.module (d.wrapped f) = .ok narrowed ∧
        base.source? wrapped.module f = some source ∧
        (Rules.modeConflict? wrapped (d.wrapped f) source = .ok none ↔ narrowed ⊆ others) ∧
        (narrowed ⊆ others → Rules.Silent wrapped base (d.wrapped f)) := by
  obtain ⟨s, hs⟩ := Module.exists_hasScope hd
  rcases Rules.checkMode_cases hcheck with
    hnone | ⟨source, conflict, diag', hsource, hconflict, hdiag', hsuggestion⟩
  · simp [hnone] at hdiag
  · obtain rfl : diag' = diag := by simpa using hdiag'.symm.trans hdiag
    obtain ⟨edit, hedit, rfl⟩ := Option.map_eq_some_iff.1 (hsuggestion.symm.trans hfix)
    obtain ⟨regions, ht⟩ :=
      Declaration.exists_routine (BaseIndex.declaration_mem_of_source? hsource)
    obtain ⟨hexcess, hwrap⟩ := Rules.of_modeConflict?_eq_some hs ht hconflict
    obtain ⟨region, condition, body, hregion, hcondition, hbody, rfl⟩ :=
      Rules.wrapInSourceRegion_eq_some ht (hwrap edit hedit)
    -- The suggestion comes from the last of the regions around the extended method.
    obtain ⟨outer, rfl⟩ := List.getLast?_eq_some_iff.1 hregion
    refine ⟨s, source, outer, region, condition, body, hs, hsource, ht, hexcess, hcondition, hbody,
      rfl, ?_, fun r f text hr hdirectives hannotations => ?_⟩
    · simp only [Routine.scope, Routine.environments_append_region]
      exact EnvironmentSet.inter_subset_inter_right_iff
    · have hscope := Module.hasScope_wrapped hs hdirectives r text
      have hsame := (base.source?_wrapAt input.module d r hannotations text).trans hsource
      have hresolved : Rules.modeConflict? { input with module := input.module.wrapAt d r f text }
            (d.wrapped f) source = .ok none ↔
          s.environments.inter region.condition.environments ⊆
            Routine.environments source.module ⟨outer, some source.declaration.method⟩ := by
        rw [Rules.modeConflict?_eq_none_iff hscope ht, hr]
        simp only [Routine.scope, Routine.environments_append_region]
        exact EnvironmentSet.inter_subset_inter_right_iff
      refine ⟨Module.wrapped_mem_declarations hs hdirectives r text, ?_, hsame, hresolved,
        fun h => Rules.silent_of_modeConflict? hsame (hresolved.2 h)⟩
      rw [environmentsOf, hscope.lookup, ← hr]
      rfl

/-- A method that runs everywhere extends one that stands in two regions and has a directive. The
inner region leaves less than the outer one and the directive, so that the wrap resolves the
conflict. -/
theorem extensionMode_wrap_resolves_iff_nested :
    let method (name : String) (directives : List Directive) (target : List String)
        (nameSpan span : Span) : Method :=
      ⟨name.toList, .procedure, false, directives, target.map fun t => ⟨.after, t.toList, none⟩, [],
        some span, some nameSpan, none⟩
    let m : Module := {
      name := "М".toList
      source := "Процедура А() КонецПроцедуры".toList
      items := [.method (method "А" [] ["Б"] ⟨19, 2⟩ ⟨0, 52⟩)] }
    let extended : Module := {
      name := "М".toList
      source := "Сервер".toList
      items := [
        .region ⟨.not (.symbol .webClient), none, none⟩ [
          .region ⟨.symbol .server, some ⟨0, 12⟩, none⟩ [
            .method (method "Б" [.atServer] [] ⟨0, 0⟩ ⟨0, 0⟩)]]] }
    let base : BaseIndex := ⟨[extended]⟩
    let input : LintInput := ⟨m, {}, ⟨.primary, .dontUse, true⟩, some base⟩
    let fixed := "#Если Сервер Тогда\nПроцедура А() КонецПроцедуры\n#КонецЕсли".toList
    let fix : Suggestion :=
      ⟨"wrap the method in the condition of its source method", ⟨0, 52, fixed⟩, .maybeIncorrect⟩
    let wrapped : Module := { m with
      source := fixed
      items := [.region ⟨.symbol .server, none, none⟩ [
        .method (method "А" [] ["Б"] ⟨53, 2⟩ ⟨34, 52⟩)]] }
    (fun ctx => ctx.diagnostics.map Diagnostic.suggestion) <$>
        Rules.checkMode input base {} ⟨[0], method "А" [] ["Б"] ⟨19, 2⟩ ⟨0, 52⟩⟩ =
      .ok [some fix] ∧
    Rules.Silent { input with module := wrapped } base
      ⟨[0, 0], method "А" [] ["Б"] ⟨53, 2⟩ ⟨34, 52⟩⟩ := by
  intro method m extended base input fixed fix wrapped
  have hreport : (fun ctx => ctx.diagnostics.map Diagnostic.suggestion) <$>
        Rules.checkMode input base {} ⟨[0], method "А" [] ["Б"] ⟨19, 2⟩ ⟨0, 52⟩⟩ =
      .ok [some fix] := by decide +kernel
  obtain ⟨ctx', diag, hcheck, hdiag, hfix⟩ := exists_of_suggestions hreport
  obtain ⟨s, source, outer, region, -, -, hs, hsource, ht, -, -, -, -, hiff, hwrap⟩ :=
    extensionMode_wrap_resolves_iff input base {} ctx' _ diag fix (List.mem_singleton.2 rfl) hcheck
      hdiag hfix
  have hs' := hs.unique ⟨rfl, rfl, rfl⟩
  have hsource' : base.source? input.module (method "А" [] ["Б"] ⟨19, 2⟩ ⟨0, 52⟩) =
      some ⟨extended, ⟨[0, 0, 0], method "Б" [.atServer] [] ⟨0, 0⟩ ⟨0, 0⟩⟩⟩ := by
    simp [input, m, base, extended, method, BaseIndex.source?, BaseIndex.module?,
      Method.extensionTarget, Module.findDeclaration?, Module.declarations, Item.declarationsFrom,
      Item.declarations, Text.sameName_eq_decide]
  obtain rfl := Option.some.inj (hsource.symm.trans hsource')
  have ht' := ht.unique ⟨rfl, rfl, rfl⟩
  have hregion : some region = some ⟨.symbol .server, some ⟨0, 12⟩, none⟩ := by
    rw [← List.getLast?_concat]
    exact congrArg Scope.region ht'
  obtain rfl := Option.some.inj hregion
  have hsubset : s.environments.inter Symbol.server.environments ⊆
      Routine.environments extended ⟨outer, some (method "Б" [.atServer] [] ⟨0, 0⟩ ⟨0, 0⟩)⟩ := by
    refine hiff.1 ?_
    rw [ht', hs']
    decide
  exact ⟨hreport, (hwrap ⟨.symbol .server, none, none⟩ (method "А" [] ["Б"] ⟨53, 2⟩ ⟨34, 52⟩) fixed
    rfl rfl rfl).2.2.2.2 hsubset⟩

/-- The extended method is kept to the server by the outer of its two regions, and the wrap copies
the inner one: the wrapped method still runs on clients, and is reported again with the same
suggestion. -/
theorem extensionMode_wrap_keeps_conflict :
    let method (name : String) (target : List String) (nameSpan span : Span) : Method :=
      ⟨name.toList, .procedure, false, [], target.map fun t => ⟨.after, t.toList, none⟩, [],
        some span, some nameSpan, none⟩
    let m : Module := {
      name := "М".toList
      source := "Процедура А() КонецПроцедуры".toList
      items := [.method (method "А" ["Б"] ⟨19, 2⟩ ⟨0, 52⟩)] }
    let region : Region := ⟨.not (.symbol .webClient), some ⟨0, 23⟩, none⟩
    let extended : Module := {
      name := "М".toList
      source := "Не ВебКлиент".toList
      items := [
        .region ⟨.symbol .server, none, none⟩ [
          .region region [.method (method "Б" [] ⟨0, 0⟩ ⟨0, 0⟩)]]] }
    let base : BaseIndex := ⟨[extended]⟩
    let input : LintInput := ⟨m, {}, ⟨.primary, .dontUse, true⟩, some base⟩
    let wrap (body : String) : Text :=
      ("#Если Не ВебКлиент Тогда\n" ++ body ++ "\n#КонецЕсли").toList
    let suggestion (edit : Edit) : Suggestion :=
      ⟨"wrap the method in the condition of its source method", edit, .maybeIncorrect⟩
    let fixed := wrap "Процедура А() КонецПроцедуры"
    let wrapped : Module := { m with
      source := fixed
      items := [.region ⟨region.condition, none, none⟩ [
        .method (method "А" ["Б"] ⟨64, 2⟩ ⟨45, 52⟩)]] }
    let d : Declaration := ⟨[0], method "А" ["Б"] ⟨19, 2⟩ ⟨0, 52⟩⟩
    let d' : Declaration := ⟨[0, 0], method "А" ["Б"] ⟨64, 2⟩ ⟨45, 52⟩⟩
    let source : Declaration := ⟨[0, 0, 0], method "Б" [] ⟨0, 0⟩ ⟨0, 0⟩⟩
    (fun ctx => ctx.diagnostics.map Diagnostic.suggestion) <$> Rules.checkMode input base {} d =
      .ok [some (suggestion ⟨0, 52, fixed⟩)] ∧
    Edit.applyAll m.source [⟨0, 52, fixed⟩] = .ok fixed ∧
    base.source? m d.method = some ⟨extended, source⟩ ∧
    enclosingRegion extended source = .ok (some region) ∧
    environmentsOf m d = .ok .all ∧ environmentsOf extended source = .ok .server ∧
    ¬EnvironmentSet.all.inter region.condition.environments ⊆ .server ∧
    (fun ctx => ctx.diagnostics.map Diagnostic.suggestion) <$>
        Rules.checkMode { input with module := wrapped } base {} d' =
      .ok [some (suggestion ⟨45, 52, fixed⟩)] := by
  intro method m region extended base input wrap suggestion fixed wrapped d d' source
  refine ⟨by decide +kernel, by decide +kernel, ?_, rfl, by decide +kernel, by decide +kernel,
    by decide, by decide +kernel⟩
  simp [m, base, extended, source, d, method, BaseIndex.source?, BaseIndex.module?,
    Method.extensionTarget, Module.findDeclaration?, Module.declarations, Item.declarationsFrom,
    Item.declarations, Text.sameName_eq_decide]

end BslLint
