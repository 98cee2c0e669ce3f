import BslLint.Proofs.Lint.Filter
import BslLint.Proofs.Lint.Modality
import BslLint.Proofs.Outline.CallText
import BslLint.Proofs.Outline.Operations

/-!
Modal calls that are built from a text can be replaced.

The nodes in a node that an operation builds are built by operations too, each from a boundary of
the text (`Built`). A call among them stands in the text where its span says, so that it has a site
and an edit; and in a module that is put together from such nodes, the rule on modal calls reports
nothing that it cannot fix.
-/

namespace BslLint.Outline

/-- The node is built by an operation from a boundary of the text. -/
def Built (source : Text) (n : Node) : Prop :=
  ∃ (o : Operation) (c c' : Nat), Text.isBoundary source c = true ∧ o.run source c = .ok (n, c')

variable {source : Text}

/-! ### Nodes in nodes that are built -/

lemma built_of_make {m : Move} {ns : List Node} {c c' : Nat}
    (hc : Text.isBoundary source c = true) (h : m.make source c = .ok (ns, c')) :
    ∀ n ∈ ns, Built source n := by
  cases m with
  | run o =>
    obtain ⟨⟨n, c₁⟩, ho, h⟩ := Outcome.bind_eq_ok_iff.1 h
    cases h
    simpa using ⟨o, c, c', hc, ho⟩
  | seek | enterCall =>
    cases h
    simp
  | enterWord | methodHead | regionHead =>
    obtain ⟨_, -, h⟩ := Outcome.bind_eq_ok_iff.1 h
    cases h
    simp

lemma built_of_makeAll {ms : List Move} {ns : List Node} {c c' : Nat}
    (hc : Text.isBoundary source c = true) (h : makeAll source ms c = .ok (ns, c')) :
    ∀ n ∈ ns, Built source n := by
  induction ms generalizing ns c with
  | nil =>
    cases h
    simp
  | cons m ms ih =>
    obtain ⟨⟨ns₁, c₁⟩, hm, h⟩ := Outcome.bind_eq_ok_iff.1 h
    obtain ⟨⟨ns₂, c₂⟩, hms, h⟩ := Outcome.bind_eq_ok_iff.1 h
    cases h
    obtain ⟨_, _, hm', hadvance⟩ := m.make_advances hc
    cases Outcome.ok.inj (hm'.symm.trans hm)
    intro n hn
    rcases List.mem_append.1 hn with hn | hn
    · exact built_of_make hc hm n hn
    · exact ih hadvance.boundary hms n hn

namespace Built

variable {n p : Node}

/-- **The parts of a node that is built are built.** -/
lemma part (h : Built source n) (hp : p ∈ n.parts) : Built source p := by
  obtain ⟨o, c, c', hc, ho⟩ := h
  obtain ⟨c₁, hparts⟩ := o.makeAll_moves ho
  exact built_of_makeAll hc hparts p hp

lemma on_of_mem_spans (h : Built source n) {s : Span} (hs : s ∈ n.spans) : s.On source := by
  obtain ⟨o, c, c', hc, ho⟩ := h
  obtain ⟨n', c₁, hsound⟩ := o.exists_sound hc
  cases Outcome.ok.inj (hsound.run.symm.trans ho)
  exact hsound.spans s hs

lemma child {e c : Expression} (h : Built source (.expression e)) (hc : c ∈ e.children) :
    Built source (.expression c) := by
  have hparts : (Node.expression e).parts = e.children.map .expression := by
    cases e <;> simp [Node.parts, Expression.children, List.reduceOption]
  exact h.part (hparts ▸ List.mem_map_of_mem hc)

lemma of_mem_nodes {e e' : Expression} (h : Built source (.expression e))
    (he : BslLint.Node.expression e' ∈ e.nodes) : Built source (.expression e') := by
  induction e using Expression.induction_children with
  | step e ih =>
    rw [e.nodes_eq] at he
    rcases List.mem_cons.1 he with he | he
    · obtain rfl := BslLint.Node.expression.inj he
      exact h
    · obtain ⟨c, hc, he⟩ := List.mem_flatMap.1 he
      exact ih c hc (h.child hc) he

lemma branch_of_mem {first b : Branch} {elseIfs : List Branch}
    {otherwise : Option (List Statement)} {span : Option Span}
    (h : Built source (.statement (.ifChain first elseIfs otherwise span)))
    (hb : b ∈ first :: elseIfs) : Built source (.branch b) := by
  rcases List.mem_cons.1 hb with rfl | hb
  · exact h.part (by simp [Node.parts])
  · exact h.part (by simp [Node.parts, hb])

lemma of_mem_expressions {s : Statement} {e : Expression} (h : Built source (.statement s))
    (he : e ∈ s.expressions) : Built source (.expression e) := by
  cases s with
  | ifChain first elseIfs otherwise span =>
    obtain ⟨b, hb, rfl⟩ := List.mem_map.1 he
    have hbranch := h.branch_of_mem hb
    cases b
    exact hbranch.part (by simp [Node.parts, Branch.predicate])
  | _ => exact h.part (by simp_all [Node.parts, Statement.expressions])

lemma of_mem_bodies {s t : Statement} {body : List Statement} (h : Built source (.statement s))
    (hbody : body ∈ s.bodies) (ht : t ∈ body) : Built source (.statement t) := by
  cases s with
  | ifChain first elseIfs otherwise span =>
    rcases List.mem_append.1 hbody with hbody | hbody
    · obtain ⟨b, hb, rfl⟩ := List.mem_map.1 hbody
      have hbranch := h.branch_of_mem hb
      cases b
      exact hbranch.part (by simp_all [Node.parts, Branch.body])
    · have helse : Built source (.elseBranch body) :=
        h.part (by simpa [Node.parts] using hbody)
      exact helse.part (by simpa [Node.parts] using ht)
  | tryExcept body handler span =>
    refine h.part ?_
    rcases List.mem_pair.1 hbody with rfl | rfl
    · simp [Node.parts, ht]
    · simp [Node.parts, ht]
  | _ => exact h.part (by simp_all [Node.parts, Statement.bodies])

lemma of_mem_statementNodes {s : Statement} {e : Expression} (h : Built source (.statement s))
    (he : BslLint.Node.expression e ∈ s.nodes) : Built source (.expression e) := by
  induction s using Statement.induction_bodies with
  | step s ih =>
    rcases Statement.mem_nodes_iff.1 he with he | ⟨e', he', he⟩ | ⟨body, hbody, t, ht, he⟩
    · cases he
    · exact (h.of_mem_expressions he').of_mem_nodes he
    · exact ih body hbody t ht (h.of_mem_bodies hbody ht) he

mutual

lemma of_mem_routines : ∀ {i : Item}, Built source (.item i) → ∀ {regions : List Region}
    {r : Routine}, r ∈ i.routines regions →
      ∃ f, r.method = some f ∧ ∀ s ∈ f.statements, Built source (.statement s)
  | .method f, h, regions, r, hr => by
    obtain rfl := List.mem_singleton.1 hr
    exact ⟨f, rfl, fun s hs => h.part (by simp [Node.parts, hs])⟩
  | .region _ items, h, regions, r, hr =>
    of_mem_routinesList (fun i hi => h.part (by simp [Node.parts, hi])) hr

lemma of_mem_routinesList : ∀ {items : List Item}, (∀ i ∈ items, Built source (.item i)) →
    ∀ {regions : List Region} {r : Routine}, r ∈ Item.routinesList regions items →
      ∃ f, r.method = some f ∧ ∀ s ∈ f.statements, Built source (.statement s)
  | [], _, _, r, hr => by simp [Item.routinesList] at hr
  | i :: items, h, regions, r, hr => by
    simp only [Item.routinesList, List.mem_append] at hr
    rcases hr with hr | hr
    · exact of_mem_routines (h i (by simp)) hr
    · exact of_mem_routinesList (fun i hi => h i (by simp [hi])) hr

end

end Built

lemma Built.replaceableIn {name : Text} {receiver : Option Expression}
    {params : List (Option Expression)} {span : Span}
    (h : Built source (.expression (.invocation name receiver params (some span))))
    (hlt : Text.byteLength source < offsetLimit) {call : CallId}
    (hcall : CallId.lookupModal? name = some call) {scope : Scope}
    (hscope : scope.module.source = source) :
    (Expression.invocation name receiver params (some span)).ReplaceableIn scope call := by
  obtain ⟨o, c, c', hc, ho⟩ := h
  have hmodal : call.isModal = true := (Option.filter_eq_some_iff.1 hcall).2
  cases o with
  | expression o =>
    obtain ⟨⟨e, c₁⟩, hplace, ho⟩ := Outcome.bind_eq_ok_iff.1 ho
    cases ho
    obtain ⟨t, ht⟩ := ExpressionOutline.exists_spells_of_place hc hplace
    exact ht.replaceableIn hlt hscope params hmodal
  | statement | branch | elseBranch | item =>
    obtain ⟨_, -, ho⟩ := Outcome.bind_eq_ok_iff.1 ho
    cases ho

/-! ### Modules of nodes that are built -/

/-- The items and the statements of the module are built from its text. -/
structure BuiltModule (m : Module) : Prop where
  items : ∀ i ∈ m.items, Built m.source (.item i)
  statements : ∀ s ∈ m.statements, Built m.source (.statement s)

namespace BuiltModule

variable {m : Module}

lemma spansFit (h : BuiltModule m) (hlt : Text.byteLength m.source < offsetLimit) :
    m.SpansFit := by
  have hfits : ∀ {s : Span}, s.On m.source → s.Fits := fun hon =>
    Nat.lt_of_le_of_lt (Text.le_byteLength_of_isBoundary hon.stop) hlt
  intro s hs
  rcases List.mem_append.1 hs with hs | hs
  · rw [Item.spansList_eq_flatMap] at hs
    obtain ⟨i, hi, hs⟩ := List.mem_flatMap.1 hs
    exact hfits ((h.items i hi).on_of_mem_spans hs)
  · rw [Statement.spansList_eq_flatMap] at hs
    obtain ⟨st, hst, hs⟩ := List.mem_flatMap.1 hs
    exact hfits ((h.statements st hst).on_of_mem_spans hs)

lemma of_mem_occurrences (h : BuiltModule m) {o : Occurrence} (ho : o ∈ m.occurrences) :
    o.scope.module = m ∧
      ∀ e, o.node = .expression e → Built m.source (.expression e) := by
  obtain ⟨scope, hscope, ho⟩ := List.mem_flatMap.1 ho
  obtain ⟨n, hn, rfl⟩ := List.mem_map.1 ho
  have hbuilt : scope.module = m ∧ ∀ s ∈ scope.statements, Built m.source (.statement s) := by
    rcases List.mem_append.1 hscope with hscope | hscope
    · obtain ⟨r, hr, rfl⟩ := List.mem_map.1 hscope
      obtain ⟨f, hf, hstatements⟩ := Built.of_mem_routinesList h.items hr
      refine ⟨rfl, ?_⟩
      rwa [Scope.statements, Routine.scope, hf]
    · obtain rfl := List.mem_singleton.1 hscope
      exact ⟨rfl, h.statements⟩
  refine ⟨hbuilt.1, ?_⟩
  rintro e rfl
  rw [Statement.nodesList_eq_flatMap] at hn
  obtain ⟨s, hs, hn⟩ := List.mem_flatMap.1 hn
  exact (hbuilt.2 s hs).of_mem_statementNodes hn

/-- A modal call of the module whose text and name are found has a replacement. -/
lemma replacementEdit_succeeds (h : BuiltModule m) (hlt : Text.byteLength m.source < offsetLimit)
    {o : Occurrence} (ho : o ∈ m.occurrences) {call : CallId} {site : CallSite} {start : Nat}
    (hmodal : o.ModalAt call site start) (variant : ScriptVariant) :
    (site.replacementEdit call variant).Succeeds := by
  obtain ⟨hmodule, hbuilt⟩ := h.of_mem_occurrences ho
  obtain ⟨scope, n⟩ := o
  obtain ⟨hentry, hsite, -⟩ := hmodal
  unfold BslLint.Node.callee? at hentry
  split at hentry
  · rename_i name receiver params span hnode
    dsimp only at hnode hmodule hsite
    subst hnode
    cases span with
    | none => cases hsite
    | some span =>
      obtain ⟨site', -, hsite', -, hedit⟩ :=
        (hbuilt _ rfl).replaceableIn hlt hentry (congrArg Module.source hmodule)
      cases Outcome.ok.inj (hsite.symm.trans hsite')
      obtain ⟨edit, hedit, -⟩ := hedit variant
      exact ⟨edit, hedit⟩
  · cases hentry

end BuiltModule

end BslLint.Outline

namespace BslLint

/-! ### The rule on modal calls -/

lemma Rules.exists_adds_fixed {input : LintInput} (hfit : input.module.SpansFit)
    (hbase : ∀ b ∈ input.base, ∀ m ∈ b.modules, m.SpansFit)
    (hfix : ∀ o ∈ input.module.occurrences, ∀ call site start, o.ModalAt call site start →
      (site.replacementEdit call input.project.variant).Succeeds)
    {r : Rule} (hr : r ∈ defaultRules) :
    ∃ ds, Adds (r.check input) ds ∧
      ∀ d ∈ ds, d.lint = modalityLint → d.suggestion.isSome = true := by
  obtain ⟨ds, hof, hadds⟩ := exists_adds_graded hfit hbase hr
  refine ⟨_, hadds input.settings, fun d hd hlint => ?_⟩
  obtain ⟨d₀, hd₀, hon, rfl⟩ := LintSettings.mem_grade.1 hd
  have hrule : r.lint = modalityLint := (hof d₀ hd₀).lint_eq.symm.trans hlint
  have hlevel : input.settings.levelFor modalityLint.name ≠ .allow := hlint ▸ hon
  obtain rfl : r = modality := by
    simp only [defaultRules, List.mem_cons, List.not_mem_nil, or_false] at hr
    rcases hr with rfl | rfl | rfl | rfl
    · rfl
    all_goals exact absurd hrule (by decide)
  obtain ⟨es, hes, hnone, hexact⟩ := exists_adds_modality input hfit
  rw [(hadds input.settings).unique hes] at hd
  cases hpolicy : input.project.modality with
  | unrestricted =>
    rw [hnone hpolicy] at hd
    cases hd
  | dontUse =>
    obtain ⟨found, hperm, hfound⟩ := hexact hlevel hpolicy
    obtain ⟨o, ho, call, site, start, hfinding⟩ := exists_of_forall₂ hfound hd
    refine hfinding.suggestion_iff.2 (hfix o ?_ call site start hfinding.modal)
    exact List.mem_of_mem_filter (hperm.mem_iff.1 ho)

lemma exists_lintModule_fixed {input : LintInput} (hbuilt : Outline.BuiltModule input.module)
    (hlt : Text.byteLength input.module.source < offsetLimit)
    (hbase : ∀ b ∈ input.base, ∀ m ∈ b.modules, m.SpansFit) {rules : List Rule}
    (hrules : ∀ r ∈ rules, r ∈ defaultRules) {c : Cancellation} (hc : c.Lasts) :
    ∃ ds, lintModule rules input c = .ok ds ∧
      ∀ d ∈ ds, d.lint = Rules.modalityLint → d.suggestion.isSome = true := by
  obtain ⟨dss, hdss, hadds⟩ := (isLoop_runRules input).exists_adds fun r hr =>
    Rules.exists_adds_fixed (hbuilt.spansFit hlt) hbase
      (fun o ho _ _ _ hmodal => hbuilt.replacementEdit_succeeds hlt ho hmodal _) (hrules r hr)
  rcases lintModule_cases hadds hc with ⟨-, hnil⟩ | hall
  · exact ⟨[], hnil, by simp⟩
  · refine ⟨_, hall, fun d hd => ?_⟩
    obtain ⟨ds, hds, hd⟩ := List.mem_flatten.1 hd
    obtain ⟨r, -, hfixed⟩ := exists_of_forall₂ hdss hds
    exact hfixed d hd

/-- **Every modal call that is built from a text can be fixed.** A script of operations over a text
comes to its nodes. Each call with a span that is built on the way, at any depth, and whose name
stands for a modal call, has a site where its name is found, and in either variant an edit that
passes the check against the text. So in a module that is put together from the nodes of the script,
no run of the rules reports a modal call without a fix. -/
theorem Outline.script_modalCalls_fixed (source : Text) (os : List Operation)
    (hlt : Text.byteLength source < offsetLimit) :
    ∃ ns c, makeAll source (os.map .run) 0 = .ok (ns, c) ∧
      (∀ o ms c₁, Reaches source (os.map .run) 0 (.run o :: ms) c₁ →
        ∀ name receiver params span c₂, o.run source c₁ =
          .ok (.expression (.invocation name receiver params (some span)), c₂) →
        ∀ call, CallId.lookupModal? name = some call →
        ∀ scope : Scope, scope.module.source = source →
          (Expression.invocation name receiver params (some span)).ReplaceableIn scope call) ∧
      ∀ input : LintInput, input.module.source = source →
        (∀ i ∈ input.module.items, Node.item i ∈ ns) →
        (∀ s ∈ input.module.statements, Node.statement s ∈ ns) →
        (∀ b ∈ input.base, ∀ m ∈ b.modules, m.SpansFit) →
        ∀ rules : List Rule, (∀ r ∈ rules, r ∈ defaultRules) → ∀ c : Cancellation, c.Lasts →
          ∃ ds, lintModule rules input c = .ok ds ∧
            ∀ d ∈ ds, d.lint = Rules.modalityLint → d.suggestion.isSome = true := by
  have hzero : Text.isBoundary source 0 = true := Text.isBoundary_iff.2 ⟨[], source, rfl, rfl⟩
  obtain ⟨ns, c, hscript⟩ := exists_makeAll hzero (os.map .run)
  refine ⟨ns, c, hscript, ?_, ?_⟩
  · intro o ms c₁ hreach name receiver params span c₂ ho call hcall scope hscope
    have hbuilt : Built source _ := ⟨o, c₁, c₂, hreach.isBoundary hzero, ho⟩
    exact hbuilt.replaceableIn hlt hcall hscope
  · rintro input rfl hitems hstatements hbase rules hrules c hc
    have hnodes := built_of_makeAll hzero hscript
    have hbuilt : BuiltModule input.module :=
      ⟨fun i hi => hnodes _ (hitems i hi), fun s hs => hnodes _ (hstatements s hs)⟩
    exact exists_lintModule_fixed hbuilt hlt hbase hrules hc

/-- A modal call in the receiver of another one, with a parenthesis in a string: both are reported,
and both with a fix. -/
theorem Outline.script_modalCalls_fixed_chained :
    let source := "Вопрос(\"a)\").doModal ();".toList
    let inner : Operation := .expression (.call "Вопрос".toList [])
    let script : List Operation :=
      [.statement (.simple (.methodCall (.call "Вопрос".toList []) "DoModal".toList []))]
    let moduleOf (ns : List Outline.Node) : Module := {
      name := "М".toList
      source
      statements := ns.filterMap fun
        | .statement s => some s
        | _ => none }
    ∃ ns c, makeAll source (script.map .run) 0 = .ok (ns, c) ∧
      (∃ e c, inner.run source 0 = .ok (.expression e, c) ∧
        e.ReplaceableIn (Scope.ofModule (moduleOf ns)) .queryBox) ∧
      ∃ ds, lintModule defaultRules ⟨moduleOf ns, {}, ⟨.primary, .dontUse, false⟩, none⟩ = .ok ds ∧
        (∀ d ∈ ds, d.lint = Rules.modalityLint → d.suggestion.isSome = true) ∧
        ds.map (fun d => (d.lint.name, d.extent.offset)) =
          [("dont_use_modality_mode", 19), ("dont_use_modality_mode", 0)] := by
  intro source inner script moduleOf
  have hlt : Text.byteLength source < offsetLimit := by decide +kernel
  obtain ⟨ns, c, hscript, hcalls, hlint⟩ := script_modalCalls_fixed source script hlt
  have hsource : source =
      "Вопрос".toList ++ '(' :: ("\"a)\"".toList ++ ')' :: ".doModal ();".toList) := by
    decide +kernel
  obtain ⟨es, c', hplace⟩ := ExpressionOutline.place_call_front hsource (by decide)
    (balanced_of_depthBehind (by decide +kernel)) []
  have hinner := run_expression hplace
  have hmodal : CallId.lookupModal? "Вопрос".toList = some .queryBox := by decide +kernel
  refine ⟨ns, c, hscript, ⟨_, c', hinner, ?_⟩, ?_⟩
  · exact hcalls inner _ 0 (.inside (.inside .here)) _ _ _ _ _ hinner _ hmodal _ rfl
  · have hstatements : ∀ s ∈ (moduleOf ns).statements, Node.statement s ∈ ns := by
      intro s hs
      obtain ⟨n, hn, hs⟩ := List.mem_filterMap.1 hs
      cases n <;> cases hs
      exact hn
    obtain ⟨ds, hds, hfixed⟩ :=
      hlint ⟨moduleOf ns, {}, ⟨.primary, .dontUse, false⟩, none⟩ rfl (by simp [moduleOf])
        hstatements (by simp) defaultRules (fun _ hr => hr) .never Cancellation.lasts_never
    have hfindings : (match makeAll source (script.map .run) 0 with
        | .ok (ns, _) =>
          match lintModule defaultRules
              ⟨moduleOf ns, {}, ⟨.primary, .dontUse, false⟩, none⟩ with
          | .ok ds => ds.map fun d => (d.lint.name, d.extent.offset)
          | .abort _ => []
        | .abort _ => []) = [("dont_use_modality_mode", 19), ("dont_use_modality_mode", 0)] := by
      decide +kernel
    rw [hscript] at hfindings
    dsimp only at hfindings
    rw [hds] at hfindings
    exact ⟨ds, hds, hfixed, hfindings⟩

end BslLint
