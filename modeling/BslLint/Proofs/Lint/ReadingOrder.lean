import BslLint.Proofs.Lint.DynamicCode
import BslLint.Proofs.Lint.Modality
import BslLint.Proofs.Syntax.ReadingOrder

/-!
The order in which the rules that walk a module report its calls.

A finding is reported when its call is shown, so that the findings of a rule stand in reading order
where the walk does. There the offsets of the findings never go backwards if the places that are
reported follow the text: the starts of the calls for the rule on evaluated code
(`Module.SpansInOrder`), and their names for the rule on modal calls (`Module.NamesInOrder`). The
two differ, since a call is read before its receiver, but has its name behind it.
-/

namespace BslLint

/-! ### Places in order -/

/-- No call of the module starts before a call that is read before it. -/
def Module.SpansInOrder (m : Module) : Prop :=
  (m.occurrences.filter fun o => o.node.isCall).Pairwise fun o o' =>
    ∀ s ∈ o.node.span, ∀ s' ∈ o'.node.span, s.offset ≤ s'.offset

instance (m : Module) : Decidable m.SpansInOrder :=
  inferInstanceAs (Decidable (List.Pairwise _ _))

/-- The offset of the name of a call, if the name is found. -/
def Occurrence.nameOffset? (o : Occurrence) : Option Nat :=
  match o.namedSite with
  | .ok (site, start) => some (site.text.start + start)
  | .error _ | .abort _ => none

/-- No modal call of the module has its name before that of a modal call that is read before it. -/
def Module.NamesInOrder (m : Module) : Prop :=
  (m.occurrences.filter Occurrence.IsModal).Pairwise fun o o' =>
    ∀ n ∈ o.nameOffset?, ∀ n' ∈ o'.nameOffset?, n ≤ n'

instance (m : Module) : Decidable m.NamesInOrder :=
  inferInstanceAs (Decidable (List.Pairwise _ _))

/-- If it is not switched off, the rule comes to an end, and the offsets of what it reports never go
backwards. -/
def Rule.ReportsForward (r : Rule) (input : LintInput) (ctx : LintContext) : Prop :=
  input.settings.levelFor r.lint.name ≠ .allow →
    ∃ ctx' ds, r.check input ctx = .ok ctx' ∧ ctx'.diagnostics = ctx.diagnostics ++ ds ∧
      ds.Pairwise fun d d' => d.extent.offset ≤ d'.extent.offset

/-! ### The rules -/

namespace Rules

variable {input : LintInput} {ctx : LintContext}

lemma exists_adds_walk_of_chainsInOrder (hchains : input.module.ChainsInOrder)
    {visit : LintContext → Event → Checked LintContext} {level : LintLevel}
    {P : Occurrence → Prop} [DecidablePred P] {R : Occurrence → Diagnostic → Prop}
    (hcall : ∀ o, P o → o.node.isCall = true)
    (hvisit : ∀ e ∈ Event.ofModule input.module,
      ∃ ds, Adds (fun ctx => visit ctx e) ds ∧ e.Reports level P R ds) :
    ∃ ds,
      Adds (fun ctx => walk LintContext.isCancelled visit ctx (Event.ofModule input.module)) ds ∧
      (level ≠ .allow → List.Forall₂ R (input.module.occurrences.filter P) ds) := by
  obtain ⟨ds, hadds, hds⟩ := Event.exists_adds_walk_inOrder hvisit
  rw [Event.occurrences_ofModule_of_chainsInOrder hchains,
    ← Event.filter_eq_filter_calls hcall] at hds
  exact ⟨ds, hadds, hds⟩

lemma reportsForward_dynamicCode (hchains : input.module.ChainsInOrder)
    (hfit : input.module.SpansFit) (hctx : ctx.Uncancelled)
    (hspans : input.module.SpansInOrder) : dynamicCode.ReportsForward input ctx := by
  intro hlevel
  have hcall : ∀ o : Occurrence, o.Unguarded → o.node.isCall = true :=
    fun _ h => Node.isCall_of_isDynamic h.dynamic
  obtain ⟨ds, hadds, hds⟩ := exists_adds_walk_of_chainsInOrder hchains hcall fun _ he =>
    exists_adds_visitDynamicCode hfit (Event.within_of_mem_ofModule he)
  obtain ⟨ctx', hcheck, -, hdiagnostics⟩ := hadds.of_uncancelled hctx
  refine ⟨ctx', ds, hcheck, hdiagnostics, ?_⟩
  rw [Event.filter_eq_filter_calls hcall] at hds
  refine pairwise_of_forall₂ ?_ (hds hlevel) (hspans.filter _)
  intro o d o' d' hd hd' horder
  exact horder _ hd.span_eq _ hd'.span_eq

lemma nameOffset?_of_modalFinding {variant : ScriptVariant} {o : Occurrence} {d : Diagnostic}
    (h : o.ModalFinding variant d) : o.nameOffset? = some d.extent.offset := by
  obtain ⟨call, site, start, h⟩ := h
  have hnamed : o.namedSite = .ok (site, start) :=
    Occurrence.namedSite_eq_ok_iff.2 ⟨h.modal.located, h.modal.named⟩
  simp [Occurrence.nameOffset?, hnamed, h.offset_eq]

lemma reportsForward_modality (hchains : input.module.ChainsInOrder)
    (hfit : input.module.SpansFit) (hctx : ctx.Uncancelled)
    (hnames : input.module.NamesInOrder) : modality.ReportsForward input ctx := by
  intro hlevel
  cases hpolicy : input.project.modality with
  | unrestricted =>
    refine ⟨ctx, [], ?_, by simp, List.Pairwise.nil⟩
    simp [modality, hpolicy, ModalityPolicy.forbidsModalCalls]
  | dontUse =>
    obtain ⟨ds, hadds, hds⟩ := exists_adds_walk_of_chainsInOrder hchains
      (fun _ h => Occurrence.isCall_of_isModal h) fun _ he =>
        exists_adds_visitModal input hfit (Event.within_of_mem_ofModule he)
    obtain ⟨ctx', hcheck, -, hdiagnostics⟩ := hadds.of_uncancelled hctx
    refine ⟨ctx', ds, ?_, hdiagnostics, pairwise_of_forall₂ ?_ (hds hlevel) hnames⟩
    · simpa [modality, hpolicy, ModalityPolicy.forbidsModalCalls] using hcheck
    · intro o d o' d' hd hd' horder
      exact horder _ (nameOffset?_of_modalFinding hd) _ (nameOffset?_of_modalFinding hd')

end Rules

/-- **The walk is in reading order where the chains of the module are.** Then it shows the calls of
the module as they are read, and the offsets of what a rule reports never go backwards if the places
that it reports follow the text. In every other module some call is read before another one and
shown behind it. -/
theorem Module.walk_reading_order (m : Module) :
    ∃ seen, walk (fun _ => false) Event.record [] (Event.ofModule m) = .ok seen ∧
      (m.ChainsInOrder →
        Event.occurrences seen = m.occurrences.filter (fun o => o.node.isCall) ∧
        ∀ (input : LintInput) (ctx : LintContext), input.module = m → m.SpansFit →
          ctx.Uncancelled →
          (m.SpansInOrder → Rules.dynamicCode.ReportsForward input ctx) ∧
          (m.NamesInOrder → Rules.modality.ReportsForward input ctx)) ∧
      (¬m.ChainsInOrder →
        ∃ x y, [x, y].Sublist (m.occurrences.filter fun o => o.node.isCall) ∧
          [y, x].Sublist (Event.occurrences seen)) := by
  refine ⟨_, Event.walk_record [] _, fun hchains => ⟨?_, ?_⟩, fun hchains => ?_⟩
  · exact Event.occurrences_ofModule_of_chainsInOrder hchains
  · rintro input ctx rfl hfit hctx
    exact ⟨Rules.reportsForward_dynamicCode hchains hfit hctx,
      Rules.reportsForward_modality hchains hfit hctx⟩
  · exact Event.exists_swapped hchains

/-- A call in a later predicate, behind a branch without calls: the walk is in reading order. -/
theorem Module.walk_reading_order_late_predicate :
    let call (name : String) (span : Span) : Expression :=
      .invocation name.toList none [] (some span)
    let m : Module := {
      name := "М".toList
      source := "If A() Then ElsIf DoModal() Then eval(PutFile())".toList
      statements := [.ifChain (.mk (call "A" ⟨3, 3⟩) [])
        [.mk (call "DoModal" ⟨18, 9⟩) [.simple (.invocation "eval".toList none
          [some (call "PutFile" ⟨38, 9⟩)] (some ⟨33, 15⟩)) none none]] none none] }
    let input : LintInput := ⟨m, {}, ⟨.alternate, .dontUse, false⟩, none⟩
    m.ChainsInOrder ∧ m.SpansInOrder ∧ m.NamesInOrder ∧
    (∃ seen, walk (fun _ => false) Event.record [] (Event.ofModule m) = .ok seen ∧
      Event.occurrences seen = m.occurrences.filter (fun o => o.node.isCall)) ∧
    Rules.dynamicCode.ReportsForward input {} ∧ Rules.modality.ReportsForward input {} ∧
    (m.occurrences.filter fun o => o.node.isCall).map (fun o => o.node.span) =
      [some ⟨3, 3⟩, some ⟨18, 9⟩, some ⟨33, 15⟩, some ⟨38, 9⟩] := by
  intro call m input
  have hchains : m.ChainsInOrder := by decide +kernel
  have hspans : m.SpansInOrder := by decide +kernel
  have hnames : m.NamesInOrder := by decide +kernel
  obtain ⟨seen, hwalk, hforward, -⟩ := m.walk_reading_order
  obtain ⟨hseen, hrules⟩ := hforward hchains
  obtain ⟨hdynamic, hmodal⟩ := hrules input {} rfl (by decide +kernel) ⟨rfl, fun _ => rfl⟩
  exact ⟨hchains, hspans, hnames, ⟨seen, hwalk, hseen⟩, hdynamic hspans, hmodal hnames,
    by decide +kernel⟩

/-- A call in the statements of the first branch and one in the predicate of the second: the walk
shows the predicate first, and the rule on evaluated code goes backwards in a text that its spans
follow. -/
theorem Module.walk_passes_statements :
    let eval (offset : Nat) : Expression := .invocation "eval".toList none [] (some ⟨offset, 6⟩)
    let m : Module := {
      name := "М".toList
      source := "If eval() Then eval(); ElsIf eval() Then EndIf;".toList
      statements := [.ifChain (.mk (eval 3) [.simple (eval 15) none none]) [.mk (eval 29) []] none
        none] }
    m.SpansInOrder ∧
    (∃ seen, walk (fun _ => false) Event.record [] (Event.ofModule m) = .ok seen ∧
      Event.occurrences seen ≠ m.occurrences.filter (fun o => o.node.isCall)) ∧
    ∃ ctx', Rules.dynamicCode.check { module := m } {} = .ok ctx' ∧
      ctx'.diagnostics.map (fun d => d.extent.offset) = [3, 29, 15] := by
  intro eval m
  refine ⟨by decide +kernel, ⟨_, Event.walk_record [] _, fun heq => ?_⟩, ?_⟩
  · have hspans := congrArg (List.map fun o => o.node.span) heq
    revert hspans
    decide +kernel
  · have hoffsets : (match Rules.dynamicCode.check { module := m } {} with
        | .ok ctx => ctx.diagnostics.map fun d => d.extent.offset
        | .abort _ => []) = [3, 29, 15] := by decide +kernel
    cases hcheck : Rules.dynamicCode.check { module := m } {} with
    | ok ctx' =>
      rw [hcheck] at hoffsets
      exact ⟨ctx', rfl, hoffsets⟩
    | error e => exact e.elim
    | abort c =>
      rw [hcheck] at hoffsets
      cases hoffsets

end BslLint
