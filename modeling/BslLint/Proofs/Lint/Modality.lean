import BslLint.Proofs.Call.Site
import BslLint.Proofs.Lint.Findings
import BslLint.Proofs.Lint.Placement

/-!
The rule on modal calls is exact, and its fix is made for the name that it reports.

What is to be reported is said on the occurrences of the module (`Occurrence.IsModal`). The finding
lies on the name of the call, a whole word of its text; the edit that it suggests, if the call can
be taken apart, covers this word and starts with it or with the dot in front of it
(`CallSite.IsModalFinding`).
-/

namespace BslLint

/-! ### What is to be reported -/

namespace Node

/-- The name that the node invokes. -/
def callee? : Node → Option Text
  | .expression (.invocation name _ _ _) => some name
  | _ => none

/-- The site of the node. -/
def site (scope : Scope) : Node → Analysis CallSite
  | .expression e => CallSite.ofInvocation scope e
  | .statement s => CallSite.ofExecute scope s

end Node

namespace Occurrence

/-- The node is an invocation whose name stands for the modal call, its text is found in the module
as that of the site, and the name is found in this text at the given offset. -/
structure ModalAt (o : Occurrence) (call : CallId) (site : CallSite) (start : Nat) : Prop where
  entry : o.node.callee?.bind CallId.lookupModal? = some call
  located : o.node.site o.scope = .ok site
  named : site.nameStart = .ok start

/-- The site of the node together with the place of its name. -/
def namedSite (o : Occurrence) : Analysis (CallSite × Nat) := do
  let site ← o.node.site o.scope
  return (site, ← site.nameStart)

lemma namedSite_eq_ok_iff {o : Occurrence} {site : CallSite} {start : Nat} :
    o.namedSite = .ok (site, start) ↔
      o.node.site o.scope = .ok site ∧ site.nameStart = .ok start := by
  simp only [namedSite, Outcome.bind_eq_ok_iff, Outcome.pure_eq, Outcome.ok.injEq, Prod.mk.injEq]
  constructor
  · rintro ⟨site, hsite, start, hstart, rfl, rfl⟩
    exact ⟨hsite, hstart⟩
  · rintro ⟨hsite, hstart⟩
    exact ⟨site, hsite, start, hstart, rfl, rfl⟩

/-- The node is a modal call whose text and name are found. -/
def IsModal (o : Occurrence) : Prop := ∃ call site start, o.ModalAt call site start

lemma isModal_iff {o : Occurrence} :
    o.IsModal ↔ (o.node.callee?.bind CallId.lookupModal?).isSome = true ∧
      o.namedSite.Succeeds := by
  rw [Option.isSome_iff_exists]
  constructor
  · rintro ⟨call, site, start, hentry, hlocated, hnamed⟩
    exact ⟨⟨call, hentry⟩, _, namedSite_eq_ok_iff.2 ⟨hlocated, hnamed⟩⟩
  · rintro ⟨⟨call, hentry⟩, ⟨site, start⟩, h⟩
    obtain ⟨hlocated, hnamed⟩ := namedSite_eq_ok_iff.1 h
    exact ⟨call, site, start, hentry, hlocated, hnamed⟩

instance : DecidablePred IsModal := fun _ => decidable_of_iff _ isModal_iff.symm

lemma ModalAt.callee_eq {o : Occurrence} {call : CallId} {site : CallSite} {start : Nat}
    (h : o.ModalAt call site start) : o.node.callee? = some site.callee := by
  obtain ⟨hentry, hlocated, -⟩ := h
  unfold Node.callee? at hentry
  split at hentry
  · rename_i name receiver params span hnode
    rw [hnode] at hlocated ⊢
    obtain ⟨text, -, hlocated⟩ := Outcome.bind_eq_ok_iff.1 hlocated
    obtain ⟨receiverEnd, -, hlocated⟩ := Outcome.bind_eq_ok_iff.1 hlocated
    cases hlocated
    rfl
  · cases hentry

lemma isCall_of_isModal {o : Occurrence} (h : o.IsModal) : o.node.isCall = true := by
  obtain ⟨call, site, start, h⟩ := h
  have hcallee := h.callee_eq
  unfold Node.callee? at hcallee
  split at hcallee
  · rename_i hnode
    rw [hnode]
    rfl
  · cases hcallee

end Occurrence

/-- The range of the finding lies in the text of the call, on a whole word of it that is the name
of the call up to case. -/
structure Diagnostic.IsOnName (source : Text) (site : CallSite) (d : Diagnostic) : Prop where
  start_le : site.text.start ≤ d.extent.offset
  le_stop : d.extent.offset + d.extent.length ≤ site.text.stop
  word : ∃ before word after, site.text.raw = before ++ word ++ after ∧
    site.text.start + Text.byteLength before = d.extent.offset ∧
    Text.slice? source d.extent.offset (d.extent.offset + d.extent.length) = some word ∧
    Text.lowercase word = Text.lowercase site.callee ∧
    Text.endsWord before.getLast? = true ∧ Text.endsWord after.head? = true

/-- The edit covers the range of the finding and starts with it, or with a dot in front of it. -/
structure Edit.Covers (source : Text) (d : Diagnostic) (e : Edit) : Prop where
  anchor_le : e.anchor ≤ d.extent.offset
  le_stop : d.extent.offset + d.extent.length ≤ e.stop
  anchor : e.anchor = d.extent.offset ∨
    e.anchor + 1 = d.extent.offset ∧ Text.slice? source e.anchor d.extent.offset = some ['.']

/-- The finding of a modal call: it lies on the name of the call, where the search for the name has
found it, and it suggests the replacement of the call if there is one. -/
structure Occurrence.IsModalFinding (variant : ScriptVariant) (o : Occurrence) (call : CallId)
    (site : CallSite) (start : Nat) (d : Diagnostic) : Prop where
  modal : o.ModalAt call site start
  lint_eq : d.lint = Rules.modalityLint
  callee_eq : o.node.callee? = some site.callee
  span_eq : o.node.span = some ⟨site.text.start, site.text.length⟩
  offset_eq : d.extent.offset = site.text.start + start
  length_eq : d.extent.length = site.nameLength
  onName : d.IsOnName o.scope.module.source site
  suggestion_iff : d.suggestion.isSome = true ↔ (site.replacementEdit call variant).Succeeds
  edit : ∀ s ∈ d.suggestion, site.replacementEdit call variant = .ok s.edit ∧
    s.edit.Covers o.scope.module.source d

/-- The finding belongs to the occurrence of a modal call. -/
def Occurrence.ModalFinding (variant : ScriptVariant) (o : Occurrence) (d : Diagnostic) : Prop :=
  ∃ call site start, o.IsModalFinding variant call site start d

/-! ### The name and the edit -/

namespace CallSite

lemma nameStart_ne_cancelled {site : CallSite} : site.nameStart ≠ .error .cancelled := by
  unfold nameStart
  split <;> simp

lemma isOnName_of_nameStart {source : Text} {site : CallSite} (hsite : site.text.Located source)
    {start : Nat} (h : site.nameStart = .ok start) {d : Diagnostic}
    (hoffset : d.extent.offset = site.text.start + start)
    (hlength : d.extent.length = site.nameLength) : d.IsOnName source site := by
  unfold nameStart at h
  split at h
  · rename_i n hfind
    cases h
    obtain ⟨before, word, after, hraw, hbefore, hword, hname, hfront, hback⟩ :=
      Text.exists_of_findWord? hfind
    have hslice : Text.slice? site.text.raw start (start + site.nameLength) = some word :=
      Text.slice?_eq_some_iff.2 ⟨before, after, hraw, hbefore, by rw [hword]; rfl⟩
    obtain ⟨hsource, -⟩ := hsite.slice_of_raw hslice
    have hin := (Text.byteLength_of_slice? hslice).2
    have hstop := (Text.byteLength_of_slice? hsite.slice).1
    refine ⟨by omega, by omega, before, word, after, hraw, by omega, ?_, ?_, hfront, hback⟩
    · rw [hoffset, hlength]
      exact hsource
    · simpa [Text.sameName] using hname
  · cases h

lemma covers_of_replacementEdit {source : Text} {site : CallSite}
    (hsite : site.text.Located source) {call : CallId} {variant : ScriptVariant} {e : Edit}
    (he : site.replacementEdit call variant = .ok e) {start : Nat}
    (hstart : site.nameStart = .ok start) {d : Diagnostic}
    (hoffset : d.extent.offset = site.text.start + start)
    (hlength : d.extent.length = site.nameLength) : e.Covers source d := by
  obtain ⟨-, -, lead, dot, name, gap, kept, rest, hraw, hdot, hname, hlen, -, rfl⟩ :=
    exists_rewritesHead hsite he
  cases hstart.symm.trans hname
  simp only [Text.byteLength_append] at hoffset
  refine ⟨?_, ?_, ?_⟩
  · dsimp only
    omega
  · simp only [Edit.stop, Text.byteLength_append]
    omega
  · rcases hdot with rfl | rfl
    · exact Or.inl (by simpa using hoffset.symm)
    · have hone : Text.byteLength ['.'] = 1 := rfl
      have hslice : Text.slice? site.text.raw (Text.byteLength lead) (Text.byteLength lead + 1) =
          some ['.'] :=
        Text.slice?_eq_some_iff.2 ⟨lead, name ++ gap ++ '(' :: kept ++ rest, by simp [hraw], rfl,
          by rw [hone]⟩
      obtain ⟨hsource, -⟩ := hsite.slice_of_raw hslice
      refine Or.inr ⟨?_, ?_⟩
      · dsimp only
        omega
      · rw [hoffset, hone, ← Nat.add_assoc]
        exact hsource

end CallSite

/-! ### The rule -/

namespace Rules

variable (input : LintInput)

lemma exists_modalitySuggestion {source : Text} {site : CallSite}
    (hsite : site.text.Located source) (call : CallId) (variant : ScriptVariant) :
    ∃ fix, modalitySuggestion site call variant = .ok fix ∧
      (fix.isSome = true ↔ (site.replacementEdit call variant).Succeeds) ∧
      ∀ s ∈ fix, site.replacementEdit call variant = .ok s.edit := by
  have hsafe := replacementEdit_validate hsite call variant
  unfold modalitySuggestion
  cases he : site.replacementEdit call variant with
  | ok e => exact ⟨_, rfl, by simp [Outcome.Succeeds], by simp⟩
  | error e => exact ⟨none, rfl, by simp [Outcome.Succeeds], by simp⟩
  | abort c =>
    rw [he] at hsafe
    exact hsafe.elim

lemma exists_adds_reportModal {o : Occurrence} {call : CallId} {site : CallSite} {start : Nat}
    (hmodal : o.ModalAt call site start) (hsite : site.Of o) :
    ∃ ds, Adds (fun ctx => reportModal input ctx site call start) ds ∧
      Reports (input.settings.levelFor modalityLint.name) Occurrence.IsModal
        (Occurrence.ModalFinding input.project.variant) o ds := by
  have hlocated := located_of_locate hsite.located
  obtain ⟨fix, hfix, hiff, hedit⟩ :=
    exists_modalitySuggestion hlocated call input.project.variant
  have hlt : site.text.start + start + site.nameLength < offsetLimit := by
    obtain ⟨before, name, after, hraw, rfl, hname⟩ := CallSite.exists_of_nameStart hmodal.named
    have hslice : Text.slice? site.text.raw (Text.byteLength before)
        (Text.byteLength before + site.nameLength) = some name :=
      Text.slice?_eq_some_iff.2 ⟨before, after, hraw, rfl, by rw [hname]⟩
    exact (hlocated.slice_of_raw hslice).2
  obtain ⟨ds, hadds, hreport⟩ := exists_adds_report input modalityLint hlt
    ("Modal call `" ++ String.ofList site.callee ++ "` is not allowed in this configuration") fix
  refine ⟨ds, hadds.congr fun ctx => ?_,
    Reports.of_report ⟨call, site, start, hmodal⟩ fun hlevel => ?_⟩
  · rw [reportModal, hfix, Outcome.ok_bind, addOffsets_of_lt (by omega), Outcome.ok_bind]
  · obtain ⟨d, rfl, hd⟩ := hreport hlevel
    refine ⟨d, rfl, call, site, start, hmodal, hd.lint_eq, hmodal.callee_eq,
      span_eq_of_locate hsite.located, hd.offset_eq, hd.length_eq,
      CallSite.isOnName_of_nameStart hlocated hmodal.named hd.offset_eq hd.length_eq, ?_, ?_⟩
    · rw [hd.suggestion_eq]
      exact hiff
    · intro s hs
      rw [hd.suggestion_eq] at hs
      exact ⟨hedit s hs, CallSite.covers_of_replacementEdit hlocated (hedit s hs) hmodal.named
        hd.offset_eq hd.length_eq⟩

lemma exists_adds_namedSite {o : Occurrence} {call : CallId}
    (hentry : o.node.callee?.bind CallId.lookupModal? = some call)
    (hresolves : CallSite.Resolves o (o.node.site o.scope)) :
    ∃ ds, Adds (fun ctx => do
        match ← o.namedSite.attempt with
        | .error e => return ctx.skip e
        | .ok (site, start) => reportModal input ctx site call start) ds ∧
      Reports (input.settings.levelFor modalityLint.name) Occurrence.IsModal
        (Occurrence.ModalFinding input.project.variant) o ds := by
  have hsafe : o.namedSite.Safe fun _ => True :=
    hresolves.safe.bind fun site _ => site.nameStart_safe.bind fun _ _ => trivial
  have hne : o.namedSite ≠ .error .cancelled :=
    Outcome.bind_ne_error hresolves.ne_cancelled fun site =>
      Outcome.bind_ne_error CallSite.nameStart_ne_cancelled fun n => by simp
  cases hnamed : o.namedSite with
  | ok p =>
    obtain ⟨hlocated, hstart⟩ := Occurrence.namedSite_eq_ok_iff.1 hnamed
    have hof : p.1.Of o := by simpa [hlocated] using hresolves.safe
    obtain ⟨ds, hadds, hreports⟩ := exists_adds_reportModal input ⟨hentry, hlocated, hstart⟩ hof
    exact ⟨ds, hadds.congr fun ctx => rfl, hreports⟩
  | error e =>
    have hskip : e ≠ .cancelled := fun he => hne (by rw [hnamed, he])
    refine ⟨[], (adds_skip hskip).congr fun ctx => rfl, Reports.of_not fun h => ?_⟩
    obtain ⟨p, hp⟩ := (Occurrence.isModal_iff.1 h).2
    cases hnamed.symm.trans hp
  | abort c =>
    rw [hnamed] at hsafe
    exact hsafe.elim

lemma exists_adds_visitModal (hfit : input.module.SpansFit) {e : Event}
    (he : e.Within input.module input.module.spans) :
    ∃ ds, Adds (fun ctx => visitModal input ctx e) ds ∧
      e.Reports (input.settings.levelFor modalityLint.name) Occurrence.IsModal
        (Occurrence.ModalFinding input.project.variant) ds := by
  have hspans : ∀ s ∈ e.spans, s.Fits := fun s hs => hfit s (he.subset hs)
  -- Only an invocation has the name of a modal call.
  have hother : ∀ {o : Occurrence}, o.node.callee? = none → ¬o.IsModal := by
    rintro o hnone ⟨call, site, start, hentry, -, -⟩
    rw [hnone] at hentry
    cases hentry
  cases e with
  | method m scope => exact ⟨[], adds_nil, rfl⟩
  | statement s scope => exact ⟨[], adds_nil, rfl⟩
  | execute s scope => exact ⟨[], adds_nil, Reports.of_not (hother rfl)⟩
  | call c scope =>
    cases c with
    | invocation name receiver params span =>
      have hspans : ∀ s ∈ (Expression.invocation name receiver params span).spans, s.Fits := hspans
      have hresolves := CallSite.resolves_ofInvocation scope name params
        (fun x hx => hspans x (Expression.mem_spans_of_mem_span hx))
        (fun x hx => hspans x (Expression.mem_spans_of_mem_receiver hx))
      cases hcall : CallId.lookupModal? name with
      | none =>
        refine ⟨[], adds_nil.congr fun ctx => ?_, Reports.of_not ?_⟩
        · simp only [visitModal, hcall]
          rfl
        · rintro ⟨call, site, start, hentry, -, -⟩
          cases hentry.symm.trans hcall
      | some call =>
        obtain ⟨ds, hadds, hreports⟩ := exists_adds_namedSite input
          (o := ⟨scope, .expression (.invocation name receiver params span)⟩) hcall hresolves
        refine ⟨ds, hadds.behind_checkpoint.congr fun ctx => ?_, hreports⟩
        simp only [visitModal, hcall]
        rfl
    | _ => exact ⟨[], adds_nil, Reports.of_not (hother rfl)⟩

/-- **The findings of the rule** are those of the modal calls, each once, if the policy forbids
them, and none otherwise. -/
theorem exists_adds_modality (hfit : input.module.SpansFit) :
    ∃ ds, Adds (modality.check input) ds ∧ (input.project.modality = .unrestricted → ds = []) ∧
      (input.settings.levelFor modalityLint.name ≠ .allow → input.project.modality = .dontUse →
        ∃ found, found.Perm (input.module.occurrences.filter Occurrence.IsModal) ∧
          List.Forall₂ (Occurrence.ModalFinding input.project.variant) found ds) := by
  cases hpolicy : input.project.modality with
  | unrestricted =>
    refine ⟨[], adds_nil.congr fun ctx => ?_, fun _ => rfl, fun _ => nofun⟩
    simp [modality, hpolicy, ModalityPolicy.forbidsModalCalls]
  | dontUse =>
    obtain ⟨ds, hadds, hexact⟩ := Event.exists_adds_walk
      (fun _ h => Occurrence.isCall_of_isModal h) fun _ he =>
        exists_adds_visitModal input hfit (Event.within_of_mem_ofModule he)
    refine ⟨ds, hadds.congr fun ctx => ?_, nofun, fun hlevel _ => hexact hlevel⟩
    simp [modality, hpolicy, ModalityPolicy.forbidsModalCalls]

end Rules

/-- **The rule on modal calls is exact, and its fixes fit its findings.** In a run without
cancellation, with the lint not switched off, the rule adds one finding for each modal call of the
module whose text and name are found, and nothing else, if the policy forbids modal calls, and
nothing at all otherwise. The finding lies on the name of the call and suggests the replacement of
the call exactly if there is one; the edit then covers the reported name. -/
theorem modality_reports_modal_calls (input : LintInput) (ctx : LintContext)
    (hfit : input.module.SpansFit)
    (hlevel : input.settings.levelFor "dont_use_modality_mode" ≠ .allow)
    (hctx : ctx.Uncancelled) :
    ∃ ctx' ds, Rules.modality.check input ctx = .ok ctx' ∧ ctx'.Uncancelled ∧
      ctx'.diagnostics = ctx.diagnostics ++ ds ∧
      (input.project.modality = .unrestricted → ds = []) ∧
      (input.project.modality = .dontUse →
        ∃ found, found.Perm (input.module.occurrences.filter Occurrence.IsModal) ∧
          List.Forall₂ (Occurrence.ModalFinding input.project.variant) found ds) := by
  obtain ⟨ds, hadds, hnone, hexact⟩ := Rules.exists_adds_modality input hfit
  obtain ⟨ctx', hcheck, hctx', hds⟩ := hadds.of_uncancelled hctx
  exact ⟨ctx', ds, hcheck, hctx', hds, hnone, hexact hlevel⟩

/-- A modal call in the receiver of another one, one without parentheses, and one whose text does
not hold its name: three findings, two of them with a fix. -/
theorem modality_reports_modal_calls_chained :
    let inner : Expression := .invocation "вопрос".toList none [] (some ⟨0, 14⟩)
    let outer : Expression := .invocation "DoModal".toList (some inner) [] (some ⟨0, 25⟩)
    let bare : Expression := .invocation "putfile".toList none [] (some ⟨25, 8⟩)
    let lost : Expression := .invocation "PutFile".toList none [] (some ⟨0, 14⟩)
    let m : Module := {
      name := "М".toList
      source := "Вопрос().doModal ();PutFile".toList
      statements := [
        .simple outer none none,
        .whileLoop bare [.returnValue (some lost) none] none] }
    let input : LintInput := ⟨m, {}, ⟨.alternate, .dontUse, false⟩, none⟩
    ∃ ctx' ds found, Rules.modality.check input {} = .ok ctx' ∧ ctx'.Uncancelled ∧
      ctx'.diagnostics = ds ∧ found.Perm (m.occurrences.filter Occurrence.IsModal) ∧
      List.Forall₂ (Occurrence.ModalFinding .alternate) found ds ∧
      (m.occurrences.filter Occurrence.IsModal).map (fun o => o.node.span) =
        [some ⟨0, 25⟩, some ⟨0, 14⟩, some ⟨25, 8⟩] ∧
      ds.map (fun d => (d.extent.offset, d.extent.length, d.suggestion.isSome)) =
        [(15, 7, true), (0, 12, true), (26, 7, false)] := by
  intro inner outer bare lost m input
  obtain ⟨ctx', ds, hcheck, hctx', hds, -, hexact⟩ :=
    modality_reports_modal_calls input {} (by decide +kernel) (by decide) ⟨rfl, fun _ => rfl⟩
  obtain ⟨found, hperm, hfound⟩ := hexact rfl
  have hranges : (match Rules.modality.check input {} with
      | .ok ctx => ctx.diagnostics.map fun d =>
        (d.extent.offset, d.extent.length, d.suggestion.isSome)
      | .abort _ => []) = [(15, 7, true), (0, 12, true), (26, 7, false)] := by decide +kernel
  rw [hcheck] at hranges
  obtain rfl : ctx'.diagnostics = ds := hds
  exact ⟨ctx', _, found, hcheck, hctx', rfl, hperm, hfound, by decide +kernel, hranges⟩

end BslLint
