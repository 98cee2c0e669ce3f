import BslLint.Lint.Engine
import BslLint.Proofs.Outcome
import BslLint.Proofs.Syntax.Occurrences
import Mathlib.Data.List.Pairwise

/-!
What the steps of a run add to its findings.

A request to cancel is never taken back (`Cancellation.Lasts`). `Adds step ds` says that, from any
state of such a run, the step adds the findings `ds`, unless the request stands by the end of the
step; in that case the run will come to nothing whatever its findings are. The findings of a step do
not depend on the state it starts from, so that a loop over the nodes of a module, which may end as
soon as it sees the cancellation, adds the findings of its nodes one after the other
(`IsLoop.exists_adds`).
-/

namespace BslLint

/-! ### Polls -/

namespace Cancellation

/-- Once a poll is answered by the request, so are all later ones. -/
def Lasts (c : Cancellation) : Prop :=
  ∀ i j, i ≤ j → c.answers i = true → c.answers j = true

lemma lasts_never : never.Lasts := fun _ _ _ h => h

/-- The second is the first after some more polls. -/
structure Before (c c' : Cancellation) : Prop where
  answers_eq : c'.answers = c.answers
  polls_le : c.polls ≤ c'.polls

lemma Before.refl (c : Cancellation) : c.Before c := ⟨rfl, Nat.le_refl _⟩

lemma Before.trans {c c' c'' : Cancellation} (h : c.Before c') (h' : c'.Before c'') :
    c.Before c'' :=
  ⟨h'.answers_eq.trans h.answers_eq, Nat.le_trans h.polls_le h'.polls_le⟩

lemma before_poll (c : Cancellation) : c.Before c.poll.2 := ⟨rfl, Nat.le_succ _⟩

lemma Before.lasts {c c' : Cancellation} (h : c.Before c') (hc : c.Lasts) : c'.Lasts := by
  intro i j hij
  rw [h.answers_eq]
  exact hc i j hij

lemma Before.isRequested {c c' : Cancellation} (h : c.Before c') (hc : c.Lasts)
    (hreq : c.isRequested = true) : c'.isRequested = true := by
  unfold Cancellation.isRequested at hreq ⊢
  rw [h.answers_eq]
  exact hc _ _ h.polls_le hreq

end Cancellation

namespace LintContext

/-- The request is not taken back, and the run counts as cancelled only when it stands. -/
structure Honest (ctx : LintContext) : Prop where
  lasts : ctx.cancellation.Lasts
  requested : ctx.isCancelled = true → ctx.cancellation.isRequested = true

/-- No poll was or will be answered by a request. -/
structure Uncancelled (ctx : LintContext) : Prop where
  isCancelled_eq : ctx.isCancelled = false
  answers_eq : ∀ n, ctx.cancellation.answers n = false

/-- From the first state the run went on to the second and found the given findings on the way;
the findings do not matter once the request stands. -/
structure Continues (ctx : LintContext) (ds : List Diagnostic) (ctx' : LintContext) : Prop where
  before : ctx.cancellation.Before ctx'.cancellation
  requested : ctx'.isCancelled = true → ctx'.cancellation.isRequested = true
  findings : ctx'.cancellation.isRequested = true ∨ ctx'.diagnostics = ctx.diagnostics ++ ds

variable {ctx ctx' ctx'' : LintContext} {ds es : List Diagnostic}

lemma Uncancelled.honest (h : ctx.Uncancelled) : ctx.Honest where
  lasts := by
    intro i j _ hi
    simp [h.answers_eq] at hi
  requested := by simp [h.isCancelled_eq]

lemma Honest.refl (h : ctx.Honest) : ctx.Continues [] ctx :=
  ⟨.refl _, h.requested, Or.inr (by simp)⟩

lemma Honest.continues_of_isCancelled (h : ctx.Honest) (hc : ctx.isCancelled = true)
    (ds : List Diagnostic) : ctx.Continues ds ctx :=
  ⟨.refl _, h.requested, Or.inl (h.requested hc)⟩

lemma Continues.honest (h : ctx.Continues ds ctx') (hctx : ctx.Honest) : ctx'.Honest :=
  ⟨h.before.lasts hctx.lasts, h.requested⟩

lemma Continues.trans (h : ctx.Continues ds ctx') (h' : ctx'.Continues es ctx'')
    (hctx : ctx.Honest) : ctx.Continues (ds ++ es) ctx'' where
  before := h.before.trans h'.before
  requested := h'.requested
  findings := by
    rcases h'.findings with hreq | hes
    · exact Or.inl hreq
    · rcases h.findings with hreq | hds
      · exact Or.inl (h'.before.isRequested (h.honest hctx).lasts hreq)
      · exact Or.inr (by rw [hes, hds, List.append_assoc])

/-- Once the request stands, any findings may be meant. -/
lemma Continues.of_isRequested (h : ctx.Continues ds ctx')
    (hreq : ctx'.cancellation.isRequested = true) (es : List Diagnostic) : ctx.Continues es ctx' :=
  ⟨h.before, h.requested, Or.inl hreq⟩

lemma Uncancelled.of_continues (hctx : ctx.Uncancelled) (h : ctx.Continues ds ctx') :
    ctx'.Uncancelled ∧ ctx'.diagnostics = ctx.diagnostics ++ ds := by
  have hanswers : ∀ n, ctx'.cancellation.answers n = false := by
    simp [h.before.answers_eq, hctx.answers_eq]
  have hreq : ctx'.cancellation.isRequested = false := hanswers _
  refine ⟨⟨?_, hanswers⟩, h.findings.resolve_left (by simp [hreq])⟩
  cases hc : ctx'.isCancelled with
  | false => rfl
  | true => simp [h.requested hc] at hreq

lemma continues_skip_cancelled {c : Cancellation} (hc : ctx.cancellation.Before c)
    (hreq : c.isRequested = true) (ds : List Diagnostic) :
    ctx.Continues ds ((ctx.withCancellation c).skip .cancelled) :=
  ⟨hc, fun _ => hreq, Or.inl hreq⟩

lemma Honest.withCancellation (hctx : ctx.Honest) {c : Cancellation}
    (hc : ctx.cancellation.Before c) : ctx.Continues [] (ctx.withCancellation c) where
  before := hc
  requested := fun h => hc.isRequested hctx.lasts (hctx.requested h)
  findings := Or.inr (by simp [LintContext.withCancellation])

lemma Honest.checkpoint_cases (hctx : ctx.Honest) :
    (∃ ctx', ctx.checkpoint = (.ok (), ctx') ∧ ctx.Continues [] ctx') ∨
      ∃ ctx', ctx.checkpoint = (.error .cancelled, ctx') ∧
        ∀ ds, ctx.Continues ds (ctx'.skip .cancelled) := by
  have hbefore := ctx.cancellation.before_poll
  unfold LintContext.checkpoint Cancellation.poll
  split
  · rename_i hc
    exact Or.inr ⟨ctx, rfl, fun ds => ⟨.refl _, fun _ => hctx.requested hc,
      Or.inl (hctx.requested hc)⟩⟩
  · rename_i hc
    cases hreq : ctx.cancellation.isRequested with
    | true =>
      have hstands := hbefore.isRequested hctx.lasts hreq
      exact Or.inr ⟨_, rfl, fun ds => ⟨hbefore, fun _ => hstands, Or.inl hstands⟩⟩
    | false => exact Or.inl ⟨_, rfl, hbefore, fun h => absurd h hc, Or.inr (by simp)⟩

lemma Continues.finish_cases (h : ctx.Continues ds ctx') :
    ctx'.cancellation.isRequested = true ∧ ctx'.finish = [] ∨
      ctx'.finish = ctx.diagnostics ++ ds := by
  unfold LintContext.finish
  cases hreq : ctx'.cancellation.isRequested with
  | true => simp
  | false =>
    have hgoes : ctx'.isCancelled = false := by
      simpa [hreq] using h.requested
    simpa [hreq, hgoes] using h.findings

lemma skip_of_ne {e : AnalysisError} (h : e ≠ .cancelled) : ctx.skip e = ctx := if_neg h

lemma diagnostics_checkpoint (ctx : LintContext) :
    ctx.checkpoint.2.diagnostics = ctx.diagnostics := by
  unfold checkpoint
  split
  · rfl
  · split <;> rfl

lemma diagnostics_skip (ctx : LintContext) (e : AnalysisError) :
    (ctx.skip e).diagnostics = ctx.diagnostics := by
  unfold skip
  split <;> rfl

lemma diagnostics_add (ctx : LintContext) (settings : LintSettings) (diag : Diagnostic) :
    (ctx.add settings diag).diagnostics = ctx.diagnostics ∨
      (ctx.add settings diag).diagnostics =
        ctx.diagnostics ++ [{ diag with level := settings.levelFor diag.lint.name }] := by
  by_cases hallow : settings.levelFor diag.lint.name = .allow
  · exact Or.inl (by simp [add, hallow])
  · exact Or.inr (by simp [add, hallow])

lemma diagnostics_report {ctx ctx' : LintContext} {input : LintInput} {lint : LintDescriptor}
    {offset length : Nat} {message : String} {suggestion : Option Suggestion}
    (h : ctx.report input lint offset length message suggestion = .ok ctx') :
    ctx'.diagnostics = ctx.diagnostics ∨
      ∃ diag, ctx'.diagnostics = ctx.diagnostics ++ [diag] ∧ diag.suggestion = suggestion := by
  obtain ⟨extent, -, h⟩ := Outcome.bind_eq_ok_iff.1 h
  cases h
  rcases ctx.diagnostics_add input.settings _ with hadd | hadd
  · exact Or.inl hadd
  · exact Or.inr ⟨_, hadd, rfl⟩

end LintContext

/-! ### Steps -/

/-- From any state the step comes to a state, and it adds the findings unless the request stands by
then. -/
def Adds (step : LintContext → Checked LintContext) (ds : List Diagnostic) : Prop :=
  ∀ ctx, ctx.Honest → (step ctx).Safe (ctx.Continues ds)

lemma adds_nil : Adds (fun ctx => .ok ctx) [] := fun _ hctx => hctx.refl

lemma adds_skip {e : AnalysisError} (h : e ≠ .cancelled) :
    Adds (fun ctx => .ok (ctx.skip e)) [] := by
  intro ctx hctx
  simp only [LintContext.skip_of_ne h]
  exact hctx.refl

lemma Adds.congr {step step' : LintContext → Checked LintContext} {ds : List Diagnostic}
    (h : Adds step ds) (heq : ∀ ctx, step' ctx = step ctx) : Adds step' ds :=
  fun ctx hctx => heq ctx ▸ h ctx hctx

lemma Adds.bind {step next : LintContext → Checked LintContext} {ds es : List Diagnostic}
    (h : Adds step ds) (h' : Adds next es) : Adds (fun ctx => step ctx >>= next) (ds ++ es) := by
  intro ctx hctx
  refine (h ctx hctx).bind fun ctx' hcont => ?_
  exact (h' ctx' (hcont.honest hctx)).mono fun ctx'' hcont' => hcont.trans hcont' hctx

lemma Adds.behind_checkpoint {step : LintContext → Checked LintContext} {ds : List Diagnostic}
    (h : Adds step ds) :
    Adds (fun ctx => match ctx.checkpoint with
      | (.error e, ctx) => return ctx.skip e
      | (.ok _, ctx) => step ctx) ds := by
  intro ctx hctx
  beta_reduce
  rcases hctx.checkpoint_cases with ⟨ctx', hcheck, hcont⟩ | ⟨ctx', hcheck, hend⟩
  · rw [hcheck]
    exact (h ctx' (hcont.honest hctx)).mono fun ctx'' hcont' => hcont.trans hcont' hctx
  · rw [hcheck]
    exact hend ds

lemma Adds.of_uncancelled {step : LintContext → Checked LintContext} {ds : List Diagnostic}
    (h : Adds step ds) {ctx : LintContext} (hctx : ctx.Uncancelled) :
    ∃ ctx', step ctx = .ok ctx' ∧ ctx'.Uncancelled ∧ ctx'.diagnostics = ctx.diagnostics ++ ds := by
  obtain ⟨ctx', hstep, hcont⟩ := Outcome.safe_checked_iff.1 (h ctx hctx.honest)
  exact ⟨ctx', hstep, hctx.of_continues hcont⟩

lemma Adds.unique {step : LintContext → Checked LintContext} {ds es : List Diagnostic}
    (h : Adds step ds) (h' : Adds step es) : ds = es := by
  have hstart : LintContext.Uncancelled {} := ⟨rfl, fun _ => rfl⟩
  obtain ⟨ctx, hstep, -, hds⟩ := h.of_uncancelled hstart
  obtain ⟨ctx', hstep', -, hes⟩ := h'.of_uncancelled hstart
  cases Outcome.ok.inj (hstep.symm.trans hstep')
  exact List.append_cancel_left (hds.symm.trans hes)

/-- What a report puts into its finding. -/
structure Diagnostic.IsReport (lint : LintDescriptor) (offset length : Nat) (message : String)
    (suggestion : Option Suggestion) (d : Diagnostic) : Prop where
  lint_eq : d.lint = lint
  offset_eq : d.extent.offset = offset
  length_eq : d.extent.length = length
  message_eq : d.message = message
  suggestion_eq : d.suggestion = suggestion

/-- A report of a range that ends at an offset adds one finding, and none when its lint is switched
off. -/
lemma exists_adds_report (input : LintInput) (lint : LintDescriptor) {offset length : Nat}
    (hlt : offset + length < offsetLimit) (message : String) (suggestion : Option Suggestion) :
    ∃ ds, Adds (fun ctx => ctx.report input lint offset length message suggestion) ds ∧
      (input.settings.levelFor lint.name ≠ .allow →
        ∃ d, ds = [d] ∧ d.IsReport lint offset length message suggestion) := by
  let d : Diagnostic :=
    { lint, level := .warn, file := none,
      extent := ⟨offset, length, Text.positionAt input.module.source offset,
        Text.positionAt input.module.source (offset + length)⟩,
      message, help := suggestion.map Suggestion.message, suggestion }
  have hreport : ∀ ctx : LintContext, ctx.report input lint offset length message suggestion =
      .ok (ctx.add input.settings d) := by
    intro ctx
    unfold LintContext.report Extent.of
    rw [addOffsets_of_lt hlt]
    rfl
  by_cases hlevel : input.settings.levelFor lint.name = .allow
  · refine ⟨[], fun ctx hctx => ?_, fun h => absurd hlevel h⟩
    have hadd : ctx.add input.settings d = ctx := if_pos hlevel
    simp only [hreport, hadd]
    exact hctx.refl
  · refine ⟨[{ d with level := input.settings.levelFor lint.name }], fun ctx hctx => ?_,
      fun _ => ⟨_, rfl, ⟨rfl, rfl, rfl, rfl, rfl⟩⟩⟩
    have hadd : ctx.add input.settings d = { ctx with
        diagnostics := ctx.diagnostics ++
          [{ d with level := input.settings.levelFor lint.name }] } := if_neg hlevel
    simp only [hreport, hadd]
    exact ⟨.refl _, hctx.requested, Or.inr rfl⟩

/-! ### Loops -/

/-- A loop that takes the step on one element after the other and ends early only when the run is
seen to be cancelled, before a step or behind it. -/
structure IsLoop {α : Type} (step : LintContext → α → Checked LintContext)
    (loop : LintContext → List α → Checked LintContext) : Prop where
  nil : ∀ ctx, loop ctx [] = .ok ctx
  cons : ∀ ctx a l, ctx.isCancelled = true ∧ loop ctx (a :: l) = .ok ctx ∨
    ∃ next, loop ctx (a :: l) = step ctx a >>= next ∧
      ∀ ctx', next ctx' = loop ctx' l ∨ ctx'.isCancelled = true ∧ next ctx' = .ok ctx'

/-- **A loop adds the findings of its elements** one after the other. -/
theorem IsLoop.exists_adds {α : Type} {step : LintContext → α → Checked LintContext}
    {loop : LintContext → List α → Checked LintContext} (hloop : IsLoop step loop)
    {Q : α → List Diagnostic → Prop} {l : List α}
    (hstep : ∀ a ∈ l, ∃ ds, Adds (fun ctx => step ctx a) ds ∧ Q a ds) :
    ∃ dss, List.Forall₂ Q l dss ∧ Adds (fun ctx => loop ctx l) dss.flatten := by
  induction l with
  | nil =>
    refine ⟨[], .nil, fun ctx hctx => ?_⟩
    beta_reduce
    rw [hloop.nil]
    exact hctx.refl
  | cons a l ih =>
    obtain ⟨ds, hds, hQ⟩ := hstep a (by simp)
    obtain ⟨dss, hQs, hdss⟩ := ih fun b hb => hstep b (by simp [hb])
    refine ⟨ds :: dss, .cons hQ hQs, fun ctx hctx => ?_⟩
    beta_reduce
    rcases hloop.cons ctx a l with ⟨hc, heq⟩ | ⟨next, heq, hnext⟩
    · rw [heq]
      exact hctx.continues_of_isCancelled hc _
    · rw [heq]
      refine (hds ctx hctx).bind fun ctx' hcont => ?_
      rcases hnext ctx' with hgo | ⟨hc, hend⟩
      · rw [hgo]
        exact (hdss ctx' (hcont.honest hctx)).mono fun ctx'' hcont' => hcont.trans hcont' hctx
      · rw [hend]
        exact hcont.of_isRequested (hcont.requested hc) _

lemma IsLoop.exists_adds_of_steps {α : Type} {step : LintContext → α → Checked LintContext}
    {loop : LintContext → List α → Checked LintContext} (hloop : IsLoop step loop) {l : List α}
    (hstep : ∀ a ∈ l, ∃ ds, Adds (fun ctx => step ctx a) ds) :
    ∃ ds, Adds (fun ctx => loop ctx l) ds := by
  obtain ⟨dss, -, hdss⟩ := hloop.exists_adds (Q := fun _ _ => True) fun a ha => by
    simpa using hstep a ha
  exact ⟨dss.flatten, hdss⟩

lemma isLoop_foldList {α : Type} (f : LintContext → α → Checked LintContext) :
    IsLoop f (Outcome.foldList f) where
  nil _ := rfl
  cons _ _ _ := Or.inr ⟨_, rfl, fun _ => Or.inl rfl⟩

lemma isLoop_walk (visit : LintContext → Event → Checked LintContext) :
    IsLoop visit (walk LintContext.isCancelled visit) where
  nil _ := rfl
  cons ctx e events := by
    rw [walk]
    split
    · rename_i hstop
      exact Or.inl ⟨(Bool.and_eq_true _ _ ▸ hstop).2, rfl⟩
    · exact Or.inr ⟨_, rfl, fun _ => Or.inl rfl⟩

lemma isLoop_runRules (input : LintInput) :
    IsLoop (fun ctx (r : Rule) => r.check input ctx) (runRules input) where
  nil _ := rfl
  cons ctx r rules := by
    rw [runRules]
    split
    · rename_i hc
      exact Or.inl ⟨hc, rfl⟩
    · exact Or.inr ⟨_, rfl, fun _ => Or.inl rfl⟩

/-! ### One finding for each -/

/-- Unless the lint is switched off, the findings of an element are one that describes it, if it is
to be reported, and none otherwise. -/
def Reports {α : Type} (level : LintLevel) (P : α → Prop) (R : α → Diagnostic → Prop) (a : α)
    (ds : List Diagnostic) : Prop :=
  level ≠ .allow → (P a → ∃ d, ds = [d] ∧ R a d) ∧ (¬P a → ds = [])

lemma Reports.of_not {α : Type} {level : LintLevel} {P : α → Prop} {R : α → Diagnostic → Prop}
    {a : α} (h : ¬P a) : Reports level P R a [] :=
  fun _ => ⟨fun hP => absurd hP h, fun _ => rfl⟩

lemma Reports.of_report {α : Type} {level : LintLevel} {P : α → Prop} {R : α → Diagnostic → Prop}
    {a : α} {ds : List Diagnostic} (hP : P a)
    (h : level ≠ .allow → ∃ d, ds = [d] ∧ R a d) : Reports level P R a ds :=
  fun hlevel => ⟨fun _ => h hlevel, fun hnot => absurd hP hnot⟩

lemma forall₂_filter_of_reports {α : Type} {level : LintLevel} {P : α → Prop} [DecidablePred P]
    {R : α → Diagnostic → Prop} (hlevel : level ≠ .allow) {l : List α}
    {dss : List (List Diagnostic)} (h : List.Forall₂ (Reports level P R) l dss) :
    List.Forall₂ R (l.filter P) dss.flatten := by
  induction h with
  | nil => exact .nil
  | @cons a ds l dss ha _ ih =>
    by_cases hP : P a
    · obtain ⟨d, rfl, hd⟩ := (ha hlevel).1 hP
      rw [List.filter_cons_of_pos (by simpa using hP)]
      exact .cons hd ih
    · rw [(ha hlevel).2 hP, List.filter_cons_of_neg (by simpa using hP)]
      exact ih

lemma exists_of_forall₂ {α β : Type} {R : α → β → Prop} {l : List α} {l' : List β}
    (h : List.Forall₂ R l l') {b : β} (hb : b ∈ l') : ∃ a ∈ l, R a b := by
  induction h with
  | nil => cases hb
  | cons hR _ ih =>
    rcases List.mem_cons.1 hb with rfl | hb
    · exact ⟨_, List.mem_cons_self, hR⟩
    · obtain ⟨a, ha, hR⟩ := ih hb
      exact ⟨a, List.mem_cons_of_mem _ ha, hR⟩

lemma pairwise_of_forall₂ {α β : Type} {R : α → β → Prop} {S : α → α → Prop} {T : β → β → Prop}
    (hT : ∀ a b a' b', R a b → R a' b' → S a a' → T b b') {l : List α} {l' : List β}
    (h : List.Forall₂ R l l') (hl : l.Pairwise S) : l'.Pairwise T := by
  have hlength := h.length_eq
  rw [List.pairwise_iff_get] at hl ⊢
  intro i j hij
  have hi : i < l.length := by omega
  have hj : j < l.length := by omega
  exact hT _ _ _ _ (h.get hi i.isLt) (h.get hj j.isLt) (hl ⟨i, hi⟩ ⟨j, hj⟩ hij)

namespace Event

/-- The findings of a visit are those of the call that the event brings, and none without one. -/
def Reports (level : LintLevel) (P : Occurrence → Prop) (R : Occurrence → Diagnostic → Prop)
    (e : Event) (ds : List Diagnostic) : Prop :=
  match e.occurrence? with
  | none => ds = []
  | some o => BslLint.Reports level P R o ds

lemma exists_forall₂_occurrences {level : LintLevel} {P : Occurrence → Prop}
    {R : Occurrence → Diagnostic → Prop} {events : List Event} {dss : List (List Diagnostic)}
    (h : List.Forall₂ (Reports level P R) events dss) :
    ∃ ess, List.Forall₂ (BslLint.Reports level P R) (occurrences events) ess ∧
      ess.flatten = dss.flatten := by
  induction h with
  | nil => exact ⟨[], .nil, rfl⟩
  | @cons e ds events dss he _ ih =>
    obtain ⟨ess, hess, hflat⟩ := ih
    unfold Reports at he
    cases ho : e.occurrence? with
    | none =>
      rw [ho] at he
      refine ⟨ess, ?_, by simp [hflat, he]⟩
      rwa [occurrences, List.filterMap_cons_none ho]
    | some o =>
      rw [ho] at he
      refine ⟨ds :: ess, ?_, by simp [hflat]⟩
      rw [occurrences, List.filterMap_cons_some ho]
      exact .cons he hess

/-- **A walk reports its calls in its order**: if each visit reports its own call, the findings of
the walk belong to the calls that it meets and that are to be reported, one after the other. -/
theorem exists_adds_walk_inOrder {events : List Event}
    {visit : LintContext → Event → Checked LintContext} {level : LintLevel}
    {P : Occurrence → Prop} [DecidablePred P] {R : Occurrence → Diagnostic → Prop}
    (hvisit : ∀ e ∈ events, ∃ ds, Adds (fun ctx => visit ctx e) ds ∧ Reports level P R e ds) :
    ∃ ds, Adds (fun ctx => walk LintContext.isCancelled visit ctx events) ds ∧
      (level ≠ .allow → List.Forall₂ R ((occurrences events).filter P) ds) := by
  obtain ⟨dss, hdss, hadds⟩ := (isLoop_walk visit).exists_adds hvisit
  obtain ⟨ess, hess, hflat⟩ := exists_forall₂_occurrences hdss
  exact ⟨dss.flatten, hadds, fun hlevel => hflat ▸ forall₂_filter_of_reports hlevel hess⟩

lemma filter_eq_filter_calls {P : Occurrence → Prop} [DecidablePred P]
    (hcall : ∀ o, P o → o.node.isCall = true) (m : Module) :
    m.occurrences.filter P = (m.occurrences.filter fun o => o.node.isCall).filter P := by
  rw [List.filter_filter]
  refine List.filter_congr fun o _ => ?_
  by_cases hP : P o <;> simp [hP, hcall]

/-- **A walk reports each call once**: if each visit reports its own call, the findings of the walk
belong to the calls of the module that are to be reported, one to one. -/
theorem exists_adds_walk {m : Module} {visit : LintContext → Event → Checked LintContext}
    {level : LintLevel} {P : Occurrence → Prop} [DecidablePred P]
    {R : Occurrence → Diagnostic → Prop} (hcall : ∀ o, P o → o.node.isCall = true)
    (hvisit : ∀ e ∈ ofModule m, ∃ ds, Adds (fun ctx => visit ctx e) ds ∧ Reports level P R e ds) :
    ∃ ds, Adds (fun ctx => walk LintContext.isCancelled visit ctx (ofModule m)) ds ∧
      (level ≠ .allow →
        ∃ found, found.Perm (m.occurrences.filter P) ∧ List.Forall₂ R found ds) := by
  obtain ⟨ds, hadds, hds⟩ := exists_adds_walk_inOrder hvisit
  refine ⟨ds, hadds, fun hlevel => ⟨(occurrences (ofModule m)).filter P, ?_, hds hlevel⟩⟩
  rw [filter_eq_filter_calls hcall]
  exact (ofModule_perm m).filter _

end Event

end BslLint
