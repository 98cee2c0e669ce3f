import BslLint.Lint.Fix
import BslLint.Proofs.Edit.Splice

/-!
Which suggestions are taken.

The suggestions are decided on one after the other. The choice is greedy (`Greedy`): a suggestion is
taken exactly if it is eligible, fits the text and is apart from all that were taken before it. So
what is taken can be carried out together, what is left was ineligible, did not fit or stood in the
way of something taken, and each suggestion is counted once.
-/

namespace BslLint

namespace Edit

lemma anyOverlaps_of_lt {ε : Type} {e : Edit} {edits : List Edit} (he : e.stop < offsetLimit)
    (hd : ∀ d ∈ edits, d.stop < offsetLimit) :
    (anyOverlaps e edits : Outcome ε Bool) = .ok (decide ¬∀ d ∈ edits, Apart d e) := by
  induction edits with
  | nil => simp [anyOverlaps]
  | cons d edits ih =>
    have ih := ih fun d' hd' => hd d' (by simp [hd'])
    rw [anyOverlaps, overlaps_of_lt (hd d (by simp)) he, Outcome.ok_bind]
    by_cases h : Apart d e <;> simp [h, ih]

lemma validate_cases (source : Text) {e : Edit} (he : e.stop < offsetLimit) :
    (Fits source e ∧ validate source e = .ok ()) ∨
      (¬Fits source e ∧ ∃ err, validate source e = .error err) := by
  have hiff : validate source e = .ok () ↔ Fits source e := by simp [validate_eq_ok_iff, he]
  cases hv : validate source e with
  | ok u => exact Or.inl ⟨hiff.1 hv, rfl⟩
  | error err => exact Or.inr ⟨by simp [← hiff, hv], err, rfl⟩
  | abort c =>
    unfold validate at hv
    rw [checkedStop_of_lt he, Outcome.ok_bind] at hv
    split at hv
    · cases hv
    · split at hv
      · cases hv
      · split at hv <;> cases hv

lemma splice_ne_error {ε : Type} {source : Text} {e : Edit} {err : ε} :
    splice source e ≠ (.error err : Outcome ε Text) := by
  refine Outcome.bind_ne_error Outcome.addOffsets_ne_error fun stop => ?_
  split <;> simp

end Edit

/-! ### Decisions -/

namespace Suggestion

/-- The suggestion may be taken: it is for machines, or its risks are allowed and it states them. -/
def Eligible (allowUnsafe : Bool) (s : Suggestion) : Prop :=
  s.applicability = .machineApplicable ∨ allowUnsafe = true ∧ s.applicability ≠ .unspecified

instance (allowUnsafe : Bool) (s : Suggestion) : Decidable (s.Eligible allowUnsafe) :=
  inferInstanceAs (Decidable (_ ∨ _))

lemma eligible_iff {allowUnsafe : Bool} {s : Suggestion} :
    s.Eligible allowUnsafe ↔ s.applicability.eligibility allowUnsafe = .eligible := by
  unfold Eligible
  cases s.applicability <;> cases allowUnsafe <;> decide

end Suggestion

/-- The edits of the suggestions that are eligible, in order. -/
def eligibleEdits (allowUnsafe : Bool) (suggestions : List Suggestion) : List Edit :=
  (suggestions.filter fun s => s.applicability.eligibility allowUnsafe = .eligible).map
    Suggestion.edit

/-- A suggestion and whether it was taken. -/
structure Decision where
  suggestion : Suggestion
  isTaken : Bool

namespace Decision

def edit (d : Decision) : Edit := d.suggestion.edit

def taken (decisions : List Decision) : List Edit := (decisions.filter isTaken).map edit

lemma mem_taken {decisions : List Decision} {e : Edit} :
    e ∈ taken decisions ↔ ∃ d ∈ decisions, d.isTaken = true ∧ d.edit = e := by
  simp [taken, and_assoc]

lemma taken_concat_left (decisions : List Decision) (s : Suggestion) :
    taken (decisions ++ [⟨s, false⟩]) = taken decisions := by simp [taken]

lemma taken_concat_taken (decisions : List Decision) (s : Suggestion) :
    taken (decisions ++ [⟨s, true⟩]) = taken decisions ++ [s.edit] := by simp [taken, edit]

end Decision

/-- The edit of the suggestion can be carried out beside the edits that were taken before. -/
structure Admissible (source : Text) (allowUnsafe : Bool) (before : List Edit) (s : Suggestion) :
    Prop where
  eligible : s.Eligible allowUnsafe
  fits : Edit.Fits source s.edit
  apart : ∀ e ∈ before, Edit.Apart e s.edit

/-- Each suggestion is taken exactly if it is admissible behind those that were taken before it. -/
def Greedy (source : Text) (allowUnsafe : Bool) (decisions : List Decision) : Prop :=
  ∀ before d after, decisions = before ++ d :: after →
    (d.isTaken = true ↔ Admissible source allowUnsafe (Decision.taken before) d.suggestion)

lemma Greedy.concat {source : Text} {allowUnsafe : Bool} {decisions : List Decision} {d : Decision}
    (h : Greedy source allowUnsafe decisions)
    (hd : d.isTaken = true ↔
      Admissible source allowUnsafe (Decision.taken decisions) d.suggestion) :
    Greedy source allowUnsafe (decisions ++ [d]) := by
  intro before d' after heq
  rcases List.eq_nil_or_concat after with rfl | ⟨after, last, rfl⟩
  · obtain ⟨rfl, ⟨⟩⟩ := List.append_inj' heq rfl
    exact hd
  · rw [List.concat_eq_append, ← List.cons_append, ← List.append_assoc] at heq
    exact h before d' after (List.append_inj' heq rfl).1

lemma Greedy.taken_sublist {source : Text} {allowUnsafe : Bool} {decisions : List Decision}
    (h : Greedy source allowUnsafe decisions) :
    (Decision.taken decisions).Sublist
      (eligibleEdits allowUnsafe (decisions.map Decision.suggestion)) := by
  have heligible : ∀ d ∈ decisions, d.isTaken = true →
      d.suggestion.applicability.eligibility allowUnsafe = .eligible := by
    intro d hd htaken
    obtain ⟨before, after, heq⟩ := List.append_of_mem hd
    exact Suggestion.eligible_iff.1 ((h before d after heq).1 htaken).eligible
  have hfilter : decisions.filter Decision.isTaken = (decisions.filter fun d =>
      d.suggestion.applicability.eligibility allowUnsafe = .eligible).filter Decision.isTaken := by
    rw [List.filter_filter]
    refine List.filter_congr fun d hd => ?_
    cases htaken : d.isTaken with
    | false => simp
    | true => simp [heligible d hd htaken]
  rw [Decision.taken, hfilter, eligibleEdits, List.filter_map, List.map_map]
  exact List.filter_sublist.map _

/-! ### The selection -/

namespace FixSelection

variable {ε : Type} {source : Text} {allowUnsafe : Bool} {sel sel' : FixSelection}
  {decisions : List Decision} {s : Suggestion}

lemma admits_of_lt {e : Edit} (he : e.stop < offsetLimit)
    (hsel : ∀ d ∈ sel.accepted, d.stop < offsetLimit) :
    (sel.admits source e : Outcome ε Bool) =
      .ok (decide (Edit.Fits source e ∧ ∀ d ∈ sel.accepted, Edit.Apart d e)) := by
  rcases Edit.validate_cases source he with ⟨hfits, hvalid⟩ | ⟨hfits, err, hvalid⟩
  · rw [admits, hvalid, Outcome.attempt, Outcome.ok_bind]
    dsimp only
    rw [Edit.anyOverlaps_of_lt he hsel]
    simp only [Outcome.ok_bind, Outcome.pure_eq, hfits, true_and, decide_not, Bool.not_not]
  · rw [admits, hvalid, Outcome.attempt, Outcome.ok_bind]
    simp [hfits]

/-- Edits that can be carried out together, all of whose ends are offsets. -/
structure Sound (source : Text) (sel : FixSelection) : Prop where
  lt : ∀ e ∈ sel.accepted, e.stop < offsetLimit
  compatible : Edit.Compatible source sel.accepted

/-- The selection is what comes of greedy decisions: it accepts what was taken and counts the
rest. -/
structure Records (source : Text) (allowUnsafe : Bool) (decisions : List Decision)
    (sel : FixSelection) : Prop where
  sound : sel.Sound source
  greedy : Greedy source allowUnsafe decisions
  accepted_eq : sel.accepted = Decision.taken decisions
  total_eq : sel.accepted.length + sel.skippedUnsafe + sel.skippedOther = decisions.length

lemma records_nil : Records source allowUnsafe [] {} where
  sound := ⟨by simp, by simp, by simp⟩
  greedy := by simp [Greedy]
  accepted_eq := rfl
  total_eq := rfl

lemma Records.leave (h : Records source allowUnsafe decisions sel)
    (hs : ¬Admissible source allowUnsafe sel.accepted s) (haccepted : sel'.accepted = sel.accepted)
    (hcount : sel'.skippedUnsafe + sel'.skippedOther =
      sel.skippedUnsafe + sel.skippedOther + 1) :
    Records source allowUnsafe (decisions ++ [⟨s, false⟩]) sel' where
  sound := ⟨haccepted ▸ h.sound.lt, haccepted ▸ h.sound.compatible⟩
  greedy := h.greedy.concat (by simpa [← h.accepted_eq] using hs)
  accepted_eq := by rw [haccepted, h.accepted_eq, Decision.taken_concat_left]
  total_eq := by
    have htotal := h.total_eq
    rw [haccepted, List.length_append, List.length_singleton]
    omega

lemma Records.take (h : Records source allowUnsafe decisions sel)
    (hs : Admissible source allowUnsafe sel.accepted s) (hlt : s.edit.stop < offsetLimit) :
    Records source allowUnsafe (decisions ++ [⟨s, true⟩])
      { sel with accepted := sel.accepted ++ [s.edit] } where
  sound := by
    refine ⟨by simpa [or_imp, forall_and, hlt] using h.sound.lt,
      by simpa [or_imp, forall_and, hs.fits] using h.sound.compatible.fits, ?_⟩
    rw [List.pairwise_append]
    exact ⟨h.sound.compatible.apart, by simp, by simpa using hs.apart⟩
  greedy := h.greedy.concat (by simpa [← h.accepted_eq] using hs)
  accepted_eq := by rw [h.accepted_eq, Decision.taken_concat_taken]
  total_eq := by
    have htotal := h.total_eq
    simp only [List.length_append, List.length_singleton]
    omega

/-- An eligible suggestion that was left fails its own check or overlaps one that was taken before
it. -/
lemma Records.exists_obstacle (h : Records source allowUnsafe decisions sel)
    {before after : List Decision} {d : Decision} (heq : decisions = before ++ d :: after)
    (heligible : d.suggestion.Eligible allowUnsafe) (hlt : d.edit.stop < offsetLimit)
    (hleft : d.isTaken = false) :
    (∃ err, Edit.validate source d.edit = .error err) ∨
      ∃ d' ∈ before, d'.isTaken = true ∧
        (Edit.overlaps d'.edit d.edit : Outcome ε Bool) = .ok true := by
  have hnot : ¬Admissible source allowUnsafe (Decision.taken before) d.suggestion := by
    rw [← h.greedy before d after heq, hleft]
    exact Bool.false_ne_true
  rcases Edit.validate_cases source hlt with ⟨hfits, -⟩ | ⟨-, herror⟩
  · have hconflict : ¬∀ e ∈ Decision.taken before, Edit.Apart e d.edit :=
      fun hapart => hnot ⟨heligible, hfits, hapart⟩
    simp only [not_forall] at hconflict
    obtain ⟨e, he, hoverlap⟩ := hconflict
    obtain ⟨d', hd', htaken, rfl⟩ := Decision.mem_taken.1 he
    have hlt' : d'.edit.stop < offsetLimit := by
      refine h.sound.lt _ ?_
      rw [h.accepted_eq, heq, Decision.mem_taken]
      exact ⟨d', by simp [hd'], htaken, rfl⟩
    exact Or.inr ⟨d', hd', htaken, by rw [Edit.overlaps_of_lt hlt' hlt, decide_eq_true hoverlap]⟩
  · exact Or.inl herror

/-- **One suggestion**: it is decided on, and the selection records the decision. -/
lemma exists_consider (h : Records source allowUnsafe decisions sel)
    (hs : s.Eligible allowUnsafe → s.edit.stop < offsetLimit) :
    ∃ sel' isTaken, (consider source allowUnsafe sel s : Outcome ε FixSelection) = .ok sel' ∧
      Records source allowUnsafe (decisions ++ [⟨s, isTaken⟩]) sel' := by
  have hineligible (hne : s.applicability.eligibility allowUnsafe ≠ .eligible) :
      ¬Admissible source allowUnsafe sel.accepted s :=
    fun hadmit => hne (Suggestion.eligible_iff.1 hadmit.eligible)
  unfold consider
  cases hel : s.applicability.eligibility allowUnsafe with
  | needsConsent =>
    exact ⟨_, false, rfl, h.leave (hineligible (by simp [hel])) rfl (by dsimp only; omega)⟩
  | never =>
    exact ⟨_, false, rfl, h.leave (hineligible (by simp [hel])) rfl (by dsimp only; omega)⟩
  | eligible =>
    have heligible : s.Eligible allowUnsafe := Suggestion.eligible_iff.2 hel
    dsimp only
    rw [admits_of_lt (hs heligible) h.sound.lt, Outcome.ok_bind]
    by_cases hadmit : Edit.Fits source s.edit ∧ ∀ d ∈ sel.accepted, Edit.Apart d s.edit
    · exact ⟨_, true, by rw [decide_eq_true hadmit]; rfl,
        h.take ⟨heligible, hadmit.1, hadmit.2⟩ (hs heligible)⟩
    · exact ⟨{ sel with skippedOther := sel.skippedOther + 1 }, false,
        by rw [decide_eq_false hadmit]; rfl,
        h.leave (fun hs => hadmit ⟨hs.fits, hs.apart⟩) rfl (by dsimp only; omega)⟩

/-- **The run over the suggestions**: every one of them is decided on, in order. -/
lemma exists_foldList_consider {ss : List Suggestion}
    (h : Records source allowUnsafe decisions sel)
    (hss : ∀ s ∈ ss, s.Eligible allowUnsafe → s.edit.stop < offsetLimit) :
    ∃ sel' further, (Outcome.foldList (consider source allowUnsafe) sel ss :
        Outcome ε FixSelection) = .ok sel' ∧
      further.map Decision.suggestion = ss ∧
      Records source allowUnsafe (decisions ++ further) sel' := by
  induction ss generalizing sel decisions with
  | nil => exact ⟨sel, [], rfl, rfl, by simpa using h⟩
  | cons s ss ih =>
    obtain ⟨sel₁, isTaken, hstep, hsel₁⟩ := exists_consider (ε := ε) h (hss s (by simp))
    obtain ⟨sel₂, further, hrest, hmap, hsel₂⟩ := ih hsel₁ fun s hs => hss s (by simp [hs])
    refine ⟨sel₂, ⟨s, isTaken⟩ :: further, ?_, by rw [List.map_cons, hmap], ?_⟩
    · rw [Outcome.foldList_cons, hstep, Outcome.ok_bind, hrest]
    · rwa [List.append_assoc] at hsel₂

lemma exists_records (source : Text) {ds : List Diagnostic}
    (hds : ∀ s ∈ ds.filterMap Diagnostic.suggestion,
      s.Eligible allowUnsafe → s.edit.stop < offsetLimit) :
    ∃ sel decisions, (FixSelection.of source ds allowUnsafe : Outcome ε FixSelection) = .ok sel ∧
      decisions.map Decision.suggestion = ds.filterMap Diagnostic.suggestion ∧
      Records source allowUnsafe decisions sel :=
  exists_foldList_consider records_nil hds

lemma exists_of (source : Text) {ds : List Diagnostic}
    (hds : ∀ e ∈ eligibleEdits allowUnsafe (ds.filterMap Diagnostic.suggestion),
      e.stop < offsetLimit) :
    ∃ sel, (FixSelection.of source ds allowUnsafe : Outcome ε FixSelection) = .ok sel ∧
      sel.Sound source ∧
      sel.accepted.Sublist (eligibleEdits allowUnsafe (ds.filterMap Diagnostic.suggestion)) := by
  obtain ⟨sel, decisions, hof, hmap, hrecords⟩ := exists_records (ε := ε) source fun s hs hel =>
    hds s.edit (List.mem_map_of_mem (List.mem_filter.2 ⟨hs, by simpa [← Suggestion.eligible_iff]⟩))
  refine ⟨sel, hof, hrecords.sound, ?_⟩
  rw [hrecords.accepted_eq, ← hmap]
  exact hrecords.greedy.taken_sublist

end FixSelection

/-! ### The fix -/

/-- **The choice of suggestions is greedy and complete.** Let the eligible edits end at offsets.
Then every suggestion of the findings is decided on, and the edits of those that are taken pass the
checks on lists of edits, so that the fix has no error. Nothing is taken that states no
applicability, and without consent only what is for machines. An eligible suggestion that is left
fails its own check or overlaps one that stands before it and was taken. And if the fix has a
result, it counts every finding with a suggestion once. -/
theorem applySuggestions_greedy (source : Text) (ds : List Diagnostic) (allowUnsafe : Bool)
    (hlt : ∀ s ∈ ds.filterMap Diagnostic.suggestion,
      s.Eligible allowUnsafe → s.edit.stop < offsetLimit) :
    ∃ sel decisions,
      FixSelection.of source ds allowUnsafe = (.ok sel : Outcome EditError FixSelection) ∧
      decisions.map Decision.suggestion = ds.filterMap Diagnostic.suggestion ∧
      sel.accepted = Decision.taken decisions ∧
      Edit.validateAll source sel.accepted = .ok () ∧
      (∀ err, applySuggestions source ds allowUnsafe ≠ .error err) ∧
      (∀ d ∈ decisions, d.isTaken = true → d.suggestion.applicability ≠ .unspecified ∧
        (allowUnsafe = false → d.suggestion.applicability ≠ .maybeIncorrect ∧
          d.suggestion.applicability ≠ .hasPlaceholders)) ∧
      (∀ before d after, decisions = before ++ d :: after → d.suggestion.Eligible allowUnsafe →
        d.isTaken = false →
        (∃ err, Edit.validate source d.edit = .error err) ∨
          ∃ d' ∈ before, d'.isTaken = true ∧
            Edit.overlaps d'.edit d.edit = (.ok true : Outcome EditError Bool)) ∧
      ∀ r, applySuggestions source ds allowUnsafe = .ok r →
        r.applied = (Decision.taken decisions).length ∧
        r.applied + r.skippedUnsafe + r.skippedOther = ds.countP fun d => d.suggestion.isSome := by
  obtain ⟨sel, decisions, hof, hmap, hrecords⟩ :=
    FixSelection.exists_records (ε := EditError) source hlt
  have hvalid : Edit.validateAll source sel.accepted = .ok () :=
    Edit.validateAll_eq_ok_iff.2 ⟨hrecords.sound.lt, hrecords.sound.compatible⟩
  refine ⟨sel, decisions, hof, hmap, hrecords.accepted_eq, hvalid, ?_, ?_, ?_, ?_⟩
  · intro err
    rw [applySuggestions, hof, Outcome.ok_bind, Edit.applyAll, hvalid, Outcome.ok_bind]
    exact Outcome.bind_ne_error (Outcome.foldList_ne_error fun _ _ => Edit.splice_ne_error)
      fun fixed => by simp
  · intro d hd htaken
    obtain ⟨before, after, heq⟩ := List.append_of_mem hd
    have hadmissible := (hrecords.greedy before d after heq).1 htaken
    rcases hadmissible.eligible with hmachine | ⟨hconsent, hstated⟩
    · simp [hmachine]
    · simp [hconsent, hstated]
  · intro before d after heq heligible hleft
    refine hrecords.exists_obstacle heq heligible (hlt _ ?_ heligible) hleft
    rw [← hmap, heq]
    simp
  · intro r hr
    rw [applySuggestions, hof, Outcome.ok_bind] at hr
    obtain ⟨fixed, -, hresult⟩ := Outcome.bind_eq_ok_iff.1 hr
    cases hresult
    refine ⟨by rw [hrecords.accepted_eq], ?_⟩
    rw [hrecords.total_eq, ← List.length_filterMap_eq_countP, ← hmap, List.length_map]

/-- Of eight suggestions two are taken. The others overlap the first one, split a character, need
consent twice, state no applicability (the end of this one is no offset), and leave the text. -/
theorem applySuggestions_greedy_mixed :
    let finding (suggestion : Option Suggestion) : Diagnostic :=
      ⟨⟨"lint", .codeStyle, "", none⟩, .warn, none, ⟨0, 0, ⟨1, 1⟩, ⟨1, 1⟩⟩, "", none, suggestion⟩
    let fix (applicability : Applicability) (anchor length : Nat) (text : String) : Diagnostic :=
      finding (some ⟨"", ⟨anchor, length, text.toList⟩, applicability⟩)
    let ds := [fix .machineApplicable 3 2 "x", finding none, fix .machineApplicable 1 4 "y",
      fix .machineApplicable 2 1 "", fix .maybeIncorrect 1 2 "z", fix .hasPlaceholders 0 0 "z",
      fix .unspecified 18446744073709551615 1 "z", fix .machineApplicable 4 9 "z",
      fix .machineApplicable 0 1 "b"]
    let source := "aбв".toList
    let edits : List Edit := [⟨3, 2, ['x']⟩, ⟨0, 1, ['b']⟩]
    FixSelection.of source ds false = (.ok ⟨edits, 2, 4⟩ : Outcome EditError FixSelection) ∧
      Edit.validateAll source edits = .ok () ∧
      applySuggestions source ds false = .ok ⟨"bбx".toList, 2, 2, 4⟩ ∧
      2 + 2 + 4 = ds.countP fun d => d.suggestion.isSome := by
  intro finding fix ds source edits
  obtain ⟨sel, decisions, hof, -, -, hvalid, -, -, -, htotal⟩ :=
    applySuggestions_greedy source ds false (by decide)
  have hchosen : FixSelection.of source ds false =
      (.ok ⟨edits, 2, 4⟩ : Outcome EditError FixSelection) := by decide +kernel
  obtain rfl := Outcome.ok.inj (hof.symm.trans hchosen)
  have happly : applySuggestions source ds false = .ok ⟨"bбx".toList, 2, 2, 4⟩ := by
    rw [applySuggestions, hchosen, Outcome.ok_bind, Edit.applyAll, hvalid, Outcome.ok_bind,
      Edit.fromLast_of_sorted (by decide)]
    decide +kernel
  exact ⟨hchosen, hvalid, happly, (htotal _ happly).2⟩

end BslLint
