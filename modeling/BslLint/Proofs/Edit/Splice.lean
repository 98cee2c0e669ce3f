import BslLint.Proofs.Edit.Validity

/-!
The application of several edits is a simultaneous splice.

The edits are carried out from the last anchor to the first, on one text that grows and shrinks on
the way. What keeps the offsets meaningful is that the text in front of the edit in hand is still
that of the source: `foldList_splice_reverse` carries this through the run. The result is said twice
without the run: as the gaps of the source and the replacements one after the other (`interleave`),
and as a relation that takes source and result apart at the same places (`Spliced`).

The one thing that the checks let pass and the run does not bear is an insertion at the start of a
replaced range that stands before the replacement in the list (`Touches`).
-/

namespace BslLint.Edit

/-- The order in which the result is put together: by anchor, and by length at one anchor. -/
def comesBefore (d e : Edit) : Bool :=
  decide (d.anchor < e.anchor ∨ d.anchor = e.anchor ∧ d.length ≤ e.length)

/-- The edits in the order in which the result is put together. -/
def inOrder (edits : List Edit) : List Edit := edits.mergeSort comesBefore

/-- The text of the source from an offset on with the ranges of the edits replaced: the untouched
gaps and the replacements one after the other. -/
def interleave (source : Text) (start : Nat) : List Edit → Option Text
  | [] => Text.drop? source start
  | e :: edits => do
    let gap ← Text.slice? source start e.anchor
    let rest ← interleave source e.stop edits
    return gap ++ e.replacement ++ rest

/-- Source and result, from the offset `pos` of the source on: they have the same gaps in the same
order, and where the source has the range of an edit, the result has its replacement. -/
inductive Spliced : Nat → List Edit → Text → Text → Prop
  | nil (pos : Nat) (t : Text) : Spliced pos [] t t
  | cons {pos : Nat} {e : Edit} {edits : List Edit} {t out : Text} (gap removed : Text)
      (anchor : pos + Text.byteLength gap = e.anchor) (length : Text.byteLength removed = e.length)
      (rest : Spliced e.stop edits t out) :
      Spliced pos (e :: edits) (gap ++ removed ++ t) (gap ++ e.replacement ++ out)

/-- The first edit inserts at the start of the range that the second one replaces. -/
def Touches (i r : Edit) : Prop := i.length = 0 ∧ 0 < r.length ∧ i.anchor = r.anchor

instance (i r : Edit) : Decidable (Touches i r) := inferInstanceAs (Decidable (_ ∧ _))

lemma Spliced.interleave_eq {pos : Nat} {edits : List Edit} {t out : Text}
    (h : Spliced pos edits t out) (before : Text) (hb : Text.byteLength before = pos) :
    interleave (before ++ t) pos edits = some out := by
  induction h generalizing before with
  | nil pos t =>
    subst hb
    simp [interleave]
  | @cons pos e edits t out gap removed anchor length rest ih =>
    have hassoc : before ++ (gap ++ removed ++ t) = before ++ gap ++ removed ++ t := by simp
    have hgap : Text.slice? (before ++ gap ++ removed ++ t) pos e.anchor = some gap :=
      Text.slice?_eq_some_iff.2 ⟨before, removed ++ t, by simp, hb, anchor⟩
    have hstop : Text.byteLength (before ++ gap ++ removed) = e.stop := by
      simp only [Text.byteLength_append, stop]
      omega
    rw [interleave, hassoc, hgap, ih _ hstop]
    rfl

/-! ### The run -/

lemma splice_cut {ε : Type} {e : Edit} {before removed : Text} (after : Text)
    (hlt : e.stop < offsetLimit) (hb : Text.byteLength before = e.anchor)
    (hr : Text.byteLength removed = e.length) :
    (splice (before ++ removed ++ after) e : Outcome ε Text) =
      .ok (before ++ e.replacement ++ after) := by
  have htake : Text.take? (before ++ removed ++ after) e.anchor = some before :=
    Text.take?_eq_some_iff.2 ⟨removed ++ after, by simp, hb⟩
  have hdrop : Text.drop? (before ++ removed ++ after) e.stop = some after :=
    Text.drop?_eq_some_iff.2 ⟨before ++ removed, rfl, by simp [stop, hb, hr]⟩
  rw [splice, checkedStop_of_lt hlt, Outcome.ok_bind, htake, hdrop]
  rfl

lemma splice_insert {ε : Type} {e : Edit} {before : Text} (after : Text)
    (hlt : e.stop < offsetLimit) (hb : Text.byteLength before = e.anchor) (hempty : e.length = 0) :
    (splice (before ++ after) e : Outcome ε Text) = .ok (before ++ e.replacement ++ after) := by
  rw [← splice_cut after hlt hb (hempty ▸ Text.byteLength_nil), List.append_nil]

/-- **The run**: edits that stand one behind the other, carried out from the last to the first,
leave what stands in front of them and splice the rest. -/
lemma foldList_splice_reverse {ε : Type} (source : Text) (edits : List Edit)
    (hlt : ∀ e ∈ edits, e.stop < offsetLimit) (hfit : ∀ e ∈ edits, Fits source e)
    (hord : edits.Pairwise fun d e => d.stop ≤ e.anchor) (before rest : Text)
    (hs : source = before ++ rest) (hle : ∀ e ∈ edits, Text.byteLength before ≤ e.anchor) :
    ∃ out, Spliced (Text.byteLength before) edits rest out ∧
      (Outcome.foldList splice source edits.reverse : Outcome ε Text) = .ok (before ++ out) := by
  -- The edits behind the first one run first, with the text up to the end of the first as `before`.
  induction edits generalizing before rest with
  | nil => exact ⟨rest, .nil _ _, by simp [hs]⟩
  | cons e edits ih =>
    obtain ⟨a, removed, after, hcut, ha, hr⟩ := (hfit e (by simp)).exists_cut
    have hstop : Text.byteLength (a ++ removed) = e.stop := by simp [stop, ha, hr]
    obtain ⟨hbehind, hord⟩ := List.pairwise_cons.1 hord
    obtain ⟨out, hout, hrun⟩ := ih (fun d hd => hlt d (by simp [hd]))
      (fun d hd => hfit d (by simp [hd])) hord _ _ hcut (fun d hd => hstop ▸ hbehind d hd)
    obtain ⟨gap, rfl, hrest⟩ := Text.exists_between (a := before) (b := rest) (c := a)
      (d := removed ++ after) (by rw [← hs, hcut, List.append_assoc]) (ha ▸ hle e (by simp))
    refine ⟨gap ++ e.replacement ++ out, ?_, ?_⟩
    · rw [hrest, ← List.append_assoc]
      refine .cons gap removed ?_ hr (hstop ▸ hout)
      rw [← ha, Text.byteLength_append]
    · rw [List.reverse_cons, Outcome.foldList_append, hrun, Outcome.ok_bind, Outcome.foldList_cons,
        splice_cut out (hlt e (by simp)) ha hr]
      simp

/-! ### The two orders -/

lemma comesBefore_trans (a b c : Edit) (hab : comesBefore a b) (hbc : comesBefore b c) :
    comesBefore a c := by
  simp only [comesBefore, decide_eq_true_eq] at *
  omega

lemma comesBefore_total (a b : Edit) : comesBefore a b || comesBefore b a := by
  simp only [comesBefore, Bool.or_eq_true, decide_eq_true_eq]
  omega

lemma inOrder_perm (edits : List Edit) : (inOrder edits).Perm edits := List.mergeSort_perm _ _

lemma fromLast_perm (edits : List Edit) : (fromLast edits).Perm edits := List.mergeSort_perm _ _

lemma inOrder_pairwise {edits : List Edit} (h : edits.Pairwise Apart) :
    (inOrder edits).Pairwise fun d e => d.stop ≤ e.anchor := by
  have hsorted := List.pairwise_mergeSort comesBefore_trans comesBefore_total edits
  have hapart := (inOrder_perm edits).symm.pairwise h Apart.symm
  refine (hsorted.and hapart).imp ?_
  rintro d e ⟨hle, hde⟩
  simp only [comesBefore, decide_eq_true_eq] at hle
  unfold Apart stop at hde
  unfold stop
  omega

lemma fromLast_sorted (edits : List Edit) :
    (fromLast edits).Pairwise fun d e => e.anchor ≤ d.anchor := by
  have h : (fromLast edits).Pairwise fun d e => decide (e.anchor ≤ d.anchor) = true :=
    List.pairwise_mergeSort (by simp only [decide_eq_true_eq]; omega)
      (by simp only [Bool.or_eq_true, decide_eq_true_eq]; omega) edits
  exact h.imp of_decide_eq_true

lemma fromLast_of_sorted {edits : List Edit} (h : edits.Pairwise fun a b => b.anchor ≤ a.anchor) :
    fromLast edits = edits :=
  List.mergeSort_of_pairwise (h.imp decide_eq_true)

/-- The sort is stable: of two edits with one anchor, the one that stands first stays first. -/
lemma pair_sublist_fromLast {edits : List Edit} {d e : Edit} (hle : e.anchor ≤ d.anchor)
    (h : [d, e].Sublist edits) : [d, e].Sublist (fromLast edits) :=
  List.pair_sublist_mergeSort (by simp only [decide_eq_true_eq]; omega)
    (by simp only [Bool.or_eq_true, decide_eq_true_eq]; omega) (by simpa using hle) h

lemma eq_of_perm_of_behind {l m : List Edit} (hp : l.Perm m) (ha : l.Pairwise Apart)
    (hl : l.Pairwise fun d e => d.stop ≤ e.anchor) (hm : m.Pairwise fun d e => d.stop ≤ e.anchor) :
    l = m := by
  refine hp.eq_of_pairwise ?_ hl hm
  intro a b hal hbm hab hba
  by_contra hne
  have := ha.forall hal (hp.mem_iff.2 hbm) hne
  unfold Apart stop at *
  omega

lemma pair_sublist_or {α : Type} {l : List α} {a b : α} (ha : a ∈ l) (hb : b ∈ l) (hne : a ≠ b) :
    [a, b].Sublist l ∨ [b, a].Sublist l := by
  obtain ⟨s, t, rfl⟩ := List.append_of_mem ha
  rcases List.mem_append.1 hb with hs | ht
  · right
    exact (List.singleton_sublist.2 hs).append (List.singleton_sublist.2 (by simp))
  · left
    have ht : b ∈ t := (List.mem_cons.1 ht).resolve_left (Ne.symm hne)
    exact ((List.singleton_sublist.2 ht).cons_cons a).trans (List.sublist_append_right s _)

lemma not_sublist_swap {α : Type} {l : List α} {a b : α} (hl : l.Nodup)
    (hab : [a, b].Sublist l) : ¬[b, a].Sublist l := by
  induction l with
  | nil => simp at hab
  | cons x l ih =>
    obtain ⟨hx, hl⟩ := List.nodup_cons.1 hl
    intro hba
    simp only [List.sublist_cons_iff, List.cons.injEq, and_assoc] at hab hba
    rcases hab with hab | ⟨_, rfl, rfl, hab⟩ <;> rcases hba with hba | ⟨_, rfl, rfl, hba⟩
    · exact ih hl hab hba
    · exact hx (hab.subset (by simp))
    · exact hx (hba.subset (by simp))
    · exact hx (hab.subset (by simp))

/-- Where no insertion stands before an edit that it touches, the run takes the edits from the last
to the first of their order. -/
lemma fromLast_eq {edits : List Edit} (h : edits.Pairwise Apart)
    (hi : edits.Pairwise fun d e => ¬Touches d e) : fromLast edits = (inOrder edits).reverse := by
  have hapart := (fromLast_perm edits).symm.pairwise h Apart.symm
  have hbehind : (fromLast edits).Pairwise fun d e => e.stop ≤ d.anchor := by
    rw [List.pairwise_iff_forall_sublist]
    intro d e hde
    have hanchor := List.pairwise_iff_forall_sublist.1 (fromLast_sorted edits) hde
    have hd := List.pairwise_iff_forall_sublist.1 hapart hde
    by_contra hnot
    have htouch : Touches d e := by
      unfold Apart stop at *
      unfold Touches
      omega
    -- The replacement stands first in the list, and since the sort is stable also in the run.
    have hne : d ≠ e := by
      rintro rfl
      exact not_apart_self d hd
    have hdmem : d ∈ edits := (fromLast_perm edits).mem_iff.1 (hde.subset (by simp))
    have hemem : e ∈ edits := (fromLast_perm edits).mem_iff.1 (hde.subset (by simp))
    rcases pair_sublist_or hdmem hemem hne with hlist | hlist
    · exact List.pairwise_iff_forall_sublist.1 hi hlist htouch
    · exact not_sublist_swap (nodup_of_apart hapart) hde
        (pair_sublist_fromLast (Nat.le_of_eq htouch.2.2) hlist)
  have hreverse : (fromLast edits).reverse = inOrder edits :=
    eq_of_perm_of_behind
      ((List.reverse_perm _).trans ((fromLast_perm edits).trans (inOrder_perm edits).symm))
      ((List.reverse_perm _).symm.pairwise hapart Apart.symm) (List.pairwise_reverse.2 hbehind)
      (inOrder_pairwise h)
  rw [← hreverse, List.reverse_reverse]

/-! ### The application -/

lemma applyAll_of_compatible {source : Text} {edits : List Edit}
    (hlt : ∀ e ∈ edits, e.stop < offsetLimit) (h : Compatible source edits) :
    applyAll source edits = Outcome.foldList splice source (fromLast edits) := by
  rw [applyAll, validateAll_eq_ok_iff.2 ⟨hlt, h⟩, Outcome.ok_bind]

lemma compatible_of_applyAll {source t : Text} {edits : List Edit}
    (h : applyAll source edits = .ok t) : Compatible source edits := by
  obtain ⟨⟨⟩, hvalid, -⟩ := Outcome.bind_eq_ok_iff.1 h
  exact (validateAll_eq_ok_iff.1 hvalid).2

lemma applyAll_singleton {e : Edit} {before removed : Text} (after : Text)
    (hlt : e.stop < offsetLimit) (hb : Text.byteLength before = e.anchor)
    (hr : Text.byteLength removed = e.length) :
    applyAll (before ++ removed ++ after) [e] = .ok (before ++ e.replacement ++ after) := by
  have hone : Compatible (before ++ removed ++ after) [e] :=
    ⟨by simpa using fits_of_cut hb hr, by simp⟩
  rw [applyAll_of_compatible (by simpa using hlt) hone, fromLast, List.mergeSort_singleton,
    Outcome.foldList_cons, splice_cut after hlt hb hr, Outcome.ok_bind, Outcome.foldList_nil]

lemma exists_spliced_inOrder {ε : Type} {source : Text} {edits : List Edit}
    (hlt : ∀ e ∈ edits, e.stop < offsetLimit) (h : Compatible source edits) :
    ∃ t, Spliced 0 (inOrder edits) source t ∧
      (Outcome.foldList splice source (inOrder edits).reverse : Outcome ε Text) = .ok t := by
  have hmem : ∀ e ∈ inOrder edits, e ∈ edits := fun e he => (inOrder_perm edits).mem_iff.1 he
  exact foldList_splice_reverse source (inOrder edits) (fun e he => hlt e (hmem e he))
    (fun e he => h.fits e (hmem e he)) (inOrder_pairwise h.apart) [] source rfl (by simp)

/-- **The application of edits is a simultaneous splice.** It has a result only for edits that fit
the text and are apart from each other. For such edits, if no insertion stands in the list before
an edit at whose start it inserts, the result is made of the gaps of the source and the
replacements in the order of the edits: source and result have the same gaps, and each replacement
stands where the source has the range of its edit. -/
theorem applyAll_simultaneous (source : Text) (edits : List Edit)
    (hlt : ∀ e ∈ edits, e.stop < offsetLimit) :
    (∀ t, applyAll source edits = .ok t → Compatible source edits) ∧
      (Compatible source edits → (edits.Pairwise fun d e => ¬Touches d e) →
        ∃ t, applyAll source edits = .ok t ∧ interleave source 0 (inOrder edits) = some t ∧
          (inOrder edits).Perm edits ∧ Spliced 0 (inOrder edits) source t) := by
  refine ⟨fun t ht => compatible_of_applyAll ht, fun h hi => ?_⟩
  obtain ⟨t, hsplice, hrun⟩ := exists_spliced_inOrder (ε := EditError) hlt h
  refine ⟨t, ?_, hsplice.interleave_eq [] rfl, inOrder_perm edits, hsplice⟩
  rw [applyAll_of_compatible hlt h, fromLast_eq h.apart hi, hrun]

/-- A replacement, an insertion at its start that stands behind it in the list, and a removal in
front of both. -/
theorem applyAll_simultaneous_mixed :
    applyAll "абв".toList [⟨2, 2, ['x']⟩, ⟨2, 0, ['y']⟩, ⟨0, 2, []⟩] = .ok "yxв".toList ∧
      Spliced 0 [⟨0, 2, []⟩, ⟨2, 0, ['y']⟩, ⟨2, 2, ['x']⟩] "абв".toList "yxв".toList := by
  have hlast : fromLast [⟨2, 2, ['x']⟩, ⟨2, 0, ['y']⟩, ⟨0, 2, []⟩] =
      [⟨2, 2, ['x']⟩, ⟨2, 0, ['y']⟩, ⟨0, 2, []⟩] := fromLast_of_sorted (by decide)
  obtain ⟨t, ht, -, -, hs⟩ := (applyAll_simultaneous "абв".toList
    [⟨2, 2, ['x']⟩, ⟨2, 0, ['y']⟩, ⟨0, 2, []⟩] (by decide)).2 ⟨by decide, by decide⟩ (by decide)
  have hrun : applyAll "абв".toList [⟨2, 2, ['x']⟩, ⟨2, 0, ['y']⟩, ⟨0, 2, []⟩] =
      .ok "yxв".toList := by
    rw [applyAll, hlast]
    decide
  have horder : inOrder [⟨2, 2, ['x']⟩, ⟨2, 0, ['y']⟩, ⟨0, 2, []⟩] =
      [⟨0, 2, []⟩, ⟨2, 0, ['y']⟩, ⟨2, 2, ['x']⟩] := by
    rw [← List.reverse_inj, ← fromLast_eq (by decide) (by decide), hlast]
    rfl
  rw [hrun, Outcome.ok.injEq] at ht
  exact ⟨hrun, horder ▸ ht ▸ hs⟩

end BslLint.Edit
