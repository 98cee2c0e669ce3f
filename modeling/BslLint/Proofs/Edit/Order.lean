import BslLint.Proofs.Edit.Splice

/-!
When the result of several edits depends on the order in which they are listed.

Edits that pass the checks can share an anchor: an insertion and a replacement of the text behind
it (`Touches`). If the insertion is listed first it is carried out first, and the replacement then
counts its bytes from the start of the inserted text. It removes some of what was inserted, or it
cuts a character and the run breaks off. In every other case the order is of no account. So the
order matters exactly when such a pair is not interchangeable (`applyAll_perm_iff`).
-/

namespace BslLint.Edit

/-- The insertion and the replacement at whose start it inserts come to the same in both orders:
removing as many bytes as the replacement has, but from the start of the inserted text, and putting
the replacement in front gives the inserted text and the replacement. -/
def Interchangeable (source : Text) (i r : Edit) : Prop :=
  ((Text.slice? source r.anchor r.stop).bind fun removed =>
    (Text.drop? (i.replacement ++ removed) r.length).map (r.replacement ++ ·)) =
      some (i.replacement ++ r.replacement)

instance (source : Text) (i r : Edit) : Decidable (Interchangeable source i r) :=
  inferInstanceAs (Decidable (_ = _))

lemma interchangeable_iff {source before removed after : Text} {i r : Edit}
    (hs : source = before ++ removed ++ after) (hb : Text.byteLength before = r.anchor)
    (hr : Text.byteLength removed = r.length) :
    Interchangeable source i r ↔
      ∃ rest, Text.drop? (i.replacement ++ removed) r.length = some rest ∧
        r.replacement ++ rest = i.replacement ++ r.replacement := by
  have hslice : Text.slice? source r.anchor r.stop = some removed :=
    Text.slice?_eq_some_iff.2 ⟨before, after, hs, hb, by rw [stop, hr]⟩
  simp [Interchangeable, hslice]

/-! ### A touching pair in both orders -/

section Pair

variable {ε : Type} {i r : Edit} {before removed : Text}

lemma foldList_replace_insert (ht : Touches i r) (hi : i.stop < offsetLimit)
    (hr : r.stop < offsetLimit) (hb : Text.byteLength before = r.anchor)
    (hm : Text.byteLength removed = r.length) (after : Text) :
    (Outcome.foldList splice (before ++ removed ++ after) [r, i] : Outcome ε Text) =
      .ok (before ++ (i.replacement ++ r.replacement) ++ after) := by
  obtain ⟨hempty, -, hanchor⟩ := ht
  rw [Outcome.foldList_cons, splice_cut after hr hb hm, Outcome.ok_bind, Outcome.foldList_cons,
    List.append_assoc, splice_insert _ hi (hb.trans hanchor.symm) hempty, Outcome.ok_bind,
    Outcome.foldList_nil]
  simp

lemma foldList_insert_replace (ht : Touches i r) (hi : i.stop < offsetLimit)
    (hr : r.stop < offsetLimit) (hb : Text.byteLength before = r.anchor)
    (hm : Text.byteLength removed = r.length) (after : Text) :
    (Outcome.foldList splice (before ++ removed ++ after) [i, r] : Outcome ε Text) =
      match Text.drop? (i.replacement ++ removed) r.length with
      | some rest => .ok (before ++ (r.replacement ++ rest) ++ after)
      | none => .abort .offBoundary := by
  obtain ⟨hempty, -, hanchor⟩ := ht
  have htake : Text.take? (before ++ (i.replacement ++ removed ++ after)) r.anchor =
      some before := by rw [← hb, Text.take?_append]
  have hdrop : Text.drop? (before ++ (i.replacement ++ removed ++ after)) r.stop =
      (Text.drop? (i.replacement ++ removed) r.length).map (· ++ after) := by
    rw [stop, ← hb, Text.drop?_append_add, Text.drop?_append_of_le (by simp [hm])]
  have hassoc : before ++ i.replacement ++ (removed ++ after) =
      before ++ (i.replacement ++ removed ++ after) := by simp
  rw [Outcome.foldList_cons, List.append_assoc,
    splice_insert _ hi (hb.trans hanchor.symm) hempty, Outcome.ok_bind, Outcome.foldList_cons,
    hassoc, splice, checkedStop_of_lt hr, Outcome.ok_bind, htake, hdrop]
  cases Text.drop? (i.replacement ++ removed) r.length <;> simp

end Pair

/-! ### What the order does not change -/

/-- The text in hand is still that of the source up to an offset. -/
def Agrees (source t : Text) (n : Nat) : Prop :=
  ∃ front x y, source = front ++ x ∧ t = front ++ y ∧ Text.byteLength front = n

section Run

variable {source t : Text} {n : Nat}

lemma Agrees.exists_cut {e : Edit} (h : Agrees source t n) (hfit : Fits source e)
    (hle : e.stop ≤ n) :
    ∃ before removed x y, source = before ++ removed ++ x ∧ t = before ++ removed ++ y ∧
      Text.byteLength before = e.anchor ∧ Text.byteLength removed = e.length := by
  obtain ⟨front, x, y, hs, rfl, hn⟩ := h
  obtain ⟨before, removed, after, hcut, hb, hr⟩ := hfit.exists_cut
  obtain ⟨m, rfl, rfl⟩ := Text.exists_between (hcut.symm.trans hs) (by
    simp only [Text.byteLength_append, stop] at *
    omega)
  exact ⟨before, removed, m ++ x, m ++ y, by simp [hs], by simp, hb, hr⟩

lemma Agrees.exists_splice {ε : Type} {e : Edit} (h : Agrees source t n)
    (hlt : e.stop < offsetLimit) (hfit : Fits source e) (hle : e.stop ≤ n) :
    ∃ t', (splice t e : Outcome ε Text) = .ok t' ∧ Agrees source t' e.anchor := by
  obtain ⟨before, removed, x, y, hs, rfl, hb, hr⟩ := h.exists_cut hfit hle
  exact ⟨_, splice_cut y hlt hb hr, before, removed ++ x, e.replacement ++ y, by simp [hs],
    by simp, hb⟩

lemma Agrees.foldList_swap {ε : Type} {i r : Edit} (h : Agrees source t n)
    (ht : Touches i r) (hi : i.stop < offsetLimit) (hr : r.stop < offsetLimit)
    (hfit : Fits source r) (hle : r.stop ≤ n) (hswap : Interchangeable source i r)
    (edits : List Edit) :
    (Outcome.foldList splice t (i :: r :: edits) : Outcome ε Text) =
      Outcome.foldList splice t (r :: i :: edits) := by
  obtain ⟨before, removed, x, y, hs, rfl, hb, hm⟩ := h.exists_cut hfit hle
  obtain ⟨rest, hdrop, htext⟩ := (interchangeable_iff hs hb hm).1 hswap
  have hpair : (Outcome.foldList splice (before ++ removed ++ y) [i, r] : Outcome ε Text) =
      Outcome.foldList splice (before ++ removed ++ y) [r, i] := by
    rw [foldList_insert_replace ht hi hr hb hm, foldList_replace_insert ht hi hr hb hm, hdrop,
      ← htext]
  have happ (d e : Edit) : d :: e :: edits = [d, e] ++ edits := rfl
  rw [happ, happ, Outcome.foldList_append, Outcome.foldList_append, hpair]

/-- Of edits that are apart and sorted by anchor from the last to the first, only the second one can
fail to stand in front of the first one, and then the first one inserts at its start. -/
lemma touches_of_not_behind {d : Edit} {edits : List Edit} (ha : (d :: edits).Pairwise Apart)
    (hsort : (d :: edits).Pairwise fun a b => b.anchor ≤ a.anchor)
    (hnot : ¬∀ e ∈ edits, e.stop ≤ d.anchor) :
    ∃ r rest, edits = r :: rest ∧ Touches d r ∧ ∀ e ∈ rest, e.stop ≤ d.anchor := by
  obtain ⟨had, ha⟩ := List.pairwise_cons.1 ha
  obtain ⟨hsd, hsort⟩ := List.pairwise_cons.1 hsort
  cases edits with
  | nil => simp at hnot
  | cons r rest =>
    obtain ⟨har, -⟩ := List.pairwise_cons.1 ha
    obtain ⟨hsr, -⟩ := List.pairwise_cons.1 hsort
    have hdr := had r (by simp)
    have hanchor := hsd r (by simp)
    -- An edit behind `r` that does not stand in front of `d` would share its anchor with both.
    have hrest : ∀ e ∈ rest, e.stop ≤ d.anchor := by
      intro e he
      have h1 := had e (by simp [he])
      have h2 := har e he
      have h3 := hsr e he
      unfold Apart stop at *
      omega
    refine ⟨r, rest, rfl, ?_, hrest⟩
    have hr : ¬r.stop ≤ d.anchor := fun hr =>
      hnot fun e he => (List.mem_cons.1 he).elim (fun heq => heq ▸ hr) (hrest e)
    unfold Apart stop at *
    unfold Touches
    omega

/-- Edits sorted by anchor can be put one in front of the other without a change of the result,
provided the touching pairs among them are interchangeable. -/
lemma Agrees.exists_behind {ε : Type} {edits : List Edit} (h : Agrees source t n)
    (hlt : ∀ e ∈ edits, e.stop < offsetLimit) (hfit : ∀ e ∈ edits, Fits source e)
    (ha : edits.Pairwise Apart) (hsort : edits.Pairwise fun a b => b.anchor ≤ a.anchor)
    (hle : ∀ e ∈ edits, e.stop ≤ n)
    (hswap : ∀ i ∈ edits, ∀ r ∈ edits, Touches i r → Interchangeable source i r) :
    ∃ edits', edits'.Perm edits ∧ (edits'.Pairwise fun a b => b.stop ≤ a.anchor) ∧
      (Outcome.foldList splice t edits : Outcome ε Text) = Outcome.foldList splice t edits' := by
  -- A touching pair is taken in one step, so the induction is on the length of the list.
  induction hlen : edits.length using Nat.strongRecOn generalizing edits t n with
  | ind len ih =>
    cases edits with
    | nil => exact ⟨[], .nil, .nil, rfl⟩
    | cons d edits =>
      by_cases hbehind : ∀ e ∈ edits, e.stop ≤ d.anchor
      · obtain ⟨t', ht', hagree⟩ :=
          h.exists_splice (ε := ε) (hlt d (by simp)) (hfit d (by simp)) (hle d (by simp))
        obtain ⟨edits', hperm, hpair, hrun⟩ := ih edits.length (by simp [← hlen]) hagree
          (fun e he => hlt e (by simp [he])) (fun e he => hfit e (by simp [he])) ha.of_cons
          hsort.of_cons hbehind (fun i hi r hr => hswap i (by simp [hi]) r (by simp [hr])) rfl
        refine ⟨d :: edits', hperm.cons d, ?_, ?_⟩
        · exact List.pairwise_cons.2 ⟨fun e he => hbehind e (hperm.mem_iff.1 he), hpair⟩
        · rw [Outcome.foldList_cons, Outcome.foldList_cons, ht', Outcome.ok_bind, Outcome.ok_bind,
            hrun]
      · obtain ⟨r, rest, rfl, htouch, hrest⟩ := touches_of_not_behind ha hsort hbehind
        obtain ⟨t₁, ht₁, hagree₁⟩ :=
          h.exists_splice (ε := ε) (hlt r (by simp)) (hfit r (by simp)) (hle r (by simp))
        have hstop : d.stop = r.anchor := by rw [stop, htouch.1, htouch.2.2, Nat.add_zero]
        obtain ⟨t₂, ht₂, hagree₂⟩ := hagree₁.exists_splice (ε := ε) (hlt d (by simp))
          (hfit d (by simp)) (Nat.le_of_eq hstop)
        have hless : rest.length < len := by
          rw [← hlen, List.length_cons, List.length_cons]
          omega
        obtain ⟨edits', hperm, hpair, hrun⟩ := ih rest.length hless hagree₂
          (fun e he => hlt e (by simp [he])) (fun e he => hfit e (by simp [he])) ha.of_cons.of_cons
          hsort.of_cons.of_cons hrest
          (fun i hi r hr => hswap i (by simp [hi]) r (by simp [hr])) rfl
        refine ⟨r :: d :: edits', ((hperm.cons d).cons r).trans (.swap d r rest), ?_, ?_⟩
        · have hin : ∀ e ∈ edits', e.stop ≤ d.anchor := fun e he => hrest e (hperm.mem_iff.1 he)
          refine List.pairwise_cons.2 ⟨fun e he => ?_, List.pairwise_cons.2 ⟨hin, hpair⟩⟩
          rcases List.mem_cons.1 he with rfl | he
          · exact Nat.le_of_eq hstop
          · exact htouch.2.2 ▸ hin e he
        · rw [h.foldList_swap htouch (hlt d (by simp)) (hlt r (by simp)) (hfit r (by simp))
            (hle r (by simp)) (hswap d (by simp) r (by simp) htouch) rest]
          simp only [Outcome.foldList_cons, ht₁, ht₂, Outcome.ok_bind, hrun]

end Run

lemma applyAll_of_perm {source : Text} {edits p : List Edit}
    (hlt : ∀ e ∈ edits, e.stop < offsetLimit) (h : Compatible source edits) (hp : p.Perm edits)
    (hswap : ∀ i ∈ edits, ∀ r ∈ edits, Touches i r → Interchangeable source i r) :
    applyAll source p = Outcome.foldList splice source (inOrder edits).reverse := by
  have hc := h.perm hp
  have hltp : ∀ e ∈ p, e.stop < offsetLimit := fun e he => hlt e (hp.mem_iff.1 he)
  have hmem : ∀ e ∈ fromLast p, e ∈ p := fun e he => (fromLast_perm p).mem_iff.1 he
  have hall : Agrees source source (Text.byteLength source) := ⟨source, [], [], by simp⟩
  obtain ⟨edits', hperm, hpair, hrun⟩ := hall.exists_behind (ε := EditError)
    (fun e he => hltp e (hmem e he)) (fun e he => hc.fits e (hmem e he))
    ((fromLast_perm p).symm.pairwise hc.apart Apart.symm) (fromLast_sorted p)
    (fun e he => (hc.fits e (hmem e he)).1)
    (fun i hi r hr => hswap i (hp.mem_iff.1 (hmem i hi)) r (hp.mem_iff.1 (hmem r hr)))
  have hprev : edits'.reverse.Perm edits :=
    (List.reverse_perm _).trans (hperm.trans ((fromLast_perm p).trans hp))
  have horder : edits'.reverse = inOrder edits :=
    eq_of_perm_of_behind (hprev.trans (inOrder_perm edits).symm)
      (hprev.symm.pairwise h.apart Apart.symm) (List.pairwise_reverse.2 hpair)
      (inOrder_pairwise h.apart)
  rw [applyAll_of_compatible hltp hc, hrun, ← horder, List.reverse_reverse]

/-! ### What the order does change -/

lemma splice_append {ε : Type} {t t' : Text} {e : Edit}
    (h : (splice t e : Outcome ε Text) = .ok t') (y : Text) :
    (splice (t ++ y) e : Outcome ε Text) = .ok (t' ++ y) := by
  unfold splice at h ⊢
  obtain ⟨n, hn, h⟩ := Outcome.bind_eq_ok_iff.1 h
  rw [hn, Outcome.ok_bind]
  split at h
  · rename_i before after hbefore hafter
    cases h
    obtain ⟨x, hx, hb⟩ := Text.take?_eq_some_iff.1 hbefore
    obtain ⟨z, hz, ha⟩ := Text.drop?_eq_some_iff.1 hafter
    have htake : Text.take? (t ++ y) e.anchor = some before :=
      Text.take?_eq_some_iff.2 ⟨x ++ y, by rw [hx, List.append_assoc], hb⟩
    have hdrop : Text.drop? (t ++ y) n = some (after ++ y) :=
      Text.drop?_eq_some_iff.2 ⟨z, by rw [hz, List.append_assoc], ha⟩
    rw [htake, hdrop]
    simp
  · simp at h

lemma foldList_splice_append {ε : Type} {t t' : Text} {edits : List Edit}
    (h : (Outcome.foldList splice t edits : Outcome ε Text) = .ok t') (y : Text) :
    (Outcome.foldList splice (t ++ y) edits : Outcome ε Text) = .ok (t' ++ y) := by
  induction edits generalizing t with
  | nil =>
    cases h
    rfl
  | cons e edits ih =>
    rw [Outcome.foldList_cons] at h ⊢
    obtain ⟨u, hu, h⟩ := Outcome.bind_eq_ok_iff.1 h
    rw [splice_append hu y, Outcome.ok_bind, ih h]

lemma Fits.front {before after : Text} {e : Edit} (h : Fits (before ++ after) e)
    (hle : e.stop ≤ Text.byteLength before) : Fits before e := by
  obtain ⟨a, removed, rest, hcut, ha, hr⟩ := h.exists_cut
  obtain ⟨m, rfl, -⟩ := Text.exists_between (hcut.symm) (by
    simp only [Text.byteLength_append, stop] at *
    omega)
  exact fits_of_cut ha hr

lemma exists_neighbours {edits : List Edit} (ha : edits.Pairwise Apart)
    (hpair : edits.Pairwise fun a b => b.stop ≤ a.anchor) {i r : Edit} (hi : i ∈ edits)
    (hr : r ∈ edits) (ht : Touches i r) : ∃ later earlier, edits = later ++ r :: i :: earlier := by
  obtain ⟨later, rest, rfl⟩ := List.append_of_mem hr
  obtain ⟨hempty, hpos, hanchor⟩ := ht
  obtain ⟨-, hrest, hcross⟩ := List.pairwise_append.1 hpair
  have hnot : i ∉ later := by
    intro hl
    have := hcross i hl r (by simp)
    unfold stop at this
    omega
  have hne : i ≠ r := by
    rintro rfl
    omega
  have hir : i ∈ rest := by
    rcases List.mem_append.1 hi with hl | hl
    · exact absurd hl hnot
    · exact (List.mem_cons.1 hl).resolve_left hne
  obtain ⟨between, earlier, rfl⟩ := List.append_of_mem hir
  cases between with
  | nil => exact ⟨later, earlier, rfl⟩
  | cons k between =>
    -- An edit between the two would be a second insertion at their anchor.
    obtain ⟨hbr, hrest⟩ := List.pairwise_cons.1 hrest
    have hkr := hbr k (by simp)
    have hik := (List.pairwise_cons.1 hrest).1 i (by simp)
    have hapart := ha.forall (a := k) (by simp) (b := i) (by simp)
    by_cases hki : k = i
    · subst hki
      have hdup := nodup_of_apart ha
      simp [List.nodup_append, List.nodup_cons] at hdup
    · have := hapart hki
      unfold Apart stop at *
      omega

/-- A touching pair that comes to the same in both orders, among the other edits, is
interchangeable. -/
lemma interchangeable_of_foldList {ε : Type} {source t : Text} {later earlier : List Edit}
    {i r : Edit} (hlt : ∀ e ∈ later ++ r :: i :: earlier, e.stop < offsetLimit)
    (hfit : ∀ e ∈ later ++ r :: i :: earlier, Fits source e)
    (hpair : (later ++ r :: i :: earlier).Pairwise fun a b => b.stop ≤ a.anchor)
    (ht : Touches i r)
    (hri : (Outcome.foldList splice source (later ++ r :: i :: earlier) : Outcome ε Text) = .ok t)
    (hir : (Outcome.foldList splice source (later ++ i :: r :: earlier) : Outcome ε Text) = .ok t) :
    Interchangeable source i r := by
  obtain ⟨hlater, hrest, hcross⟩ := List.pairwise_append.1 hpair
  obtain ⟨-, hrest⟩ := List.pairwise_cons.1 hrest
  obtain ⟨hi, hearlier⟩ := List.pairwise_cons.1 hrest
  obtain ⟨before, removed, after, rfl, hb, hm⟩ := (hfit r (by simp)).exists_cut
  -- The later edits leave the text up to the end of the pair.
  obtain ⟨out, -, hrun⟩ := foldList_splice_reverse (ε := ε) _ later.reverse
    (fun e he => hlt e (by simp_all)) (fun e he => hfit e (by simp_all))
    (List.pairwise_reverse.2 hlater) (before ++ removed) after rfl (by
      intro e he
      have := hcross e (by simpa using he) r (by simp)
      simp only [Text.byteLength_append, stop] at *
      omega)
  -- The earlier ones work on the text in front of the pair alone.
  obtain ⟨front, -, hfront⟩ := foldList_splice_reverse (ε := ε) before earlier.reverse
    (fun e he => hlt e (by simp_all))
    (fun e he => by
      have he : e ∈ earlier := by simpa using he
      have hstop := hi e he
      have hfit := hfit e (by simp [he])
      rw [List.append_assoc] at hfit
      exact hfit.front (by rw [hb, ← ht.2.2]; exact hstop))
    (List.pairwise_reverse.2 hearlier) [] before rfl (by simp)
  rw [List.reverse_reverse] at hrun hfront
  have hpairs (d e : Edit) : later ++ d :: e :: earlier = later ++ ([d, e] ++ earlier) := rfl
  rw [hpairs, Outcome.foldList_append, hrun, Outcome.ok_bind, Outcome.foldList_append] at hri hir
  rw [foldList_replace_insert ht (hlt i (by simp)) (hlt r (by simp)) hb hm, Outcome.ok_bind,
    List.append_assoc, foldList_splice_append hfront, Outcome.ok.injEq] at hri
  rw [foldList_insert_replace ht (hlt i (by simp)) (hlt r (by simp)) hb hm] at hir
  rw [interchangeable_iff rfl hb hm]
  cases hdrop : Text.drop? (i.replacement ++ removed) r.length with
  | none => simp [hdrop] at hir
  | some rest =>
    rw [hdrop] at hir
    simp only [Outcome.ok_bind] at hir
    rw [List.append_assoc, foldList_splice_append hfront, Outcome.ok.injEq, ← hri] at hir
    exact ⟨rest, rfl, List.append_cancel_right (List.append_cancel_left hir)⟩

/-- **When the order of the edits is of no account.** Edits that pass the checks give one and the
same text in every order exactly when every insertion among them is interchangeable with the
replacement at whose start it inserts. -/
theorem applyAll_perm_iff {source : Text} {edits : List Edit}
    (h : validateAll source edits = .ok ()) :
    (∃ t, ∀ p, p.Perm edits → applyAll source p = .ok t) ↔
      ∀ i ∈ edits, ∀ r ∈ edits, Touches i r → Interchangeable source i r := by
  obtain ⟨hlt, hc⟩ := validateAll_eq_ok_iff.1 h
  constructor
  · rintro ⟨t, hall⟩ i hi r hr ht
    have hperm : (inOrder edits).reverse.Perm edits :=
      (List.reverse_perm _).trans (inOrder_perm edits)
    have hpair := List.pairwise_reverse.2 (inOrder_pairwise hc.apart)
    obtain ⟨later, earlier, hsplit⟩ := exists_neighbours (hperm.symm.pairwise hc.apart Apart.symm)
      hpair (hperm.mem_iff.2 hi) (hperm.mem_iff.2 hr) ht
    rw [hsplit] at hperm hpair
    have hsorted : (later ++ r :: i :: earlier).Pairwise fun a b => b.anchor ≤ a.anchor :=
      hpair.imp fun hab => Nat.le_trans (Nat.le_add_right _ _) hab
    have hswapped : (later ++ i :: r :: earlier).Pairwise fun a b => b.anchor ≤ a.anchor := by
      have hanchor := ht.2.2
      simp only [List.pairwise_append, List.pairwise_cons, List.mem_cons, forall_eq_or_imp] at *
      grind
    have hpermswap : (later ++ i :: r :: earlier).Perm edits :=
      ((List.Perm.swap r i earlier).append_left later).trans hperm
    have hrun (p : List Edit) (hp : p.Perm edits)
        (hs : p.Pairwise fun a b => b.anchor ≤ a.anchor) :
        (Outcome.foldList splice source p : Outcome EditError Text) = .ok t := by
      rw [← hall p hp, applyAll_of_compatible (fun e he => hlt e (hp.mem_iff.1 he)) (hc.perm hp),
        fromLast_of_sorted hs]
    exact interchangeable_of_foldList (fun e he => hlt e (hperm.mem_iff.1 he))
      (fun e he => hc.fits e (hperm.mem_iff.1 he)) hpair ht (hrun _ hperm hsorted)
      (hrun _ hpermswap hswapped)
  · intro hswap
    obtain ⟨t, -, ht⟩ := exists_spliced_inOrder (ε := EditError) hlt hc
    exact ⟨t, fun p hp => by rw [applyAll_of_perm hlt hc hp hswap, ht]⟩

/-- Inserting a letter in front of one that is replaced by the same letter: no order matters. -/
theorem applyAll_perm_iff_same_letter :
    ∃ t, ∀ p, p.Perm [⟨2, 0, ['б']⟩, ⟨0, 2, []⟩, ⟨2, 2, ['б']⟩] →
      applyAll "абв".toList p = .ok t :=
  (applyAll_perm_iff (by decide)).2 (by decide)

/-- Inserting another letter: the edits pass the checks, and the order decides whether the run
breaks off in the middle of a character, or which text comes out. -/
theorem applyAll_order_matters :
    validateAll "ab".toList [⟨0, 0, ['é']⟩, ⟨0, 1, ['x']⟩] = .ok () ∧
      applyAll "ab".toList [⟨0, 0, ['é']⟩, ⟨0, 1, ['x']⟩] = .abort .offBoundary ∧
      applyAll "ab".toList [⟨0, 1, ['x']⟩, ⟨0, 0, ['é']⟩] = .ok "éxb".toList ∧
      validateAll "ab".toList [⟨0, 0, ['y']⟩, ⟨0, 1, ['x']⟩] = .ok () ∧
      applyAll "ab".toList [⟨0, 0, ['y']⟩, ⟨0, 1, ['x']⟩] = .ok "xab".toList ∧
      applyAll "ab".toList [⟨0, 1, ['x']⟩, ⟨0, 0, ['y']⟩] = .ok "yxb".toList := by
  unfold applyAll
  repeat rw [fromLast_of_sorted (by decide)]
  decide

end BslLint.Edit
