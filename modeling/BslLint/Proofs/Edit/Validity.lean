import BslLint.Edit.Basic
import BslLint.Proofs.Outcome
import BslLint.Proofs.Text.Slice
import Mathlib.Data.List.Pairwise

/-!
What the checks on a list of edits establish: every edit fits the text, and every two of them are
apart. Both are said here without the functions that check them; `validateAll_eq_ok_iff` ties the
two together.
-/

namespace BslLint.Edit

/-- The edit lies in the text, with both ends on character boundaries. -/
def Fits (source : Text) (e : Edit) : Prop :=
  e.stop ≤ Text.byteLength source ∧
    Text.isBoundary source e.anchor = true ∧ Text.isBoundary source e.stop = true

instance (source : Text) (e : Edit) : Decidable (Fits source e) :=
  inferInstanceAs (Decidable (_ ∧ _))

/-- One of the edits ends at or before the anchor of the other, and they are not two insertions at
one place. -/
def Apart (d e : Edit) : Prop :=
  (d.stop ≤ e.anchor ∨ e.stop ≤ d.anchor) ∧
    ¬(d.length = 0 ∧ e.length = 0 ∧ d.anchor = e.anchor)

instance (d e : Edit) : Decidable (Apart d e) := inferInstanceAs (Decidable (_ ∧ _))

/-- The edits of a list can be carried out together: each of them fits the text, and every two of
them are apart. -/
structure Compatible (source : Text) (edits : List Edit) : Prop where
  fits : ∀ e ∈ edits, Fits source e
  apart : edits.Pairwise Apart

lemma Apart.symm {d e : Edit} (h : Apart d e) : Apart e d := by
  unfold Apart at *
  omega

instance : Std.Symm Apart := ⟨fun _ _ => Apart.symm⟩

lemma not_apart_self (e : Edit) : ¬Apart e e := by
  unfold Apart stop
  omega

lemma nodup_of_apart {edits : List Edit} (h : edits.Pairwise Apart) : edits.Nodup := by
  refine h.imp ?_
  rintro d e hde rfl
  exact not_apart_self d hde

lemma Compatible.perm {source : Text} {edits edits' : List Edit} (h : Compatible source edits)
    (hp : edits'.Perm edits) : Compatible source edits' :=
  ⟨fun e he => h.fits e (hp.mem_iff.1 he), hp.symm.pairwise h.apart Apart.symm⟩

/-! ### The text behind an edit -/

lemma Fits.exists_cut {source : Text} {e : Edit} (h : Fits source e) :
    ∃ before removed after, source = before ++ removed ++ after ∧
      Text.byteLength before = e.anchor ∧ Text.byteLength removed = e.length := by
  obtain ⟨-, hanchor, hstop⟩ := h
  obtain ⟨removed, hm⟩ := Text.exists_slice? (by simp [stop]) hanchor hstop
  obtain ⟨before, after, rfl, hb, hr⟩ := Text.slice?_eq_some_iff.1 hm
  exact ⟨before, removed, after, rfl, hb, by simp only [stop] at hr; omega⟩

lemma fits_of_cut {before removed after : Text} {e : Edit}
    (hb : Text.byteLength before = e.anchor) (hr : Text.byteLength removed = e.length) :
    Fits (before ++ removed ++ after) e := by
  refine ⟨?_, Text.isBoundary_iff.2 ⟨before, removed ++ after, by simp, hb⟩,
    Text.isBoundary_iff.2 ⟨before ++ removed, after, rfl, ?_⟩⟩
  · simp only [stop, Text.byteLength_append]
    omega
  · simp [stop, hb, hr]

/-! ### The checks -/

lemma checkedStop_of_lt {ε : Type} {e : Edit} (h : e.stop < offsetLimit) :
    (e.checkedStop : Outcome ε Nat) = .ok e.stop := addOffsets_of_lt h

lemma validate_eq_ok_iff {source : Text} {e : Edit} :
    validate source e = .ok () ↔ e.stop < offsetLimit ∧ Fits source e := by
  unfold validate
  by_cases h : e.stop < offsetLimit
  · simp only [checkedStop_of_lt h, Outcome.ok_bind, h, true_and, Fits]
    split
    · simp only [reduceCtorEq, false_iff]
      omega
    · split
      · simp_all
      · split <;> simp_all
  · have hs : (e.checkedStop : Outcome EditError Nat) = .abort .overflow := if_neg h
    simp [hs, h]

lemma validate_of_slice? {source m : Text} {e : Edit}
    (h : Text.slice? source e.anchor e.stop = some m) (hlt : e.stop < offsetLimit) :
    validate source e = .ok () := by
  obtain ⟨hanchor, hstop⟩ := Text.isBoundary_of_slice? h
  exact validate_eq_ok_iff.2 ⟨hlt, (Text.byteLength_of_slice? h).2, hanchor, hstop⟩

lemma overlaps_of_lt {ε : Type} {d e : Edit} (hd : d.stop < offsetLimit)
    (he : e.stop < offsetLimit) :
    (overlaps d e : Outcome ε Bool) = .ok (decide ¬Apart d e) := by
  unfold overlaps
  split
  · rename_i h
    have hiff : d.anchor = e.anchor ↔ ¬Apart d e := by
      simp only [Bool.and_eq_true, decide_eq_true_eq] at h
      unfold Apart stop
      omega
    rw [beq_eq_decide, decide_eq_decide.2 hiff]
    rfl
  · rename_i h
    simp only [checkedStop_of_lt he, checkedStop_of_lt hd, Outcome.ok_bind]
    have hiff : d.anchor < e.stop ∧ e.anchor < d.stop ↔ ¬Apart d e := by
      simp only [Bool.and_eq_true, decide_eq_true_eq] at h
      unfold Apart
      omega
    by_cases hle : d.anchor < e.stop
    · simp only [hle, true_and] at hiff
      simp [hle, decide_eq_decide.2 hiff]
    · have hapart : Apart d e := by simpa [hle] using hiff
      simp [hle, hapart]

lemma overlapsAny_of_lt {ε : Type} {d : Edit} {edits : List Edit} (hd : d.stop < offsetLimit)
    (he : ∀ e ∈ edits, e.stop < offsetLimit) :
    (overlapsAny d edits : Outcome ε Bool) = .ok (decide ¬∀ e ∈ edits, Apart d e) := by
  induction edits with
  | nil => simp [overlapsAny]
  | cons e edits ih =>
    have ih := ih fun e' he' => he e' (by simp [he'])
    rw [overlapsAny, overlaps_of_lt hd (he e (by simp)), Outcome.ok_bind]
    by_cases h : Apart d e <;> simp [h, ih]

lemma checkOverlaps_eq_ok_iff {edits : List Edit} (h : ∀ e ∈ edits, e.stop < offsetLimit) :
    checkOverlaps edits = .ok () ↔ edits.Pairwise Apart := by
  induction edits with
  | nil => simp [checkOverlaps]
  | cons d edits ih =>
    have ih := ih fun e he => h e (by simp [he])
    rw [checkOverlaps, overlapsAny_of_lt (h d (by simp)) (fun e he => h e (by simp [he])),
      Outcome.ok_bind, List.pairwise_cons]
    by_cases hd : ∀ e ∈ edits, Apart d e
    · rw [decide_eq_false (not_not_intro hd), if_neg Bool.false_ne_true, ih]
      exact ⟨fun hall => ⟨hd, hall⟩, And.right⟩
    · rw [decide_eq_true hd, if_pos rfl]
      simp [hd]

/-- **What the checks establish**: the edits can be carried out together, and every end is an
offset. -/
theorem validateAll_eq_ok_iff {source : Text} {edits : List Edit} :
    validateAll source edits = .ok () ↔
      (∀ e ∈ edits, e.stop < offsetLimit) ∧ Compatible source edits := by
  have hone : (∃ us, Outcome.mapList (validate source) edits = .ok us) ↔
      ∀ e ∈ edits, e.stop < offsetLimit ∧ Fits source e := by
    simp only [Outcome.mapList_unit_eq_ok_iff, validate_eq_ok_iff]
  unfold validateAll
  rw [Outcome.bind_eq_ok_iff]
  constructor
  · rintro ⟨us, hus, hover⟩
    have hall := hone.1 ⟨us, hus⟩
    have hlt : ∀ e ∈ edits, e.stop < offsetLimit := fun e he => (hall e he).1
    exact ⟨hlt, fun e he => (hall e he).2, (checkOverlaps_eq_ok_iff hlt).1 hover⟩
  · rintro ⟨hlt, hfits, hapart⟩
    obtain ⟨us, hus⟩ := hone.2 fun e he => ⟨hlt e he, hfits e he⟩
    exact ⟨us, hus, (checkOverlaps_eq_ok_iff hlt).2 hapart⟩

end BslLint.Edit
