import BslLint.Proofs.Edit.Splice
import Mathlib.Algebra.GroupWithZero.Nat

/-!
Edits that are listed from the first anchor to the last: what they make of a text is known as soon
as source and result are taken apart at the same places, and where an offset comes to lie is found
by counting what the edits in front of it insert and remove.
-/

namespace BslLint.Edit

/-- Each edit begins behind the one listed before it and no earlier than that one ends. -/
def Listed (edits : List Edit) : Prop :=
  edits.Pairwise fun d e => d.anchor < e.anchor ∧ d.stop ≤ e.anchor

instance : DecidablePred Listed := fun _ => inferInstanceAs (Decidable (List.Pairwise _ _))

/-- Where an offset comes to lie when the edits are carried out, each of which ends at or before it
or begins at or behind it. -/
def shift (edits : List Edit) (pos : Nat) : Nat :=
  let before := edits.filter fun e => e.stop ≤ pos
  pos + (before.map fun e => Text.byteLength e.replacement).sum - (before.map Edit.length).sum

lemma shift_append {before after : List Edit} {pos : Nat} (hbefore : ∀ e ∈ before, e.stop ≤ pos)
    (hafter : ∀ e ∈ after, pos < e.stop) :
    shift (before ++ after) pos =
      pos + (before.map fun e => Text.byteLength e.replacement).sum -
        (before.map Edit.length).sum := by
  have hfilter : (before ++ after).filter (fun e => e.stop ≤ pos) = before := by
    rw [List.filter_append, List.filter_eq_self.2 (by simpa using hbefore),
      List.filter_eq_nil_iff.2 (by simpa using hafter), List.append_nil]
  rw [shift, hfilter]

lemma Spliced.prepend (front : Text) {t out : Text} {pos : Nat} {edits : List Edit}
    (h : Spliced (pos + Text.byteLength front) edits t out) :
    Spliced pos edits (front ++ t) (front ++ out) := by
  cases h with
  | nil => exact .nil _ _
  | cons gap removed anchor length rest =>
    simp only [← List.append_assoc]
    exact .cons (front ++ gap) removed (by rw [Text.byteLength_append, ← anchor, Nat.add_assoc])
      length rest

section Listed

variable {edits : List Edit}

lemma Listed.apart (h : Listed edits) : edits.Pairwise Apart := h.imp fun {d e} hde => by
  unfold Apart
  omega

lemma Listed.inOrder_eq (h : Listed edits) : inOrder edits = edits :=
  eq_of_perm_of_behind (inOrder_perm edits) ((inOrder_perm edits).symm.pairwise h.apart Apart.symm)
    (inOrder_pairwise h.apart) (h.imp And.right)

/-- Listed edits are run from the last one to the first. -/
lemma Listed.fromLast_eq (h : Listed edits) : fromLast edits = edits.reverse := by
  have htouch : edits.Pairwise fun d e => ¬Touches d e := h.imp fun {d e} hde => by
    unfold Touches
    omega
  rw [Edit.fromLast_eq h.apart htouch, h.inOrder_eq]

/-- **Listed edits are carried out** with the result that takes source and result apart at the same
places. -/
lemma applyAll_of_spliced {source out : Text} (hlt : ∀ e ∈ edits, e.stop < offsetLimit)
    (hfits : ∀ e ∈ edits, Fits source e) (hlisted : Listed edits)
    (h : Spliced 0 edits source out) : applyAll source edits = .ok out := by
  obtain ⟨t, hspliced, hrun⟩ :=
    exists_spliced_inOrder (ε := EditError) hlt ⟨hfits, hlisted.apart⟩
  rw [hlisted.inOrder_eq] at hspliced hrun
  have ht : t = out :=
    Option.some.inj ((hspliced.interleave_eq [] rfl).symm.trans (h.interleave_eq [] rfl))
  rw [applyAll_of_compatible hlt ⟨hfits, hlisted.apart⟩, hlisted.fromLast_eq, hrun, ht]

end Listed

end BslLint.Edit
