import BslLint.Proofs.Diff.Patch
import Mathlib.Data.List.Intervals

/-!
What a printed diff shows: the line numbers within the context of a difference, each of them once.

A hunk covers as many line numbers as its header counts of the longer text (`Hunk.stop`). Its lines
are what is shown of these numbers one after the other (`shownAt`), and between two hunks at least
one line number is left out.
-/

namespace BslLint.Diff

open Text

/-- What is shown of a line number: the line where the texts agree on it, and otherwise the old line
as removed and the new one as added, as far as there are any. -/
def shownAt (os fs : List Text) (i : Nat) : List Line :=
  match os[i]?, fs[i]? with
  | some o, some f => if o = f then [.kept o] else [.removed o, .added f]
  | some o, none => [.removed o]
  | none, some f => [.added f]
  | none, none => []

lemma shownAt_ne_nil {os fs : List Text} {i : Nat} (h : i < max os.length fs.length) :
    shownAt os fs i ≠ [] := by
  unfold shownAt
  split
  · split <;> simp
  · simp
  · simp
  · rename_i hos hfs
    rw [List.getElem?_eq_none_iff] at hos hfs
    omega

lemma lines_eq_shownAt (os fs : List Text) (i : Nat) :
    Pair.lines ⟨os[i]?, fs[i]?⟩ = shownAt os fs i := by
  unfold shownAt Pair.lines
  cases os[i]? with
  | none => cases fs[i]? <;> rfl
  | some o =>
    cases fs[i]? with
    | none => rfl
    | some f =>
      by_cases h : o = f
      · subst h
        simp [Pair.isChange]
      · simp [Pair.isChange, h]

namespace Hunk

/-- The line number behind a hunk: it shows as many as it counts of the longer text. -/
def stop (h : Hunk) : Nat := h.start + max h.oldCount h.newCount

/-- The line number is shown in the hunk. -/
def Covers (h : Hunk) (i : Nat) : Prop := h.start ≤ i ∧ i < h.stop

variable {os fs : List Text} {r : Range}

lemma stop_ofRange (hle : r.start ≤ r.stop) (hstop : r.stop ≤ max os.length fs.length) :
    (ofRange os fs r).stop = r.stop := by
  simp only [stop, ofRange]
  omega

lemma covers_ofRange (hle : r.start ≤ r.stop) (hstop : r.stop ≤ max os.length fs.length)
    (i : Nat) : (ofRange os fs r).Covers i ↔ r.Covers i := by
  rw [Covers, stop_ofRange hle hstop]
  rfl

lemma lines_ofRange (hstop : r.stop ≤ max os.length fs.length) :
    (ofRange os fs r).lines =
      (List.Ico r.start r.stop).flatMap (shownAt os fs) := by
  rw [ofRange, take_drop_pairs os fs hstop, List.flatMap_map]
  exact List.flatMap_congr fun i _ => lines_eq_shownAt os fs i

end Hunk

/-- **A printed diff shows the surroundings of the differences.** Its hunks can be read off it and
stand in order, with a gap between every two of them. They cover the line numbers within the context
of a difference and no others, so that every difference is in one of them, and of the line numbers
that a hunk covers it shows each once. -/
theorem format_shows_surroundings {ε : Type} (old new : Text) (path : String) (context : Nat)
    (hlimit : context + max (lines old).length (lines new).length < offsetLimit) :
    ∃ text hs, (format old new path context : Outcome ε String) = .ok text ∧
      read? path text = some hs ∧
      hs.Pairwise (fun h h' => h.stop < h'.start) ∧
      (∀ i, (∃ h ∈ hs, h.Covers i) ↔ i < max (lines old).length (lines new).length ∧
        ∃ change, (lines old)[change]? ≠ (lines new)[change]? ∧
          i ≤ change + context ∧ change ≤ i + context) ∧
      (∀ i, (lines old)[i]? ≠ (lines new)[i]? → ∃ h ∈ hs, h.Covers i) ∧
      ∀ h ∈ hs, h.lines = (List.Ico h.start h.stop).flatMap (shownAt (lines old) (lines new)) ∧
        ∀ i, h.Covers i → shownAt (lines old) (lines new) i ≠ [] := by
  obtain ⟨text, rs, hformat, hread, hlayout⟩ := exists_format (ε := ε) path hlimit
  have hle : ∀ r ∈ rs, r.start ≤ r.stop := fun r hr => Nat.le_of_lt (hlayout.nonempty r hr)
  have hcovers : ∀ i, (∃ h ∈ rs.map (Hunk.ofRange (lines old) (lines new)), h.Covers i) ↔
      i < max (lines old).length (lines new).length ∧
        ∃ change, (lines old)[change]? ≠ (lines new)[change]? ∧
          i ≤ change + context ∧ change ≤ i + context := by
    intro i
    simp only [← mem_differences, ← hlayout.covers_iff, List.mem_map,
      exists_exists_and_eq_and]
    exact exists_congr fun r => and_congr_right fun hr =>
      Hunk.covers_ofRange (hle r hr) (hlayout.stop_le r hr) i
  refine ⟨text, _, hformat, hread, ?_, hcovers, fun i hi => ?_, fun h hh => ?_⟩
  · refine List.pairwise_map.2 (hlayout.apart.imp_of_mem fun {r r'} hr _ hlt => ?_)
    rwa [Hunk.stop_ofRange (hle r hr) (hlayout.stop_le r hr)]
  · have hlt := lt_of_mem_differences (mem_differences.2 hi)
    exact (hcovers i).2 ⟨hlt, i, hi, by omega, by omega⟩
  · refine ⟨?_, fun i hi => shownAt_ne_nil ((hcovers i).1 ⟨h, hh, hi⟩).1⟩
    obtain ⟨r, hr, rfl⟩ := List.mem_map.1 hh
    rw [Hunk.lines_ofRange (hlayout.stop_le r hr),
      Hunk.stop_ofRange (hle r hr) (hlayout.stop_le r hr)]
    rfl

/-- Three differences: the surroundings of the first two touch and share a hunk, and one line is
left out between them and those of the third, which the old text does not have. -/
theorem format_shows_surroundings_touching :
    1 + max (lines "a\nb\nc\nd\ne\nf\ng".toList).length
        (lines "A\nb\nc\nD\ne\nf\ng\nh".toList).length < offsetLimit ∧
      ∃ text hs,
        text = "--- a/m\n+++ b/m\n@@ -1,5 +1,5 @@\n-a\n+A\n b\n c\n-d\n+D\n e\n" ++
          "@@ -7,1 +7,2 @@\n g\n+h\n" ∧
        (format "a\nb\nc\nd\ne\nf\ng".toList "A\nb\nc\nD\ne\nf\ng\nh".toList "m" 1 :
          Checked String) = .ok text ∧
        read? "m" text = some hs ∧
        hs.Pairwise (fun h h' => h.stop < h'.start) ∧
        (∃ h ∈ hs, h.Covers 4) ∧ (¬∃ h ∈ hs, h.Covers 5) ∧ ∃ h ∈ hs, h.Covers 7 := by
  have hlimit : 1 + max (lines "a\nb\nc\nd\ne\nf\ng".toList).length
      (lines "A\nb\nc\nD\ne\nf\ng\nh".toList).length < offsetLimit := by decide +kernel
  obtain ⟨text, hs, hformat, hread, hapart, hcovers, hchanges, -⟩ :=
    format_shows_surroundings (ε := Empty) _ _ "m" 1 hlimit
  refine ⟨hlimit, text, hs, Outcome.ok.inj (hformat.symm.trans ?_), hformat, hread, hapart,
    (hcovers 4).2 ⟨by decide +kernel, 3, by decide +kernel, by decide, by decide⟩, ?_,
    hchanges 7 (by decide +kernel)⟩
  · decide +kernel
  · rw [hcovers]
    rintro ⟨-, change, hne, hle, hge⟩
    have hnear : change = 4 ∨ change = 5 ∨ change = 6 := by omega
    rcases hnear with rfl | rfl | rfl <;> exact hne (by decide +kernel)

end BslLint.Diff
