import BslLint.Text.Basic
import Mathlib.Tactic.Common

/-!
The algebra of cuts: of two cuts of a text the later one lies in the rest of the earlier one, and a
slice of a slice is a slice of the whole.
-/

namespace BslLint.Text

lemma isBoundary_iff {t : Text} {n : Nat} :
    isBoundary t n = true ↔ ∃ a b, t = a ++ b ∧ byteLength a = n := by
  simp [isBoundary, Option.isSome_iff_exists, splitAt?_eq_some_iff]

lemma le_byteLength_of_isBoundary {t : Text} {n : Nat} (h : isBoundary t n = true) :
    n ≤ byteLength t := by
  obtain ⟨a, b, rfl, rfl⟩ := isBoundary_iff.1 h
  rw [byteLength_append]
  exact Nat.le_add_right _ _

lemma take?_eq_some_iff {t : Text} {n : Nat} {a : Text} :
    take? t n = some a ↔ ∃ b, t = a ++ b ∧ byteLength a = n := by
  simp [take?, splitAt?_eq_some_iff]

lemma drop?_eq_some_iff {t : Text} {n : Nat} {b : Text} :
    drop? t n = some b ↔ ∃ a, t = a ++ b ∧ byteLength a = n := by
  simp [drop?, splitAt?_eq_some_iff]

@[simp] lemma take?_append (a b : Text) : take? (a ++ b) (byteLength a) = some a := by
  simp [take?]

@[simp] lemma drop?_append (a b : Text) : drop? (a ++ b) (byteLength a) = some b := by
  simp [drop?]

lemma getLast?_cons_or (c : Char) (t : Text) (before : Option Char) :
    (c :: t).getLast?.or before = t.getLast?.or (some c) := by
  rw [List.getLast?_cons, ← Option.or_some, Option.or_assoc, Option.some_or]

/-- Of two cuts of a text, the later one lies in the rest of the earlier one. -/
lemma exists_between {a b c d : Text} (h : a ++ b = c ++ d) (hn : byteLength a ≤ byteLength c) :
    ∃ m, c = a ++ m ∧ b = m ++ d := by
  rcases List.append_eq_append_iff.1 h with ⟨m, rfl, rfl⟩ | ⟨m, rfl, rfl⟩
  · exact ⟨m, rfl, rfl⟩
  · -- The later cut comes first in the text, so that nothing stands between the two.
    have hm : byteLength m = 0 := by
      rw [byteLength_append] at hn
      omega
    rw [byteLength_eq_zero_iff.1 hm]
    exact ⟨[], by simp, by simp⟩

lemma drop?_append_add (a b : Text) (n : Nat) : drop? (a ++ b) (byteLength a + n) = drop? b n := by
  ext y
  simp only [drop?_eq_some_iff]
  constructor
  · rintro ⟨c, h, hc⟩
    obtain ⟨m, rfl, rfl⟩ := exists_between h (by omega)
    exact ⟨m, rfl, by simpa using hc⟩
  · rintro ⟨m, rfl, hm⟩
    exact ⟨a ++ m, by simp, by simp [hm]⟩

lemma drop?_append_of_le {a : Text} {n : Nat} (h : n ≤ byteLength a) (b : Text) :
    drop? (a ++ b) n = (drop? a n).map (· ++ b) := by
  ext y
  simp only [drop?_eq_some_iff, Option.map_eq_some_iff]
  constructor
  · rintro ⟨c, hc, rfl⟩
    obtain ⟨m, rfl, rfl⟩ := exists_between hc.symm h
    exact ⟨m, ⟨c, rfl, rfl⟩, rfl⟩
  · rintro ⟨m, ⟨c, rfl, hc⟩, rfl⟩
    exact ⟨c, by simp, hc⟩

lemma byteLength_of_slice? {t m : Text} {start stop : Nat} (h : slice? t start stop = some m) :
    start + byteLength m = stop ∧ stop ≤ byteLength t := by
  obtain ⟨a, b, rfl, rfl, rfl⟩ := slice?_eq_some_iff.1 h
  refine ⟨rfl, ?_⟩
  simp only [byteLength_append]
  omega

/-- A slice of a slice is a slice of the whole. -/
lemma slice?_trans {t raw m : Text} {start stop i j : Nat} (hraw : slice? t start stop = some raw)
    (hm : slice? raw i j = some m) : slice? t (start + i) (start + j) = some m := by
  obtain ⟨a, b, rfl, rfl, -⟩ := slice?_eq_some_iff.1 hraw
  obtain ⟨c, d, rfl, rfl, rfl⟩ := slice?_eq_some_iff.1 hm
  refine slice?_eq_some_iff.2 ⟨a ++ c, d ++ b, by simp, by simp, by omega⟩

lemma isBoundary_of_slice? {t m : Text} {start stop : Nat} (h : slice? t start stop = some m) :
    isBoundary t start = true ∧ isBoundary t stop = true := by
  obtain ⟨a, b, rfl, rfl, rfl⟩ := slice?_eq_some_iff.1 h
  exact ⟨isBoundary_iff.2 ⟨a, m ++ b, by simp, rfl⟩, isBoundary_iff.2 ⟨a ++ m, b, rfl, by simp⟩⟩

lemma exists_slice? {t : Text} {start stop : Nat} (hle : start ≤ stop)
    (hstart : isBoundary t start = true) (hstop : isBoundary t stop = true) :
    ∃ m, slice? t start stop = some m := by
  obtain ⟨a, b, rfl, rfl⟩ := isBoundary_iff.1 hstart
  obtain ⟨c, d, h, rfl⟩ := isBoundary_iff.1 hstop
  obtain ⟨m, rfl, rfl⟩ := exists_between h hle
  exact ⟨m, slice?_eq_some_iff.2 ⟨a, d, by simp, rfl, by simp⟩⟩

end BslLint.Text
