import BslLint.Proofs.Diff.Layout
import BslLint.Proofs.Diff.Printed

/-!
A printed diff is a patch from the one text to the other.

What a hunk shows of either text is a block of consecutive lines of it, from the same line number
on (`Hunk.Matches`). The hunks are put in from the last to the first, so that the line numbers in
front stay what they are: behind each step the lines from the hunk on are those of the new text, and
the lines before it still those of the old one (`patch_ranges`).
-/

namespace BslLint.Diff

open Text

/-! ### Blocks of lines -/

namespace Line

def old? : Line → Option Text
  | kept t => some t
  | removed t => some t
  | added _ => none

def new? : Line → Option Text
  | kept t => some t
  | removed _ => none
  | added t => some t

lemma text_eq (l : Line) : l.old? = some l.text ∨ l.new? = some l.text := by
  cases l <;> simp [old?, new?, text]

end Line

namespace Pair

lemma filterMap_old_lines (p : Pair) : p.lines.filterMap Line.old? = p.old.toList := by
  obtain ⟨old, new⟩ := p
  rw [lines]
  split <;> cases old <;> cases new <;> rfl

lemma filterMap_new_lines (p : Pair) : p.lines.filterMap Line.new? = p.new.toList := by
  obtain ⟨old, new⟩ := p
  rw [lines]
  split
  case isTrue => cases old <;> cases new <;> rfl
  case isFalse hsame =>
    -- A kept line is shown from the old text; it is the line of the new one as well.
    obtain rfl : old = new := by simpa [isChange] using hsame
    cases old <;> rfl

end Pair

lemma pairs_nil_right (os : List Text) : pairs os [] = os.map fun o => ⟨some o, none⟩ := by
  cases os <;> rfl

lemma drop_pairs (os fs : List Text) (n : Nat) :
    (pairs os fs).drop n = pairs (os.drop n) (fs.drop n) := by
  fun_induction pairs os fs generalizing n with
  | case1 fs => simp [pairs]
  | case2 os hne =>
    rw [List.drop_nil, pairs_nil_right, List.map_drop]
  | case3 o os f fs ih =>
    cases n with
    | zero => rfl
    | succ n => exact ih n

lemma take_pairs (os fs : List Text) (n : Nat) :
    (pairs os fs).take n = pairs (os.take n) (fs.take n) := by
  fun_induction pairs os fs generalizing n with
  | case1 fs => simp [pairs]
  | case2 os hne =>
    rw [List.take_nil, pairs_nil_right, List.map_take]
  | case3 o os f fs ih =>
    cases n with
    | zero => rfl
    | succ n => exact congrArg (_ :: ·) (ih n)

lemma flatMap_old_pairs (os fs : List Text) : (pairs os fs).flatMap (·.old.toList) = os := by
  fun_induction pairs os fs with
  | case1 fs => simp [List.flatMap_map]
  | case2 os hne => simp [List.flatMap_map]
  | case3 o os f fs ih => simp [ih]

lemma flatMap_new_pairs (os fs : List Text) : (pairs os fs).flatMap (·.new.toList) = fs := by
  fun_induction pairs os fs with
  | case1 fs => simp [List.flatMap_map]
  | case2 os hne => simp [List.flatMap_map]
  | case3 o os f fs ih => simp [ih]

lemma take_drop_min (ls : List Text) (start stop : Nat) :
    (ls.drop start).take (min stop ls.length - start) = (ls.drop start).take (stop - start) := by
  rw [List.take_eq_take_iff, List.length_drop]
  omega

lemma length_take_drop (ls : List Text) (start stop : Nat) :
    ((ls.drop start).take (stop - start)).length = min stop ls.length - start := by
  rw [List.length_take, List.length_drop]
  omega

namespace Hunk

def oldLines (h : Hunk) : List Text := h.lines.filterMap Line.old?

def newLines (h : Hunk) : List Text := h.lines.filterMap Line.new?

/-- What the hunk shows of either text are its lines from the start of the hunk on, as many as the
header says. -/
structure Matches (os fs : List Text) (h : Hunk) : Prop where
  old : h.oldLines = (os.drop h.start).take h.oldCount
  old_length : h.oldLines.length = h.oldCount
  new : h.newLines = (fs.drop h.start).take h.newCount
  new_length : h.newLines.length = h.newCount

variable {os fs : List Text} {r : Range}

lemma oldLines_ofRange : (ofRange os fs r).oldLines =
    (os.drop r.start).take (r.stop - r.start) := by
  simp only [oldLines, ofRange, List.filterMap_flatMap, Pair.filterMap_old_lines, drop_pairs,
    take_pairs, flatMap_old_pairs]

lemma newLines_ofRange : (ofRange os fs r).newLines =
    (fs.drop r.start).take (r.stop - r.start) := by
  simp only [newLines, ofRange, List.filterMap_flatMap, Pair.filterMap_new_lines, drop_pairs,
    take_pairs, flatMap_new_pairs]

lemma matches_ofRange : (ofRange os fs r).Matches os fs where
  old := oldLines_ofRange.trans (take_drop_min os r.start r.stop).symm
  old_length := by rw [oldLines_ofRange, length_take_drop, ofRange]
  new := newLines_ofRange.trans (take_drop_min fs r.start r.stop).symm
  new_length := by rw [newLines_ofRange, length_take_drop, ofRange]

lemma Matches.lineFeed_not_mem {h : Hunk} (hm : h.Matches os fs) (hos : ∀ t ∈ os, '\n' ∉ t)
    (hfs : ∀ t ∈ fs, '\n' ∉ t) : ∀ l ∈ h.lines, '\n' ∉ l.text := by
  intro l hl
  obtain htext | htext := l.text_eq
  · have hmem : l.text ∈ h.oldLines := List.mem_filterMap.2 ⟨l, hl, htext⟩
    rw [hm.old] at hmem
    exact hos _ (List.mem_of_mem_drop (List.mem_of_mem_take hmem))
  · have hmem : l.text ∈ h.newLines := List.mem_filterMap.2 ⟨l, hl, htext⟩
    rw [hm.new] at hmem
    exact hfs _ (List.mem_of_mem_drop (List.mem_of_mem_take hmem))

end Hunk

/-! ### Patches -/

/-- The lines with the block of a hunk in place of its old one. -/
def Hunk.replace (h : Hunk) (ls : List Text) : List Text :=
  ls.take h.start ++ h.newLines ++ ls.drop (h.start + h.oldCount)

/-- The lines with the blocks of all hunks in place of the old ones, from the last to the first. -/
def patch (hs : List Hunk) (ls : List Text) : List Text := hs.foldr Hunk.replace ls

section Blocks

variable {os fs : List Text}

lemma take_append_drop_of_agree {k n : Nat} (hkn : k ≤ n)
    (h : ∀ i, k ≤ i → i < n → os[i]? = fs[i]?) :
    os.take n ++ fs.drop n = os.take k ++ fs.drop k := by
  obtain ⟨m, rfl⟩ := Nat.exists_eq_add_of_le hkn
  have hblock : (os.drop k).take m = (fs.drop k).take m := by
    refine List.ext_getElem? fun i => ?_
    by_cases hi : i < m
    · simp [hi, h (k + i) (by omega) (by omega)]
    · rw [List.getElem?_take_eq_none (by omega), List.getElem?_take_eq_none (by omega)]
  rw [List.take_add, List.append_assoc, hblock, ← List.drop_drop, List.take_append_drop]

/-- One hunk is put in: the lines of the new text now start where the hunk does. -/
lemma replace_ofRange {r : Range} (hle : r.start ≤ r.stop) (hstart : r.start ≤ os.length) :
    (Hunk.ofRange os fs r).replace
        (os.take r.stop ++ fs.drop r.stop) =
      os.take r.start ++ fs.drop r.start := by
  have hfront : (os.take r.stop ++ fs.drop r.stop).take r.start = os.take r.start := by
    rw [List.take_append_of_le_length (by rw [List.length_take]; omega), List.take_take,
      Nat.min_eq_left hle]
  have hbehind : (os.take r.stop ++ fs.drop r.stop).drop
      (r.start + (min r.stop os.length - r.start)) = fs.drop r.stop := by
    have hlength : (os.take r.stop).length = r.start + (min r.stop os.length - r.start) := by
      rw [List.length_take]
      omega
    rw [← hlength, List.drop_left]
  have hblock : (fs.drop r.start).take (r.stop - r.start) ++ fs.drop r.stop = fs.drop r.start := by
    have hsplit := List.take_append_drop (r.stop - r.start) (fs.drop r.start)
    rwa [List.drop_drop, Nat.add_sub_cancel' hle] at hsplit
  calc Hunk.replace _ (os.take r.stop ++ fs.drop r.stop)
      = os.take r.start ++ (fs.drop r.start).take (r.stop - r.start) ++ fs.drop r.stop := by
        rw [Hunk.replace, Hunk.newLines_ofRange]
        simp only [Hunk.ofRange, hfront, hbehind]
    _ = os.take r.start ++ fs.drop r.start := by rw [List.append_assoc, hblock]

/-- **All hunks are put in**: from a line number on that no hunk starts before, the lines are those
of the new text. -/
lemma patch_ranges {rs : List Range} (hapart : rs.Pairwise fun r r' => r.stop < r'.start)
    (hle : ∀ r ∈ rs, r.start ≤ r.stop) (hstart : ∀ r ∈ rs, r.start ≤ os.length) {k : Nat}
    (hk : ∀ r ∈ rs, k ≤ r.start)
    (hcovers : ∀ i, k ≤ i → os[i]? ≠ fs[i]? → ∃ r ∈ rs, r.Covers i) :
    patch (rs.map (Hunk.ofRange os fs)) os =
      os.take k ++ fs.drop k := by
  induction rs generalizing k with
  | nil =>
    have hsame : os.drop k = fs.drop k := List.ext_getElem? fun i => by
      simpa using mt (hcovers (k + i) (by omega))
    rw [← hsame, List.take_append_drop]
    rfl
  | cons r rs ih =>
    obtain ⟨hafter, hapart⟩ := List.pairwise_cons.1 hapart
    obtain ⟨hr, hle⟩ := List.forall_mem_cons.1 hle
    obtain ⟨hrstart, hstart⟩ := List.forall_mem_cons.1 hstart
    obtain ⟨hkr, hk⟩ := List.forall_mem_cons.1 hk
    -- Behind the first range the others cover what is left.
    have hrest := ih hapart hle hstart (k := r.stop) (fun r' hr' => Nat.le_of_lt (hafter r' hr'))
      fun i hi hne => by
        obtain ⟨r', hr', hcovered⟩ := hcovers i (by omega) hne
        obtain rfl | hr' := List.mem_cons.1 hr'
        · exact absurd hcovered.2 (by omega)
        · exact ⟨r', hr', hcovered⟩
    -- Before it nothing is covered, so that the texts agree.
    have hagree : ∀ i, k ≤ i → i < r.start → os[i]? = fs[i]? := by
      intro i hki hir
      by_contra hne
      obtain ⟨r', hr', hcovered⟩ := hcovers i hki hne
      obtain rfl | hr' := List.mem_cons.1 hr'
      · exact absurd hcovered.1 (by omega)
      · have hgap := hafter r' hr'
        exact absurd hcovered.1 (by omega)
    calc patch (List.map _ (r :: rs)) os
        = Hunk.replace _ (os.take r.stop ++ fs.drop r.stop) := congrArg (Hunk.replace _) hrest
      _ = os.take r.start ++ fs.drop r.start := replace_ofRange hr hrstart
      _ = os.take k ++ fs.drop k := take_append_drop_of_agree hkr hagree

end Blocks

/-! ### The diff of two texts -/

namespace Layout

variable {os fs : List Text} {context : Nat} {rs : List Range}

/-- A hunk starts no later than where the old text ends: behind it every line is a difference, and
the line in front of a hunk is none. -/
lemma start_le_length
    (h : Layout context (max os.length fs.length) (differences os fs) rs) :
    ∀ r ∈ rs, r.start ≤ os.length := by
  intro r hr
  by_contra hbehind
  have hnonempty := h.nonempty r hr
  obtain ⟨hlt, -⟩ := (h.covers_iff r.start).1 ⟨r, hr, Nat.le_refl _, hnonempty⟩
  have hchange : r.start - 1 ∈ differences os fs := by
    rw [mem_differences, List.getElem?_eq_none (by omega),
      List.getElem?_eq_getElem (by omega)]
    nofun
  obtain ⟨r', hr', hstart, hstop⟩ := (h.covers_iff (r.start - 1)).2
    ⟨by omega, r.start - 1, hchange, by omega, by omega⟩
  obtain rfl | hapart | hapart := h.eq_or_apart hr hr' <;> omega

lemma patch_eq (h : Layout context (max os.length fs.length) (differences os fs) rs) :
    patch (rs.map (Hunk.ofRange os fs)) os = fs := by
  refine patch_ranges h.apart (fun r hr => Nat.le_of_lt (h.nonempty r hr)) h.start_le_length
    (k := 0) (by simp) fun i _ hne => ?_
  have hchange := mem_differences.2 hne
  exact (h.covers_iff i).2 ⟨lt_of_mem_differences hchange, i, hchange, by omega, by omega⟩

lemma eq_nil_iff_same
    (h : Layout context (max os.length fs.length) (differences os fs) rs) :
    rs = [] ↔ os = fs := by
  rw [h.eq_nil_iff fun _ => lt_of_mem_differences, List.eq_nil_iff_forall_not_mem,
    List.ext_getElem?_iff]
  simp [mem_differences]

lemma hunks_apart (h : Layout context (max os.length fs.length) (differences os fs) rs) :
    (rs.map (Hunk.ofRange os fs)).Pairwise
      fun k k' => k.start + k.oldCount ≤ k'.start := by
  refine List.pairwise_map.2 (h.apart.imp_of_mem fun {r r'} hr _ hlt => ?_)
  have hnonempty := h.nonempty r hr
  simp only [Hunk.ofRange]
  omega

end Layout

lemma exists_format {ε : Type} {old new : Text} (path : String) {context : Nat}
    (hlimit : context + max (lines old).length (lines new).length < offsetLimit) :
    ∃ text rs, (format old new path context : Outcome ε String) = .ok text ∧
      read? path text = some (rs.map (Hunk.ofRange (lines old) (lines new))) ∧
      Layout context (max (lines old).length (lines new).length)
        (differences (lines old) (lines new)) rs := by
  obtain ⟨rs, hhunks, hlayout⟩ := exists_hunks (ε := ε) hlimit
  refine ⟨_, rs, by rw [format, hhunks]; rfl, read?_render path fun h hh => ?_, hlayout⟩
  obtain ⟨r, -, rfl⟩ := List.mem_map.1 hh
  exact Hunk.matches_ofRange.lineFeed_not_mem (lineFeed_not_mem_lines old)
    (lineFeed_not_mem_lines new)

/-- **A printed diff is a patch.** Its hunks can be read off it; each shows the lines of either text
from its start on that its header counts; no two of them have old lines in common, and their new
lines in place of the old ones make the old text the new one. The diff is empty exactly when there
is nothing to change. -/
theorem format_reads_as_patch {ε : Type} (old new : Text) (path : String) (context : Nat)
    (hlimit : context + max (lines old).length (lines new).length < offsetLimit) :
    ∃ text hs, (format old new path context : Outcome ε String) = .ok text ∧
      read? path text = some hs ∧
      (∀ h ∈ hs, h.Matches (lines old) (lines new)) ∧
      hs.Pairwise (fun h h' => h.start + h.oldCount ≤ h'.start) ∧
      patch hs (lines old) = lines new ∧
      (text = "" ↔ lines old = lines new) := by
  obtain ⟨rs, hhunks, hlayout⟩ := exists_hunks (ε := ε) hlimit
  have hmatches : ∀ h ∈ rs.map (Hunk.ofRange (lines old) (lines new)),
      h.Matches (lines old) (lines new) := by
    intro h hh
    obtain ⟨r, -, rfl⟩ := List.mem_map.1 hh
    exact Hunk.matches_ofRange
  have hread := read?_render path fun h hh => (hmatches h hh).lineFeed_not_mem
    (lineFeed_not_mem_lines old) (lineFeed_not_mem_lines new)
  refine ⟨_, _, by rw [format, hhunks]; rfl, hread, hmatches, hlayout.hunks_apart,
    hlayout.patch_eq, ?_⟩
  rw [render_eq_empty_iff, List.map_eq_nil_iff, hlayout.eq_nil_iff_same]

/-- A diff with two hunks, the second of which goes on behind the end of the old text. -/
theorem format_reads_as_patch_uneven :
    1 + max (lines "a\nb\nc\nd\ne\nf".toList).length
        (lines "A\nb\nc\nd\ne\nf\ng\n".toList).length < offsetLimit ∧
      ∃ text hs,
        text = "--- a/m\n+++ b/m\n@@ -1,2 +1,2 @@\n-a\n+A\n b\n@@ -6,1 +6,2 @@\n f\n+g\n" ∧
        (format "a\nb\nc\nd\ne\nf".toList "A\nb\nc\nd\ne\nf\ng\n".toList "m" 1 : Checked String) =
          .ok text ∧
        read? "m" text = some hs ∧
        patch hs [['a'], ['b'], ['c'], ['d'], ['e'], ['f']] =
          [['A'], ['b'], ['c'], ['d'], ['e'], ['f'], ['g']] := by
  have hlimit : 1 + max (lines "a\nb\nc\nd\ne\nf".toList).length
      (lines "A\nb\nc\nd\ne\nf\ng\n".toList).length < offsetLimit := by decide +kernel
  obtain ⟨text, hs, hformat, hread, -, -, hpatch, -⟩ :=
    format_reads_as_patch (ε := Empty) _ _ "m" 1 hlimit
  refine ⟨hlimit, text, hs, Outcome.ok.inj (hformat.symm.trans ?_), hformat, hread, hpatch⟩
  decide +kernel

end BslLint.Diff
