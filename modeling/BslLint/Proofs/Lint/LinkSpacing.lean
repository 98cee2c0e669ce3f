import BslLint.Lint.LinkSpacing
import BslLint.Proofs.Text.Slice
import Mathlib.Data.List.Basic

/-!
Where the issues of a comment lie: the range that is reported and the one that the edit replaces
are slices of the comment, whatever the comment reads.
-/

namespace BslLint.LinkSpacing

/-- The reported range is a slice of the comment, and so is the range of the edit. -/
structure Issue.Placed (comment : Text) (i : Issue) : Prop where
  range : ∃ m, Text.slice? comment i.offset (i.offset + i.length) = some m
  edit : ∃ m, Text.slice? comment i.edit.anchor i.edit.stop = some m

lemma exists_last (t : Text) :
    ∃ front last, t = front ++ last ∧ Text.byteLength last = lastSize t := by
  rcases List.eq_nil_or_concat t with rfl | ⟨front, c, rfl⟩
  · exact ⟨[], [], rfl, rfl⟩
  · exact ⟨front, [c], List.concat_eq_append .., by simp [lastSize]⟩

lemma placed_attached (front matched rest : Text) (c : Char) :
    Issue.Placed (front ++ matched ++ c :: rest)
      ⟨Text.byteLength front + Text.byteLength matched - lastSize matched,
        lastSize matched + c.utf8Size,
        Edit.insert (Text.byteLength front + Text.byteLength matched) [' ']⟩ := by
  obtain ⟨init, last, hmatched, hlast⟩ := exists_last matched
  have hlen : Text.byteLength matched = Text.byteLength init + lastSize matched := by
    rw [← hlast, ← Text.byteLength_append, ← hmatched]
  constructor
  · refine ⟨last ++ [c], Text.slice?_eq_some_iff.2 ⟨front ++ init, rest, ?_, ?_, ?_⟩⟩
    · rw [hmatched]
      simp
    · simp only [Text.byteLength_append, hlen]
      omega
    · simp [hlast]
  · refine ⟨[], Text.slice?_eq_some_iff.2 ⟨front ++ matched, c :: rest, by simp, ?_, ?_⟩⟩
    · simp [Edit.insert]
    · simp [Edit.insert, Edit.stop]

lemma placed_separated (front matched run after new : Text) :
    Issue.Placed (front ++ matched ++ (run ++ after))
      ⟨Text.byteLength front + Text.byteLength matched, Text.byteLength run,
        Edit.replace (Text.byteLength front + Text.byteLength matched)
          (Text.byteLength front + Text.byteLength matched + Text.byteLength run) new⟩ := by
  have hslice : Text.slice? (front ++ matched ++ (run ++ after))
      (Text.byteLength front + Text.byteLength matched)
      (Text.byteLength front + Text.byteLength matched + Text.byteLength run) = some run :=
    Text.slice?_eq_some_iff.2 ⟨front ++ matched, after, by simp, by simp, rfl⟩
  exact ⟨⟨run, hslice⟩, ⟨run, by simpa [Edit.replace, Edit.stop] using hslice⟩⟩

lemma placed_of_issueBehind {keyword : Keyword} {front matched tail : Text} {i : Issue}
    (h : issueBehind keyword matched (Text.byteLength front) tail = some i) :
    i.Placed (front ++ matched ++ tail) := by
  have htail : tail.takeWhile isSeparator ++ tail.dropWhile isSeparator = tail :=
    List.takeWhile_append_dropWhile
  unfold issueBehind at h
  dsimp only at h
  split at h
  · cases h
  · split at h
    · cases h
    · rename_i c rest hafter
      rw [← htail]
      split at h
      · rename_i hrun
        rw [List.isEmpty_iff.1 hrun, hafter]
        split at h
        · cases h
          exact placed_attached front matched rest c
        · cases h
      · split at h
        · cases h
          exact placed_separated front matched _ _ []
        · split at h
          · cases h
            exact placed_separated front matched _ _ [' ']
          · cases h

/-! ### The issues of a comment -/

lemma exists_of_issueAt {before : Option Char} {pos : Nat} {rest : Text} {i : Issue}
    (h : issueAt before pos rest = some i) :
    ∃ keyword matched tail, rest = matched ++ tail ∧
      issueBehind keyword matched pos tail = some i := by
  unfold issueAt at h
  split at h
  · cases h
  · rename_i keyword hfind
    split at h
    · cases h
    · exact ⟨keyword, _, _, (List.take_append_drop _ _).symm, h⟩

lemma exists_of_mem_issuesFrom (front : Text) {before : Option Char} {rest : Text} {i : Issue}
    (h : i ∈ issuesFrom before (Text.byteLength front) rest) :
    ∃ keyword a matched tail, front ++ rest = a ++ matched ++ tail ∧
      issueBehind keyword matched (Text.byteLength a) tail = some i := by
  induction rest generalizing before front with
  | nil => simp [issuesFrom] at h
  | cons c rest ih =>
    simp only [issuesFrom, List.mem_append, Option.mem_toList] at h
    rcases h with h | h
    · obtain ⟨keyword, matched, tail, hrest, hissue⟩ := exists_of_issueAt h
      exact ⟨keyword, front, matched, tail, by rw [hrest, List.append_assoc], hissue⟩
    · have hpos : Text.byteLength front + c.utf8Size = Text.byteLength (front ++ [c]) := by simp
      rw [hpos] at h
      simpa using ih _ h

lemma exists_of_mem_issues {comment : Text} {i : Issue} (h : i ∈ issues comment) :
    ∃ keyword a matched tail, comment = a ++ matched ++ tail ∧
      issueBehind keyword matched (Text.byteLength a) tail = some i :=
  exists_of_mem_issuesFrom [] h

/-- **The issues of a comment lie in the comment.** -/
theorem placed_of_mem_issues {comment : Text} {i : Issue} (h : i ∈ issues comment) :
    i.Placed comment := by
  obtain ⟨keyword, a, matched, tail, rfl, hissue⟩ := exists_of_mem_issues h
  exact placed_of_issueBehind hissue

/-! ### The scan by offsets -/

/-- At the end of a keyword the comment can be cut, and the link is judged by what stands there. -/
lemma linkAt_eq (keyword : Keyword) (front : Text) {matched : Text} (hmatched : matched ≠ [])
    (tail : Text) :
    linkAt keyword (front ++ matched ++ tail) (Text.byteLength (front ++ matched)) =
      .ok (issueBehind keyword matched (Text.byteLength front) tail) := by
  obtain ⟨init, d, rfl⟩ := (List.eq_nil_or_concat' matched).resolve_left hmatched
  have hstart : Text.byteLength (front ++ (init ++ [d])) =
      Text.byteLength front + Text.byteLength (init ++ [d]) := Text.byteLength_append ..
  have hdot : Text.byteLength (front ++ (init ++ [d])).dropLast =
      Text.byteLength front + Text.byteLength (init ++ [d]) - lastSize (init ++ [d]) := by
    rw [← List.append_assoc, List.dropLast_concat]
    simp [lastSize]
    omega
  have hle : lastSize (init ++ [d]) ≤ Text.byteLength (init ++ [d]) := by
    simp [lastSize]
  have hnext : ∀ size, Text.byteLength front + Text.byteLength (init ++ [d]) + size -
      (Text.byteLength front + Text.byteLength (init ++ [d]) - lastSize (init ++ [d])) =
        lastSize (init ++ [d]) + size := by
    omega
  have hempty : ∀ run : Text, Text.byteLength run = 0 ↔ run.isEmpty = true := fun run => by
    rw [Text.byteLength_eq_zero_iff, List.isEmpty_iff]
  have hbeq : ∀ run : Text, (Text.byteLength run == 0) = run.isEmpty := fun run => by
    rw [Bool.eq_iff_iff, beq_iff_eq, hempty]
  rw [linkAt, Text.cut_append, Outcome.ok_bind]
  dsimp only
  rw [Text.cut_lengthUntil, Outcome.ok_bind, Text.lengthUntil_eq]
  simp only [Bool.not_not, hdot, hstart, hnext, hempty, hbeq]
  unfold issueBehind
  dsimp only
  cases tail.dropWhile isSeparator with
  | nil => split_ifs <;> rfl
  | cons c after =>
    dsimp only [List.head?_cons]
    split_ifs <;> rfl

lemma ne_nil_of_mem_keywords {k : Keyword} (h : k ∈ keywords) : k.text ≠ [] := by
  simp only [keywords, List.mem_cons, List.not_mem_nil, or_false] at h
  rcases h with rfl | rfl
  · decide
  · decide

lemma take_ne_nil_of_startsWithFold {word rest : Text} (hword : word ≠ [])
    (h : startsWithFold word rest = true) : rest.take word.length ≠ [] := by
  cases word with
  | nil => exact absurd rfl hword
  | cons p word =>
    cases rest with
    | nil => cases h
    | cons c rest => exact List.cons_ne_nil _ _

/-- At a character the comment can be cut, and a keyword there has the issue of the recursion along
the comment. -/
lemma keywordAt_eq (front rest : Text) :
    keywordAt (front ++ rest) (Text.byteLength front) =
      .ok (issueAt front.getLast? (Text.byteLength front) rest) := by
  rw [keywordAt, Text.cut_append, Outcome.ok_bind]
  dsimp only
  unfold issueAt
  split
  · rfl
  case h_2 keyword hfind =>
    split
    · rfl
    · have hfold : startsWithFold keyword.text rest = true := by simpa using List.find?_some hfind
      have hmatched : rest.take keyword.text.length ≠ [] :=
        take_ne_nil_of_startsWithFold (ne_nil_of_mem_keywords (List.mem_of_find?_eq_some hfind))
          hfold
      have hstart : Text.byteLength front + Text.offsetOfIndex keyword.text.length rest =
          Text.byteLength (front ++ rest.take keyword.text.length) := by
        rw [Text.offsetOfIndex_eq, Text.byteLength_append]
      have hlink := linkAt_eq keyword front hmatched (rest.drop keyword.text.length)
      rwa [List.append_assoc, List.take_append_drop, ← hstart] at hlink

/-- **The scan never breaks off**, and it finds the issues of the comment. -/
theorem scan_eq (comment : Text) : scan comment = .ok (issues comment) := by
  have hscan : ∀ front rest, ∃ found,
      Outcome.mapList (keywordAt (front ++ rest)) (Text.offsetsFrom (Text.byteLength front) rest) =
        .ok found ∧ found.filterMap id =
          issuesFrom front.getLast? (Text.byteLength front) rest := by
    intro front rest
    induction rest generalizing front with
    | nil => exact ⟨[], rfl, rfl⟩
    | cons c rest ih =>
      obtain ⟨found, hfound, hissues⟩ := ih (front ++ [c])
      rw [List.append_assoc, List.singleton_append, Text.byteLength_append] at hfound
      refine ⟨issueAt front.getLast? (Text.byteLength front) (c :: rest) :: found, ?_, ?_⟩
      · have hnext : Text.byteLength [c] = c.utf8Size := by simp
        rw [Text.offsetsFrom, Outcome.mapList, keywordAt_eq, Outcome.ok_bind, ← hnext, hfound]
        rfl
      · rw [List.getLast?_append, Text.byteLength_append] at hissues
        rw [issuesFrom, List.filterMap_cons, hissues]
        cases issueAt front.getLast? (Text.byteLength front) (c :: rest) <;> simp
  obtain ⟨found, hfound, hissues⟩ := hscan [] comment
  rw [List.nil_append, Text.byteLength_nil] at hfound
  rw [scan, hfound, Outcome.ok_bind, hissues]
  rfl

/-! ### What the edits take away -/

/-- The edit stands in front of a character of the text, and it takes something away exactly if the
character is a separator. -/
def Mends (source : Text) (e : Edit) : Prop :=
  ∃ front c rest, source = front ++ c :: rest ∧ Text.byteLength front = e.anchor ∧
    (0 < e.length ↔ isSeparator c = true)

lemma Mends.length_pos_iff {source : Text} {d e : Edit} (hd : Mends source d) (he : Mends source e)
    (hanchor : d.anchor = e.anchor) : 0 < d.length ↔ 0 < e.length := by
  obtain ⟨a, c, rest, hsource, ha, hlength⟩ := hd
  obtain ⟨b, c', rest', hsource', hb, hlength'⟩ := he
  obtain ⟨m, rfl, hm⟩ := Text.exists_between (hsource.symm.trans hsource') (by omega)
  have hnil : m = [] := by
    rw [← Text.byteLength_eq_zero_iff]
    rw [Text.byteLength_append] at hb
    omega
  subst hnil
  obtain ⟨rfl, -⟩ := List.cons.inj hm
  rw [hlength, hlength']

lemma Mends.shift {source comment before after : Text} {e : Edit} (h : Mends comment e)
    (hsource : source = before ++ comment ++ after) :
    Mends source { e with anchor := Text.byteLength before + e.anchor } := by
  obtain ⟨a, c, rest, rfl, ha, hlength⟩ := h
  exact ⟨before ++ a, c, rest ++ after, by simp [hsource], by simp [ha], hlength⟩

lemma mends_separated (front matched new : Text) {tail : Text}
    (hrun : tail.takeWhile isSeparator ≠ []) :
    Mends (front ++ matched ++ tail)
      (Edit.replace (Text.byteLength front + Text.byteLength matched)
        (Text.byteLength front + Text.byteLength matched +
          Text.byteLength (tail.takeWhile isSeparator)) new) := by
  obtain ⟨c, run, hcons⟩ := List.exists_cons_of_ne_nil hrun
  have hc : isSeparator c = true := by
    have hall : (tail.takeWhile isSeparator).all isSeparator = true := List.all_takeWhile
    rw [hcons, List.all_cons, Bool.and_eq_true] at hall
    exact hall.1
  have htail : c :: (run ++ tail.dropWhile isSeparator) = tail := by
    rw [← List.cons_append, ← hcons, List.takeWhile_append_dropWhile]
  have hpos := c.utf8Size_pos
  refine ⟨front ++ matched, c, _, by rw [htail], Text.byteLength_append _ _, ?_⟩
  simp only [Edit.replace, hcons, Text.byteLength_cons, hc, iff_true]
  omega

lemma mends_of_issueBehind {keyword : Keyword} {front matched tail : Text} {i : Issue}
    (h : issueBehind keyword matched (Text.byteLength front) tail = some i) :
    Mends (front ++ matched ++ tail) i.edit := by
  unfold issueBehind at h
  dsimp only at h
  split at h
  · cases h
  · split at h
    · cases h
    · rename_i c rest hafter
      split at h
      · rename_i hempty
        have hc := List.head?_dropWhile_not isSeparator tail
        rw [hafter] at hc
        have htail : tail = c :: rest := by
          rw [← List.takeWhile_append_dropWhile (p := isSeparator) (l := tail), hafter,
            List.isEmpty_iff.1 hempty, List.nil_append]
        split at h
        · cases h
          exact ⟨front ++ matched, c, rest, by rw [htail], Text.byteLength_append _ _,
            by simpa [Edit.insert] using hc⟩
        · cases h
      · rename_i hempty
        have hrun : tail.takeWhile isSeparator ≠ [] := by simpa using hempty
        split at h
        · cases h
          exact mends_separated front matched [] hrun
        · split at h
          · cases h
            exact mends_separated front matched [' '] hrun
          · cases h

/-- **The edits of a comment** tell by the character in front of which they stand whether they take
something away. -/
lemma mends_of_mem_issues {comment : Text} {i : Issue} (h : i ∈ issues comment) :
    Mends comment i.edit := by
  obtain ⟨keyword, a, matched, tail, rfl, hissue⟩ := exists_of_mem_issues h
  exact mends_of_issueBehind hissue

end BslLint.LinkSpacing
