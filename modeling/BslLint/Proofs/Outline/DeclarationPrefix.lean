import BslLint.Proofs.Outline.LinesAbove
import Mathlib.Data.List.Basic
import Mathlib.Data.List.Induction

/-!
What stands above a declaration is read completely. The lines above the line of the keyword end in a
longest run of marks, and the lines above these in a longest run of comments (`DeclarationPrefix`).
The method gets the directives and annotations of the marks from top to bottom, its declaration
starts at the first of them, and the comments are its documentation.
-/

namespace BslLint

namespace Outline

/-- The text before the keyword of a declaration is made up of other lines, the longest run of
comments directly above the marks, the longest run of marks directly above the keyword's line, and
the beginning of that line. -/
structure DeclarationPrefix (source : Text) (keyword : ℕ) (others comments marks : List Text)
    (beginning : Text) : Prop where
  text : Text.take? source keyword =
    some (joined (others ++ comments ++ marks) ++ beginning)
  lineFeed : ∀ l ∈ others ++ comments ++ marks, '\n' ∉ l
  lineFeed' : '\n' ∉ beginning
  mark : ∀ l ∈ marks, (Text.trim l).head? = some '&'
  aboveMarks : ∀ l ∈ (others ++ comments).getLast?, (Text.trim l).head? ≠ some '&'
  comment : ∀ l ∈ comments, ['/', '/'] <+: Text.trimStart l
  aboveComments : ∀ l ∈ others.getLast?, ¬['/', '/'] <+: Text.trimStart l

/-! ### Longest runs -/

lemma exists_run {α : Type} (p : α → Prop) (l : List α) :
    ∃ rest run, l = rest ++ run ∧ (∀ a ∈ run, p a) ∧ ∀ a ∈ rest.getLast?, ¬p a := by
  induction l using List.reverseRecOn with
  | nil => exact ⟨[], [], rfl, by simp, by simp⟩
  | append_singleton l a ih =>
    by_cases ha : p a
    · obtain ⟨rest, run, rfl, hrun, hrest⟩ := ih
      refine ⟨rest, run ++ [a], by simp, fun b hb => ?_, hrest⟩
      rcases List.mem_append.1 hb with hb | hb
      · exact hrun b hb
      · obtain rfl := List.mem_singleton.1 hb
        exact ha
    · exact ⟨l ++ [a], [], by simp, by simp, by simpa using ha⟩

lemma takeWhile_reverse {α : Type} {p : α → Bool} {rest run : List α}
    (hrun : ∀ a ∈ run, p a = true) (hrest : ∀ a ∈ rest.getLast?, p a ≠ true) :
    (rest ++ run).reverse.takeWhile p = run.reverse ∧
      (rest ++ run).reverse.dropWhile p = rest.reverse := by
  have hrun' : ∀ a ∈ run.reverse, p a = true := fun a ha => hrun a (List.mem_reverse.1 ha)
  rw [List.reverse_append, List.takeWhile_append_of_pos hrun', List.dropWhile_append_of_pos hrun']
  cases hlast : rest.reverse with
  | nil => simp
  | cons a before =>
    have ha : p a ≠ true := hrest a (by rw [← List.head?_reverse, hlast]; rfl)
    simp [ha]

lemma exists_declarationPrefix {source : Text} {keyword : ℕ}
    (h : Text.isBoundary source keyword = true) :
    ∃ others comments marks beginning,
      DeclarationPrefix source keyword others comments marks beginning := by
  obtain ⟨front, behind, rfl, rfl⟩ := Text.isBoundary_iff.1 h
  obtain ⟨ls, beginning, rfl, hls, hbeginning⟩ := exists_joined front
  obtain ⟨above, marks, rfl, hmarks, habove⟩ :=
    exists_run (fun l => (Text.trim l).head? = some '&') ls
  obtain ⟨others, comments, rfl, hcomments, hothers⟩ :=
    exists_run (fun l => ['/', '/'] <+: Text.trimStart l) above
  exact ⟨others, comments, marks, beginning, Text.take?_append _ _, hls, hbeginning, hmarks, habove,
    hcomments, hothers⟩

lemma text_mem_of_mem_linesAt {start : ℕ} {ls : List Text} {l : Line} (h : l ∈ linesAt start ls) :
    l.text ∈ ls := by
  have hmem := List.mem_map_of_mem (f := Line.text) h
  rwa [map_text_linesAt] at hmem

lemma exists_of_mem_getLast? {start : ℕ} {ls : List Text} {l : Line}
    (h : l ∈ ((linesAt start ls).map Line.cut).getLast?) :
    ∃ l' : Line, l = l'.cut ∧ l'.text ∈ ls.getLast? := by
  rw [List.getLast?_map] at h
  obtain ⟨l', hl', rfl⟩ := Option.map_eq_some_iff.1 h
  refine ⟨l', rfl, ?_⟩
  rw [← map_text_linesAt start ls, List.getLast?_map]
  exact Option.mem_map_of_mem Line.text hl'

namespace DeclarationPrefix

def commentLines (others comments : List Text) : List Line :=
  linesAt (Text.byteLength (joined others)) comments

def markLines (others comments marks : List Text) : List Line :=
  linesAt (Text.byteLength (joined (others ++ comments))) marks

variable {source : Text} {keyword : ℕ} {others comments marks : List Text} {beginning : Text}
  {above : List Line}

lemma linesAt_eq (others comments marks : List Text) :
    linesAt 0 (others ++ comments ++ marks) =
      linesAt 0 (others ++ comments) ++ markLines others comments marks ∧
    linesAt 0 (others ++ comments) = linesAt 0 others ++ commentLines others comments := by
  constructor
  · rw [linesAt_append, Nat.zero_add]
    rfl
  · rw [linesAt_append, Nat.zero_add]
    rfl

section Read

variable (h : DeclarationPrefix source keyword others comments marks beginning)

include h

lemma linesAbove_eq : linesAbove source keyword =
    .ok ((linesAt 0 (others ++ comments ++ marks)).map Line.cut).reverse :=
  Outline.linesAbove_eq h.text h.lineFeed h.lineFeed'

lemma isMark_of_mem {l : Line} (hl : l ∈ markLines others comments marks) : l.isMark = true :=
  Line.isMark_iff.2 (h.mark l.text (text_mem_of_mem_linesAt hl))

lemma isComment_of_mem {l : Line} (hl : l ∈ commentLines others comments) :
    l.isComment = true :=
  Line.isComment_iff.2 (h.comment l.text (text_mem_of_mem_linesAt hl))

lemma trim_ne_nil : ∀ l ∈ commentLines others comments ++ markLines others comments marks,
    Text.trim l.text ≠ [] :=
  List.forall_mem_append.2 ⟨fun _ hl => Line.trim_ne_nil_of_isComment (h.isComment_of_mem hl),
    fun _ hl => Line.trim_ne_nil_of_isMark (h.isMark_of_mem hl)⟩

lemma slice?_eq : ∀ l ∈ commentLines others comments ++ markLines others comments marks,
    Text.slice? source l.start (l.start + Text.byteLength l.text) = some l.text := by
  obtain ⟨behind, hsource, -⟩ := Text.take?_eq_some_iff.1 h.text
  rw [joined_append] at hsource
  have hcomments : source =
      joined others ++ joined comments ++ (joined marks ++ beginning ++ behind) := by
    simp [hsource, joined_append]
  have hmarks : source = joined (others ++ comments) ++ joined marks ++ (beginning ++ behind) := by
    simp [hsource]
  exact List.forall_mem_append.2 ⟨fun _ hl => slice?_of_mem_linesAt hcomments hl,
    fun _ hl => slice?_of_mem_linesAt hmarks hl⟩

variable (habove : linesAbove source keyword = .ok above)

include habove

lemma takeWhile_isMark :
    Outline.markLines above = ((markLines others comments marks).map Line.cut).reverse ∧
      above.dropWhile Line.isMark = ((linesAt 0 (others ++ comments)).map Line.cut).reverse := by
  obtain rfl := Outcome.ok.inj (habove.symm.trans h.linesAbove_eq)
  rw [(linesAt_eq others comments marks).1, List.map_append]
  refine takeWhile_reverse (fun l hl => ?_) fun l hl => ?_
  · obtain ⟨l, hmem, rfl⟩ := List.mem_map.1 hl
    rw [Line.isMark_cut]
    exact h.isMark_of_mem hmem
  · obtain ⟨l, rfl, hlast⟩ := exists_of_mem_getLast? hl
    rw [Line.isMark_cut]
    exact fun hmark => h.aboveMarks _ hlast (Line.isMark_iff.1 hmark)

lemma commentLines_eq :
    Outline.commentLines above = ((commentLines others comments).map Line.cut).reverse := by
  rw [Outline.commentLines, (h.takeWhile_isMark habove).2, (linesAt_eq others comments marks).2,
    List.map_append]
  refine (takeWhile_reverse (fun l hl => ?_) fun l hl => ?_).1
  · obtain ⟨l, hmem, rfl⟩ := List.mem_map.1 hl
    rw [Line.isComment_cut]
    exact h.isComment_of_mem hmem
  · obtain ⟨l, rfl, hlast⟩ := exists_of_mem_getLast? hl
    rw [Line.isComment_cut]
    exact fun hcomment => h.aboveComments _ hlast (Line.isComment_iff.1 hcomment)

lemma marksAbove_eq :
    marksAbove above = (markLines others comments marks).filterMap Mark.ofLine? := by
  rw [marksAbove, (h.takeWhile_isMark habove).1, List.reverse_reverse, List.filterMap_map]
  refine List.filterMap_congr fun l hl => ?_
  rw [Function.comp_apply, Line.ofLine?_cut (h.isMark_of_mem hl)]

lemma declarationStart_eq :
    declarationStart above keyword =
      ((markLines others comments marks).head?.map Line.lead).getD keyword := by
  rw [declarationStart, (h.takeWhile_isMark habove).1, List.getLast?_reverse, List.head?_map]
  cases hhead : (markLines others comments marks).head? with
  | none => rfl
  | some l =>
    have hmark := h.isMark_of_mem (List.mem_of_mem_head? hhead)
    exact Line.lead_cut (Line.trimStart_ne_nil (Line.trim_ne_nil_of_isMark hmark))

lemma docComment_eq_none (hnone : comments = []) : docComment above = none := by
  subst hnone
  have hlines := h.commentLines_eq habove
  rw [docComment, hlines]
  rfl

lemma docComment_eq_some {first last : Line} (hfirst : first ∈ (commentLines others comments).head?)
    (hlast : last ∈ (commentLines others comments).getLast?) :
    docComment above = some (Span.between first.lead last.trimmedStop) := by
  have hcomment := h.isComment_of_mem (List.mem_of_mem_head? hfirst)
  have hlines := h.commentLines_eq habove
  have hnear : (Outline.commentLines above).head? = some last.cut := by
    rw [hlines, List.head?_reverse, List.getLast?_map, hlast]
    rfl
  have hfar : (Outline.commentLines above).getLast? = some first.cut := by
    rw [hlines, List.getLast?_reverse, List.head?_map, hfirst]
    rfl
  have hlead := Line.lead_cut (Line.trimStart_ne_nil (Line.trim_ne_nil_of_isComment hcomment))
  rw [docComment, hnear, hfar]
  change some (Span.between first.cut.lead last.cut.trimmedStop) = _
  rw [hlead, Line.trimmedStop_cut]

lemma isSome_docComment_iff : (docComment above).isSome ↔ comments ≠ [] := by
  constructor
  · rintro hsome rfl
    rw [h.docComment_eq_none habove rfl] at hsome
    cases hsome
  · intro hcomments
    have hlines : commentLines others comments ≠ [] := by
      intro hnil
      have hmap := congrArg (List.map Line.text) hnil
      rw [commentLines, map_text_linesAt] at hmap
      exact hcomments hmap
    rw [h.docComment_eq_some habove (List.head?_eq_some_head hlines)
      (List.getLast?_eq_some_getLast hlines)]
    rfl

end Read

end DeclarationPrefix

lemma Mark.span_of_ofLine? {l : Line} {x : Annotation} (h : Mark.ofLine? l = some (.extending x)) :
    x.span = some ⟨l.lead, Text.byteLength (Text.trim l.text)⟩ := by
  simp only [Mark.ofLine?] at h
  split at h
  · cases h
  · obtain ⟨kind, -, hx⟩ := Option.map_eq_some_iff.1 h
    cases hx
    rfl

/-! ### Methods -/

lemma exists_linesAbove_of_readHead {source : Text} {cursor : ℕ} {keyword : Span}
    {head : MethodHead} (hkeyword : search source
      (spellings procedureWord ++ spellings functionWord) cursor = some keyword)
    (h : readHead source cursor = .ok head) :
    ∃ above, linesAbove source keyword.offset = .ok above ∧
      head.start = some (declarationStart above keyword.offset) ∧
      head.method.directives = (marksAbove above).filterMap Mark.directive? ∧
      head.method.annotations = (marksAbove above).filterMap Mark.extending? ∧
      head.method.docComment = docComment above := by
  simp only [readHead, hkeyword, Outcome.bind_eq_ok_iff] at h
  obtain ⟨_, -, _, -, h⟩ := h
  -- Both with parameters and without them the lines above are read last.
  split at h
  all_goals
    obtain ⟨_, -, h⟩ := Outcome.bind_eq_ok_iff.1 h
    obtain ⟨above, habove, h⟩ := Outcome.bind_eq_ok_iff.1 h
    cases h
    exact ⟨above, habove, rfl, rfl, rfl, rfl⟩

@[simp] lemma fst_seek (source : Text) (words : List Text) (cursor : ℕ) :
    (seek source words cursor).1 = search source words cursor := by
  unfold seek
  split
  · rename_i found hfound
    exact hfound.symm
  · rename_i hnone
    exact hnone.symm

lemma join_start (start : ℕ) (last : Option Span) :
    Span.join (some ⟨start, 0⟩) last = last.map fun last => .between start last.stop := by
  cases last <;> rfl

end Outline

open Outline Outline.DeclarationPrefix in
/-- **The lines above a declaration are read completely.** Whenever the keyword of a method is
found, the text before it is made up of a longest run of marks directly above the line of the
keyword, a longest run of comments directly above these, and other lines; and in any case a method
comes out. These lines stand in the text, each with its trimmed line from its first to behind its
last character that is no white space. The directives and annotations of the method are those of the
marks from top to bottom. A mark has at most one of either, and an annotation has the span of its
trimmed line. The declaration starts at the first character of the first mark that is no white
space, which is its `&`, and at the keyword without marks. There is a documentation comment exactly
if there are comments, and it goes from the slashes of the first of them to the last character of
the last of them that is no white space. -/
theorem ItemOutline.place_method_prefix (source : Text) (body : List StatementOutline)
    (cursor : ℕ) (keyword : Span) (hkeyword : search source
      (spellings procedureWord ++ spellings functionWord) cursor = some keyword) :
    (∃ others comments marks beginning,
      DeclarationPrefix source keyword.offset others comments marks beginning) ∧
    ∀ others comments marks beginning,
      DeclarationPrefix source keyword.offset others comments marks beginning →
      ∃ m c c' c'', (ItemOutline.method body).place source cursor = .ok (.method m, c'') ∧
        (∀ l ∈ commentLines others comments ++ markLines others comments marks,
          Text.slice? source l.start (l.start + Text.byteLength l.text) = some l.text ∧
            Text.slice? source l.lead l.trimmedStop = some (Text.trim l.text)) ∧
        m.directives = (markLines others comments marks).filterMap
          (fun l => (Mark.ofLine? l).bind Mark.directive?) ∧
        m.annotations = (markLines others comments marks).filterMap
          (fun l => (Mark.ofLine? l).bind Mark.extending?) ∧
        (∀ l ∈ markLines others comments marks, ∀ x, Mark.ofLine? l = some (.extending x) →
          x.span = some ⟨l.lead, Text.byteLength (Text.trim l.text)⟩) ∧
        StatementOutline.placeList source body c = .ok (m.statements, c') ∧
        m.span = (search source (spellings endProcedureWord ++ spellings endFunctionWord) c').map
          (fun last => .between
            (((markLines others comments marks).head?.map Line.lead).getD keyword.offset)
            last.stop) ∧
        (m.docComment.isSome ↔ comments ≠ []) ∧
        ∀ first ∈ (commentLines others comments).head?,
          ∀ last ∈ (commentLines others comments).getLast?,
            m.docComment = some (.between first.lead last.trimmedStop) := by
  obtain ⟨⟨_, _⟩, hcut, -⟩ := Option.bind_eq_some_iff.1 hkeyword
  have hcursor : Text.isBoundary source cursor = true := by rw [Text.isBoundary, hcut]; rfl
  have hon := (exists_of_search hkeyword).1
  refine ⟨exists_declarationPrefix hon.offset, fun others comments marks beginning h => ?_⟩
  obtain ⟨head, hhead, hplaced⟩ := Outcome.safe_checked_iff.1 (readHead_safe hcursor)
  obtain ⟨⟨statements, c⟩, hbody, -⟩ := Outcome.safe_checked_iff.1
    (StatementOutline.placeList_safe body hplaced.carried.advances.boundary)
  have hplace : (ItemOutline.method body).place source cursor =
      .ok (.method { head.method with
        statements
        span := Span.join (head.start.map fun pos => ⟨pos, 0⟩)
          (seek source (spellings endProcedureWord ++ spellings endFunctionWord) c).1 },
        (seek source (spellings endProcedureWord ++ spellings endFunctionWord) c).2) := by
    rw [ItemOutline.place, hhead, Outcome.ok_bind, hbody, Outcome.ok_bind]
    rfl
  obtain ⟨above, habove, hstart, hdirectives, hannotations, hdoc⟩ :=
    exists_linesAbove_of_readHead hkeyword hhead
  refine ⟨_, head.cursor, c, _, hplace, fun l hl => ?_, ?_, ?_, fun l _ x hx => ?_, hbody, ?_, ?_,
    fun first hfirst last hlast => ?_⟩
  · exact ⟨h.slice?_eq l hl, Line.slice?_trim (h.trim_ne_nil l hl) (h.slice?_eq l hl)⟩
  · simp only [hdirectives, h.marksAbove_eq habove, List.filterMap_filterMap]
  · simp only [hannotations, h.marksAbove_eq habove, List.filterMap_filterMap]
  · exact Mark.span_of_ofLine? hx
  · simp only [hstart, h.declarationStart_eq habove, Option.map_some, fst_seek, join_start]
  · simp only [hdoc]
    exact h.isSome_docComment_iff habove
  · simp only [hdoc]
    exact h.docComment_eq_some habove hfirst hlast

open Outline Outline.DeclarationPrefix in
/-- Indented marks and comments with carriage returns, below a comment that an empty line cuts
off. -/
theorem ItemOutline.place_method_prefix_indented :
    let others : List Text := ["// А\r".toList, "\r".toList]
    let comments : List Text := ["  // Б  \r".toList, "// В\r".toList]
    let marks : List Text := [" &НаСервере\r".toList, "\t&После(\"Г\")  \r".toList]
    let source : Text := joined (others ++ comments ++ marks) ++ "  ".toList ++
      "Процедура Д()\r\n".toList ++ "КонецПроцедуры".toList
    ∃ m c, (ItemOutline.method []).place source 71 = .ok (.method m, c) ∧
      m.directives = [.atServer] ∧
      m.annotations = [⟨.after, "Г".toList, some ⟨50, 17⟩⟩] ∧
      Text.slice? source 50 67 = some "&После(\"Г\")".toList ∧
      m.docComment = some (.between 11 25) ∧
      Text.slice? source 11 25 = some "// Б  \r\n// В".toList := by
  intro others comments marks source
  have hkeyword : search source (spellings procedureWord ++ spellings functionWord) 71 =
      some ⟨73, 18⟩ := by decide +kernel
  obtain ⟨-, hread⟩ := place_method_prefix source [] 71 ⟨73, 18⟩ hkeyword
  have hprefix : DeclarationPrefix source 73 others comments marks "  ".toList :=
    ⟨by decide +kernel, by decide +kernel, by decide, by decide +kernel, by decide +kernel,
      by decide +kernel, by decide +kernel⟩
  obtain ⟨m, _, _, c, hplace, -, hdirectives, hannotations, -, -, -, -, hdoc⟩ :=
    hread _ _ _ _ hprefix
  refine ⟨m, c, hplace, hdirectives.trans ?_, hannotations.trans ?_, by decide +kernel, ?_,
    by decide +kernel⟩
  · decide +kernel
  · decide +kernel
  · exact hdoc ⟨9, "  // Б  \r".toList⟩ (by decide +kernel) ⟨20, "// В\r".toList⟩
      (by decide +kernel)

end BslLint
